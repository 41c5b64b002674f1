import Worksheet.Proofs.Grade
import Worksheet.Proofs.OrderedMap
import Worksheet.Recognition.Grading

namespace Worksheet.Recognition

open Score

variable {q : Question} {selected : List String}

theorem isFullyCorrect_iff :
    isFullyCorrect q selected = true ↔ ∀ option, option ∈ selected ↔ option ∈ q.correctOptions := by
  simp only [isFullyCorrect, Bool.and_eq_true, List.all_eq_true, decide_eq_true_eq]
  constructor
  · rintro ⟨hselected, hcorrect⟩ option
    exact ⟨hselected option, hcorrect option⟩
  · intro h
    exact ⟨fun option ho => (h option).mp ho, fun option ho => (h option).mpr ho⟩

theorem mem_selectedFor {response : OrderedMap (List String)} {option : String} :
    option ∈ selectedFor response q ↔ option ∈ (response.find? q.question).getD [] :=
  mem_distinct

theorem nodup_selectedFor (response : OrderedMap (List String)) (q : Question) :
    (selectedFor response q).Nodup :=
  nodup_distinct _

theorem correct_eq_total_iff {r : Recognition} {response : OrderedMap (List String)} :
    (r.grade response).correct = (r.grade response).total ↔
      ∀ q ∈ r.questions, ∀ option,
        option ∈ (response.find? q.question).getD [] ↔ option ∈ q.correctOptions := by
  refine List.countP_eq_length.trans ?_
  simp only [isFullyCorrect_iff, mem_selectedFor]

theorem countOf_questionVerdicts (verdict : Verdict) (q : Question) (selected : List String) :
    countOf verdict (questionVerdicts q selected) =
      selected.countP
        (fun option => (if option ∈ q.correctOptions then .correct else .wrong) = verdict) +
      (q.correctOptions.filter (· ∉ selected)).countP (fun _ => .missed = verdict) := by
  rw [questionVerdicts, countOf_append, countOf_map, countOf_map]

theorem countOf_correct_questionVerdicts (q : Question) (selected : List String) :
    countOf .correct (questionVerdicts q selected) =
      (selected.filter (· ∈ q.correctOptions)).length := by
  rw [countOf_questionVerdicts, ← List.countP_eq_length_filter]
  simp

theorem countOf_wrong_questionVerdicts (q : Question) (selected : List String) :
    countOf .wrong (questionVerdicts q selected) =
      (selected.filter (· ∉ q.correctOptions)).length := by
  rw [countOf_questionVerdicts, ← List.countP_eq_length_filter]
  simp

theorem countOf_missed_questionVerdicts (q : Question) (selected : List String) :
    countOf .missed (questionVerdicts q selected) =
      (q.correctOptions.filter (· ∉ selected)).length := by
  have hselected : ∀ option : String,
      (if option ∈ q.correctOptions then Verdict.correct else .wrong) ≠ .missed := by
    intro option
    split <;> decide
  rw [countOf_questionVerdicts]
  simp [hselected]

theorem countOf_correct_le (hn : selected.Nodup) :
    countOf .correct (questionVerdicts q selected) ≤ (distinct q.correctOptions).length := by
  rw [countOf_correct_questionVerdicts]
  have hnodup : (selected.filter (· ∈ q.correctOptions)).Nodup := hn.sublist List.filter_sublist
  have hsubset : selected.filter (· ∈ q.correctOptions) ⊆ distinct q.correctOptions := by
    intro option ho
    exact mem_distinct.mpr (of_decide_eq_true (List.mem_filter.mp ho).2)
  exact (List.subperm_of_subset hnodup hsubset).length_le

theorem inRange_questionScore (hn : selected.Nodup) : (questionScore q selected).InRange := by
  have hle := countOf_correct_le (q := q) hn
  unfold questionScore
  dsimp only
  split
  · exact inRange_zero
  · apply inRange_atLeastZero
    apply exact_percent_le
    rw [exact]
    -- Points lost for wrong and missed options only lower the count of the right ones.
    have hraw : (countOf .correct (questionVerdicts q selected) : Int) -
        countOf .wrong (questionVerdicts q selected) -
        countOf .missed (questionVerdicts q selected) ≤ (distinct q.correctOptions).length := by
      omega
    exact_mod_cast hraw

theorem inRange_grade {r : Recognition} {response : OrderedMap (List String)} :
    (r.grade response).InRange := by
  change (meanScore (r.questions.map
    (fun q => questionScore q (selectedFor response q)))).InRange
  unfold meanScore
  split
  · exact inRange_zero
  · apply inRange_rounded
    apply inRange_mean
    intro s hs
    obtain ⟨q, -, rfl⟩ := List.mem_map.mp hs
    exact inRange_questionScore (nodup_selectedFor response q)

theorem bounded_grade {r : Recognition} {response : OrderedMap (List String)} :
    (r.grade response).Bounded :=
  ⟨List.countP_le_length, inRange_grade⟩

end Worksheet.Recognition
