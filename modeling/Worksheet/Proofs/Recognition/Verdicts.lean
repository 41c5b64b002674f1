import Worksheet.Exercise.Basic
import Worksheet.Proofs.Recognition.Grading
import Worksheet.Proofs.Recognition.Validation

namespace Worksheet.Recognition

variable {r : Recognition} {q : Question} {response : OrderedMap (List String)}

def selection (response : OrderedMap (List String)) (q : Question) : Finset String :=
  ((response.find? q.question).getD []).toFinset

def verdictsOn (r : Recognition) (response : OrderedMap (List String)) (q : Question) :
    List ItemVerdict :=
  (r.grade response).verdicts.filter (·.category = some q.question)

def balance (response : OrderedMap (List String)) (q : Question) : Int :=
  (selection response q ∩ q.correctOptions.toFinset).card -
    (selection response q \ q.correctOptions.toFinset).card -
    q.correctOptions.countP (· ∉ selection response q)

theorem mem_selection {option : String} :
    option ∈ selection response q ↔ option ∈ selectedFor response q :=
  List.mem_toFinset.trans mem_selectedFor.symm

theorem category_of_mem_questionVerdicts {selected : List String} {v : ItemVerdict}
    (h : v ∈ questionVerdicts q selected) : v.category = some q.question := by
  rcases List.mem_append.mp h with h | h
  · obtain ⟨option, -, rfl⟩ := List.mem_map.mp h
    rfl
  · obtain ⟨option, -, rfl⟩ := List.mem_map.mp h
    rfl

theorem verdictsOn_eq (hn : (r.questions.map (·.question)).Nodup) (hq : q ∈ r.questions) :
    r.verdictsOn response q = questionVerdicts q (selectedFor response q) := by
  have hn' : (r.questions.map (fun q => some q.question)).Nodup := by
    simpa [Function.comp_def] using hn.map (Option.some_injective String)
  exact filter_flatMap_of_nodup (fun _ _ hv => category_of_mem_questionVerdicts hv) hn' hq

theorem countOf_correct_eq_card (response : OrderedMap (List String)) (q : Question) :
    countOf .correct (questionVerdicts q (selectedFor response q)) =
      (selection response q ∩ q.correctOptions.toFinset).card := by
  rw [countOf_correct_questionVerdicts]
  exact length_eq_card ((nodup_selectedFor response q).filter _) (by simp [mem_selection])

theorem countOf_wrong_eq_card (response : OrderedMap (List String)) (q : Question) :
    countOf .wrong (questionVerdicts q (selectedFor response q)) =
      (selection response q \ q.correctOptions.toFinset).card := by
  rw [countOf_wrong_questionVerdicts]
  exact length_eq_card ((nodup_selectedFor response q).filter _) (by simp [mem_selection])

theorem countOf_missed_eq_countP (response : OrderedMap (List String)) (q : Question) :
    countOf .missed (questionVerdicts q (selectedFor response q)) =
      q.correctOptions.countP (· ∉ selection response q) := by
  rw [countOf_missed_questionVerdicts, ← List.countP_eq_length_filter]
  simp [mem_selection]

theorem countP_eq_card_sdiff_iff {options : List String} {chosen : Finset String} :
    options.countP (· ∉ chosen) = (options.toFinset \ chosen).card ↔
      (options.filter (· ∉ chosen)).Nodup := by
  have hset : options.toFinset \ chosen = (options.filter (· ∉ chosen)).toFinset := by
    ext option
    simp
  rw [hset, List.countP_eq_length_filter, eq_comm]
  exact Multiset.toFinset_card_eq_card_iff_nodup

theorem questionScore_eq (response : OrderedMap (List String)) (hne : q.correctOptions ≠ []) :
    questionScore q (selectedFor response q) =
      .atLeastZero (.percent (.whole (balance response q)) q.correctOptions.toFinset.card) := by
  have hcard : (distinct q.correctOptions).length = q.correctOptions.toFinset.card :=
    length_eq_card (nodup_distinct q.correctOptions) (by simp [mem_distinct])
  have hpos : q.correctOptions.toFinset.card ≠ 0 := by simpa using hne
  rw [questionScore, hcard, if_neg hpos, countOf_correct_eq_card, countOf_wrong_eq_card,
    countOf_missed_eq_countP]
  rfl

theorem verdicts_counted {r : Recognition} {preset : TablePreset}
    (h : ((Exercise.recognition r).validate preset).ok = true)
    (response : OrderedMap (List String)) :
    (∀ q ∈ r.questions,
      countOf .correct (r.verdictsOn response q) =
          (selection response q ∩ q.correctOptions.toFinset).card ∧
        countOf .wrong (r.verdictsOn response q) =
          (selection response q \ q.correctOptions.toFinset).card ∧
        countOf .missed (r.verdictsOn response q) =
          q.correctOptions.countP (· ∉ selection response q) ∧
        (countOf .missed (r.verdictsOn response q) =
            (q.correctOptions.toFinset \ selection response q).card ↔
          (q.correctOptions.filter (· ∉ selection response q)).Nodup)) ∧
      (r.grade response).score = meanScore (r.questions.map (fun q =>
        .atLeastZero (.percent (.whole (balance response q)) q.correctOptions.toFinset.card))) := by
  have hdefects : r.defects = [] := ErrorMap.isEmpty_ofProblems.mp h
  obtain ⟨hnodup, hcorrect⟩ := questions_of_defects_eq_nil hdefects
  constructor
  · intro q hq
    rw [verdictsOn_eq hnodup hq, countOf_missed_eq_countP]
    exact ⟨countOf_correct_eq_card response q, countOf_wrong_eq_card response q, rfl,
      countP_eq_card_sdiff_iff⟩
  · have hscores : r.questions.map (fun q => questionScore q (selectedFor response q)) =
        r.questions.map (fun q => .atLeastZero
          (.percent (.whole (balance response q)) q.correctOptions.toFinset.card)) :=
      List.map_congr_left fun q hq => questionScore_eq response (hcorrect q hq)
    exact congrArg meanScore hscores

def sky : Question := ⟨"Sky", ["blue", "blue", "grey", "white"], ["blue", "grey", "white"]⟩

def grass : Question := ⟨"Grass", ["green"], ["green", "red"]⟩

def colours : Recognition := ⟨[sky, grass]⟩

def coloursPicked : OrderedMap (List String) :=
  .ofList [("Sky", ["grey", "white", "grey"]), ("Grass", ["red", "mauve"])]

theorem verdicts_counted_colours :
    ((Exercise.recognition colours).validate .classification).ok = true ∧
      countOf .correct (colours.verdictsOn coloursPicked sky) = 2 ∧
      countOf .missed (colours.verdictsOn coloursPicked sky) = 2 ∧
      countOf .wrong (colours.verdictsOn coloursPicked grass) = 2 ∧
      countOf .missed (colours.verdictsOn coloursPicked grass) =
        (grass.correctOptions.toFinset \ selection coloursPicked grass).card := by
  have hok : ((Exercise.recognition colours).validate .classification).ok = true := by
    decide
  obtain ⟨hcounts, -⟩ := verdicts_counted hok coloursPicked
  obtain ⟨hhits, -, htwice, -⟩ := hcounts sky (by decide)
  obtain ⟨-, hwrong, -, hset⟩ := hcounts grass (by decide)
  exact ⟨hok, hhits.trans (by decide), htwice.trans (by decide),
    hwrong.trans rfl, hset.mpr (by decide +kernel)⟩

theorem missed_more_than_left_out :
    ((Exercise.recognition colours).validate .classification).ok = true ∧
      sky ∈ colours.questions ∧
      countOf .missed (colours.verdictsOn coloursPicked sky) = 2 ∧
      (sky.correctOptions.toFinset \ selection coloursPicked sky).card = 1 ∧
      questionScore sky (selectedFor coloursPicked sky) = .atLeastZero (.percent (.whole 0) 3) := by
  decide

end Worksheet.Recognition
