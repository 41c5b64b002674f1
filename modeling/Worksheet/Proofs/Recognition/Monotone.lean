import Mathlib.Algebra.Order.BigOperators.Group.List
import Mathlib.Data.Finset.SDiff
import Worksheet.Proofs.Exercise.FullMarks
import Worksheet.Proofs.Recognition.Verdicts

namespace Worksheet.Recognition

variable {r : Recognition} {q p : Question} {o : String}
  {response response' : OrderedMap (List String)}

def points (response : OrderedMap (List String)) (q : Question) : Rat :=
  (questionScore q (selectedFor response q)).exact

def exactMean (r : Recognition) (response : OrderedMap (List String)) : Rat :=
  (r.questions.map (points response)).sum / r.questions.length

structure Adds (q : Question) (o : String) (response response' : OrderedMap (List String)) :
    Prop where
  others : ∀ text, text ≠ q.question → response'.find? text = response.find? text
  selection_eq : selection response' q = insert o (selection response q)

structure NoWorse (r : Recognition) (q : Question) (response response' : OrderedMap (List String)) :
    Prop where
  points_le : points response q ≤ points response' q
  mean_le : r.exactMean response ≤ r.exactMean response'
  score_le : (r.grade response).score.exact ≤ (r.grade response').score.exact
  correct_le : (r.grade response).correct ≤ (r.grade response').correct

theorem points_eq (response : OrderedMap (List String)) (q : Question) :
    points response q = max 0 ((balance response q : Rat) / q.correctOptions.toFinset.card * 100) := by
  by_cases hne : q.correctOptions = []
  · simp [points, questionScore, hne, distinct, Score.zero, Score.exact]
  · rw [points, questionScore_eq response hne, Score.exact, Score.exact_percent, Score.exact,
      Int.cast_natCast]
    split
    · next hpos => exact (max_eq_right hpos.le).symm
    · next hneg => exact (max_eq_left (not_lt.mp hneg)).symm

theorem points_le_of_balance_le (h : balance response q ≤ balance response' q) :
    points response q ≤ points response' q := by
  have hcast : (balance response q : Rat) ≤ balance response' q := by exact_mod_cast h
  rw [points_eq, points_eq]
  gcongr

theorem exact_score (r : Recognition) (response : OrderedMap (List String)) :
    (r.grade response).score.exact = (r.exactMean response + 1 / 2).floor := by
  change (meanScore (r.questions.map (fun q => questionScore q (selectedFor response q)))).exact = _
  unfold meanScore
  split
  · next hempty =>
      have hnil : r.questions = [] := by simpa using hempty
      have hfloor : (1 / 2 : Rat).floor = 0 := by decide +kernel
      rw [exactMean, hnil, List.map_nil, List.sum_nil, zero_div, zero_add, hfloor]
      rfl
  · rw [Score.exact, Score.exact, Score.exact_total_eq_sum, Score.exact, List.map_map,
      List.length_map, Int.cast_natCast]
    rfl

theorem isFullyCorrect_selectedFor_iff :
    isFullyCorrect q (selectedFor response q) = true ↔
      selection response q = q.correctOptions.toFinset := by
  rw [isFullyCorrect_iff, Finset.ext_iff]
  simp only [mem_selection, List.mem_toFinset]

def select (response : OrderedMap (List String)) (q : Question) (o : String) :
    OrderedMap (List String) :=
  response.put q.question ((response.find? q.question).getD [] ++ [o])

theorem adds_select (response : OrderedMap (List String)) (q : Question) (o : String) :
    Adds q o response (select response q o) where
  others := by
    intro text hne
    rw [select, OrderedMap.find?_put, if_neg hne]
  selection_eq := by
    ext option
    simp [selection, select, OrderedMap.find?_put]

namespace Adds

variable (h : Adds q o response response')

include h

theorem selectedFor_eq (hp : p.question ≠ q.question) :
    selectedFor response' p = selectedFor response p := by
  rw [selectedFor, h.others p.question hp]
  rfl

theorem balance_le_of_mem (ho : o ∈ q.correctOptions) :
    balance response q ≤ balance response' q := by
  have hmem : o ∈ q.correctOptions.toFinset := List.mem_toFinset.mpr ho
  have hhits : (selection response q ∩ q.correctOptions.toFinset).card ≤
      (selection response' q ∩ q.correctOptions.toFinset).card := by
    rw [h.selection_eq]
    exact Finset.card_le_card (Finset.inter_subset_inter_right (Finset.subset_insert _ _))
  have hwrong : selection response' q \ q.correctOptions.toFinset =
      selection response q \ q.correctOptions.toFinset := by
    rw [h.selection_eq, Finset.insert_sdiff_of_mem _ hmem]
  have hmissed : q.correctOptions.countP (· ∉ selection response' q) ≤
      q.correctOptions.countP (· ∉ selection response q) := by
    refine List.countP_mono_left (fun option _ hout => ?_)
    simp only [h.selection_eq, Finset.mem_insert, not_or, decide_eq_true_eq] at hout ⊢
    exact hout.2
  rw [balance, balance, hwrong]
  omega

theorem balance_le_of_not_mem (ho : o ∉ q.correctOptions) :
    balance response' q ≤ balance response q := by
  have hnot : o ∉ q.correctOptions.toFinset := fun hmem => ho (List.mem_toFinset.mp hmem)
  have hhits : selection response' q ∩ q.correctOptions.toFinset =
      selection response q ∩ q.correctOptions.toFinset := by
    rw [h.selection_eq, Finset.insert_inter_of_notMem hnot]
  have hwrong : (selection response q \ q.correctOptions.toFinset).card ≤
      (selection response' q \ q.correctOptions.toFinset).card := by
    rw [h.selection_eq]
    exact Finset.card_le_card (Finset.sdiff_subset_sdiff (Finset.subset_insert _ _) le_rfl)
  have hmissed : q.correctOptions.countP (· ∉ selection response' q) =
      q.correctOptions.countP (· ∉ selection response q) := by
    refine List.countP_congr (fun option hoption => ?_)
    have hne : option ≠ o := fun heq => ho (heq ▸ hoption)
    simp [h.selection_eq, hne]
  rw [balance, balance, hhits, hmissed]
  omega

end Adds

theorem noWorse_of_balance_le (hq : q ∈ r.questions)
    (hsame : ∀ p ∈ r.questions, p ≠ q → selectedFor response' p = selectedFor response p)
    (hbalance : balance response q ≤ balance response' q)
    (hfull : selection response q = q.correctOptions.toFinset →
      selection response' q = q.correctOptions.toFinset) :
    NoWorse r q response response' := by
  have hpoints : ∀ p ∈ r.questions, points response p ≤ points response' p := by
    intro p hp
    by_cases heq : p = q
    · exact heq ▸ points_le_of_balance_le hbalance
    · rw [points, points, hsame p hp heq]
  have hmean : r.exactMean response ≤ r.exactMean response' :=
    div_le_div_of_nonneg_right (List.sum_le_sum hpoints) (Nat.cast_nonneg _)
  have hscore : (r.exactMean response + 1 / 2).floor ≤ (r.exactMean response' + 1 / 2).floor :=
    Rat.floor_monotone (by linarith)
  have hcorrect : ∀ p ∈ r.questions, isFullyCorrect p (selectedFor response p) = true →
      isFullyCorrect p (selectedFor response' p) = true := by
    intro p hp hfully
    by_cases heq : p = q
    · subst heq
      exact isFullyCorrect_selectedFor_iff.mpr (hfull (isFullyCorrect_selectedFor_iff.mp hfully))
    · rw [hsame p hp heq]
      exact hfully
  refine ⟨hpoints q hq, hmean, ?_, List.countP_mono_left hcorrect⟩
  rw [exact_score, exact_score]
  exact_mod_cast hscore

theorem grade_monotone {text : String} {preset : TablePreset}
    (hcheck : (Exercise.check .recognition text preset).ok = true)
    (hq : q ∈ (read text).1.questions) (hadds : Adds q o response response') :
    (o ∈ q.correctOptions → NoWorse (read text).1 q response response') ∧
      (o ∉ q.correctOptions → NoWorse (read text).1 q response' response) ∧
      ∀ p ∈ (read text).1.questions, p ≠ q →
        points response' p = points response p ∧
          (read text).1.verdictsOn response' p = (read text).1.verdictsOn response p := by
  have hdefects : (read text).1.defects = [] := by
    have hvalid := Exercise.validate_ok_of_check_ok hcheck
    rw [Exercise.read_recognition] at hvalid
    exact ErrorMap.isEmpty_ofProblems.mp hvalid
  obtain ⟨hnodup, -⟩ := questions_of_defects_eq_nil hdefects
  have hsame : ∀ p ∈ (read text).1.questions, p ≠ q →
      selectedFor response' p = selectedFor response p := by
    intro p hp hne
    exact hadds.selectedFor_eq fun htext => hne (List.inj_on_of_nodup_map hnodup hp hq htext)
  refine ⟨fun ho => ?_, fun ho => ?_, fun p hp hne => ⟨?_, ?_⟩⟩
  · refine noWorse_of_balance_le hq hsame (hadds.balance_le_of_mem ho) (fun hfull => ?_)
    rw [hadds.selection_eq, hfull]
    exact Finset.insert_eq_of_mem (List.mem_toFinset.mpr ho)
  · refine noWorse_of_balance_le hq (fun p hp hne => (hsame p hp hne).symm)
      (hadds.balance_le_of_not_mem ho) (fun hfull => ?_)
    have hmem : o ∈ q.correctOptions.toFinset := by
      rw [← hfull, hadds.selection_eq]
      exact Finset.mem_insert_self o _
    exact absurd (List.mem_toFinset.mp hmem) ho
  · rw [points, points, hsame p hp hne]
  · rw [verdictsOn_eq hnodup hp, verdictsOn_eq hnodup hp, hsame p hp hne]

def meadowText : String := "# Sky\n[blue] | [grey] | green;\n# Grass\n[green] | red;"

def meadowSky : Question := ⟨"Sky", ["blue", "grey"], ["blue", "grey", "green"]⟩

def meadowGrass : Question := ⟨"Grass", ["green"], ["green", "red"]⟩

def meadowAnswers : OrderedMap (List String) := .ofList [("Sky", ["green"]), ("Grass", ["green"])]

theorem grade_monotone_meadow :
    (Exercise.check .recognition meadowText .classification).ok = true ∧
      (read meadowText).1.questions = [meadowSky, meadowGrass] ∧
      NoWorse (read meadowText).1 meadowSky meadowAnswers (select meadowAnswers meadowSky "grey") ∧
      NoWorse (read meadowText).1 meadowSky (select meadowAnswers meadowSky "mauve")
        meadowAnswers ∧
      points (select meadowAnswers meadowSky "grey") meadowGrass =
        points meadowAnswers meadowGrass := by
  have hcheck : (Exercise.check .recognition meadowText .classification).ok = true := by
    decide +kernel
  have hquestions : (read meadowText).1.questions = [meadowSky, meadowGrass] := by decide +kernel
  have hsky : meadowSky ∈ (read meadowText).1.questions := by simp [hquestions]
  have hgrass : meadowGrass ∈ (read meadowText).1.questions := by simp [hquestions]
  obtain ⟨hright, -, hothers⟩ :=
    grade_monotone hcheck hsky (adds_select meadowAnswers meadowSky "grey")
  obtain ⟨-, hwrong, -⟩ :=
    grade_monotone hcheck hsky (adds_select meadowAnswers meadowSky "mauve")
  exact ⟨hcheck, hquestions, hright (by decide), hwrong (by decide),
    (hothers meadowGrass hgrass (by decide)).1⟩

end Worksheet.Recognition
