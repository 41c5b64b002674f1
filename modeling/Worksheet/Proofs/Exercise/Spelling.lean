import Worksheet.Proofs.Classification.Grading
import Worksheet.Proofs.Recognition.Grading
import Worksheet.Proofs.Table.Verdicts
import Worksheet.Proofs.Text.Label

namespace Worksheet

inductive Respelled : String → String → Prop
  | same (label : String) : Respelled label label
  | normal (label : String) : Respelled label (normalizeLabel label)

theorem Respelled.normalizeLabel_eq {label other : String} (h : Respelled label other) :
    normalizeLabel other = normalizeLabel label := by
  cases h with
  | same => rfl
  | normal => exact normalizeLabel_normalizeLabel label

theorem map_normalizeLabel_of_respelled {labels others : List String}
    (h : List.Forall₂ Respelled labels others) :
    others.map normalizeLabel = labels.map normalizeLabel := by
  induction h with
  | nil => rfl
  | cons hlabel _ ih => rw [List.map_cons, List.map_cons, hlabel.normalizeLabel_eq, ih]

namespace Classification

inductive PlacementRespelled : Option String → Option String → Prop
  | same (label : Option String) : PlacementRespelled label label
  | normal {label : String} (h : Text.isBlank label = false) :
      PlacementRespelled (some label) (some (normalizeLabel label))

variable {response other : OrderedMap (Option String)}

theorem PlacementRespelled.names_iff {placement respelled : Option String}
    (h : PlacementRespelled placement respelled) (label : String) :
    (∃ chosen, respelled = some chosen ∧ chosen ≠ "" ∧ normalizeLabel chosen = label) ↔
      ∃ chosen, placement = some chosen ∧ chosen ≠ "" ∧ normalizeLabel chosen = label := by
  cases h with
  | same => exact Iff.rfl
  | @normal chosen hblank =>
      have hnormal : normalizeLabel chosen ≠ "" := by
        rw [ne_eq, normalizeLabel_eq_empty_iff, hblank]
        exact Bool.false_ne_true
      have hchosen : chosen ≠ "" := by
        rintro rfl
        cases hblank
      simp only [Option.some.injEq, exists_eq_left', normalizeLabel_normalizeLabel, hnormal,
        hchosen, ne_eq, not_false_eq_true, true_and]

theorem isPlaced_iff_of_respelled (h : response.Rearranged PlacementRespelled other)
    (item label : String) : IsPlaced other item label ↔ IsPlaced response item label := by
  unfold IsPlaced
  rcases h.find?_cases item with ⟨hnone, hnone'⟩ | ⟨placement, respelled, hfind, hfind', hrespelled⟩
  · rw [hnone, hnone']
  · simp only [hfind, hfind', Option.some.injEq]
    exact hrespelled.names_iff label

theorem find?_placed_of_respelled (h : response.Rearranged PlacementRespelled other)
    (item : String) : (placed other).find? item = (placed response).find? item := by
  ext label
  rw [find?_placed, find?_placed, isPlaced_iff_of_respelled h]

theorem grade_of_respelled (categories : List Category) (distractors : List String)
    (h : response.Rearranged PlacementRespelled other) :
    grade categories other distractors =
      { grade categories response distractors with response := .placements other } := by
  have hunits : unitVerdicts (placed other) categories = unitVerdicts (placed response) categories := by
    simp only [unitVerdicts, unitVerdict, find?_placed_of_respelled h]
  have hdistractors : distractorVerdicts (placed other) distractors =
      distractorVerdicts (placed response) distractors := by
    simp only [distractorVerdicts, find?_placed_of_respelled h]
  simp only [grade_eq, hunits, hdistractors]

end Classification

namespace Table

def ColumnsRespelled (row other : RowValues) : Prop :=
  List.Forall₂ Respelled row.selected other.selected

def ColumnsReselected (row other : RowValues) : Prop :=
  ∃ selected, List.Forall₂ Respelled row.selected selected ∧
    ∀ col, col ∈ other.selected ↔ col ∈ selected

variable {completion other : Completion}

theorem selectedIn_of_respelled (h : completion.Rearranged ColumnsRespelled other) (row : String) :
    selectedIn other row = selectedIn completion row := by
  unfold selectedIn
  rcases h.find?_cases row with ⟨hnone, hnone'⟩ | ⟨values, respelled, hfind, hfind', hrow⟩
  · rw [hnone, hnone']
  · rw [hfind, hfind']
    exact map_normalizeLabel_of_respelled hrow

theorem mem_selectedIn_of_reselected (h : completion.Rearranged ColumnsReselected other)
    (row col : String) : col ∈ selectedIn other row ↔ col ∈ selectedIn completion row := by
  unfold selectedIn
  rcases h.find?_cases row with
    ⟨hnone, hnone'⟩ | ⟨values, reselected, hfind, hfind', selected, hspelled, hmem⟩
  · rw [hnone, hnone']
  · simp only [hfind, hfind', ← map_normalizeLabel_of_respelled hspelled, List.mem_map, hmem]

theorem gradeRows_of_respelled (answerKey : OrderedMap (List String)) (rows : List String)
    (h : completion.Rearranged ColumnsRespelled other) :
    gradeRows answerKey other rows =
      { gradeRows answerKey completion rows with response := .completion other } := by
  simp only [gradeRows_eq, selectedIn_of_respelled h]

theorem gradeCells_of_reselected (answerKey : OrderedMap (List String)) (rows cols : List String)
    (disabled : DisabledCells) (h : completion.Rearranged ColumnsReselected other) :
    gradeCells answerKey other rows cols disabled =
      { gradeCells answerKey completion rows cols disabled with response := .completion other } := by
  have hcells : cellVerdicts answerKey other disabled cols =
      cellVerdicts answerKey completion disabled cols := by
    funext row
    simp only [cellVerdicts, mem_selectedIn_of_reselected h]
  simp only [gradeCells_eq, hcells]

end Table

namespace Recognition

def OptionsReselected (selected other : List String) : Prop :=
  ∀ option, option ∈ other ↔ option ∈ selected

variable {response other : OrderedMap (List String)} {q : Question}

theorem mem_selectedFor_of_reselected (h : response.Rearranged OptionsReselected other)
    (option : String) : option ∈ selectedFor other q ↔ option ∈ selectedFor response q := by
  rw [mem_selectedFor, mem_selectedFor]
  rcases h.find?_cases q.question with ⟨hnone, hnone'⟩ | ⟨selected, others, hfind, hfind', hmem⟩
  · rw [hnone, hnone']
  · rw [hfind, hfind']
    exact hmem option

theorem perm_selectedFor (h : response.Rearranged OptionsReselected other) :
    (selectedFor other q).Perm (selectedFor response q) :=
  (List.perm_ext_iff_of_nodup (nodup_selectedFor other q) (nodup_selectedFor response q)).mpr
    (mem_selectedFor_of_reselected h)

section Perm

variable {selected others : List String}

theorem perm_questionVerdicts (h : others.Perm selected) :
    (questionVerdicts q others).Perm (questionVerdicts q selected) := by
  have hmissed : q.correctOptions.filter (· ∉ others) = q.correctOptions.filter (· ∉ selected) :=
    List.filter_congr (fun option _ => by simp only [h.mem_iff])
  rw [questionVerdicts, questionVerdicts, hmissed]
  exact (h.map _).append_right _

theorem questionScore_perm (h : others.Perm selected) :
    questionScore q others = questionScore q selected := by
  have hcount : ∀ verdict, countOf verdict (questionVerdicts q others) =
      countOf verdict (questionVerdicts q selected) :=
    fun verdict => (perm_questionVerdicts h).countP_eq _
  simp only [questionScore, hcount]

theorem isFullyCorrect_perm (h : others.Perm selected) :
    isFullyCorrect q others = isFullyCorrect q selected := by
  rw [Bool.eq_iff_iff, isFullyCorrect_iff, isFullyCorrect_iff]
  simp only [h.mem_iff]

end Perm

theorem grade_of_reselected (r : Recognition) (h : response.Rearranged OptionsReselected other) :
    (r.grade other).score = (r.grade response).score ∧
      (r.grade other).correct = (r.grade response).correct ∧
      (r.grade other).verdicts.Perm (r.grade response).verdicts := by
  refine ⟨?_, ?_, ?_⟩
  · simp only [grade, questionScore_perm (perm_selectedFor h)]
  · simp only [grade, isFullyCorrect_perm (perm_selectedFor h)]
  · exact List.Perm.flatMap_left _ (fun q _ => perm_questionVerdicts (perm_selectedFor h))

end Recognition

theorem grades_respelled :
    (∀ label, normalizeLabel (normalizeLabel label) = normalizeLabel label) ∧
      (∀ categories distractors response other,
        response.Rearranged Classification.PlacementRespelled other →
          Classification.grade categories other distractors =
            { Classification.grade categories response distractors with
                response := .placements other }) ∧
      (∀ answerKey rows completion other, completion.Rearranged Table.ColumnsRespelled other →
        Table.gradeRows answerKey other rows =
          { Table.gradeRows answerKey completion rows with response := .completion other }) ∧
      (∀ answerKey rows cols disabled completion other,
        completion.Rearranged Table.ColumnsReselected other →
          Table.gradeCells answerKey other rows cols disabled =
            { Table.gradeCells answerKey completion rows cols disabled with
                response := .completion other }) ∧
      ∀ (r : Recognition) response other, response.Rearranged Recognition.OptionsReselected other →
        (r.grade other).score = (r.grade response).score ∧
          (r.grade other).correct = (r.grade response).correct ∧
          (r.grade other).verdicts.Perm (r.grade response).verdicts :=
  ⟨normalizeLabel_normalizeLabel,
    fun categories distractors _ _ => Classification.grade_of_respelled categories distractors,
    fun answerKey rows _ _ => Table.gradeRows_of_respelled answerKey rows,
    fun answerKey rows cols disabled _ _ =>
      Table.gradeCells_of_reselected answerKey rows cols disabled,
    fun r _ _ => r.grade_of_reselected⟩

def strewn : OrderedMap (Option String) :=
  .ofList [("fig", some " FRUIT"), ("oak", some "tree"), ("elm", none)]

def gathered : OrderedMap (Option String) :=
  .ofList [("elm", none), ("fig", some "fruit"), ("oak", some "tree")]

def ticked : Completion :=
  .ofList [("fig", ⟨[" FRUIT"], ∅⟩), ("oak", ⟨["tree", " FRUIT"], ∅⟩)]

def tickedAgain : Completion :=
  .ofList [("oak", ⟨["fruit", "tree", "fruit"], ∅⟩), ("fig", ⟨["fruit"], ∅⟩)]

def tickedAlone : Completion :=
  .ofList [("oak", ⟨["tree", "fruit"], ∅⟩), ("fig", ⟨["fruit"], ∅⟩)]

def picked : OrderedMap (List String) := .ofList [("Sky?", ["blue", "green"])]

def pickedTwice : OrderedMap (List String) := .ofList [("Sky?", ["green", "blue", "green"])]

theorem grades_respelled_harvest :
    (Classification.grade [⟨"fruit", "Fruit", ["fig", "oak"]⟩] gathered ["elm"]).verdicts =
        (Classification.grade [⟨"fruit", "Fruit", ["fig", "oak"]⟩] strewn ["elm"]).verdicts ∧
      (Table.gradeRows (.ofList [("fruit", ["fig"])]) tickedAlone ["fig", "oak"]).correct =
        (Table.gradeRows (.ofList [("fruit", ["fig"])]) ticked ["fig", "oak"]).correct ∧
      (Table.gradeCells (.ofList [("fruit", ["fig"])]) tickedAgain ["fig", "oak"] ["fruit", "tree"]
          (fun _ _ => false)).verdicts =
        (Table.gradeCells (.ofList [("fruit", ["fig"])]) ticked ["fig", "oak"] ["fruit", "tree"]
          (fun _ _ => false)).verdicts ∧
      (Recognition.grade ⟨[⟨"Sky?", ["blue"], ["blue", "green"]⟩]⟩ pickedTwice).score =
        (Recognition.grade ⟨[⟨"Sky?", ["blue"], ["blue", "green"]⟩]⟩ picked).score := by
  have hnormal : normalizeLabel " FRUIT" = "fruit" := by decide
  have hfruit : Respelled " FRUIT" "fruit" := hnormal ▸ .normal " FRUIT"
  have hplaced : Classification.PlacementRespelled (some " FRUIT") (some "fruit") :=
    hnormal ▸ .normal (by decide)
  have hstrewn : strewn.Rearranged Classification.PlacementRespelled gathered :=
    ⟨[("elm", none), ("fig", some " FRUIT"), ("oak", some "tree")], by decide,
      .cons ⟨rfl, .same _⟩ (.cons ⟨rfl, hplaced⟩ (.cons ⟨rfl, .same _⟩ .nil))⟩
  have halone : ticked.Rearranged Table.ColumnsRespelled tickedAlone :=
    ⟨[("oak", ⟨["tree", " FRUIT"], ∅⟩), ("fig", ⟨[" FRUIT"], ∅⟩)], .swap _ _ [],
      .cons ⟨rfl, .cons (.same _) (.cons hfruit .nil)⟩ (.cons ⟨rfl, .cons hfruit .nil⟩ .nil)⟩
  have hagain : ticked.Rearranged Table.ColumnsReselected tickedAgain :=
    ⟨[("oak", ⟨["tree", " FRUIT"], ∅⟩), ("fig", ⟨[" FRUIT"], ∅⟩)], .swap _ _ [],
      .cons ⟨rfl, ["tree", "fruit"], .cons (.same _) (.cons hfruit .nil), by simp [or_comm]⟩
        (.cons ⟨rfl, ["fruit"], .cons hfruit .nil, fun _ => Iff.rfl⟩ .nil)⟩
  have hpicked : picked.Rearranged Recognition.OptionsReselected pickedTwice :=
    ⟨[("Sky?", ["blue", "green"])], .refl _, .cons ⟨rfl, by simp [Recognition.OptionsReselected]⟩ .nil⟩
  obtain ⟨-, hclassification, hrows, hcells, hquiz⟩ := grades_respelled
  refine ⟨?_, ?_, ?_, ?_⟩
  · rw [hclassification _ _ _ _ hstrewn]
  · rw [hrows _ _ _ _ halone]
  · rw [hcells _ _ _ _ _ _ hagain]
  · exact (hquiz _ _ _ hpicked).1

end Worksheet
