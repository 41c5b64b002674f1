import Worksheet.Classification.Grading
import Worksheet.Proofs.Grade
import Worksheet.Proofs.OrderedMap

namespace Worksheet.Classification

open OrderedMap

def IsPlaced (response : OrderedMap (Option String)) (item label : String) : Prop :=
  ∃ chosen, response.find? item = some (some chosen) ∧ chosen ≠ "" ∧ normalizeLabel chosen = label

theorem mem_placements {response : OrderedMap (Option String)} {item label : String} :
    (item, label) ∈ response.entries.filterMap (fun e =>
        (e.2.filter (· ≠ "")).map (fun chosen => (e.1, normalizeLabel chosen))) ↔
      IsPlaced response item label := by
  simp only [List.mem_filterMap, Option.map_eq_some_iff, Option.filter_eq_some_iff, Prod.mk.injEq,
    decide_eq_true_eq]
  constructor
  · rintro ⟨⟨key, value⟩, he, chosen, ⟨hvalue, hne⟩, rfl, hlabel⟩
    have hvalue' : value = some chosen := hvalue
    subst hvalue'
    exact ⟨chosen, find?_eq_some_iff.mpr he, hne, hlabel⟩
  · rintro ⟨chosen, hfind, hne, hlabel⟩
    exact ⟨(item, some chosen), find?_eq_some_iff.mp hfind, chosen, ⟨rfl, hne⟩, rfl, hlabel⟩

theorem nodup_keys_placements (response : OrderedMap (Option String)) :
    ((response.entries.filterMap (fun e =>
      (e.2.filter (· ≠ "")).map (fun chosen => (e.1, normalizeLabel chosen)))).map
        Prod.fst).Nodup := by
  rw [List.Nodup, List.pairwise_map, List.pairwise_filterMap]
  refine (List.pairwise_map.mp response.nodup).imp ?_
  intro e e' hne p hp p' hp'
  obtain ⟨-, -, rfl⟩ := Option.map_eq_some_iff.mp hp
  obtain ⟨-, -, rfl⟩ := Option.map_eq_some_iff.mp hp'
  exact hne

theorem find?_placed {response : OrderedMap (Option String)} {item label : String} :
    (placed response).find? item = some label ↔ IsPlaced response item label := by
  rw [find?_eq_some_iff, placed, entries_ofList (nodup_keys_placements response)]
  exact mem_placements

def unitVerdict (placed : OrderedMap String) (label item : String) : Verdict :=
  match placed.find? item with
  | none => .missed
  | some chosen => if chosen = normalizeLabel label then .correct else .wrong

def unitVerdicts (placed : OrderedMap String) (categories : List Category) : List ItemVerdict :=
  categories.flatMap (fun category => category.items.map (fun item =>
    ⟨item, some category.label, unitVerdict placed category.label item⟩))

def distractorVerdicts (placed : OrderedMap String) (distractors : List String) :
    List ItemVerdict :=
  distractors.filterMap (fun item =>
    (placed.find? item).map (fun chosen => ⟨item, some chosen, .wrong⟩))

section Tally

variable (placed : OrderedMap String)

theorem countUnit_eq (label : String) (t : UnitTally) (item : String) :
    countUnit placed label t item =
      t.including [⟨item, some label, unitVerdict placed label item⟩] := by
  rw [countUnit, unitVerdict]
  cases placed.find? item with
  | none => simp [UnitTally.including, countOf]
  | some chosen =>
      by_cases h : chosen = normalizeLabel label <;> simp [UnitTally.including, countOf, h]

theorem countUnits_eq (t : UnitTally) (category : Category) :
    countUnits placed t category = t.including (category.items.map (fun item =>
      ⟨item, some category.label, unitVerdict placed category.label item⟩)) := by
  rw [countUnits, UnitTally.foldl_eq_including (countUnit_eq placed category.label),
    List.map_eq_flatMap]

theorem noteDistractors_eq (verdicts : Array ItemVerdict) (distractors : List String) :
    distractors.foldl (noteDistractor placed) verdicts =
      verdicts ++ (distractorVerdicts placed distractors).toArray := by
  rw [distractorVerdicts, List.filterMap_eq_flatMap_toList]
  refine foldl_push_eq (fun verdicts item => ?_) verdicts distractors
  rw [noteDistractor]
  cases placed.find? item <;> simp

theorem grade_eq (categories : List Category) (response : OrderedMap (Option String))
    (distractors : List String) :
    grade categories response distractors =
      let placed := Classification.placed response
      let units := unitVerdicts placed categories
      { score := .share (countOf .correct units) units.length
        correct := countOf .correct units
        total := units.length
        key := .members (.ofList (categories.map (fun c => (c.label, c.items))))
        response := .placements response
        verdicts := units ++ distractorVerdicts placed distractors } := by
  rw [grade, UnitTally.foldl_eq_including (countUnits_eq _), noteDistractors_eq]
  simp [UnitTally.including, unitVerdicts]

end Tally

theorem unitVerdict_eq_correct {placed : OrderedMap String} {label item : String} :
    unitVerdict placed label item = .correct ↔
      placed.find? item = some (normalizeLabel label) := by
  unfold unitVerdict
  cases placed.find? item with
  | none => simp
  | some chosen => by_cases h : chosen = normalizeLabel label <;> simp [h]

variable {categories : List Category} {response : OrderedMap (Option String)}
  {distractors : List String}

theorem mem_unitVerdicts {placed : OrderedMap String} {v : ItemVerdict} :
    v ∈ unitVerdicts placed categories ↔
      ∃ c ∈ categories, ∃ item ∈ c.items,
        ⟨item, some c.label, unitVerdict placed c.label item⟩ = v := by
  simp [unitVerdicts]

theorem total_pos {c : Category} (hc : c ∈ categories) (h : c.items ≠ []) :
    0 < (grade categories response distractors).total := by
  rw [grade_eq]
  obtain ⟨item, hi⟩ := List.exists_mem_of_ne_nil _ h
  exact List.length_pos_of_mem (mem_unitVerdicts.mpr ⟨c, hc, item, hi, rfl⟩)

theorem correct_eq_total_iff :
    (grade categories response distractors).correct =
        (grade categories response distractors).total ↔
      ∀ c ∈ categories, ∀ item ∈ c.items, IsPlaced response item (normalizeLabel c.label) := by
  rw [grade_eq, countOf_eq_length_iff]
  constructor
  · intro h c hc item hi
    have hunit := h _ (mem_unitVerdicts.mpr ⟨c, hc, item, hi, rfl⟩)
    exact find?_placed.mp (unitVerdict_eq_correct.mp hunit)
  · intro h v hv
    obtain ⟨c, hc, item, hi, rfl⟩ := mem_unitVerdicts.mp hv
    exact unitVerdict_eq_correct.mpr (find?_placed.mpr (h c hc item hi))

theorem inRange_grade : (grade categories response distractors).InRange := by
  rw [grade_eq]
  exact Grade.inRange_of_share rfl countOf_le_length

theorem bounded_grade : (grade categories response distractors).Bounded := by
  refine ⟨?_, inRange_grade⟩
  rw [grade_eq]
  exact countOf_le_length

theorem isTallied_grade : (grade categories response distractors).IsTallied := by
  have hdistractors : countOf .correct (distractorVerdicts (placed response) distractors) = 0 := by
    apply countOf_eq_zero
    intro v hv
    simp only [distractorVerdicts, List.mem_filterMap, Option.map_eq_some_iff] at hv
    obtain ⟨item, -, chosen, -, rfl⟩ := hv
    change Verdict.wrong ≠ .correct
    decide
  rw [Grade.IsTallied, grade_eq, countOf_append, hdistractors]
  rfl

end Worksheet.Classification
