import Worksheet.Classification.Basic
import Worksheet.Grade

namespace Worksheet.Classification

def placed (response : OrderedMap (Option String)) : OrderedMap String :=
  .ofList (response.entries.filterMap (fun (item, label) =>
    (label.filter (· ≠ "")).map (fun label => (item, normalizeLabel label))))

def countUnit (placed : OrderedMap String) (label : String) (t : UnitTally) (item : String) :
    UnitTally :=
  let noted (verdict : Verdict) : UnitTally :=
    { t with total := t.total + 1, verdicts := t.verdicts.push ⟨item, some label, verdict⟩ }
  match placed.find? item with
  | none => noted .missed
  | some chosen =>
      if chosen = normalizeLabel label then { noted .correct with correct := t.correct + 1 }
      else noted .wrong

def countUnits (placed : OrderedMap String) (t : UnitTally) (category : Category) : UnitTally :=
  category.items.foldl (countUnit placed category.label) t

def noteDistractor (placed : OrderedMap String) (verdicts : Array ItemVerdict) (item : String) :
    Array ItemVerdict :=
  match placed.find? item with
  | none => verdicts
  | some chosen => verdicts.push ⟨item, some chosen, .wrong⟩

def grade (categories : List Category) (response : OrderedMap (Option String))
    (distractors : List String) : Grade :=
  let placed := placed response
  let counted := categories.foldl (countUnits placed) ⟨0, 0, #[]⟩
  { score := .share counted.correct counted.total
    correct := counted.correct
    total := counted.total
    key := .members (.ofList (categories.map (fun c => (c.label, c.items))))
    response := .placements response
    verdicts := (distractors.foldl (noteDistractor placed) counted.verdicts).toList }

end Worksheet.Classification
