import Worksheet.Table.Basic
import Worksheet.Grade

namespace Worksheet.Table

abbrev DisabledCells := String → String → Bool

def onDiagonal : DisabledCells := fun row col => normalizeLabel row == normalizeLabel col

def selectedIn (completion : Completion) (row : String) : List String :=
  match completion.find? row with
  | none => []
  | some values => values.selected.map normalizeLabel

def expectedFor (answerKey : OrderedMap (List String)) (row : String) : List String :=
  (answerKey.entries.filter (row ∈ ·.2)).map (normalizeLabel ·.1)

def countCell (expected selected : List String) (row : String) (t : UnitTally) (col : String) :
    UnitTally :=
  let noted (verdict : Verdict) : UnitTally :=
    { t with total := t.total + 1, verdicts := t.verdicts.push ⟨row, some col, verdict⟩ }
  if normalizeLabel col ∈ expected ↔ normalizeLabel col ∈ selected then
    { noted .correct with correct := t.correct + 1 }
  else if normalizeLabel col ∈ expected then noted .missed
  else noted .wrong

def countCells (answerKey : OrderedMap (List String)) (completion : Completion)
    (disabled : DisabledCells) (cols : List String) (t : UnitTally) (row : String) : UnitTally :=
  let selected := selectedIn completion row
  let expected := expectedFor answerKey row
  cols.foldl (fun t col => if disabled row col then t else countCell expected selected row t col) t

def gradeCells (answerKey : OrderedMap (List String)) (completion : Completion)
    (rows cols : List String) (disabled : DisabledCells) : Grade :=
  let counted := rows.foldl (countCells answerKey completion disabled cols) ⟨0, 0, #[]⟩
  { score := .share counted.correct counted.total
    correct := counted.correct
    total := counted.total
    key := .members answerKey
    response := .completion completion
    verdicts := counted.verdicts.toList }

def columnFor (answerKey : OrderedMap (List String)) (row : String) : Option String :=
  (answerKey.entries.find? (row ∈ ·.2)).map (·.1)

def countRow (answerKey : OrderedMap (List String)) (completion : Completion) (t : Tally)
    (row : String) : Tally :=
  let expected := columnFor answerKey row
  let noted (verdict : Verdict) : Tally :=
    { t with verdicts := t.verdicts.push ⟨row, expected, verdict⟩ }
  match selectedIn completion row, expected with
  | [col], some expected =>
      if col = normalizeLabel expected then { noted .correct with correct := t.correct + 1 }
      else noted .wrong
  | [], _ => noted .missed
  | _, _ => noted .wrong

def gradeRows (answerKey : OrderedMap (List String)) (completion : Completion)
    (rows : List String) : Grade :=
  let counted := rows.foldl (countRow answerKey completion) ⟨0, #[]⟩
  { score := .share counted.correct rows.length
    correct := counted.correct
    total := rows.length
    key := .members answerKey
    response := .completion completion
    verdicts := counted.verdicts.toList }

def unsupportedMessage (preset : TablePreset) : String :=
  let name := preset.name
  s!"Tables with preset '{name}' cannot be graded against an answer key"

def grade? (t : Table) (completion : Completion) (preset : TablePreset)
    (disabled : Option DisabledCells) : Option Grade :=
  match preset with
  | .lookup => none
  | .nary => some (gradeRows t.answerKey completion t.rows)
  | .classification =>
      some (gradeCells t.answerKey completion t.rows t.cols (disabled.getD fun _ _ => false))
  | .adjacency =>
      some (gradeCells t.answerKey completion t.rows t.cols (disabled.getD onDiagonal))

end Worksheet.Table
