import Worksheet.Proofs.Grade
import Worksheet.Table.Grading

namespace Worksheet.Table

def cellVerdict (should was : Bool) : Verdict :=
  if should = was then .correct else if should then .missed else .wrong

def cellVerdicts (answerKey : OrderedMap (List String)) (completion : Completion)
    (disabled : DisabledCells) (cols : List String) (row : String) : List ItemVerdict :=
  (cols.filter (fun col => !disabled row col)).map (fun col =>
    ⟨row, some col, cellVerdict (normalizeLabel col ∈ expectedFor answerKey row)
      (normalizeLabel col ∈ selectedIn completion row)⟩)

def rowVerdict (selected : List String) (expected : Option String) : Verdict :=
  match selected, expected with
  | [], _ => .missed
  | [col], some expected => if col = normalizeLabel expected then .correct else .wrong
  | _, _ => .wrong

section Cells

variable (answerKey : OrderedMap (List String)) (completion : Completion) (disabled : DisabledCells)

theorem countCell_eq (expected selected : List String) (row : String) (t : UnitTally)
    (col : String) :
    countCell expected selected row t col =
      t.including [⟨row, some col,
        cellVerdict (normalizeLabel col ∈ expected) (normalizeLabel col ∈ selected)⟩] := by
  by_cases hshould : normalizeLabel col ∈ expected <;>
    by_cases hwas : normalizeLabel col ∈ selected <;>
      simp [countCell, cellVerdict, UnitTally.including, countOf, hshould, hwas]

theorem countCells_eq (cols : List String) (t : UnitTally) (row : String) :
    countCells answerKey completion disabled cols t row =
      t.including (cellVerdicts answerKey completion disabled cols row) := by
  have hopen : countCells answerKey completion disabled cols t row =
      (cols.filter (fun col => !disabled row col)).foldl
        (countCell (expectedFor answerKey row) (selectedIn completion row) row) t := by
    rw [List.foldl_filter, countCells]
    congr 1
    funext t col
    cases disabled row col <;> rfl
  rw [hopen, UnitTally.foldl_eq_including (countCell_eq _ _ row), cellVerdicts,
    List.map_eq_flatMap]

theorem gradeCells_eq (rows cols : List String) :
    gradeCells answerKey completion rows cols disabled =
      let verdicts := rows.flatMap (cellVerdicts answerKey completion disabled cols)
      { score := .share (countOf .correct verdicts) verdicts.length
        correct := countOf .correct verdicts
        total := verdicts.length
        key := .members answerKey
        response := .completion completion
        verdicts := verdicts } := by
  rw [gradeCells, UnitTally.foldl_eq_including (countCells_eq answerKey completion disabled cols)]
  simp [UnitTally.including]

end Cells

section Rows

variable (answerKey : OrderedMap (List String)) (completion : Completion)

theorem countRow_eq (t : Tally) (row : String) :
    countRow answerKey completion t row =
      t.including [⟨row, columnFor answerKey row,
        rowVerdict (selectedIn completion row) (columnFor answerKey row)⟩] := by
  rw [countRow]
  match selectedIn completion row, columnFor answerKey row with
  | [], expected => simp [rowVerdict, Tally.including, countOf]
  | [_], none => simp [rowVerdict, Tally.including, countOf]
  | [col], some expected =>
      by_cases h : col = normalizeLabel expected <;>
        simp [rowVerdict, Tally.including, countOf, h]
  | _ :: _ :: _, expected => simp [rowVerdict, Tally.including, countOf]

theorem gradeRows_eq (rows : List String) :
    gradeRows answerKey completion rows =
      let verdicts := rows.map (fun row => ⟨row, columnFor answerKey row,
        rowVerdict (selectedIn completion row) (columnFor answerKey row)⟩)
      { score := .share (countOf .correct verdicts) rows.length
        correct := countOf .correct verdicts
        total := rows.length
        key := .members answerKey
        response := .completion completion
        verdicts := verdicts } := by
  rw [gradeRows, Tally.foldl_eq_including (countRow_eq answerKey completion), ← List.map_eq_flatMap]
  simp [Tally.including]

end Rows

end Worksheet.Table
