import Worksheet.Table.Basic

namespace Worksheet.Table

inductive Defect where
  | noCols
  | noRows
  | blankRow (position : Nat)
  | rowConflict (col : String)
  | missingKey (col : String)
  | emptyCategory (col : String)
  | duplicateItem (col item : String)
  | unknownItem (col : String) (items : List String)
  | unassigned (row : String)
  | multiCategory (row : String) (cols : List String)
  deriving DecidableEq, Repr

def Defect.key : Defect → String
  | noCols => "cols.empty"
  | noRows => "rows.empty"
  | blankRow position => s!"rows.blank.{position}"
  | rowConflict col => s!"cols.rowConflict.{col}"
  | missingKey col => s!"answerKey.missing.{col}"
  | emptyCategory col => s!"answerKey.emptyCategory.{col}"
  | duplicateItem col _ => s!"answerKey.duplicateItem.{col}"
  | unknownItem col _ => s!"answerKey.unknownItem.{col}"
  | unassigned row => s!"nary.unassigned.{row}"
  | multiCategory row _ => s!"nary.multiCategory.{row}"

def Defect.message : Defect → String
  | noCols => "No categories were found. Expected at least one CATEGORY = ... ; entry."
  | noRows => "No row items were found. Expected at least one item in any category."
  | blankRow position => s!"Row {position} is empty."
  | rowConflict col =>
      s!"Category \"{col}\" is also present as an item. Category labels cannot be used as row items."
  | missingKey col =>
      s!"Category \"{col}\" has no entry in answerKey. This usually indicates a parser issue."
  | emptyCategory col =>
      s!"Category \"{col}\" has no items. Each category must include at least one item."
  | duplicateItem col item =>
      s!"Category \"{col}\" includes duplicate item \"{item}\". Remove duplicates."
  | unknownItem col items =>
      let listed := ", ".intercalate items
      s!"Category \"{col}\" lists items that are not table rows: {listed}."
  | unassigned row =>
      s!"Item \"{row}\" is not assigned to any category. In n-ary tables, every item must belong to exactly one category."
  | multiCategory row cols =>
      let listed := ", ".intercalate cols
      s!"Item \"{row}\" appears in multiple categories ({listed}). In n-ary tables, items must belong to exactly one category."

instance : Problem Defect := ⟨Defect.key, Defect.message⟩

def rowConflicts (t : Table) : List Defect :=
  (t.cols.filter (fun col => normalizeLabel col ∈ t.rows.map normalizeLabel)).map .rowConflict

def keyDefect (t : Table) (col : String) : Option Defect :=
  match t.answerKey.find? col with
  | none => some (.missingKey col)
  | some [] => some (.emptyCategory col)
  | some _ => none

def entryDefects (t : Table) (entry : String × List String) : List Defect :=
  let unknown := entry.2.filter (· ∉ t.rows)
  ((repeats [] entry.2).head?.map (.duplicateItem entry.1)).toList ++
    (if unknown.isEmpty then [] else [.unknownItem entry.1 unknown])

def mentions (t : Table) (row : String) : List String :=
  t.answerKey.entries.flatMap (fun entry => (entry.2.filter (· = row)).map (fun _ => entry.1))

def assignmentDefect (t : Table) (row : String) : Option Defect :=
  match t.mentions row with
  | [] => some (.unassigned row)
  | [_] => none
  | cols => some (.multiCategory row cols)

def defects (t : Table) (preset : TablePreset) : List Defect :=
  (if t.cols.isEmpty then [.noCols] else []) ++
  (if t.rows.isEmpty then [.noRows] else []) ++
  (Text.blankPositions 1 t.rows).map .blankRow ++
  (if preset = .adjacency then [] else t.rowConflicts) ++
  t.cols.filterMap t.keyDefect ++
  t.answerKey.entries.flatMap t.entryDefects ++
  (if preset = .nary then t.rows.filterMap t.assignmentDefect else [])

end Worksheet.Table
