import Worksheet.Exercise.AsTable
import Worksheet.Shape.Scalars
import Worksheet.Table.State

namespace Worksheet

structure Overrides where
  fields : List (String × Value)
  disabled : Option (Option Table.DisabledCells)
  allowed : Option (Option AllowedValues)

namespace Overrides

def none : Overrides := ⟨[], .none, .none⟩

def disabledCells (cells : List (String × String)) : Table.DisabledCells :=
  fun row col => (row, col) ∈ cells

def allowedCells (default : Option (List Value))
    (cells : List ((String × String) × Option (List Value))) : AllowedValues :=
  fun row col => (cells.reverse.lookup (row, col)).getD default

end Overrides

namespace TableConfiguration

def checked (base : TableConfiguration) (o : Overrides) : Shape.Result TableConfiguration :=
  let names := Shape.listOf Shape.string
  (Shape.both (Shape.field o.fields "rows" (some base.rows) names)
    (Shape.both (Shape.field o.fields "cols" (some base.cols) names)
      (Shape.both (Shape.field o.fields "answer_key" (some base.answerKey) (Shape.mapOf names))
        (Shape.both
          (Shape.field o.fields "cell_kind" (some base.cellKind) (Shape.choice CellKind.ofName?))
          (Shape.field o.fields "shuffle" (some base.shuffle) Shape.boolean))))).map
    (fun (rows, cols, answerKey, cellKind, shuffle) =>
      { base with
        rows := rows
        cols := cols
        answerKey := answerKey
        cellKind := cellKind
        shuffle := shuffle
        disabled := o.disabled.getD base.disabled
        allowed := o.allowed.getD base.allowed })

def taken (preset : Option Value) : List String :=
  ["cls", "data"] ++ (if preset.isSome then ["preset"] else [])

def configure (e : Exercise) (preset : Option Value) (o : Overrides) :
    Except Refusal TableConfiguration := do
  match o.fields.find? (·.1 ∈ taken preset) with
  | some (name, _) => .error (.givenTwice name)
  | none =>
      let preset ← match (o.fields.lookup "preset").or preset with
        | some given => presetNamed given
        | none => .ok .classification
      let t ← e.asTable [.rows, .cols, .answerKey]
      ((forPreset t preset).checked o).mapError .malformed

end TableConfiguration

namespace TableState

def completion (s : TableState) : Shape.Result Completion := do
  let rows ← s.configuration.rows.mapM (fun row => do
    let values ← Shape.below (.key "values")
      (Shape.mapOf Shape.cell (.map (s.rowCells row).entries))
    return (row, RowValues.mk (s.selected row) values))
  return OrderedMap.ofList rows

def grade (s : TableState) (e : Exercise) (preset : Value) : Except Refusal Grade := do
  let completion ← s.completion.mapError .malformed
  let preset ← presetOr s.configuration.preset preset
  e.gradeTable completion preset s.configuration.disabled

end TableState

end Worksheet
