import Worksheet.Table.Grading

namespace Worksheet

inductive CellKind where
  | text
  | number
  | select
  | radio
  | checkbox
  deriving DecidableEq, Repr

namespace CellKind

def name : CellKind → String
  | text => "text"
  | number => "number"
  | select => "select"
  | radio => "radio"
  | checkbox => "checkbox"

def all : List CellKind := [text, number, select, radio, checkbox]

def ofName? (name : String) : Option CellKind := all.find? (·.name == name)

def toggles : CellKind → Bool
  | radio | checkbox => true
  | _ => false

def initial (kind : CellKind) : Value := if kind.toggles then .bool false else .null

end CellKind

def TablePreset.cellKind : TablePreset → CellKind
  | lookup => .select
  | nary => .radio
  | classification => .checkbox
  | adjacency => .checkbox

abbrev AllowedValues := String → String → Option (List Value)

structure TableConfiguration where
  rows : List String
  cols : List String
  answerKey : OrderedMap (List String)
  cellKind : CellKind
  preset : TablePreset
  disabled : Option Table.DisabledCells
  allowed : Option AllowedValues
  shuffle : Bool

namespace TableConfiguration

def forPreset (t : Table) (preset : TablePreset) : TableConfiguration where
  rows := t.rows
  cols := t.cols
  answerKey := t.answerKey
  cellKind := preset.cellKind
  preset := preset
  disabled := if preset = .adjacency then some Table.onDiagonal else none
  allowed := none
  shuffle := false

def isDisabled (c : TableConfiguration) (row col : String) : Bool :=
  match c.disabled with
  | none => false
  | some disabled => disabled row col

def allowedValues (c : TableConfiguration) (row col : String) : Option (List Value) :=
  c.allowed.bind (fun allowed => allowed row col)

def offers (c : TableConfiguration) (row col : String) (value : Value) : Bool :=
  match c.allowedValues row col with
  | none => true
  | some values => values.any (·.text == value.text)

def accepts (c : TableConfiguration) (row col : String) (value : Value) : Bool :=
  if c.isDisabled row col then false
  else match c.cellKind, value with
    | .select, .null => true
    | .select, value => c.offers row col value
    | _, _ => true

end TableConfiguration

end Worksheet
