import Worksheet.Table.Configuration

namespace Worksheet

abbrev Cells := OrderedMap (OrderedMap Value)

structure TableState where
  configuration : TableConfiguration
  cells : Cells

namespace TableState

def initialRow (c : TableConfiguration) : OrderedMap Value :=
  .ofList (c.cols.map (·, c.cellKind.initial))

def start (c : TableConfiguration) : TableState :=
  ⟨c, .ofList (c.rows.map (·, initialRow c))⟩

def rowCells (s : TableState) (row : String) : OrderedMap Value := (s.cells.find? row).getD ∅

def get? (s : TableState) (row col : String) : Option Value := (s.rowCells row).find? col

def isTrue : Value → Bool
  | .bool b => b
  | _ => false

-- The cells of a row after a value is written into one of them; ticking a radio cell clears every
-- column of the table first.
def written (c : TableConfiguration) (cells : OrderedMap Value) (col : String) (value : Value) :
    OrderedMap Value :=
  let cleared :=
    if c.cellKind = .radio ∧ isTrue value then c.cols.foldl (·.put · (.bool false)) cells
    else cells
  cleared.put col value

def write (s : TableState) (row col : String) (value : Value) : Bool × TableState :=
  if s.configuration.accepts row col value then
    (true, { s with cells := s.cells.put row (written s.configuration (s.rowCells row) col value) })
  else (false, s)

def set (s : TableState) (row col : String) (value : Value) : TableState :=
  (s.write row col value).2

def selected (s : TableState) (row : String) : List String :=
  s.configuration.cols.filter (fun col =>
    s.configuration.cellKind.toggles && ((s.get? row col).map isTrue).getD false)

end TableState

end Worksheet
