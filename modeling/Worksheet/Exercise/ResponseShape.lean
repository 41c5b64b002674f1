import Worksheet.Family
import Worksheet.Grade
import Worksheet.Shape

namespace Worksheet

abbrev Family.Answers : Family → Type
  | .classification => OrderedMap (Option String)
  | .table => Completion
  | .recognition => OrderedMap (List String)
  | .seriation => List String
  | .association => OrderedMap String

def Family.response : (f : Family) → f.Answers → Response
  | .classification, labels => .placements labels
  | .table, rows => .completion rows
  | .recognition, options => .selections options
  | .seriation, items => .order items
  | .association, rights => .partners rights

namespace Shape

def cell : Reader CellValue
  | .null => .ok .blank
  | .bool b => .ok (.bool b)
  | .int n => .ok (.int n)
  | .float x => .ok (.float x)
  | .str s => .ok (.text s)
  | _ => .error [⟨.notBoolean, [.key "bool"]⟩, ⟨.notInteger, [.key "int"]⟩,
      ⟨.notNumber, [.key "float"]⟩, ⟨.notString, [.key "str"]⟩]

def rowValues : Reader RowValues
  | .map es =>
      (both (field es "selected_cols" (some []) (listOf string))
        (field es "values" (some ∅) (mapOf cell))).map
        (fun (selected, values) => ⟨selected, values⟩)
  | _ => fail .notRecord

def answers : (f : Family) → Reader f.Answers
  | .classification => mapOf (optional string)
  | .table => mapOf rowValues
  | .recognition => mapOf (listOf string)
  | .seriation => listOf string
  | .association => mapOf string

end Shape

end Worksheet
