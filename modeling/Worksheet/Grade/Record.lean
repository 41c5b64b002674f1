import Worksheet.Grade
import Worksheet.Shape.Scalars

namespace Worksheet

structure GradeRecord where
  score : Float
  correct : Nat
  total : Nat
  key : Value
  response : Value
  verdicts : List ItemVerdict
  deriving Repr

namespace Grade

def textList (items : List String) : Value := .list (items.map .str)

def keyValue : KeyEcho → Value
  | .members items => .map (items.entries.map (fun (key, items) => (key, textList items)))
  | .order items => textList items
  | .partners rights => .map (rights.entries.map (fun (key, right) => (key, .str right)))

def rowValue (row : RowValues) : Value :=
  .map [("selected_cols", textList row.selected),
    ("values", .map (row.values.entries.map (fun (key, v) => (key, v.toValue))))]

def responseValue : Response → Value
  | .placements labels =>
      .map (labels.entries.map (fun (key, label) =>
        (key, match label with | some label => .str label | none => .null)))
  | .completion rows => .map (rows.entries.map (fun (key, row) => (key, rowValue row)))
  | .selections options =>
      .map (options.entries.map (fun (key, items) => (key, textList items)))
  | .order items => textList items
  | .partners rights => .map (rights.entries.map (fun (key, right) => (key, .str right)))

def record (g : Grade) : GradeRecord :=
  ⟨g.score.toFloat, g.correct, g.total, keyValue g.key, responseValue g.response, g.verdicts⟩

end Grade

namespace GradeRecord

def verdictValue (v : ItemVerdict) : Value :=
  .map [("item", .str v.item),
    ("category", match v.category with | some category => .str category | none => .null),
    ("verdict", .str v.verdict.name)]

def toValue (r : GradeRecord) : Value :=
  .map [("score", .float r.score), ("correct", .int r.correct), ("total", .int r.total),
    ("answer_key", r.key), ("user_response", r.response),
    ("verdicts", .list (r.verdicts.map verdictValue))]

end GradeRecord

namespace Shape

def itemVerdict : Reader ItemVerdict
  | .map es =>
      (both (field es "item" none string)
        (both (field es "category" (some none) (optional string))
          (field es "verdict" none (choice Verdict.ofName?)))).map
        (fun (item, category, verdict) => ⟨item, category, verdict⟩)
  | _ => fail .notRecord

def gradeRecord : Reader GradeRecord
  | .map es =>
      (both (field es "score" none percent)
        (both (field es "correct" none count)
          (both (field es "total" none count)
            (both (field es "answer_key" (some .null) anything)
              (both (field es "user_response" (some .null) anything)
                (field es "verdicts" (some []) (listOf itemVerdict))))))).map
        (fun (score, correct, total, key, response, verdicts) =>
          ⟨score, correct, total, key, response, verdicts⟩)
  | _ => fail .notRecord

end Shape

end Worksheet
