import Worksheet.Exercise.Basic
import Worksheet.Shape

namespace Worksheet

namespace Shape

def category : Reader Category
  | .map es =>
      (both (field es "label" none string)
        (both (field es "title" (some "") string)
          (field es "items" (some []) (listOf string)))).map
        (fun (label, title, items) => ⟨label, if title = "" then label else title, items⟩)
  | _ => fail .notRecord

def classification (es : List (String × Value)) : Result Classification :=
  (both (field es "categories" (some []) (listOf category))
    (field es "distractors" (some []) (listOf string))).map
    (fun (categories, distractors) => ⟨categories, distractors⟩)

def table (es : List (String × Value)) : Result Table :=
  (both (field es "rows" (some []) (listOf string))
    (both (field es "cols" (some []) (listOf string))
      (both (field es "answer_key" (some ∅) (mapOf (listOf string)))
        (field es "distractors" (some []) (listOf string))))).map
    (fun (rows, cols, answerKey, distractors) => ⟨rows, cols, answerKey, distractors⟩)

def question : Reader Question
  | .map es =>
      (both (field es "question" none string)
        (both (field es "correct_options" (some []) (listOf string))
          (field es "options" (some []) (listOf string)))).map
        (fun (question, correctOptions, options) => ⟨question, correctOptions, options⟩)
  | _ => fail .notRecord

def pair : Reader Pair
  | .map es =>
      (both (field es "left" none string) (field es "right" none string)).map
        (fun (left, right) => ⟨left, right⟩)
  | _ => fail .notRecord

def exerciseOf (family : Family) (es : List (String × Value)) : Result Exercise :=
  match family with
  | .classification => (classification es).map .classification
  | .table => (table es).map .table
  | .recognition =>
      (field es "questions" (some []) (listOf question)).map (fun qs => .recognition ⟨qs⟩)
  | .seriation => (field es "items" (some []) (listOf string)).map (fun items => .seriation ⟨items⟩)
  | .association =>
      (both (field es "pairs" (some []) (listOf pair))
        (field es "distractors" (some []) (listOf string))).map
        (fun (pairs, distractors) => .association ⟨pairs, distractors⟩)

def exercise : Reader Exercise
  | .map es =>
      match es.lookup "type" with
      | none => fail .tagMissing
      | some (.str tag) =>
          match Family.ofName? tag with
          | some family => below (.key tag) (exerciseOf family es)
          | none => fail .tagUnknown
      | some _ => fail .tagUnknown
  | _ => fail .notObject

end Shape

namespace Exercise

def textList (items : List String) : Value := .list (items.map .str)

def textLists (m : OrderedMap (List String)) : Value :=
  .map (m.entries.map (fun (key, items) => (key, textList items)))

def categoryRecord (c : Category) : Value :=
  .map [("label", .str c.label), ("title", .str c.title), ("items", textList c.items)]

def questionRecord (q : Question) : Value :=
  .map [("question", .str q.question), ("correct_options", textList q.correctOptions),
    ("options", textList q.options)]

def pairRecord (p : Pair) : Value := .map [("left", .str p.left), ("right", .str p.right)]

def fields : Exercise → List (String × Value)
  | classification c =>
      [("categories", .list (c.categories.map categoryRecord)),
        ("distractors", textList c.distractors)]
  | table t =>
      [("rows", textList t.rows), ("cols", textList t.cols), ("answer_key", textLists t.answerKey),
        ("distractors", textList t.distractors)]
  | recognition r => [("questions", .list (r.questions.map questionRecord))]
  | seriation s => [("items", textList s.items)]
  | association a =>
      [("pairs", .list (a.pairs.map pairRecord)), ("distractors", textList a.distractors)]

def toValue (e : Exercise) : Value := .map (("type", .str e.family.name) :: e.fields)

end Exercise

end Worksheet
