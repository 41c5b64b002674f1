import Worksheet.Category

namespace Worksheet

structure Table where
  rows : List String
  cols : List String
  answerKey : OrderedMap (List String)
  distractors : List String
  deriving DecidableEq, Repr

namespace Table

def columnsOf (t : Table) (row : String) : List String :=
  (t.answerKey.entries.filter (row ∈ ·.2)).map (·.1)

def ofCategoryList (list : CategoryList) : Table where
  rows := distinct (list.categories.flatMap (·.items) ++ list.distractors)
  cols := list.categories.map (·.label)
  answerKey := .ofList (list.categories.map (fun c => (c.label, c.items)))
  distractors := list.distractors

def read (text : String) : Table × List CategoryProblem :=
  let list := readCategories text
  (ofCategoryList list, list.problems)

end Table

inductive TablePreset where
  | lookup
  | nary
  | classification
  | adjacency
  deriving DecidableEq, Repr

namespace TablePreset

def name : TablePreset → String
  | lookup => "lookup"
  | nary => "n-ary"
  | classification => "classification"
  | adjacency => "adjacency"

def all : List TablePreset := [lookup, nary, classification, adjacency]

def ofName? (name : String) : Option TablePreset := all.find? (·.name == name)

end TablePreset

end Worksheet
