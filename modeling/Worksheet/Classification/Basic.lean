import Worksheet.Category

namespace Worksheet

structure Classification where
  categories : List Category
  distractors : List String
  deriving DecidableEq, Repr

namespace Classification

def labels (c : Classification) : List String := c.categories.map (·.label)

def rows (c : Classification) : List String := memberItems c.categories

def pool (c : Classification) : List String := distinct (c.rows ++ c.distractors)

def answerKey (c : Classification) : OrderedMap (List String) :=
  .ofListFirst (c.categories.map (fun category => (category.label, category.items)))

def read (text : String) : Classification × List CategoryProblem :=
  let list := readCategories text
  (⟨list.categories, list.distractors⟩, list.problems)

end Classification

end Worksheet
