import Worksheet.ErrorMap
import Worksheet.Markup.DistractorLine
import Worksheet.Markup.Statement

namespace Worksheet

structure Category where
  label : String
  title : String
  items : List String
  deriving DecidableEq, Repr

inductive CategoryProblem where
  | noMatches
  | duplicateCategory (label : String)
  | emptyCategory (label : String)
  deriving DecidableEq, Repr

namespace CategoryProblem

def key : CategoryProblem → String
  | noMatches => "parse.noMatches"
  | duplicateCategory label => s!"parse.duplicateCategory.{label}"
  | emptyCategory label => s!"parse.emptyCategory.{label}"

def message : CategoryProblem → String
  | noMatches =>
      "No valid category entries found. Expected lines like: CATEGORY = item1 | item2;"
  | duplicateCategory label =>
      s!"Duplicate category \"{label}\" was defined more than once. Merge them into a single entry."
  | emptyCategory label =>
      s!"Category \"{label}\" has no items. Expected at least one item before ';'."

instance : Problem CategoryProblem := ⟨key, message⟩

end CategoryProblem

def enterCategories (seen : List String) :
    List (String × List String) → List Category × List CategoryProblem
  | [] => ([], [])
  | (title, items) :: rest =>
      let label := normalizeLabel title
      if label ∈ seen then
        let (categories, problems) := enterCategories seen rest
        (categories, .duplicateCategory label :: problems)
      else
        let (categories, problems) := enterCategories (label :: seen) rest
        (⟨label, title, items⟩ :: categories,
          if items.isEmpty then .emptyCategory label :: problems else problems)

structure CategoryList where
  categories : List Category
  distractors : List String
  problems : List CategoryProblem
  deriving DecidableEq, Repr

def definitions (rule : Markup.LabelRule) (text : String) :
    List (String × List String) × List String :=
  let extraction := Markup.extractDistractors text.toList
  let document := Markup.readDocument rule extraction.remainder
  (document.labelled.map (fun d => (d.1, d.2.items)),
    distinct (extraction.items ++ document.unlabelled.flatMap (·.items)))

def readCategories (text : String) : CategoryList :=
  let (defined, distractors) := definitions .category text
  let (categories, problems) := enterCategories [] defined
  ⟨categories, distractors, if defined.isEmpty then .noMatches :: problems else problems⟩

def memberItems (categories : List Category) : List String :=
  distinct (categories.flatMap (·.items))

end Worksheet
