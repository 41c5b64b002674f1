import Worksheet.Classification.Basic

namespace Worksheet.Classification

inductive Defect where
  | noCategories
  | duplicateLabel (label : String)
  | rowConflict (label : String)
  | emptyCategory (label : String)
  | blankItem (label : String)
  | duplicateItem (label item : String)
  | distractorConflict (item : String)
  deriving DecidableEq, Repr

def Defect.key : Defect → String
  | noCategories => "categories.empty"
  | duplicateLabel label => s!"categories.duplicateLabel.{label}"
  | rowConflict label => s!"categories.rowConflict.{label}"
  | emptyCategory label => s!"categories.emptyCategory.{label}"
  | blankItem label => s!"items.blank.{label}"
  | duplicateItem label _ => s!"categories.duplicateItem.{label}"
  | distractorConflict item => s!"distractors.conflict.{item}"

def Defect.message : Defect → String
  | noCategories => "No categories were found. Expected at least one CATEGORY = ... ; entry."
  | duplicateLabel label => s!"Category \"{label}\" is defined more than once."
  | rowConflict label =>
      s!"Category \"{label}\" is also present as an item. Category labels cannot be used as items."
  | emptyCategory label =>
      s!"Category \"{label}\" has no items. Each category must include at least one item."
  | blankItem label => s!"Category \"{label}\" contains an empty item."
  | duplicateItem label item =>
      s!"Category \"{label}\" includes duplicate item \"{item}\". Remove duplicates."
  | distractorConflict item =>
      s!"Distractor \"{item}\" also belongs to a category. Distractors must not belong to any category."

instance : Problem Defect := ⟨Defect.key, Defect.message⟩

def categoryDefects (seen members : List String) (category : Category) : List Defect :=
  let label := category.label
  (if label ∈ seen then [.duplicateLabel label] else []) ++
  (if normalizeLabel label ∈ members then [.rowConflict label] else []) ++
  (if category.items.isEmpty then [.emptyCategory label] else []) ++
  (if category.items.any Text.isBlank then [.blankItem label] else []) ++
  ((repeats [] category.items).head?.map (.duplicateItem label)).toList

def categoriesDefects (seen members : List String) : List Category → List Defect
  | [] => []
  | category :: rest =>
      categoryDefects seen members category ++
        categoriesDefects (category.label :: seen) members rest

def defects (c : Classification) : List Defect :=
  (if c.categories.isEmpty then [.noCategories] else []) ++
  categoriesDefects [] (c.rows.map Text.lower) c.categories ++
  (c.distractors.filter (· ∈ c.rows)).map .distractorConflict

end Worksheet.Classification
