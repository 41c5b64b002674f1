import Worksheet.Exercise.Basic
import Worksheet.Proofs.Table.Reading

namespace Worksheet

open OrderedMap

namespace CategoryList

def classification (list : CategoryList) : Classification := ⟨list.categories, list.distractors⟩

variable {list : CategoryList}

theorem rows_eq_pool (list : CategoryList) :
    (Table.ofCategoryList list).rows = list.classification.pool := by
  rw [Classification.pool, Classification.rows, memberItems, distinct_distinct_append]
  rfl

theorem Sound.answerKey_eq (h : list.Sound) :
    (Table.ofCategoryList list).answerKey = list.classification.answerKey := by
  symm
  apply ofListFirst_eq_ofList
  rw [List.map_map]
  exact h.nodup_labels

theorem Sound.columnsOf_eq (h : list.Sound) (row : String) :
    (Table.ofCategoryList list).columnsOf row =
      (list.categories.filter (row ∈ ·.items)).map (·.label) := by
  rw [Table.columnsOf, Table.entries_answerKey_ofCategoryList h, List.filter_map, List.map_map]
  rfl

end CategoryList

theorem read_alike (text : String) :
    let c := (Classification.read text).1
    let t := (Table.read text).1
    (∃ errors, Exercise.read .classification text = ⟨.classification c, errors⟩ ∧
        Exercise.read .table text = ⟨.table t, errors⟩) ∧
      t.distractors = c.distractors ∧ t.cols = c.labels ∧ t.answerKey = c.answerKey ∧
      t.rows = c.pool ∧
      ∀ row, t.columnsOf row = (c.categories.filter (row ∈ ·.items)).map (·.label) := by
  have hsound := sound_readCategories text
  have hclassification : Classification.read text =
      ((readCategories text).classification, (readCategories text).problems) := rfl
  have htable : Table.read text =
      (Table.ofCategoryList (readCategories text), (readCategories text).problems) := rfl
  rw [Exercise.read_classification, Exercise.read_table, hclassification, htable]
  generalize readCategories text = list at hsound
  exact ⟨⟨.ofProblems list.problems, rfl, rfl⟩, rfl, rfl, hsound.answerKey_eq, list.rows_eq_pool,
    hsound.columnsOf_eq⟩

end Worksheet
