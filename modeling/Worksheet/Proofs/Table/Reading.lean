import Worksheet.Proofs.Category
import Worksheet.Proofs.OrderedMap
import Worksheet.Proofs.Table.Verdicts

namespace Worksheet.Table

open OrderedMap Text

structure WellKeyed (t : Table) : Prop where
  nodup_rows : t.rows.Nodup
  nodup_cols : t.cols.Nodup
  normalizeLabel_col : ∀ col ∈ t.cols, normalizeLabel col = col
  keys_answerKey : t.answerKey.keys = t.cols
  mem_rows : ∀ entry ∈ t.answerKey.entries, ∀ item ∈ entry.2, item ∈ t.rows
  isItem_rows : ∀ row ∈ t.rows, IsItem row

def Lists (t : Table) (row col : String) : Prop :=
  ∃ items, t.answerKey.find? col = some items ∧ row ∈ items

theorem entries_answerKey_ofCategoryList {list : CategoryList} (h : list.Sound) :
    (ofCategoryList list).answerKey.entries = list.categories.map (fun c => (c.label, c.items)) := by
  apply entries_ofList
  simpa [Function.comp_def] using h.nodup_labels

theorem wellKeyed_ofCategoryList {list : CategoryList} (h : list.Sound) :
    (ofCategoryList list).WellKeyed where
  nodup_rows := nodup_distinct _
  nodup_cols := h.nodup_labels
  normalizeLabel_col := by
    intro col hc
    obtain ⟨c, hmem, rfl⟩ := List.mem_map.mp hc
    exact h.normalizeLabel_label c hmem
  keys_answerKey := by
    rw [keys, entries_answerKey_ofCategoryList h]
    simp [ofCategoryList]
  mem_rows := by
    intro entry he item hi
    rw [entries_answerKey_ofCategoryList h] at he
    obtain ⟨c, hc, rfl⟩ := List.mem_map.mp he
    exact mem_distinct.mpr (List.mem_append_left _ (List.mem_flatMap.mpr ⟨c, hc, hi⟩))
  isItem_rows := by
    intro row hr
    rcases List.mem_append.mp (mem_distinct.mp hr) with hr | hr
    · obtain ⟨c, hc, hi⟩ := List.mem_flatMap.mp hr
      exact h.isItem_items c hc row hi
    · exact h.isItem_distractors row hr

theorem wellKeyed_read (text : String) : (read text).1.WellKeyed :=
  wellKeyed_ofCategoryList (sound_readCategories text)

theorem mem_columnsOf {t : Table} {row col : String} : col ∈ t.columnsOf row ↔ t.Lists row col := by
  simp only [columnsOf, Lists, List.mem_map, List.mem_filter, decide_eq_true_eq]
  constructor
  · rintro ⟨⟨k, items⟩, ⟨he, hr⟩, rfl⟩
    exact ⟨items, find?_eq_some_iff.mpr he, hr⟩
  · rintro ⟨items, hfind, hr⟩
    exact ⟨(col, items), ⟨find?_eq_some_iff.mp hfind, hr⟩, rfl⟩

theorem columnFor_eq_head? (t : Table) (row : String) :
    columnFor t.answerKey row = (t.columnsOf row).head? := by
  rw [columnFor, columnsOf, List.head?_map, List.head?_filter]

namespace WellKeyed

variable {t : Table}

theorem columnsOf_sublist (h : t.WellKeyed) (row : String) : (t.columnsOf row).Sublist t.cols := by
  rw [← h.keys_answerKey]
  exact List.filter_sublist.map _

theorem mem_cols_of_mem_columnsOf (h : t.WellKeyed) {row col : String}
    (hc : col ∈ t.columnsOf row) : col ∈ t.cols :=
  (h.columnsOf_sublist row).subset hc

theorem map_normalizeLabel (h : t.WellKeyed) {cols : List String}
    (hcols : ∀ col ∈ cols, col ∈ t.cols) : cols.map normalizeLabel = cols :=
  map_of_forall_eq fun col hc => h.normalizeLabel_col col (hcols col hc)

theorem expectedFor_eq (h : t.WellKeyed) (row : String) :
    expectedFor t.answerKey row = t.columnsOf row := by
  have hmap : expectedFor t.answerKey row = (t.columnsOf row).map normalizeLabel := by
    simp [expectedFor, columnsOf]
  rw [hmap, h.map_normalizeLabel (fun _ hc => h.mem_cols_of_mem_columnsOf hc)]

theorem cellVerdicts_eq (h : t.WellKeyed) (completion : Completion) (disabled : DisabledCells)
    (row : String) :
    cellVerdicts t.answerKey completion disabled t.cols row =
      (t.cols.filter (fun col => !disabled row col)).map (fun col =>
        ⟨row, some col, cellVerdict (col ∈ t.columnsOf row)
          (col ∈ selectedIn completion row)⟩) := by
  apply List.map_congr_left
  intro col hc
  rw [h.normalizeLabel_col col (List.mem_filter.mp hc).1, h.expectedFor_eq]

end WellKeyed

theorem cellVerdict_eq_correct {should was : Bool} :
    cellVerdict should was = .correct ↔ should = was := by
  cases should <;> cases was <;> decide

theorem cellVerdict_eq_missed {should was : Bool} :
    cellVerdict should was = .missed ↔ should = true ∧ was = false := by
  cases should <;> cases was <;> decide

theorem cellVerdict_eq_wrong {should was : Bool} :
    cellVerdict should was = .wrong ↔ should = false ∧ was = true := by
  cases should <;> cases was <;> decide

end Worksheet.Table
