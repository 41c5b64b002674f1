import Worksheet.Exercise.Basic
import Worksheet.Proofs.Classification.Validation
import Worksheet.Proofs.Text.Label

namespace Worksheet.Classification

open ErrorMap

def Defect.Arises (c : Classification) : Defect → Prop
  | noCategories => c.categories = []
  | duplicateLabel label => 2 ≤ c.labels.count label
  | rowConflict label =>
      label ∈ c.labels ∧ ∃ category ∈ c.categories, ∃ item ∈ category.items,
        normalizeLabel label = normalizeLabel item
  | emptyCategory label => ∃ category ∈ c.categories, category.label = label ∧ category.items = []
  | blankItem label =>
      ∃ category ∈ c.categories, category.label = label ∧
        ∃ item ∈ category.items, Text.isBlank item = true
  | duplicateItem label _ =>
      ∃ category ∈ c.categories, category.label = label ∧ ¬ category.items.Nodup
  | distractorConflict item => item ∈ c.distractors ∧ ∃ category ∈ c.categories, item ∈ category.items

instance (c : Classification) : ∀ d : Defect, Decidable (d.Arises c)
  | .noCategories => inferInstanceAs (Decidable (_ = _))
  | .duplicateLabel _ => inferInstanceAs (Decidable (_ ≤ _))
  | .rowConflict _ => inferInstanceAs (Decidable (_ ∧ _))
  | .emptyCategory _ => inferInstanceAs (Decidable (∃ _ ∈ _, _))
  | .blankItem _ => inferInstanceAs (Decidable (∃ _ ∈ _, _))
  | .duplicateItem _ _ => inferInstanceAs (Decidable (∃ _ ∈ _, _))
  | .distractorConflict _ => inferInstanceAs (Decidable (_ ∧ _))

variable {c : Classification}

theorem Defect.arises_of_key_eq {d e : Defect} (h : d.key = e.key) (hd : d.Arises c) :
    e.Arises c := by
  rcases eq_or_of_key_eq h with rfl | ⟨label, item, other, rfl, rfl⟩
  · exact hd
  · exact hd

theorem mem_map_lower_iff {label : String} :
    normalizeLabel label ∈ c.rows.map Text.lower ↔
      ∃ item ∈ c.rows, Text.collapse item = item ∧ normalizeLabel item = normalizeLabel label := by
  simp only [List.mem_map, lower_eq_normalizeLabel_iff]

theorem rowConflict_mem_keys_iff {label : String} {preset : TablePreset} :
    s!"categories.rowConflict.{label}" ∈ ((Exercise.classification c).validate preset).errors.keys ↔
      label ∈ c.labels ∧
        ∃ item ∈ c.rows, Text.collapse item = item ∧ normalizeLabel item = normalizeLabel label := by
  rw [← mem_map_lower_iff]
  refine (mem_keys_ofProblems_iff_mem Defect.key_eq_rowConflict).trans ?_
  rw [rowConflict_mem_defects]
  constructor
  · rintro ⟨category, hc, hmem, rfl⟩
    exact ⟨List.mem_map_of_mem hc, hmem⟩
  · rintro ⟨hlabel, hmem⟩
    obtain ⟨category, hc, rfl⟩ := List.mem_map.mp hlabel
    exact ⟨category, hc, hmem, rfl⟩

section Collapsed

variable (hitems : ∀ category ∈ c.categories, ∀ item ∈ category.items, Text.collapse item = item)

include hitems

theorem mem_map_lower_iff_of_collapsed {label : String} :
    normalizeLabel label ∈ c.rows.map Text.lower ↔
      ∃ category ∈ c.categories, ∃ item ∈ category.items,
        normalizeLabel label = normalizeLabel item := by
  rw [mem_map_lower_iff]
  constructor
  · rintro ⟨item, hr, -, heq⟩
    obtain ⟨category, hc, hi⟩ := mem_rows.mp hr
    exact ⟨category, hc, item, hi, heq.symm⟩
  · rintro ⟨category, hc, item, hi, heq⟩
    exact ⟨item, mem_rows.mpr ⟨category, hc, hi⟩, hitems category hc item hi, heq.symm⟩

theorem arises_of_mem_defects {d : Defect} (hd : d ∈ c.defects) : d.Arises c := by
  cases d with
  | noCategories => exact noCategories_mem_defects.mp hd
  | duplicateLabel label => exact duplicateLabel_mem_defects.mp hd
  | rowConflict label =>
      obtain ⟨category, hc, hmem, rfl⟩ := rowConflict_mem_defects.mp hd
      exact ⟨List.mem_map_of_mem hc, (mem_map_lower_iff_of_collapsed hitems).mp hmem⟩
  | emptyCategory label => exact emptyCategory_mem_defects.mp hd
  | blankItem label => exact blankItem_mem_defects.mp hd
  | duplicateItem label item =>
      obtain ⟨category, hc, hlabel, hitem⟩ := duplicateItem_mem_defects.mp hd
      exact ⟨category, hc, hlabel, exists_head?_repeats_iff.mp ⟨item, hitem⟩⟩
  | distractorConflict item =>
      obtain ⟨hdist, hr⟩ := distractorConflict_mem_defects.mp hd
      exact ⟨hdist, mem_rows.mp hr⟩

theorem exists_mem_defects_of_arises {d : Defect} (hd : d.Arises c) :
    ∃ e ∈ c.defects, e.key = d.key := by
  cases d with
  | noCategories => exact ⟨_, noCategories_mem_defects.mpr hd, rfl⟩
  | duplicateLabel label => exact ⟨_, duplicateLabel_mem_defects.mpr hd, rfl⟩
  | rowConflict label =>
      obtain ⟨hlabel, hconflict⟩ := hd
      obtain ⟨category, hc, rfl⟩ := List.mem_map.mp hlabel
      have hmem := (mem_map_lower_iff_of_collapsed hitems).mpr hconflict
      exact ⟨_, rowConflict_mem_defects.mpr ⟨category, hc, hmem, rfl⟩, rfl⟩
  | emptyCategory label => exact ⟨_, emptyCategory_mem_defects.mpr hd, rfl⟩
  | blankItem label => exact ⟨_, blankItem_mem_defects.mpr hd, rfl⟩
  | duplicateItem label item =>
      obtain ⟨category, hc, hlabel, hrepeated⟩ := hd
      obtain ⟨first, hfirst⟩ := exists_head?_repeats_iff.mpr hrepeated
      exact ⟨_, duplicateItem_mem_defects.mpr ⟨category, hc, hlabel, hfirst⟩, rfl⟩
  | distractorConflict item =>
      obtain ⟨hdist, hr⟩ := hd
      exact ⟨_, distractorConflict_mem_defects.mpr ⟨hdist, mem_rows.mpr hr⟩, rfl⟩

theorem report_of_collapsed (preset : TablePreset) :
    ((Exercise.classification c).validate preset).errors.Names (Defect.Arises c) :=
  names_ofProblems (fun _ => arises_of_mem_defects hitems)
    (fun _ => exists_mem_defects_of_arises hitems) (fun _ _ => Defect.arises_of_key_eq)

end Collapsed

def pantry : Classification where
  categories := [⟨"Jam", "Jam", ["Fig", "fig", "Fig"]⟩, ⟨"rest", "Rest", ["", "jam"]⟩,
    ⟨"rest", "Rest", []⟩]
  distractors := ["salt", "Fig"]

theorem report_of_collapsed_pantry :
    (∀ category ∈ pantry.categories, ∀ item ∈ category.items, Text.collapse item = item) ∧
      "categories.rowConflict.Jam" ∈
        ((Exercise.classification pantry).validate .nary).errors.keys ∧
      "categories.duplicateLabel.rest" ∈
        ((Exercise.classification pantry).validate .nary).errors.keys ∧
      "items.blank.rest" ∈ ((Exercise.classification pantry).validate .nary).errors.keys ∧
      "categories.duplicateItem.Jam" ∈
        ((Exercise.classification pantry).validate .nary).errors.keys ∧
      "categories.duplicateItem.rest" ∉
        ((Exercise.classification pantry).validate .nary).errors.keys := by
  have hitems : ∀ category ∈ pantry.categories, ∀ item ∈ category.items,
      Text.collapse item = item := by
    decide +kernel
  have hkey := (report_of_collapsed hitems .nary).key_mem_iff
  exact ⟨hitems, (hkey (.rowConflict "Jam")).mpr (by decide +kernel),
    (hkey (.duplicateLabel "rest")).mpr (by decide), (hkey (.blankItem "rest")).mpr (by decide),
    (hkey (.duplicateItem "Jam" "Fig")).mpr (by decide),
    mt (hkey (.duplicateItem "rest" "")).mp (by decide)⟩

end Worksheet.Classification
