import Worksheet.Exercise.Basic
import Worksheet.Proofs.Association.Validation
import Worksheet.Proofs.Classification.Validation
import Worksheet.Proofs.Recognition.Validation
import Worksheet.Proofs.Seriation.Validation
import Worksheet.Proofs.Table.Validation

namespace Worksheet

open ErrorMap

namespace Classification

theorem noMatches_mem_keys_iff (text : String) :
    "parse.noMatches" ∈ (ofProblems (read text).2).keys ↔
      "categories.empty" ∈ (ofProblems (read text).1.defects).keys := by
  rw [mem_keys_ofProblems_iff_mem CategoryProblem.key_eq_noMatches,
    mem_keys_ofProblems_iff_mem Defect.key_eq_noCategories, noCategories_mem_defects]
  exact noMatches_mem_problems_readCategories

theorem emptyCategory_mem_keys_iff (text label : String) :
    s!"parse.emptyCategory.{label}" ∈ (ofProblems (read text).2).keys ↔
      s!"categories.emptyCategory.{label}" ∈ (ofProblems (read text).1.defects).keys := by
  rw [mem_keys_ofProblems_iff_mem CategoryProblem.key_eq_emptyCategory,
    mem_keys_ofProblems_iff_mem Defect.key_eq_emptyCategory, emptyCategory_mem_defects]
  exact emptyCategory_mem_problems_readCategories

end Classification

namespace Table

theorem cols_read_eq_nil {text : String} :
    (read text).1.cols = [] ↔ (readCategories text).categories = [] :=
  List.map_eq_nil_iff

theorem find?_answerKey_read {text col : String} {items : List String} :
    (read text).1.answerKey.find? col = some items ↔
      ∃ c ∈ (readCategories text).categories, c.label = col ∧ c.items = items := by
  rw [OrderedMap.find?_eq_some_iff]
  change _ ∈ (ofCategoryList (readCategories text)).answerKey.entries ↔ _
  rw [entries_answerKey_ofCategoryList (sound_readCategories text)]
  simp

theorem noMatches_mem_keys_iff (text : String) (preset : TablePreset) :
    "parse.noMatches" ∈ (ofProblems (read text).2).keys ↔
      "cols.empty" ∈ (ofProblems ((read text).1.defects preset)).keys := by
  rw [mem_keys_ofProblems_iff_mem CategoryProblem.key_eq_noMatches,
    mem_keys_ofProblems_iff_mem Defect.key_eq_noCols, noCols_mem_defects, cols_read_eq_nil]
  exact noMatches_mem_problems_readCategories

theorem emptyCategory_mem_keys_iff (text label : String) (preset : TablePreset) :
    s!"parse.emptyCategory.{label}" ∈ (ofProblems (read text).2).keys ↔
      s!"answerKey.emptyCategory.{label}" ∈ (ofProblems ((read text).1.defects preset)).keys := by
  rw [mem_keys_ofProblems_iff_mem CategoryProblem.key_eq_emptyCategory,
    mem_keys_ofProblems_iff_mem Defect.key_eq_emptyCategory, emptyCategory_mem_defects,
    find?_answerKey_read]
  refine emptyCategory_mem_problems_readCategories.trans ?_
  constructor
  · rintro ⟨c, hc, hlabel, hitems⟩
    exact ⟨List.mem_map.mpr ⟨c, hc, hlabel⟩, c, hc, hlabel, hitems⟩
  · exact And.right

end Table

namespace Exercise

theorem not_hasStem_validate_read (family : Family) (text : String) (preset : TablePreset)
    {stem : String} (hs : stem ∈ readingStems) :
    ¬ ((read family text).exercise.validate preset).errors.HasStem stem := by
  intro h
  cases family with
  | classification =>
      simp only [read_classification, validate] at h
      obtain ⟨d, hd, hu⟩ := hasStem_ofProblems.mp h
      exact Classification.not_isUnder_of_mem_defects hd hs hu
  | table =>
      simp only [read_table, validate] at h
      obtain ⟨d, hd, hu⟩ := hasStem_ofProblems.mp h
      exact (Table.wellKeyed_read text).not_isUnder_of_mem_defects hd hs hu
  | recognition =>
      simp only [read_recognition, validate] at h
      obtain ⟨d, hd, hu⟩ := hasStem_ofProblems.mp h
      exact Recognition.not_isUnder_of_mem_defects hd hs hu
  | seriation =>
      simp only [read_seriation, validate] at h
      obtain ⟨d, hd, hu⟩ := hasStem_ofProblems.mp h
      exact Seriation.not_isUnder_of_mem_defects hd hs hu
  | association =>
      simp only [read_association, validate] at h
      obtain ⟨d, hd, hu⟩ := hasStem_ofProblems.mp h
      exact Association.not_isUnder_of_mem_defects hd hs hu

theorem reports_agree (text : String) :
    (∀ (family : Family) (preset : TablePreset), ∀ stem ∈ readingStems,
        ¬ ((read family text).exercise.validate preset).errors.HasStem stem) ∧
      ∀ preset : TablePreset,
        ("parse.noMatches" ∈ (read .classification text).errors.keys ↔
          "categories.empty" ∈
            ((read .classification text).exercise.validate preset).errors.keys) ∧
        ("parse.noMatches" ∈ (read .table text).errors.keys ↔
          "cols.empty" ∈ ((read .table text).exercise.validate preset).errors.keys) ∧
        ∀ label : String,
          (s!"parse.emptyCategory.{label}" ∈ (read .classification text).errors.keys ↔
            s!"categories.emptyCategory.{label}" ∈
              ((read .classification text).exercise.validate preset).errors.keys) ∧
          (s!"parse.emptyCategory.{label}" ∈ (read .table text).errors.keys ↔
            s!"answerKey.emptyCategory.{label}" ∈
              ((read .table text).exercise.validate preset).errors.keys) := by
  constructor
  · intro family preset stem hs
    exact not_hasStem_validate_read family text preset hs
  · intro preset
    simp only [read_classification, read_table, validate]
    refine ⟨Classification.noMatches_mem_keys_iff text, Table.noMatches_mem_keys_iff text preset, ?_⟩
    intro label
    exact ⟨Classification.emptyCategory_mem_keys_iff text label,
      Table.emptyCategory_mem_keys_iff text label preset⟩

def barren : String := "Fruit = ;\n= fig | oak;"

theorem reports_agree_barren :
    "rows.blank." ∈ readingStems ∧
      ¬ ((read .table barren).exercise.validate .nary).errors.HasStem "rows.blank." ∧
      "parse.emptyCategory." ++ "fruit" ∈ (read .table barren).errors.keys ∧
      "answerKey.emptyCategory." ++ "fruit" ∈
        ((read .table barren).exercise.validate .nary).errors.keys := by
  have hstem : "rows.blank." ∈ readingStems := by decide
  have hread : "parse.emptyCategory." ++ "fruit" ∈ (read .table barren).errors.keys := by
    decide +kernel
  have hagree := reports_agree barren
  exact ⟨hstem, hagree.1 .table .nary _ hstem, hread, ((hagree.2 .nary).2.2 "fruit").2.mp hread⟩

end Exercise

end Worksheet
