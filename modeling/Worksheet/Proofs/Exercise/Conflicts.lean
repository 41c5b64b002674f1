import Worksheet.Proofs.Classification.Report
import Worksheet.Proofs.Table.Report

namespace Worksheet

def classificationReport (categories : List Category) : ErrorMap :=
  ((Exercise.classification ⟨categories, []⟩).validate .classification).errors

def tableReport (categories : List Category) : ErrorMap :=
  ((Exercise.table (.ofCategoryList ⟨categories, [], []⟩)).validate .classification).errors

variable {categories : List Category} {label : String}

theorem rowConflict_mem_classificationReport_iff :
    s!"categories.rowConflict.{label}" ∈ (classificationReport categories).keys ↔
      label ∈ categories.map (·.label) ∧ ∃ item ∈ memberItems categories,
        Text.collapse item = item ∧ normalizeLabel item = normalizeLabel label :=
  Classification.rowConflict_mem_keys_iff

theorem rowConflict_mem_tableReport_iff :
    s!"cols.rowConflict.{label}" ∈ (tableReport categories).keys ↔
      label ∈ categories.map (·.label) ∧ ∃ item ∈ memberItems categories,
        normalizeLabel item = normalizeLabel label := by
  have hrows : (Table.ofCategoryList ⟨categories, [], []⟩).rows = memberItems categories := by
    rw [Table.ofCategoryList, List.append_nil, memberItems]
  have hkey := (Table.names_validate (.ofCategoryList ⟨categories, [], []⟩)
    .classification).key_mem_iff (.rowConflict label)
  rw [← hrows]
  exact hkey.trans (and_iff_right (by decide))

theorem rowConflict_mem_iff_of_collapsed
    (h : ∀ item ∈ memberItems categories,
      normalizeLabel item = normalizeLabel label → Text.collapse item = item) :
    s!"categories.rowConflict.{label}" ∈ (classificationReport categories).keys ↔
      s!"cols.rowConflict.{label}" ∈ (tableReport categories).keys := by
  rw [rowConflict_mem_classificationReport_iff, rowConflict_mem_tableReport_iff]
  constructor
  · rintro ⟨hlabel, item, hi, -, heq⟩
    exact ⟨hlabel, item, hi, heq⟩
  · rintro ⟨hlabel, item, hi, heq⟩
    exact ⟨hlabel, item, hi, h item hi heq, heq⟩

theorem collapse_of_mem_readCategories {text item : String}
    (h : item ∈ memberItems (readCategories text).categories) : Text.collapse item = item := by
  obtain ⟨category, hc, hi⟩ := List.mem_flatMap.mp (mem_distinct.mp h)
  exact ((sound_readCategories text).isItem_items category hc item hi).2

theorem row_conflicts (categories : List Category) (label : String) :
    (s!"cols.rowConflict.{label}" ∈ (tableReport categories).keys ↔
        label ∈ categories.map (·.label) ∧ ∃ item ∈ memberItems categories,
          normalizeLabel item = normalizeLabel label) ∧
      (s!"categories.rowConflict.{label}" ∈ (classificationReport categories).keys ↔
        label ∈ categories.map (·.label) ∧ ∃ item ∈ memberItems categories,
          Text.collapse item = item ∧ normalizeLabel item = normalizeLabel label) ∧
      ((∀ item ∈ memberItems categories,
          normalizeLabel item = normalizeLabel label → Text.collapse item = item) →
        (s!"categories.rowConflict.{label}" ∈ (classificationReport categories).keys ↔
          s!"cols.rowConflict.{label}" ∈ (tableReport categories).keys)) ∧
      ∀ text, (s!"categories.rowConflict.{label}" ∈
            (classificationReport (readCategories text).categories).keys ↔
          s!"cols.rowConflict.{label}" ∈ (tableReport (readCategories text).categories).keys) :=
  ⟨rowConflict_mem_tableReport_iff, rowConflict_mem_classificationReport_iff,
    rowConflict_mem_iff_of_collapsed,
    fun _ => rowConflict_mem_iff_of_collapsed (fun _ hi _ => collapse_of_mem_readCategories hi)⟩

def thicket : List Category :=
  [⟨"fig tree", "fig tree", ["Fig  tree", "plum"]⟩, ⟨"Plum", "Plum", ["PLUM", "sloe"]⟩]

theorem row_conflicts_thicket :
    "cols.rowConflict.fig tree" ∈ (tableReport thicket).keys ∧
      "cols.rowConflict.Plum" ∈ (tableReport thicket).keys ∧
      "categories.rowConflict.Plum" ∈ (classificationReport thicket).keys := by
  obtain ⟨htree, -, -, -⟩ := row_conflicts thicket "fig tree"
  obtain ⟨-, hreport, hplum, -⟩ := row_conflicts thicket "Plum"
  have hcollapsed : ∀ item ∈ memberItems thicket,
      normalizeLabel item = normalizeLabel "Plum" → Text.collapse item = item := by
    decide +kernel
  have hlisted := hreport.mpr ⟨by decide, "PLUM", by decide, by decide, by decide⟩
  exact ⟨htree.mpr ⟨by decide, "Fig  tree", by decide, by decide +kernel⟩,
    (hplum hcollapsed).mp hlisted, hlisted⟩

theorem rowConflict_missed :
    (thicket.map (·.label)).Nodup ∧
      ¬ ("categories.rowConflict.fig tree" ∈ (classificationReport thicket).keys ↔
        "cols.rowConflict.fig tree" ∈ (tableReport thicket).keys) := by
  have hother : ∀ item ∈ memberItems thicket,
      ¬ (Text.collapse item = item ∧ normalizeLabel item = normalizeLabel "fig tree") := by
    decide +kernel
  have htable := (@rowConflict_mem_tableReport_iff thicket "fig tree").mpr
    ⟨by decide, "Fig  tree", by decide, by decide +kernel⟩
  refine ⟨by decide, fun h => ?_⟩
  obtain ⟨-, item, hi, hitem⟩ :=
    (@rowConflict_mem_classificationReport_iff thicket "fig tree").mp (h.mpr htable)
  exact hother item hi hitem

end Worksheet
