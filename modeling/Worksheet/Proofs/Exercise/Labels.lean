import Worksheet.Proofs.Exercise.FullMarks

namespace Worksheet

def ToldApart (labels : List String) : Prop := (labels.map normalizeLabel).Nodup

instance (labels : List String) : Decidable (ToldApart labels) :=
  inferInstanceAs (Decidable (labels.map normalizeLabel).Nodup)

theorem toldApart_iff {labels : List String} :
    ToldApart labels ↔ labels.Nodup ∧
      ∀ a ∈ labels, ∀ b ∈ labels, normalizeLabel a = normalizeLabel b → a = b := by
  constructor
  · intro h
    have hnodup : labels.Nodup := h.of_map normalizeLabel
    exact ⟨hnodup, (List.nodup_map_iff_inj_on hnodup).mp h⟩
  · rintro ⟨hnodup, hinj⟩
    exact (List.nodup_map_iff_inj_on hnodup).mpr hinj

theorem toldApart_of_normalized {labels : List String} (h : labels.Nodup)
    (hnormal : ∀ label ∈ labels, normalizeLabel label = label) : ToldApart labels := by
  rwa [ToldApart, map_of_forall_eq hnormal]

theorem not_toldApart_concat {labels : List String} {label other : String} (h : other ∈ labels)
    (heq : normalizeLabel label = normalizeLabel other) : ¬ ToldApart (labels ++ [label]) := by
  intro happart
  rw [ToldApart, List.map_append, List.nodup_append] at happart
  exact happart.2.2 _ (List.mem_map_of_mem h) _ (List.mem_singleton.mpr rfl) heq.symm

theorem toldApart_labels_read (text : String) : ToldApart (Classification.read text).1.labels := by
  have hsound := sound_readCategories text
  refine toldApart_of_normalized hsound.nodup_labels (fun label hl => ?_)
  obtain ⟨category, hc, rfl⟩ := List.mem_map.mp hl
  exact hsound.normalizeLabel_label category hc

theorem toldApart_cols_read (text : String) : ToldApart (Table.read text).1.cols :=
  have hkeyed := Table.wellKeyed_read text
  toldApart_of_normalized hkeyed.nodup_cols hkeyed.normalizeLabel_col

namespace Classification

variable {c : Classification} {k : Category} {label : String}

def withTwin (c : Classification) (k : Category) (label : String) : Classification :=
  ⟨c.categories ++ [{ k with label := label }], c.distractors⟩

theorem labels_withTwin : (c.withTwin k label).labels = c.labels ++ [label] := by
  simp [labels, withTwin]

theorem rows_withTwin (hk : k ∈ c.categories) : (c.withTwin k label).rows = c.rows := by
  have hitems : k.items ⊆ c.categories.flatMap (·.items) := fun item hi =>
    List.mem_flatMap.mpr ⟨k, hk, hi⟩
  have hflat : (c.withTwin k label).categories.flatMap (·.items) =
      c.categories.flatMap (·.items) ++ k.items := by
    simp [withTwin]
  rw [rows, memberItems, hflat, distinct_append_of_subset hitems, rows, memberItems]

theorem Fits.of_twin {members : List String} (h : Fits members k)
    (heq : normalizeLabel label = normalizeLabel k.label) :
    Fits members { k with label := label } where
  normalizeLabel_not_mem := by
    rw [heq]
    exact h.normalizeLabel_not_mem
  items_ne_nil := h.items_ne_nil
  not_isBlank := h.not_isBlank
  nodup_items := h.nodup_items

theorem defects_withTwin_eq_nil_iff (h : c.defects = []) (hk : k ∈ c.categories)
    (heq : normalizeLabel label = normalizeLabel k.label) :
    (c.withTwin k label).defects = [] ↔ label ∉ c.labels := by
  obtain ⟨-, hnodup, hfits, hdistractors⟩ := defects_eq_nil_iff.mp h
  rw [defects_eq_nil_iff, labels_withTwin, rows_withTwin hk]
  constructor
  · rintro ⟨-, hlabels, -⟩ hl
    rw [List.nodup_append] at hlabels
    exact hlabels.2.2 label hl label (List.mem_singleton_self label) rfl
  · intro hl
    refine ⟨List.concat_ne_nil _ _, ?_, ?_, hdistractors⟩
    · rw [← List.concat_eq_append]
      exact hnodup.concat hl
    · intro category hc
      rcases List.mem_append.mp hc with hc | hc
      · exact hfits category hc
      · rw [List.mem_singleton.mp hc]
        exact (hfits k hk).of_twin heq

end Classification

theorem toldApart_of_validate_ok (preset : TablePreset) :
    (∀ c : Classification, ((Exercise.classification c).validate preset).ok = true →
      c.labels.Nodup ∧
        (ToldApart c.labels ↔
          ∀ a ∈ c.labels, ∀ b ∈ c.labels, normalizeLabel a = normalizeLabel b → a = b) ∧
        ∀ k ∈ c.categories, ∀ label, normalizeLabel label = normalizeLabel k.label →
          ¬ ToldApart (c.withTwin k label).labels ∧
            (((Exercise.classification (c.withTwin k label)).validate preset).ok = true ↔
              label ∉ c.labels)) ∧
      (∀ t : Table, ((Exercise.table t).validate preset).ok = true →
        ∀ cols : List String, (∀ col, col ∈ cols ↔ col ∈ t.cols) →
          ((Exercise.table { t with cols := cols }).validate preset).ok = true ∧
            (ToldApart cols ↔ cols.Nodup ∧
              ∀ a ∈ t.cols, ∀ b ∈ t.cols, normalizeLabel a = normalizeLabel b → a = b)) ∧
      ∀ text : String,
        ToldApart (Classification.read text).1.labels ∧ ToldApart (Table.read text).1.cols := by
  refine ⟨?_, ?_, fun text => ⟨toldApart_labels_read text, toldApart_cols_read text⟩⟩
  · intro c h
    have hdefects : c.defects = [] := ErrorMap.isEmpty_ofProblems.mp h
    have hnodup := Classification.nodup_labels_of_defects_eq_nil hdefects
    refine ⟨hnodup, toldApart_iff.trans (and_iff_right hnodup), fun k hk label heq => ⟨?_, ?_⟩⟩
    · rw [Classification.labels_withTwin]
      exact not_toldApart_concat (List.mem_map_of_mem hk) heq
    · exact ErrorMap.isEmpty_ofProblems.trans
        (Classification.defects_withTwin_eq_nil_iff hdefects hk heq)
  · intro t h cols hcols
    have hdefects : t.defects preset = [] := ErrorMap.isEmpty_ofProblems.mp h
    constructor
    · exact ErrorMap.isEmpty_ofProblems.mpr
        ((Table.defects_eq_nil_congr_cols hcols preset).mpr hdefects)
    · simp only [toldApart_iff, hcols]

def roster : Classification where
  categories := [⟨"Work", "Work", ["sweep"]⟩, ⟨"Rest", "Rest", ["nap", "read"]⟩]
  distractors := ["rain"]

def looms : Table where
  rows := ["warp", "weft"]
  cols := ["along", "across"]
  answerKey := .ofList [("along", ["warp"]), ("across", ["weft"])]
  distractors := []

theorem toldApart_of_validate_ok_roster :
    ToldApart roster.labels ∧
      ((Exercise.classification (roster.withTwin ⟨"Rest", "Rest", ["nap", "read"]⟩ "rest")).validate
        .nary).ok = true ∧
      ((Exercise.table { looms with cols := ["across", "along"] }).validate .nary).ok = true ∧
      ToldApart looms.cols := by
  obtain ⟨hroster, hlabels, hrest⟩ :
      ((Exercise.classification roster).validate .nary).ok = true ∧
        (∀ a ∈ roster.labels, ∀ b ∈ roster.labels, normalizeLabel a = normalizeLabel b → a = b) ∧
        normalizeLabel "rest" = normalizeLabel "Rest" := by
    decide +kernel
  obtain ⟨hok, hcols⟩ : ((Exercise.table looms).validate .nary).ok = true ∧
      ∀ a ∈ looms.cols, ∀ b ∈ looms.cols, normalizeLabel a = normalizeLabel b → a = b := by
    decide +kernel
  obtain ⟨hclassification, htable, -⟩ := toldApart_of_validate_ok .nary
  obtain ⟨-, happart, htwin⟩ := hclassification roster hroster
  have hlooms := htable looms hok
  refine ⟨happart.mpr hlabels, ?_, ?_, ?_⟩
  · exact (htwin ⟨"Rest", "Rest", ["nap", "read"]⟩ (by decide) "rest" hrest).2.mpr (by decide)
  · refine (hlooms ["across", "along"] (fun col => ?_)).1
    exact (List.Perm.swap "along" "across" []).mem_iff
  · exact (hlooms looms.cols (fun _ => Iff.rfl)).2.mpr ⟨by decide, hcols⟩

def doubled : Table := { looms with cols := ["along", "across", "along"] }

theorem accepted_not_toldApart :
    (((Exercise.classification (roster.withTwin ⟨"Work", "Work", ["sweep"]⟩ "work")).validate
          .classification).ok = true ∧
        ¬ ToldApart (roster.withTwin ⟨"Work", "Work", ["sweep"]⟩ "work").labels) ∧
      ((Exercise.table doubled).validate .nary).ok = true ∧ ¬ ToldApart doubled.cols := by
  decide

end Worksheet
