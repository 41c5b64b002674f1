import Worksheet.Classification.Validation
import Worksheet.Proofs.Category
import Worksheet.Proofs.ErrorMap

namespace Worksheet

open ErrorMap

namespace CategoryProblem

def stem : CategoryProblem → String
  | noMatches => "parse.noMatches"
  | duplicateCategory _ => "parse.duplicateCategory."
  | emptyCategory _ => "parse.emptyCategory."

theorem isUnder_stem (p : CategoryProblem) : IsUnder p.stem p.key := by
  cases p with
  | noMatches => exact List.prefix_rfl
  | duplicateCategory label => exact isUnder_append _ label
  | emptyCategory label => exact isUnder_append _ label

theorem eq_of_key_eq {p q : CategoryProblem} (h : p.key = q.key) : p = q := by
  have hcmp := (h ▸ p.isUnder_stem).comparable q.isUnder_stem
  cases p with
  | noMatches =>
      cases q with
      | noMatches => rfl
      | _ => exact absurd hcmp (by dsimp only [stem]; decide)
  | duplicateCategory label =>
      cases q with
      | duplicateCategory other =>
          have hlabel : label = other := (String.append_right_inj _).mp h
          rw [hlabel]
      | _ => exact absurd hcmp (by dsimp only [stem]; decide)
  | emptyCategory label =>
      cases q with
      | emptyCategory other =>
          have hlabel : label = other := (String.append_right_inj _).mp h
          rw [hlabel]
      | _ => exact absurd hcmp (by dsimp only [stem]; decide)

theorem key_eq_iff {p q : CategoryProblem} : p.key = q.key ↔ p = q := ⟨eq_of_key_eq, congrArg key⟩

theorem key_eq_noMatches {p : CategoryProblem} : p.key = "parse.noMatches" ↔ p = .noMatches :=
  key_eq_iff (q := .noMatches)

theorem key_eq_emptyCategory {p : CategoryProblem} {label : String} :
    p.key = s!"parse.emptyCategory.{label}" ↔ p = .emptyCategory label :=
  key_eq_iff (q := .emptyCategory label)

end CategoryProblem

namespace Classification

def Defect.stem : Defect → String
  | .noCategories => "categories.empty"
  | .duplicateLabel _ => "categories.duplicateLabel."
  | .rowConflict _ => "categories.rowConflict."
  | .emptyCategory _ => "categories.emptyCategory."
  | .blankItem _ => "items.blank."
  | .duplicateItem _ _ => "categories.duplicateItem."
  | .distractorConflict _ => "distractors.conflict."

theorem Defect.isUnder_stem (d : Defect) : IsUnder d.stem d.key := by
  cases d with
  | noCategories => exact List.prefix_rfl
  | duplicateLabel label => exact isUnder_append _ label
  | rowConflict label => exact isUnder_append _ label
  | emptyCategory label => exact isUnder_append _ label
  | blankItem label => exact isUnder_append _ label
  | duplicateItem label item => exact isUnder_append _ label
  | distractorConflict item => exact isUnder_append _ item

theorem Defect.eq_or_of_key_eq {d e : Defect} (h : d.key = e.key) :
    d = e ∨ ∃ label item other, d = .duplicateItem label item ∧ e = .duplicateItem label other := by
  have hcmp := (h ▸ d.isUnder_stem).comparable e.isUnder_stem
  cases d with
  | noCategories =>
      cases e with
      | noCategories => exact Or.inl rfl
      -- one key is the beginning of the other, so that stems alone do not tell them apart
      | emptyCategory label =>
          exact absurd h.symm (ne_of_isUnder (isUnder_stem _) (by dsimp only [stem]; decide))
      | _ => exact absurd hcmp (by dsimp only [stem]; decide)
  | duplicateLabel label =>
      cases e with
      | duplicateLabel other =>
          obtain rfl : label = other := (String.append_right_inj _).mp h
          exact Or.inl rfl
      | _ => exact absurd hcmp (by dsimp only [stem]; decide)
  | rowConflict label =>
      cases e with
      | rowConflict other =>
          obtain rfl : label = other := (String.append_right_inj _).mp h
          exact Or.inl rfl
      | _ => exact absurd hcmp (by dsimp only [stem]; decide)
  | emptyCategory label =>
      cases e with
      | emptyCategory other =>
          obtain rfl : label = other := (String.append_right_inj _).mp h
          exact Or.inl rfl
      | noCategories =>
          exact absurd h (ne_of_isUnder (isUnder_stem _) (by dsimp only [stem]; decide))
      | _ => exact absurd hcmp (by dsimp only [stem]; decide)
  | blankItem label =>
      cases e with
      | blankItem other =>
          obtain rfl : label = other := (String.append_right_inj _).mp h
          exact Or.inl rfl
      | _ => exact absurd hcmp (by dsimp only [stem]; decide)
  | duplicateItem label item =>
      cases e with
      | duplicateItem other item' =>
          obtain rfl : label = other := (String.append_right_inj _).mp h
          exact Or.inr ⟨label, item, item', rfl, rfl⟩
      | _ => exact absurd hcmp (by dsimp only [stem]; decide)
  | distractorConflict item =>
      cases e with
      | distractorConflict other =>
          obtain rfl : item = other := (String.append_right_inj _).mp h
          exact Or.inl rfl
      | _ => exact absurd hcmp (by dsimp only [stem]; decide)

theorem Defect.key_eq_iff {d e : Defect} (he : ∀ label item, e ≠ .duplicateItem label item) :
    d.key = e.key ↔ d = e := by
  constructor
  · intro h
    rcases eq_or_of_key_eq h with h | ⟨label, -, other, -, h⟩
    · exact h
    · exact absurd h (he label other)
  · rintro rfl
    rfl

theorem Defect.key_eq_noCategories {d : Defect} :
    d.key = "categories.empty" ↔ d = .noCategories :=
  key_eq_iff (e := .noCategories) (by simp)

theorem Defect.key_eq_rowConflict {d : Defect} {label : String} :
    d.key = s!"categories.rowConflict.{label}" ↔ d = .rowConflict label :=
  key_eq_iff (e := .rowConflict label) (by simp)

theorem Defect.key_eq_emptyCategory {d : Defect} {label : String} :
    d.key = s!"categories.emptyCategory.{label}" ↔ d = .emptyCategory label :=
  key_eq_iff (e := .emptyCategory label) (by simp)

theorem mem_categoriesDefects {members : List String} {d : Defect} :
    ∀ {categories : List Category} {seen : List String},
      d ∈ categoriesDefects seen members categories ↔
        ∃ before c after, categories = before ++ c :: after ∧
          d ∈ categoryDefects ((before.map (·.label)).reverse ++ seen) members c := by
  intro categories
  induction categories with
  | nil => intro seen; simp [categoriesDefects]
  | cons c rest ih =>
      intro seen
      rw [categoriesDefects, List.mem_append, ih]
      constructor
      · rintro (h | ⟨before, c', after, rfl, h⟩)
        · exact ⟨[], c, rest, rfl, h⟩
        · exact ⟨c :: before, c', after, rfl, by simpa using h⟩
      · rintro ⟨before, c', after, heq, h⟩
        cases before with
        | nil =>
            obtain ⟨rfl, rfl⟩ := List.cons.inj heq
            exact Or.inl h
        | cons b before =>
            obtain ⟨rfl, rfl⟩ := List.cons.inj heq
            exact Or.inr ⟨before, c', after, rfl, by simpa using h⟩

section Category

variable {seen members : List String} {c : Category} {label : String}

theorem duplicateLabel_mem_categoryDefects :
    .duplicateLabel label ∈ categoryDefects seen members c ↔ c.label ∈ seen ∧ label = c.label := by
  simp [categoryDefects]

theorem emptyCategory_mem_categoryDefects :
    .emptyCategory label ∈ categoryDefects seen members c ↔ c.items = [] ∧ label = c.label := by
  simp [categoryDefects]

theorem blankItem_mem_categoryDefects :
    .blankItem label ∈ categoryDefects seen members c ↔
      (∃ item ∈ c.items, Text.isBlank item = true) ∧ label = c.label := by
  simp [categoryDefects]

theorem rowConflict_mem_categoryDefects :
    .rowConflict label ∈ categoryDefects seen members c ↔
      normalizeLabel c.label ∈ members ∧ label = c.label := by
  simp [categoryDefects]

theorem duplicateItem_mem_categoryDefects {item : String} :
    .duplicateItem label item ∈ categoryDefects seen members c ↔
      (repeats [] c.items).head? = some item ∧ label = c.label := by
  simp [categoryDefects, eq_comm (a := label)]

theorem noCategories_not_mem_categoryDefects : .noCategories ∉ categoryDefects seen members c := by
  simp [categoryDefects]

theorem distractorConflict_not_mem_categoryDefects {item : String} :
    .distractorConflict item ∉ categoryDefects seen members c := by
  simp [categoryDefects]

end Category

theorem mem_categoriesDefects_iff {members : List String} {d : Defect} {P : Category → Prop}
    (h : ∀ seen c, d ∈ categoryDefects seen members c ↔ P c) {categories : List Category}
    {seen : List String} : d ∈ categoriesDefects seen members categories ↔ ∃ c ∈ categories, P c := by
  rw [mem_categoriesDefects]
  constructor
  · rintro ⟨before, c, after, rfl, hd⟩
    exact ⟨c, List.mem_append_right _ List.mem_cons_self, (h _ c).mp hd⟩
  · rintro ⟨c, hc, hP⟩
    obtain ⟨before, after, heq⟩ := List.append_of_mem hc
    exact ⟨before, c, after, heq, (h _ c).mpr hP⟩

theorem mem_rows {c : Classification} {item : String} :
    item ∈ c.rows ↔ ∃ category ∈ c.categories, item ∈ category.items := by
  rw [rows, memberItems, mem_distinct, List.mem_flatMap]

theorem mem_defects {c : Classification} {d : Defect} :
    d ∈ c.defects ↔ (c.categories = [] ∧ d = .noCategories) ∨
      d ∈ categoriesDefects [] (c.rows.map Text.lower) c.categories ∨
      ∃ item ∈ c.distractors, item ∈ c.rows ∧ .distractorConflict item = d := by
  simp [defects, and_assoc]

section Members

variable {c : Classification} {label : String}

theorem noCategories_mem_defects : .noCategories ∈ c.defects ↔ c.categories = [] := by
  rw [mem_defects,
    mem_categoriesDefects_iff (fun _ _ => iff_false_intro noCategories_not_mem_categoryDefects)]
  simp

theorem rowConflict_mem_defects :
    .rowConflict label ∈ c.defects ↔ ∃ category ∈ c.categories,
      normalizeLabel category.label ∈ c.rows.map Text.lower ∧ label = category.label := by
  rw [mem_defects, mem_categoriesDefects_iff (fun _ _ => rowConflict_mem_categoryDefects)]
  simp

theorem emptyCategory_mem_defects :
    .emptyCategory label ∈ c.defects ↔
      ∃ category ∈ c.categories, category.label = label ∧ category.items = [] := by
  rw [mem_defects, mem_categoriesDefects_iff (fun _ _ => emptyCategory_mem_categoryDefects)]
  simp [and_comm, eq_comm (a := label)]

theorem blankItem_mem_defects :
    .blankItem label ∈ c.defects ↔ ∃ category ∈ c.categories, category.label = label ∧
      ∃ item ∈ category.items, Text.isBlank item = true := by
  rw [mem_defects, mem_categoriesDefects_iff (fun _ _ => blankItem_mem_categoryDefects)]
  simp [and_comm, eq_comm (a := label)]

theorem duplicateItem_mem_defects {item : String} :
    .duplicateItem label item ∈ c.defects ↔ ∃ category ∈ c.categories, category.label = label ∧
      (repeats [] category.items).head? = some item := by
  rw [mem_defects, mem_categoriesDefects_iff (fun _ _ => duplicateItem_mem_categoryDefects)]
  simp [and_comm, eq_comm (a := label)]

theorem distractorConflict_mem_defects {item : String} :
    .distractorConflict item ∈ c.defects ↔ item ∈ c.distractors ∧ item ∈ c.rows := by
  rw [mem_defects, mem_categoriesDefects_iff
    (fun _ _ => iff_false_intro distractorConflict_not_mem_categoryDefects)]
  simp

end Members

theorem duplicateLabel_mem_categoriesDefects {members : List String} {label : String} :
    ∀ {categories : List Category} {seen : List String},
      .duplicateLabel label ∈ categoriesDefects seen members categories ↔
        Recurs seen (categories.map (·.label)) label := by
  intro categories
  induction categories with
  | nil => intro seen; simp [categoriesDefects, not_recurs_nil]
  | cons c rest ih =>
      intro seen
      rw [categoriesDefects, List.mem_append, ih, duplicateLabel_mem_categoryDefects, List.map_cons,
        recurs_cons]

theorem duplicateLabel_mem_defects {c : Classification} {label : String} :
    .duplicateLabel label ∈ c.defects ↔ 2 ≤ c.labels.count label := by
  rw [mem_defects, duplicateLabel_mem_categoriesDefects, recurs_nil_iff]
  simp [labels]

theorem duplicateLabel_not_mem_defects {c : Classification}
    (h : (c.categories.map (·.label)).Nodup) (label : String) : .duplicateLabel label ∉ c.defects := by
  have hcount := List.nodup_iff_count.mp h label
  rw [duplicateLabel_mem_defects, labels]
  omega

theorem blankItem_not_mem_defects {c : Classification}
    (h : ∀ category ∈ c.categories, ∀ item ∈ category.items, Text.IsItem item) (label : String) :
    .blankItem label ∉ c.defects := by
  rw [blankItem_mem_defects]
  rintro ⟨category, hc, -, item, hi, hblank⟩
  rw [(h category hc item hi).isBlank_eq_false] at hblank
  cases hblank

structure Fits (members : List String) (c : Category) : Prop where
  normalizeLabel_not_mem : normalizeLabel c.label ∉ members
  items_ne_nil : c.items ≠ []
  not_isBlank : ∀ item ∈ c.items, Text.isBlank item = false
  nodup_items : c.items.Nodup

theorem categoryDefects_eq_nil_iff {seen members : List String} {c : Category} :
    categoryDefects seen members c = [] ↔ c.label ∉ seen ∧ Fits members c := by
  have hrepeats : (repeats [] c.items).head? = none ↔ c.items.Nodup := by
    simp [repeats_eq_nil_iff]
  simp only [categoryDefects, List.append_eq_nil_iff, ite_eq_right_iff, List.cons_ne_self,
    imp_false, List.isEmpty_iff, List.any_eq_true, not_exists, not_and, Bool.not_eq_true,
    Option.toList_eq_nil_iff, Option.map_eq_none_iff, hrepeats, and_assoc]
  constructor
  · rintro ⟨hlabel, hmembers, hitems, hblank, hnodup⟩
    exact ⟨hlabel, hmembers, hitems, hblank, hnodup⟩
  · rintro ⟨hlabel, hmembers, hitems, hblank, hnodup⟩
    exact ⟨hlabel, hmembers, hitems, hblank, hnodup⟩

theorem categoriesDefects_eq_nil_iff {members : List String} :
    ∀ {categories : List Category} {seen : List String},
      categoriesDefects seen members categories = [] ↔
        (categories.map (·.label)).Nodup ∧ ∀ c ∈ categories, c.label ∉ seen ∧ Fits members c := by
  intro categories
  induction categories with
  | nil => intro seen; simp [categoriesDefects]
  | cons c rest ih =>
      intro seen
      rw [categoriesDefects, List.append_eq_nil_iff, categoryDefects_eq_nil_iff, ih, List.map_cons,
        List.nodup_cons, List.forall_mem_cons]
      constructor
      · rintro ⟨hc, hrest, h⟩
        refine ⟨⟨?_, hrest⟩, hc, fun d hd => ⟨?_, (h d hd).2⟩⟩
        · intro hmem
          obtain ⟨d, hd, hlabel⟩ := List.mem_map.mp hmem
          exact (h d hd).1 (hlabel ▸ List.mem_cons_self)
        · exact fun hseen => (h d hd).1 (List.mem_cons_of_mem _ hseen)
      · rintro ⟨⟨hfresh, hrest⟩, hc, h⟩
        refine ⟨hc, hrest, fun d hd => ⟨?_, (h d hd).2⟩⟩
        rw [List.mem_cons, not_or]
        exact ⟨fun hlabel => hfresh (List.mem_map.mpr ⟨d, hd, hlabel⟩), (h d hd).1⟩

theorem defects_eq_nil_iff {c : Classification} :
    c.defects = [] ↔
      c.categories ≠ [] ∧ c.labels.Nodup ∧
        (∀ category ∈ c.categories, Fits (c.rows.map Text.lower) category) ∧
        ∀ item ∈ c.distractors, item ∉ c.rows := by
  simp only [defects, List.append_eq_nil_iff, ite_eq_right_iff, List.cons_ne_self, imp_false,
    List.isEmpty_iff, categoriesDefects_eq_nil_iff, List.not_mem_nil, not_false_eq_true, true_and,
    List.map_eq_nil_iff, List.filter_eq_nil_iff, decide_eq_true_eq, labels, and_assoc, ne_eq]

theorem nodup_labels_of_defects_eq_nil {c : Classification} (h : c.defects = []) :
    c.labels.Nodup :=
  (defects_eq_nil_iff.mp h).2.1

theorem nodup_items_of_defects_eq_nil {c : Classification} (h : c.defects = []) :
    ∀ category ∈ c.categories, category.items.Nodup :=
  fun category hc => ((defects_eq_nil_iff.mp h).2.2.1 category hc).nodup_items

theorem not_isUnder_of_mem_defects {text : String} {d : Defect}
    (hd : d ∈ (read text).1.defects) {stem : String} (hs : stem ∈ readingStems) :
    ¬ IsUnder stem d.key := by
  intro hu
  have hcmp : ∃ s ∈ readingStems, IsUnder s d.stem ∨ IsUnder d.stem s :=
    ⟨stem, hs, hu.comparable d.isUnder_stem⟩
  have hsound := sound_readCategories text
  cases d with
  | duplicateLabel label => exact duplicateLabel_not_mem_defects hsound.nodup_labels label hd
  | blankItem label => exact blankItem_not_mem_defects hsound.isItem_items label hd
  | _ => exact absurd hcmp (by dsimp only [Defect.stem]; decide)

end Classification

end Worksheet
