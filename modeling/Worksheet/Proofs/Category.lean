import Worksheet.Category
import Worksheet.Proofs.Markup.Statement
import Worksheet.Proofs.Text.Label

namespace Worksheet

open Text Markup

theorem mem_labelled {d : Document} {label : String} {s : Statement}
    (h : (label, s) ∈ d.labelled) : s ∈ d.statements ∧ s.label = some label := by
  simp only [Document.labelled, List.mem_filterMap, Option.map_eq_some_iff, Prod.mk.injEq] at h
  obtain ⟨s', hs, l, hl, rfl, rfl⟩ := h
  exact ⟨hs, hl⟩

theorem sound_of_mem_definitions {rule : LabelRule} {text title : String} {items : List String}
    (h : (title, items) ∈ (definitions rule text).1) :
    rule.admits title = true ∧ IsItem title ∧ ∀ item ∈ items, IsItem item := by
  simp only [definitions, List.mem_map] at h
  obtain ⟨⟨label, s⟩, hs, heq⟩ := h
  simp only [Prod.mk.injEq] at heq
  obtain ⟨rfl, rfl⟩ := heq
  obtain ⟨hmem, hlabel⟩ := mem_labelled hs
  have hsound := sound_of_mem_readDocument hmem
  exact ⟨hsound.admits _ hlabel, hsound.isItem_label _ hlabel, hsound.isItem_items⟩

theorem isItem_of_mem_definitions_snd {rule : LabelRule} {text item : String}
    (h : item ∈ (definitions rule text).2) : IsItem item := by
  simp only [definitions, mem_distinct, List.mem_append, List.mem_flatMap] at h
  rcases h with h | ⟨s, hs, hi⟩
  · exact isItem_of_mem_extractDistractors h
  · have hmem := (List.mem_filter.mp hs).1
    exact (sound_of_mem_readDocument hmem).isItem_items item hi

section Entering

variable {title : String} {items seen : List String} {rest : List (String × List String)}

theorem enterCategories_nil : enterCategories seen [] = ([], []) := rfl

theorem enterCategories_cons :
    enterCategories seen ((title, items) :: rest) =
      if normalizeLabel title ∈ seen then
        ((enterCategories seen rest).1,
          .duplicateCategory (normalizeLabel title) :: (enterCategories seen rest).2)
      else
        (⟨normalizeLabel title, title, items⟩ ::
            (enterCategories (normalizeLabel title :: seen) rest).1,
          if items.isEmpty then
            .emptyCategory (normalizeLabel title) ::
              (enterCategories (normalizeLabel title :: seen) rest).2
          else (enterCategories (normalizeLabel title :: seen) rest).2) := rfl

theorem enterCategories_cons_of_mem (h : normalizeLabel title ∈ seen) :
    enterCategories seen ((title, items) :: rest) =
      ((enterCategories seen rest).1,
        .duplicateCategory (normalizeLabel title) :: (enterCategories seen rest).2) := by
  rw [enterCategories_cons, if_pos h]

theorem enterCategories_cons_of_not_mem (h : normalizeLabel title ∉ seen) :
    enterCategories seen ((title, items) :: rest) =
      (⟨normalizeLabel title, title, items⟩ ::
          (enterCategories (normalizeLabel title :: seen) rest).1,
        if items.isEmpty then
          .emptyCategory (normalizeLabel title) ::
            (enterCategories (normalizeLabel title :: seen) rest).2
        else (enterCategories (normalizeLabel title :: seen) rest).2) := by
  rw [enterCategories_cons, if_neg h]

end Entering

theorem mem_enterCategories {c : Category} :
    ∀ {defined : List (String × List String)} {seen : List String},
      c ∈ (enterCategories seen defined).1 →
        (c.title, c.items) ∈ defined ∧ c.label = normalizeLabel c.title ∧ c.label ∉ seen := by
  intro defined
  induction defined with
  | nil => intro _ h; simp [enterCategories_nil] at h
  | cons d defined ih =>
      intro seen h
      obtain ⟨title, items⟩ := d
      by_cases hd : normalizeLabel title ∈ seen
      · rw [enterCategories_cons_of_mem hd] at h
        have hc := ih h
        exact ⟨List.mem_cons_of_mem _ hc.1, hc.2⟩
      · rw [enterCategories_cons_of_not_mem hd] at h
        rcases List.mem_cons.mp h with rfl | h
        · exact ⟨List.mem_cons_self, rfl, hd⟩
        · have hc := ih h
          exact ⟨List.mem_cons_of_mem _ hc.1, hc.2.1, fun hm => hc.2.2 (List.mem_cons_of_mem _ hm)⟩

theorem nodup_labels_enterCategories :
    ∀ (defined : List (String × List String)) (seen : List String),
      ((enterCategories seen defined).1.map (·.label)).Nodup := by
  intro defined
  induction defined with
  | nil => intro _; simp [enterCategories_nil]
  | cons d defined ih =>
      intro seen
      obtain ⟨title, items⟩ := d
      by_cases hd : normalizeLabel title ∈ seen
      · rw [enterCategories_cons_of_mem hd]
        exact ih seen
      · rw [enterCategories_cons_of_not_mem hd, List.map_cons, List.nodup_cons]
        refine ⟨?_, ih _⟩
        intro hm
        obtain ⟨c, hc, hl⟩ := List.mem_map.mp hm
        have hlabel : c.label = normalizeLabel title := hl
        have hfresh := (mem_enterCategories hc).2.2
        rw [hlabel] at hfresh
        exact hfresh List.mem_cons_self

theorem emptyCategory_mem_enterCategories {label : String} :
    ∀ {defined : List (String × List String)} {seen : List String},
      .emptyCategory label ∈ (enterCategories seen defined).2 ↔
        ∃ c ∈ (enterCategories seen defined).1, c.label = label ∧ c.items = [] := by
  intro defined
  induction defined with
  | nil => intro _; simp [enterCategories_nil]
  | cons d defined ih =>
      intro seen
      obtain ⟨title, items⟩ := d
      by_cases hd : normalizeLabel title ∈ seen
      · rw [enterCategories_cons_of_mem hd, List.mem_cons]
        simp [ih]
      · rw [enterCategories_cons_of_not_mem hd]
        cases items with
        | nil => simp [ih, eq_comm]
        | cons item items => simp [ih]

theorem noMatches_not_mem_enterCategories :
    ∀ (defined : List (String × List String)) (seen : List String),
      .noMatches ∉ (enterCategories seen defined).2 := by
  intro defined
  induction defined with
  | nil => intro _; simp [enterCategories_nil]
  | cons d defined ih =>
      intro seen
      obtain ⟨title, items⟩ := d
      by_cases hd : normalizeLabel title ∈ seen
      · simp [enterCategories_cons_of_mem hd, ih]
      · rw [enterCategories_cons_of_not_mem hd]
        split <;> simp [ih]

theorem enterCategories_eq_nil_iff {defined : List (String × List String)} :
    (enterCategories [] defined).1 = [] ↔ defined = [] := by
  cases defined with
  | nil => simp [enterCategories_nil]
  | cons d defined =>
      obtain ⟨title, items⟩ := d
      rw [enterCategories_cons_of_not_mem List.not_mem_nil]
      simp

theorem readCategories_eq (text : String) :
    readCategories text =
      ⟨(enterCategories [] (definitions .category text).1).1, (definitions .category text).2,
        if (definitions .category text).1.isEmpty then
          .noMatches :: (enterCategories [] (definitions .category text).1).2
        else (enterCategories [] (definitions .category text).1).2⟩ := rfl

structure CategoryList.Sound (list : CategoryList) : Prop where
  nodup_labels : (list.categories.map (·.label)).Nodup
  normalizeLabel_label : ∀ c ∈ list.categories, normalizeLabel c.label = c.label
  isItem_items : ∀ c ∈ list.categories, ∀ item ∈ c.items, IsItem item
  isItem_distractors : ∀ item ∈ list.distractors, IsItem item

theorem sound_readCategories (text : String) : (readCategories text).Sound := by
  rw [readCategories_eq]
  refine ⟨nodup_labels_enterCategories _ _, ?_, ?_, fun item hi => isItem_of_mem_definitions_snd hi⟩
  · intro c hc
    obtain ⟨-, hlabel, -⟩ := mem_enterCategories hc
    rw [hlabel]
    exact normalizeLabel_normalizeLabel _
  · intro c hc
    exact (sound_of_mem_definitions (mem_enterCategories hc).1).2.2

theorem title_of_mem_readCategories {text : String} {c : Category}
    (h : c ∈ (readCategories text).categories) :
    IsItem c.title ∧ normalizeLabel c.title = c.label := by
  rw [readCategories_eq] at h
  obtain ⟨hdef, hlabel, -⟩ := mem_enterCategories h
  exact ⟨(sound_of_mem_definitions hdef).2.1, hlabel.symm⟩

theorem noMatches_mem_problems_readCategories {text : String} :
    .noMatches ∈ (readCategories text).problems ↔ (readCategories text).categories = [] := by
  rw [readCategories_eq]
  change _ ↔ (enterCategories [] (definitions .category text).1).1 = []
  rw [enterCategories_eq_nil_iff]
  cases h : (definitions .category text).1 with
  | nil => simp
  | cons d defined => simp [noMatches_not_mem_enterCategories]

theorem emptyCategory_mem_problems_readCategories {text label : String} :
    .emptyCategory label ∈ (readCategories text).problems ↔
      ∃ c ∈ (readCategories text).categories, c.label = label ∧ c.items = [] := by
  rw [readCategories_eq]
  change _ ↔ ∃ c ∈ (enterCategories [] (definitions .category text).1).1, _
  rw [← emptyCategory_mem_enterCategories]
  split <;> simp

end Worksheet
