import Worksheet.Exercise.Basic
import Worksheet.Proofs.Category
import Worksheet.Proofs.Definitions
import Worksheet.Proofs.OrderedMap

namespace Worksheet

open Chars Markup Text

namespace Definition

structure WellFormed (d : Definition) : Prop where
  isCategoryLabel_title : isCategoryLabel d.1 = true
  collapse_title : Text.collapse d.1 = d.1
  items_ne_nil : d.2 ≠ []
  isPlain_items : ∀ item ∈ d.2, IsPlain item

instance (d : Definition) : Decidable d.WellFormed :=
  decidable_of_iff
    (isCategoryLabel d.1 = true ∧ Text.collapse d.1 = d.1 ∧ d.2 ≠ [] ∧ ∀ item ∈ d.2, IsPlain item)
    ⟨fun ⟨ht, hc, hi, hp⟩ => ⟨ht, hc, hi, hp⟩,
      fun h => ⟨h.isCategoryLabel_title, h.collapse_title, h.items_ne_nil, h.isPlain_items⟩⟩

def category (d : Definition) : Category := ⟨Text.lower d.1, d.1, d.2⟩

end Definition

theorem isText_of_isLabelRest {c : Char} (h : isLabelRest c = true) : isText c = true := by
  rw [isText_iff]
  constructor
  · rintro rfl
    exact absurd h (by decide)
  · cases hm : Mark.ofChar? c with
    | none => rfl
    | some m =>
        rw [← Mark.char_of_ofChar? hm] at h
        cases m <;> exact absurd h (by decide)

theorem Definition.WellFormed.legible {d : Definition} (h : d.WellFormed) :
    d.Legible .category where
  admits := h.isCategoryLabel_title
  isItem_label := by
    refine ⟨?_, h.collapse_title⟩
    intro hempty
    have htitle := h.isCategoryLabel_title
    rw [hempty] at htitle
    cases htitle
  isText_label := fun _ hc => isText_of_isLabelRest (isLabelRest_of_mem h.isCategoryLabel_title hc)
  uncommented_label := by
    rintro ⟨note, hnote⟩
    have hslash : '/' ∈ d.1.toList := hnote ▸ List.mem_cons_self
    exact absurd (isLabelRest_of_mem h.isCategoryLabel_title hslash) (by decide)
  isPlain_items := h.isPlain_items

def distractorLines (items : List String) : List (List Char) :=
  if items = [] then [] else [distractorLine items]

def categoryLines (front back : List Definition) (distractors : List String) : List (List Char) :=
  front.map Definition.line ++ (distractorLines distractors ++ back.map Definition.line)

def categoryText (front back : List Definition) (distractors : List String) : String :=
  .ofList (unlines (categoryLines front back distractors))

section Text

variable {front back : List Definition} {distractors : List String}

theorem definitions_categoryText (h : ∀ d ∈ front ++ back, d.WellFormed)
    (hd : ∀ item ∈ distractors, IsPlain item) (hnodup : distractors.Nodup) :
    definitions .category (categoryText front back distractors) = (front ++ back, distractors) :=
  definitions_unlines (fun d hmem => (h d hmem).legible) (lists_distractorLine hd) hnodup

end Text

theorem enterCategories_of_nodup {ds : List Definition} (hitems : ∀ d ∈ ds, d.2 ≠ []) :
    ∀ {seen : List String}, (∀ d ∈ ds, normalizeLabel d.1 ∉ seen) →
      (ds.map (fun d => normalizeLabel d.1)).Nodup →
      enterCategories seen ds = (ds.map (fun d => ⟨normalizeLabel d.1, d.1, d.2⟩), []) := by
  induction ds with
  | nil => intro _ _ _; rfl
  | cons d ds ih =>
      intro seen hseen hnodup
      obtain ⟨hfresh, htail⟩ := List.nodup_cons.mp hnodup
      have hrest : ∀ e ∈ ds, normalizeLabel e.1 ∉ normalizeLabel d.1 :: seen := by
        intro e he hmem
        rcases List.mem_cons.mp hmem with heq | hmem
        · exact hfresh (List.mem_map.mpr ⟨e, he, heq⟩)
        · exact hseen e (List.mem_cons_of_mem _ he) hmem
      have hd : d.2.isEmpty = false := by
        rw [List.isEmpty_eq_false_iff]
        exact hitems d List.mem_cons_self
      rw [enterCategories_cons_of_not_mem (hseen d List.mem_cons_self),
        ih (fun e he => hitems e (List.mem_cons_of_mem _ he)) hrest htail, hd]
      rfl

section Text

variable {front back : List Definition} {distractors : List String}

theorem readCategories_categoryText (h : ∀ d ∈ front ++ back, d.WellFormed)
    (hlabels : ((front ++ back).map (fun d => Text.lower d.1)).Nodup)
    (hd : ∀ item ∈ distractors, IsPlain item) (hnodup : distractors.Nodup) :
    readCategories (categoryText front back distractors) =
      ⟨(front ++ back).map Definition.category, distractors,
        if front ++ back = [] then [.noMatches] else []⟩ := by
  have hnormal : ∀ d ∈ front ++ back, normalizeLabel d.1 = Text.lower d.1 := by
    intro d hmem
    rw [normalizeLabel, (h d hmem).collapse_title]
  rw [← List.map_congr_left hnormal] at hlabels
  have hcategories : (front ++ back).map (fun d => ⟨normalizeLabel d.1, d.1, d.2⟩) =
      (front ++ back).map Definition.category := by
    refine List.map_congr_left (fun d hmem => ?_)
    rw [hnormal d hmem, Definition.category]
  rw [readCategories_eq, definitions_categoryText h hd hnodup,
    enterCategories_of_nodup (fun d hmem => (h d hmem).items_ne_nil) (fun _ _ => List.not_mem_nil)
      hlabels, hcategories]
  cases front ++ back <;> rfl

theorem read_categoryText (h : ∀ d ∈ front ++ back, d.WellFormed)
    (hlabels : ((front ++ back).map (fun d => Text.lower d.1)).Nodup)
    (hd : ∀ item ∈ distractors, IsPlain item) (hnodup : distractors.Nodup) :
    let ds := front ++ back
    let sorting := Exercise.read .classification (categoryText front back distractors)
    let table := Exercise.read .table (categoryText front back distractors)
    sorting.exercise = .classification ⟨ds.map Definition.category, distractors⟩ ∧
      (∃ t, table.exercise = .table t ∧ t.cols = ds.map (fun d => Text.lower d.1) ∧
        t.answerKey.entries = ds.map (fun d => (Text.lower d.1, d.2)) ∧
        t.rows = distinct (ds.flatMap (·.2) ++ distractors) ∧ t.distractors = distractors) ∧
      (sorting.ok = true ↔ ds ≠ []) ∧ (table.ok = true ↔ ds ≠ []) := by
  intro ds sorting table
  have hread := readCategories_categoryText h hlabels hd hnodup
  have hproblems : (ErrorMap.ofProblems
      (if front ++ back = [] then [CategoryProblem.noMatches] else [])).isEmpty = true ↔ ds ≠ [] := by
    change _ ↔ front ++ back ≠ []
    cases front ++ back with
    | nil => decide
    | cons d ds => simp; rfl
  have hkeys : (((front ++ back).map (fun d => (Text.lower d.1, d.2))).map Prod.fst).Nodup := by
    rw [List.map_map]
    exact hlabels
  refine ⟨?_, ⟨(Table.read (categoryText front back distractors)).1, rfl, ?_, ?_, ?_, ?_⟩, ?_, ?_⟩
  · change Exercise.classification (Classification.read _).1 = _
    rw [Classification.read, hread]
  · simp only [Table.read, hread, Table.ofCategoryList, List.map_map]
    rfl
  · simp only [Table.read, hread, Table.ofCategoryList, List.map_map]
    exact OrderedMap.entries_ofList hkeys
  · simp only [Table.read, hread, Table.ofCategoryList, List.flatMap_map]
    rfl
  · simp only [Table.read, hread, Table.ofCategoryList]
  · change (ErrorMap.ofProblems (Classification.read _).2).isEmpty = true ↔ _
    rw [Classification.read, hread]
    exact hproblems
  · change (ErrorMap.ofProblems (Table.read _).2).isEmpty = true ↔ _
    rw [Table.read, hread]
    exact hproblems

theorem read_categoryText_garden :
    categoryText [("Fruit tree", ["fig = ficus", "// plum"])] [("_herb", ["mint"])] ["oak"] =
        "Fruit tree = fig = ficus | // plum;\n= oak;\n_herb = mint;" ∧
      (Exercise.read .table (categoryText [("Fruit tree", ["fig = ficus", "// plum"])]
        [("_herb", ["mint"])] ["oak"])).ok = true := by
  have h : ∀ d ∈ [("Fruit tree", ["fig = ficus", "// plum"])] ++ [("_herb", ["mint"])],
      Definition.WellFormed d := by decide
  have hlabels : (([("Fruit tree", ["fig = ficus", "// plum"])] ++ [("_herb", ["mint"])]).map
      (fun d => Text.lower d.1)).Nodup := by decide
  have hd : ∀ item ∈ ["oak"], IsPlain item := by decide
  have hread := read_categoryText h hlabels hd (by decide)
  exact ⟨rfl, hread.2.2.2.mpr (List.cons_ne_nil _ _)⟩

theorem not_ok_categoryText_nil :
    (∀ item ∈ ["fig"], IsPlain item) ∧ categoryText [] [] ["fig"] = "= fig;" ∧
      (Exercise.read .classification (categoryText [] [] ["fig"])).ok = false := by
  decide +kernel

end Text

end Worksheet
