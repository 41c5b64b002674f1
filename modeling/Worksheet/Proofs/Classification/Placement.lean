import Worksheet.Exercise.Basic
import Worksheet.Proofs.Classification.Grading
import Worksheet.Proofs.Classification.Validation
import Worksheet.Proofs.Exercise.FullMarks

namespace Worksheet.Classification

open OrderedMap

variable {categories : List Category} {response : OrderedMap (Option String)}
  {distractors : List String}

instance (response : OrderedMap (Option String)) (item label : String) :
    Decidable (IsPlaced response item label) :=
  decidable_of_iff ((placed response).find? item = some label) find?_placed

theorem IsPlaced.label_eq {item label other : String} (h : IsPlaced response item label)
    (h' : IsPlaced response item other) : label = other :=
  Option.some.inj ((find?_placed.mpr h).symm.trans (find?_placed.mpr h'))

def settled (c : Classification) (response : OrderedMap (Option String)) : Finset String :=
  c.rows.toFinset.filter (fun item =>
    ∃ category ∈ c.categories, item ∈ category.items ∧ IsPlaced response item category.label)

def earned (categories : List Category) (response : OrderedMap (Option String)) : List String :=
  categories.flatMap (fun c => c.items.filter (IsPlaced response · (normalizeLabel c.label)))

theorem correct_grade :
    (grade categories response distractors).correct = (earned categories response).length := by
  rw [grade_eq]
  change countOf .correct (unitVerdicts (placed response) categories) = _
  induction categories with
  | nil => rfl
  | cons c categories ih =>
      rw [unitVerdicts, List.flatMap_cons, countOf_append, countOf_map, earned, List.flatMap_cons,
        List.length_append, ← List.countP_eq_length_filter]
      refine congrArg₂ (· + ·) (List.countP_congr (fun item _ => ?_)) ih
      simp only [decide_eq_true_eq, unitVerdict_eq_correct, find?_placed]

structure InOrder (categories : List Category) : Prop where
  nodup_labels : (categories.map (·.label)).Nodup
  normalizeLabel_label : ∀ c ∈ categories, normalizeLabel c.label = c.label
  title_ne_empty : ∀ c ∈ categories, c.title ≠ ""
  normalizeLabel_title : ∀ c ∈ categories, normalizeLabel c.title = c.label
  nodup_items : ∀ c ∈ categories, c.items.Nodup

namespace InOrder

variable (h : InOrder categories)

include h

theorem eq_of_label_eq {a b : Category} (ha : a ∈ categories) (hb : b ∈ categories)
    (hlabel : a.label = b.label) : a = b :=
  List.inj_on_of_nodup_map h.nodup_labels ha hb hlabel

theorem mem_earned {item : String} :
    item ∈ earned categories response ↔
      ∃ c ∈ categories, item ∈ c.items ∧ IsPlaced response item c.label := by
  simp only [earned, List.mem_flatMap, List.mem_filter, decide_eq_true_eq]
  refine exists_congr (fun c => and_congr_right (fun hc => ?_))
  rw [h.normalizeLabel_label c hc]

theorem nodup_earned : (earned categories response).Nodup := by
  rw [earned, List.nodup_flatMap]
  refine ⟨fun c hc => (h.nodup_items c hc).filter _, ?_⟩
  refine (List.pairwise_map.mp h.nodup_labels).imp_of_mem (fun {a b} ha hb hne => ?_)
  -- one placement would have to name both labels
  intro item hitem hitem'
  have hplaced := of_decide_eq_true (List.mem_filter.mp hitem).2
  have hplaced' := of_decide_eq_true (List.mem_filter.mp hitem').2
  apply hne
  rw [← h.normalizeLabel_label a ha, ← h.normalizeLabel_label b hb]
  exact hplaced.label_eq hplaced'

end InOrder

variable {c : Classification}

theorem mem_settled {item : String} :
    item ∈ c.settled response ↔
      ∃ category ∈ c.categories, item ∈ category.items ∧ IsPlaced response item category.label := by
  rw [settled, Finset.mem_filter, List.mem_toFinset, mem_rows]
  refine and_iff_right_of_imp ?_
  rintro ⟨category, hc, hitem, -⟩
  exact ⟨category, hc, hitem⟩

def firstPlacement (c : Classification) : OrderedMap (Option String) :=
  .ofList (c.rows.map (fun item => (item, (c.categories.find? (item ∈ ·.items)).map (·.title))))

namespace InOrder

variable (h : InOrder c.categories)

include h

theorem correct_eq_card (response : OrderedMap (Option String)) :
    (grade c.categories response distractors).correct = (c.settled response).card := by
  rw [correct_grade]
  exact length_eq_card h.nodup_earned (fun item => h.mem_earned.trans mem_settled.symm)

theorem exists_firstPlacement {item : String} (hitem : item ∈ c.rows) :
    ∃ category ∈ c.categories, item ∈ category.items ∧
      IsPlaced c.firstPlacement item category.label := by
  have hsome : (c.categories.find? (item ∈ ·.items)).isSome = true := by
    simpa using mem_rows.mp hitem
  obtain ⟨category, hfind⟩ := Option.isSome_iff_exists.mp hsome
  have hc : category ∈ c.categories := List.mem_of_find?_eq_some hfind
  have hlists : item ∈ category.items := by simpa using List.find?_some hfind
  refine ⟨category, hc, hlists, category.title, ?_, h.title_ne_empty category hc,
    h.normalizeLabel_title category hc⟩
  rw [firstPlacement, find?_ofList_map, if_pos hitem, hfind]
  rfl

theorem settled_firstPlacement : c.settled c.firstPlacement = c.rows.toFinset := by
  ext item
  rw [mem_settled, List.mem_toFinset]
  constructor
  · rintro ⟨category, hc, hitem, -⟩
    exact mem_rows.mpr ⟨category, hc, hitem⟩
  · exact h.exists_firstPlacement

theorem correct_le_length_rows (response : OrderedMap (Option String)) :
    (grade c.categories response distractors).correct ≤ c.rows.length := by
  rw [h.correct_eq_card]
  exact (Finset.card_filter_le _ _).trans (List.toFinset_card_le _)

theorem correct_firstPlacement :
    (grade c.categories c.firstPlacement distractors).correct = c.rows.length := by
  have hnodup : c.rows.Nodup := nodup_distinct _
  rw [h.correct_eq_card, h.settled_firstPlacement, List.toFinset_card_of_nodup hnodup]

theorem exists_correct_eq_total_iff :
    (∃ response, (grade c.categories response distractors).correct =
        (grade c.categories response distractors).total) ↔
      ∀ a ∈ c.categories, ∀ b ∈ c.categories, ∀ item ∈ a.items, item ∈ b.items → a = b := by
  simp only [correct_eq_total_iff]
  constructor
  · rintro ⟨response, hplaced⟩ a ha b hb item hitem hitem'
    have hlabel := (hplaced a ha item hitem).label_eq (hplaced b hb item hitem')
    rw [h.normalizeLabel_label a ha, h.normalizeLabel_label b hb] at hlabel
    exact h.eq_of_label_eq ha hb hlabel
  · intro honly
    refine ⟨c.firstPlacement, fun a ha item hitem => ?_⟩
    obtain ⟨b, hb, hitem', hplaced⟩ := h.exists_firstPlacement (mem_rows.mpr ⟨a, ha, hitem⟩)
    rw [honly a ha b hb item hitem hitem', h.normalizeLabel_label b hb]
    exact hplaced

end InOrder

theorem inOrder_read {text : String} (h : (read text).1.defects = []) :
    InOrder (read text).1.categories where
  nodup_labels := (sound_readCategories text).nodup_labels
  normalizeLabel_label := (sound_readCategories text).normalizeLabel_label
  title_ne_empty := fun _ hc => (title_of_mem_readCategories hc).1.1
  normalizeLabel_title := fun _ hc => (title_of_mem_readCategories hc).2
  nodup_items := nodup_items_of_defects_eq_nil h

theorem points_capped {text : String} {preset : TablePreset}
    (hcheck : (Exercise.check .classification text preset).ok = true) :
    let c := (read text).1
    (∀ response, (grade c.categories response c.distractors).correct = (c.settled response).card ∧
        (grade c.categories response c.distractors).correct ≤ c.rows.length) ∧
      (∃ response, (grade c.categories response c.distractors).correct = c.rows.length) ∧
      ((∃ response, (grade c.categories response c.distractors).correct =
          (grade c.categories response c.distractors).total) ↔
        ∀ a ∈ c.categories, ∀ b ∈ c.categories, ∀ item ∈ a.items, item ∈ b.items → a = b) := by
  intro c
  have h : InOrder c.categories := by
    have hvalid := Exercise.validate_ok_of_check_ok hcheck
    rw [Exercise.read_classification] at hvalid
    exact inOrder_read (ErrorMap.isEmpty_ofProblems.mp hvalid)
  exact ⟨fun response => ⟨h.correct_eq_card response, h.correct_le_length_rows response⟩,
    ⟨c.firstPlacement, h.correct_firstPlacement⟩, h.exists_correct_eq_total_iff⟩

def schedule : String := "Work = Eat | Talk;\nSchool = Eat | Play;\n= Sleep;"

def scheduleAnswers : OrderedMap (Option String) :=
  .ofList [("Eat", some "school"), ("Talk", some " WORK "), ("Play", some ""),
    ("Sleep", some "work")]

theorem points_capped_schedule :
    let c := (read schedule).1
    (Exercise.check .classification schedule .classification).ok = true ∧
      (grade c.categories scheduleAnswers c.distractors).correct = 2 ∧
      (∃ response, (grade c.categories response c.distractors).correct = 3) ∧
      ¬ ∃ response, (grade c.categories response c.distractors).correct =
        (grade c.categories response c.distractors).total := by
  intro c
  obtain ⟨hcheck, hsettled, hrows, hrepeated⟩ :
      (Exercise.check .classification schedule .classification).ok = true ∧
        (c.settled scheduleAnswers).card = 2 ∧ c.rows.length = 3 ∧
        ¬ ∀ a ∈ c.categories, ∀ b ∈ c.categories, ∀ item ∈ a.items, item ∈ b.items → a = b := by
    decide +kernel
  obtain ⟨hcorrect, ⟨response, hreached⟩, hfull⟩ := points_capped hcheck
  refine ⟨hcheck, (hcorrect scheduleAnswers).1.trans hsettled, ⟨response, hreached.trans hrows⟩, ?_⟩
  rw [hfull]
  exact hrepeated

end Worksheet.Classification
