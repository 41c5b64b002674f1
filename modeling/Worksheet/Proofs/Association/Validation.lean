import Worksheet.Association.Validation
import Worksheet.Proofs.Category
import Worksheet.Proofs.ErrorMap

namespace Worksheet.Association

open Text ErrorMap

section Entering

variable {left : String} {items seen : List String} {rest : List (String × List String)}

theorem enterPairs_cons_of_mem (h : left ∈ seen) :
    (enterPairs seen ((left, items) :: rest)).1 = (enterPairs seen rest).1 := by
  simp [enterPairs, h]

theorem enterPairs_cons_of_not_mem (h : left ∉ seen) :
    (enterPairs seen ((left, items) :: rest)).1 =
      (items.head?.map (⟨left, ·⟩)).toList ++ (enterPairs (left :: seen) rest).1 := by
  match items with
  | [] => simp [enterPairs, h]
  | [_] => simp [enterPairs, h]
  | _ :: _ :: _ => simp [enterPairs, h]

end Entering

theorem mem_enterPairs {p : Pair} :
    ∀ {defined : List (String × List String)} {seen : List String},
      p ∈ (enterPairs seen defined).1 →
        (∃ items, (p.left, items) ∈ defined ∧ p.right ∈ items) ∧ p.left ∉ seen := by
  intro defined
  induction defined with
  | nil => intro _ h; simp [enterPairs] at h
  | cons d defined ih =>
      intro seen h
      obtain ⟨left, items⟩ := d
      by_cases hd : left ∈ seen
      · rw [enterPairs_cons_of_mem hd] at h
        obtain ⟨⟨listed, hl, hr⟩, hseen⟩ := ih h
        exact ⟨⟨listed, List.mem_cons_of_mem _ hl, hr⟩, hseen⟩
      · rw [enterPairs_cons_of_not_mem hd] at h
        rcases List.mem_append.mp h with h | h
        · obtain ⟨right, hright, rfl⟩ : ∃ right, items.head? = some right ∧ ⟨left, right⟩ = p := by
            simpa using h
          exact ⟨⟨items, List.mem_cons_self, List.mem_of_head? hright⟩, hd⟩
        · obtain ⟨⟨listed, hl, hr⟩, hseen⟩ := ih h
          exact ⟨⟨listed, List.mem_cons_of_mem _ hl, hr⟩,
            fun hm => hseen (List.mem_cons_of_mem _ hm)⟩

theorem nodup_lefts_enterPairs :
    ∀ (defined : List (String × List String)) (seen : List String),
      ((enterPairs seen defined).1.map (·.left)).Nodup := by
  intro defined
  induction defined with
  | nil => intro _; simp [enterPairs]
  | cons d defined ih =>
      intro seen
      obtain ⟨left, items⟩ := d
      by_cases hd : left ∈ seen
      · rw [enterPairs_cons_of_mem hd]
        exact ih seen
      · rw [enterPairs_cons_of_not_mem hd, List.map_append]
        have hfresh : left ∉ (enterPairs (left :: seen) defined).1.map (·.left) := by
          intro hm
          obtain ⟨p, hp, rfl⟩ := List.mem_map.mp hm
          exact (mem_enterPairs hp).2 List.mem_cons_self
        cases items with
        | nil => exact ih _
        | cons right items => exact List.nodup_cons.mpr ⟨hfresh, ih _⟩

structure Sound (a : Association) : Prop where
  nodup_lefts : (a.pairs.map (·.left)).Nodup
  isItem_left : ∀ p ∈ a.pairs, IsItem p.left
  isItem_right : ∀ p ∈ a.pairs, IsItem p.right

theorem sound_read (text : String) : (read text).1.Sound := by
  refine ⟨nodup_lefts_enterPairs _ _, ?_, ?_⟩
  · intro p hp
    obtain ⟨⟨items, hdef, -⟩, -⟩ := mem_enterPairs hp
    exact (sound_of_mem_definitions hdef).2.1
  · intro p hp
    obtain ⟨⟨items, hdef, hright⟩, -⟩ := mem_enterPairs hp
    exact (sound_of_mem_definitions hdef).2.2 p.right hright

def Defect.stem : Defect → String
  | .noPairs => "pairs.empty"
  | .blankPair _ => "pairs.blank."
  | .duplicateLeft _ => "pairs.duplicateLeft."
  | .distractorConflict _ => "distractors.conflict."

theorem Defect.isUnder_stem (d : Defect) : IsUnder d.stem d.key := by
  cases d with
  | noPairs => exact List.prefix_rfl
  | blankPair position => exact isUnder_append _ (toString position)
  | duplicateLeft left => exact isUnder_append _ left
  | distractorConflict item => exact isUnder_append _ item

theorem pairsDefects_eq_nil :
    ∀ {pairs : List Pair} {position : Nat} {seen : List String},
      (pairs.map (·.left)).Nodup → (∀ p ∈ pairs, p.left ∉ seen) →
        (∀ p ∈ pairs, IsItem p.left ∧ IsItem p.right) → pairsDefects position seen pairs = [] := by
  intro pairs
  induction pairs with
  | nil => intro _ _ _ _ _; rfl
  | cons p rest ih =>
      intro position seen hn hseen hitem
      rw [List.map_cons, List.nodup_cons] at hn
      obtain ⟨hleft, hright⟩ := hitem p List.mem_cons_self
      have hfresh := hseen p List.mem_cons_self
      have hrest : pairsDefects (position + 1) (p.left :: seen) rest = [] := by
        apply ih hn.2
        · intro q hq hm
          rcases List.mem_cons.mp hm with heq | hm
          · exact hn.1 (List.mem_map.mpr ⟨q, hq, heq⟩)
          · exact hseen q (List.mem_cons_of_mem _ hq) hm
        · exact fun q hq => hitem q (List.mem_cons_of_mem _ hq)
      simp [pairsDefects, hleft.isBlank_eq_false, hright.isBlank_eq_false, hfresh, hrest]

theorem duplicateLeft_mem_pairsDefects {left : String} :
    ∀ {pairs : List Pair} {position : Nat} {seen : List String},
      .duplicateLeft left ∈ pairsDefects position seen pairs ↔
        Recurs seen (pairs.map (·.left)) left := by
  intro pairs
  induction pairs with
  | nil => intro _ seen; simp [pairsDefects, not_recurs_nil]
  | cons p rest ih =>
      intro position seen
      rw [pairsDefects, List.mem_append, List.mem_append, ih, List.map_cons, recurs_cons]
      simp

theorem nodup_leftPool_of_defects_eq_nil {a : Association} (h : a.defects = []) :
    a.leftPool.Nodup := by
  refine nodup_of_not_recurs (fun left hleft => ?_)
  have hdefect : .duplicateLeft left ∈ a.defects :=
    List.mem_append_left _ (List.mem_append_right _ (duplicateLeft_mem_pairsDefects.mpr hleft))
  rw [h] at hdefect
  exact List.not_mem_nil hdefect

theorem defects_read (text : String) :
    (read text).1.defects =
      (if (read text).1.pairs.isEmpty then [.noPairs] else []) ++
        ((read text).1.distractors.filter (· ∈ (read text).1.pairs.map (·.right))).map
          .distractorConflict := by
  have h := sound_read text
  have hpairs : pairsDefects 1 [] (read text).1.pairs = [] :=
    pairsDefects_eq_nil h.nodup_lefts (fun _ _ => List.not_mem_nil)
      (fun p hp => ⟨h.isItem_left p hp, h.isItem_right p hp⟩)
  rw [defects, hpairs, List.append_nil]

theorem not_isUnder_of_mem_defects {text : String} {d : Defect} (hd : d ∈ (read text).1.defects)
    {stem : String} (hs : stem ∈ readingStems) : ¬ IsUnder stem d.key := by
  intro hu
  have hcmp : ∃ s ∈ readingStems, IsUnder s d.stem ∨ IsUnder d.stem s :=
    ⟨stem, hs, hu.comparable d.isUnder_stem⟩
  rw [defects_read] at hd
  cases d with
  | blankPair position => simp at hd
  | duplicateLeft left => simp at hd
  | _ => exact absurd hcmp (by dsimp only [Defect.stem]; decide)

end Worksheet.Association
