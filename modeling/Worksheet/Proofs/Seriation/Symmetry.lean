import Mathlib.Algebra.BigOperators.Group.List.Basic
import Mathlib.Data.Nat.Dist
import Worksheet.Proofs.Seriation.Grading

namespace Worksheet.Seriation

open Score

def verdictAt : Nat → Verdict
  | 0 => .correct
  | 1 => .missed
  | _ => .wrong

theorem placeVerdict_some (index place : Nat) :
    placeVerdict index (some place) = verdictAt (Nat.dist index place) := by
  have hdist : Nat.dist index place = index - place + (place - index) := rfl
  rw [placeVerdict]
  split
  · next h =>
      have hzero : Nat.dist index place = 0 := by omega
      rw [hzero]
      rfl
  · split
    · have hone : Nat.dist index place = 1 := by omega
      rw [hone]
      rfl
    · obtain ⟨d, hd⟩ : ∃ d, Nat.dist index place = d + 2 := ⟨Nat.dist index place - 2, by omega⟩
      rw [hd]
      rfl

theorem verdictAt_eq_correct {d : Nat} : verdictAt d = .correct ↔ d = 0 := by
  match d with
  | 0 => simp [verdictAt]
  | 1 => simp [verdictAt]
  | _ + 2 => simp [verdictAt]

section Places

variable {items others : List String} {item : String}

theorem idxOf_append_cons {before : List String} (h : item ∉ before) (after : List String) :
    (before ++ item :: after).idxOf item = before.length := by
  rw [List.idxOf_append_of_notMem h, List.idxOf_cons_self, Nat.add_zero]

theorem idxOf?_of_mem (h : item ∈ items) : items.idxOf? item = some (items.idxOf item) := by
  obtain ⟨place, hplace⟩ := Option.isSome_iff_exists.mp (List.isSome_idxOf?.mpr h)
  rw [List.idxOf_eq_getD_idxOf?, hplace, Option.getD_some]

theorem idxOf_reverse (hn : items.Nodup) (h : item ∈ items) :
    items.reverse.idxOf item + items.idxOf item + 1 = items.length := by
  obtain ⟨before, after, rfl⟩ := List.append_of_mem h
  obtain ⟨hnot, -⟩ := List.nodup_cons.mp (List.nodup_middle.mp hn)
  rw [List.mem_append, not_or] at hnot
  have hafter : item ∉ after.reverse := fun hm => hnot.2 (List.mem_reverse.mp hm)
  have hreverse : (before ++ item :: after).reverse = after.reverse ++ item :: before.reverse := by
    simp
  rw [hreverse, idxOf_append_cons hafter, idxOf_append_cons hnot.1, List.length_reverse,
    List.length_append, List.length_cons]
  omega

theorem dist_idxOf_reverse (hn : items.Nodup) (hp : others.Perm items) (h : item ∈ items) :
    Nat.dist (items.reverse.idxOf item) (others.reverse.idxOf item) =
      Nat.dist (items.idxOf item) (others.idxOf item) := by
  have hitems := idxOf_reverse hn h
  have hothers := idxOf_reverse (hp.nodup_iff.mpr hn) (hp.mem_iff.mpr h)
  have hlength := hp.length_eq
  simp only [Nat.dist]
  omega

theorem map_idxOf_eq_range (hn : items.Nodup) :
    items.map items.idxOf = List.range items.length := by
  refine List.ext_getElem (by simp) (fun place _ _ => ?_)
  rw [List.getElem_map, List.getElem_range, hn.idxOf_getElem]

theorem sum_map_idxOf_eq (hn : items.Nodup) (hp : others.Perm items) :
    (items.map others.idxOf).sum = (items.map items.idxOf).sum :=
  calc (items.map others.idxOf).sum
      = (others.map others.idxOf).sum := (hp.map others.idxOf).sum_eq.symm
    _ = (List.range others.length).sum := by rw [map_idxOf_eq_range (hp.nodup_iff.mpr hn)]
    _ = (items.map items.idxOf).sum := by rw [hp.length_eq, map_idxOf_eq_range hn]

theorem countP_add_one_ne_length {f g : String → Nat} :
    ∀ {items : List String}, (items.map f).sum = (items.map g).sum →
      items.countP (fun item => f item = g item) + 1 ≠ items.length := by
  intro items
  induction items with
  | nil => simp
  | cons item items ih =>
      intro hsum hcount
      rw [List.map_cons, List.map_cons, List.sum_cons, List.sum_cons] at hsum
      rw [List.countP_cons, List.length_cons] at hcount
      by_cases hitem : f item = g item
      · -- the member that differs comes later
        simp only [hitem, decide_true, if_true] at hcount
        exact ih (by omega) (by omega)
      · -- all the others agree, so nothing makes up for this member
        simp only [hitem, decide_false, Bool.false_eq_true, if_false, Nat.add_zero,
          Nat.add_right_cancel_iff, List.countP_eq_length, decide_eq_true_eq] at hcount
        have hrest : (items.map f).sum = (items.map g).sum := by
          rw [List.map_congr_left hcount]
        omega

end Places

theorem verdictsFrom_eq_map (userOrder : List String) :
    ∀ (items before : List String), (before ++ items).Nodup →
      verdictsFrom before.length userOrder items = items.map (fun item =>
        ⟨item, none, placeVerdict ((before ++ items).idxOf item) (userOrder.idxOf? item)⟩) := by
  intro items
  induction items with
  | nil => intro _ _; rfl
  | cons item items ih =>
      intro before hn
      obtain ⟨hnot, -⟩ := List.nodup_cons.mp (List.nodup_middle.mp hn)
      rw [List.mem_append, not_or] at hnot
      have hsplit : before ++ item :: items = before ++ [item] ++ items := by simp
      have hrest := ih (before ++ [item]) (hsplit ▸ hn)
      rw [List.length_append, List.length_singleton, ← hsplit] at hrest
      rw [verdictsFrom, List.map_cons, hrest, idxOf_append_cons hnot.1]

theorem credits_eq (verdicts : List ItemVerdict) :
    credits verdicts = 100 * countOf .correct verdicts + 50 * countOf .missed verdicts := by
  induction verdicts with
  | nil => rfl
  | cons v verdicts ih =>
      rw [credits, ih, countOf, countOf, countOf, countOf, List.countP_cons, List.countP_cons]
      cases v.verdict with
      | correct => simp [credit, exactCredit]; omega
      | missed => simp [credit, adjacentCredit]; omega
      | wrong => simp [credit]

theorem exact_score_grade (order userOrder : List String) :
    (grade order userOrder).score.exact =
      (100 * countOf .correct (grade order userOrder).verdicts +
        50 * countOf .missed (grade order userOrder).verdicts : Nat) / order.length := by
  rw [← credits_eq, grade_eq]
  cases order with
  | nil => simp [zero, exact]
  | cons item items => rfl

structure SameMarks (g h : Grade) : Prop where
  correct_eq : countOf .correct g.verdicts = countOf .correct h.verdicts
  missed_eq : countOf .missed g.verdicts = countOf .missed h.verdicts
  score_eq : g.score.exact = h.score.exact

section Orders

variable {order userOrder : List String}

theorem verdicts_grade (hn : order.Nodup) (hp : userOrder.Perm order) :
    (grade order userOrder).verdicts = order.map (fun item =>
      ⟨item, none, verdictAt (Nat.dist (order.idxOf item) (userOrder.idxOf item))⟩) := by
  rw [grade_eq]
  have hverdicts := verdictsFrom_eq_map userOrder order [] hn
  refine hverdicts.trans (List.map_congr_left (fun item hitem => ?_))
  rw [idxOf?_of_mem (hp.mem_iff.mpr hitem), placeVerdict_some, List.nil_append]

theorem countOf_verdicts_grade (hn : order.Nodup) (hp : userOrder.Perm order) (v : Verdict) :
    countOf v (grade order userOrder).verdicts =
      order.countP (fun item =>
        verdictAt (Nat.dist (order.idxOf item) (userOrder.idxOf item)) = v) := by
  rw [verdicts_grade hn hp, countOf_map]

theorem sameMarks_of_dist_eq {others userOthers : List String} (hn : order.Nodup)
    (hp : userOrder.Perm order) (ho : others.Perm order) (hu : userOthers.Perm others)
    (hdist : ∀ item ∈ order, Nat.dist (others.idxOf item) (userOthers.idxOf item) =
      Nat.dist (order.idxOf item) (userOrder.idxOf item)) :
    SameMarks (grade others userOthers) (grade order userOrder) := by
  have hcount : ∀ v, countOf v (grade others userOthers).verdicts =
      countOf v (grade order userOrder).verdicts := by
    intro v
    rw [countOf_verdicts_grade (ho.nodup_iff.mpr hn) hu, countOf_verdicts_grade hn hp,
      ho.countP_eq]
    refine List.countP_congr (fun item hitem => ?_)
    rw [hdist item hitem]
  refine ⟨hcount .correct, hcount .missed, ?_⟩
  rw [exact_score_grade, exact_score_grade, hcount .correct, hcount .missed, ho.length_eq]

theorem sameMarks_exchange (hn : order.Nodup) (hp : userOrder.Perm order) :
    SameMarks (grade userOrder order) (grade order userOrder) :=
  sameMarks_of_dist_eq hn hp hp hp.symm (fun _ _ => Nat.dist_comm _ _)

theorem sameMarks_reverse (hn : order.Nodup) (hp : userOrder.Perm order) :
    SameMarks (grade order.reverse userOrder.reverse) (grade order userOrder) := by
  have hreverse : userOrder.reverse.Perm order.reverse :=
    (List.reverse_perm userOrder).trans (hp.trans (List.reverse_perm order).symm)
  exact sameMarks_of_dist_eq hn hp (List.reverse_perm order) hreverse
    (fun _ hitem => dist_idxOf_reverse hn hp hitem)

theorem correct_add_one_ne_length (hn : order.Nodup) (hp : userOrder.Perm order) :
    (grade order userOrder).correct + 1 ≠ order.length := by
  have hcount : (grade order userOrder).correct =
      order.countP (fun item => order.idxOf item = userOrder.idxOf item) := by
    rw [isTallied_grade]
    refine (countOf_verdicts_grade hn hp .correct).trans (List.countP_congr (fun item _ => ?_))
    simp only [verdictAt_eq_correct, decide_eq_true_eq]
    exact ⟨Nat.eq_of_dist_eq_zero, Nat.dist_eq_zero⟩
  rw [hcount]
  exact countP_add_one_ne_length (sum_map_idxOf_eq hn hp).symm

theorem grade_symmetric (hn : order.Nodup) (hp : userOrder.Perm order) :
    SameMarks (grade userOrder order) (grade order userOrder) ∧
      SameMarks (grade order.reverse userOrder.reverse) (grade order userOrder) ∧
      (grade order userOrder).correct + 1 ≠ order.length :=
  ⟨sameMarks_exchange hn hp, sameMarks_reverse hn hp, correct_add_one_ne_length hn hp⟩

end Orders

def growth : List String := ["seed", "root", "leaf", "flower", "fruit"]

def growthGuess : List String := ["root", "seed", "leaf", "fruit", "flower"]

theorem grade_symmetric_growth :
    growth.Nodup ∧ growthGuess.Perm growth ∧
      countOf .correct (grade growthGuess growth).verdicts = 1 ∧
      countOf .missed (grade growth.reverse growthGuess.reverse).verdicts = 4 ∧
      (grade growthGuess growth).score.exact = 60 ∧
      (grade growth growthGuess).correct + 1 ≠ growth.length := by
  have hn : growth.Nodup := by decide
  have hp : growthGuess.Perm growth := by decide
  obtain ⟨hexchange, hreverse, hne⟩ := grade_symmetric hn hp
  exact ⟨hn, hp, hexchange.correct_eq.trans rfl,
    hreverse.missed_eq.trans rfl, hexchange.score_eq.trans (by decide +kernel), hne⟩

end Worksheet.Seriation
