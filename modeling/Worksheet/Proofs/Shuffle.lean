import Mathlib.Data.List.Perm.Basic
import Mathlib.Data.Set.Function
import Worksheet.Shuffle

namespace Worksheet.Shuffle

variable {α : Type}

def Within (ranges : List (Nat × Nat)) (answers : List Nat) : Prop :=
  List.Forall₂ (fun range answer => range.1 ≤ answer ∧ answer ≤ range.2) ranges answers

def Source.Proper (source : Source) : Prop :=
  ∀ call first last, first ≤ last → first ≤ source call first last ∧ source call first last ≤ last

theorem proper_scripted (draws : List Int) : Source.Proper (scripted draws) := by
  intro call first last hrange
  have hsize : (0 : Int) < (last : Int) - first + 1 := by omega
  have hlow := Int.emod_nonneg ((draws[call % draws.length]?).getD 0) hsize.ne'
  have hhigh := Int.emod_lt_of_pos ((draws[call % draws.length]?).getD 0) hsize
  rw [scripted]
  omega

def answering (answers : List Nat) : Source := fun call _ _ => answers[call]?.getD 0

def Drawing.answers (source : Source) : Drawing α → List Nat
  | done _ => []
  | ask first last next =>
      let answer := source 0 first last
      answer :: (next answer).answers (fun call => source (call + 1))

theorem Drawing.run_answering (d : Drawing α) (source : Source) :
    d.run (answering (d.answers source)) = d.run source := by
  induction d generalizing source with
  | done result => rfl
  | ask first last next ih =>
      have hnext := ih (source 0 first last) (fun call => source (call + 1))
      have hlater : ∀ answer answers,
          (fun call => answering (answer :: answers) (call + 1)) = answering answers :=
        fun _ _ => rfl
      have hfirst : ∀ answer answers, answering (answer :: answers) 0 first last = answer :=
        fun _ _ => rfl
      simp only [answers, run, hfirst, hlater, hnext]

def rangesFrom : Nat → List (Nat × Nat)
  | 0 => []
  | last + 1 => (0, last + 1) :: rangesFrom last

theorem rangesFrom_eq (last : Nat) :
    rangesFrom last = (List.range last).map (fun call => (0, last - call)) := by
  induction last with
  | zero => rfl
  | succ last ih =>
      rw [rangesFrom, ih, List.range_succ_eq_map, List.map_cons, List.map_map]
      simp only [Function.comp_def, Nat.succ_eq_add_one, Nat.add_sub_add_right, Nat.sub_zero]

theorem within_rangesFrom_succ {last : Nat} {answers : List Nat} :
    Within (rangesFrom (last + 1)) answers ↔
      ∃ place rest, place ≤ last + 1 ∧ Within (rangesFrom last) rest ∧ answers = place :: rest := by
  rw [Within, rangesFrom, List.forall₂_cons_left_iff]
  simp only [Nat.zero_le, true_and]
  rfl

theorem asked_settle (source : Source) (last : Nat) (l : List α) :
    ((settle last l).run source).1 = rangesFrom last := by
  induction last generalizing source l with
  | zero => rfl
  | succ last ih => exact congrArg (List.cons (0, last + 1)) (ih _ _)

theorem within_answers_settle {source : Source} (h : source.Proper) (last : Nat) (l : List α) :
    Within (rangesFrom last) ((settle last l).answers source) := by
  induction last generalizing source l with
  | zero => exact .nil
  | succ last ih =>
      have hrest : Source.Proper (fun call => source (call + 1)) := fun call => h (call + 1)
      exact .cons (h 0 0 (last + 1) (Nat.zero_le _)) (ih hrest _)

theorem swap_eq (l : List α) (i j : Nat) : swap l i j = l.swap i j := by
  unfold swap
  split
  · next a b ha hb =>
      obtain ⟨hi, rfl⟩ := List.getElem?_eq_some_iff.mp ha
      obtain ⟨hj, rfl⟩ := List.getElem?_eq_some_iff.mp hb
      exact (List.swap_eq_of_lt hi hj).symm
  · next hnone =>
      rw [List.swap_eq, dif_neg]
      rintro ⟨hi, hj⟩
      exact hnone _ _ (List.getElem?_eq_getElem hi) (List.getElem?_eq_getElem hj)

theorem perm_swap (l : List α) (i j : Nat) : (swap l i j).Perm l := by
  rw [swap_eq]
  exact List.swap_perm l i j

theorem getElem?_swap_left {l : List α} {i j : Nat} (hi : i < l.length) (hj : j < l.length) :
    (swap l i j)[i]? = l[j]? := by
  rw [swap_eq, List.getElem?_eq_getElem (by rwa [List.length_swap]), List.getElem_swap_left_of_lt hj,
    List.getElem?_eq_getElem hj]

theorem getElem?_swap_of_lt {l : List α} {i j k : Nat} (hi : i < k) (hj : j < k) :
    (swap l i j)[k]? = l[k]? := by
  rw [swap_eq]
  by_cases hk : k < l.length
  · have hk' : k < (l.swap i j).length := by rwa [List.length_swap]
    rw [List.getElem?_eq_getElem hk', List.getElem?_eq_getElem hk,
      List.getElem_swap_of_ne (Nat.ne_of_gt hi) (Nat.ne_of_gt hj)]
  · rw [List.getElem?_eq_none (by rw [List.length_swap]; omega), List.getElem?_eq_none (by omega)]

theorem perm_run_settle (source : Source) (last : Nat) (l : List α) :
    ((settle last l).run source).2.Perm l := by
  induction last generalizing source l with
  | zero => exact .refl l
  | succ last ih => exact (ih _ _).trans (perm_swap l (last + 1) (source 0 0 (last + 1)))

def settled (last : Nat) (l : List α) (answers : List Nat) : List α :=
  ((settle last l).run (answering answers)).2

theorem settled_cons (last : Nat) (l : List α) (place : Nat) (rest : List Nat) :
    settled (last + 1) l (place :: rest) = settled last (swap l (last + 1) place) rest :=
  rfl

theorem getElem?_settled {last : Nat} {l : List α} {answers : List Nat}
    (h : Within (rangesFrom last) answers) {k : Nat} (hk : last < k) :
    (settled last l answers)[k]? = l[k]? := by
  induction last generalizing l answers with
  | zero => rfl
  | succ last ih =>
      obtain ⟨place, rest, hplace, hrest, rfl⟩ := within_rangesFrom_succ.mp h
      rw [settled_cons, ih hrest (by omega), getElem?_swap_of_lt hk (by omega)]

theorem settled_inj {last : Nat} {l : List α} (hl : l.Nodup) (hlast : last ≤ l.length - 1)
    {answers others : List Nat} (h : Within (rangesFrom last) answers)
    (h' : Within (rangesFrom last) others) (heq : settled last l answers = settled last l others) :
    answers = others := by
  induction last generalizing l answers others with
  | zero =>
      cases h
      cases h'
      rfl
  | succ last ih =>
      obtain ⟨place, rest, hplace, hrest, rfl⟩ := within_rangesFrom_succ.mp h
      obtain ⟨place', rest', hplace', hrest', rfl⟩ := within_rangesFrom_succ.mp h'
      rw [settled_cons, settled_cons] at heq
      -- nothing later touches the place that the first answer settled
      have hsettled : l[place]? = l[place']? := by
        rw [← getElem?_swap_left (i := last + 1) (by omega) (by omega),
          ← getElem?_swap_left (j := place') (i := last + 1) (by omega) (by omega),
          ← getElem?_settled hrest (Nat.lt_succ_self last), heq,
          getElem?_settled hrest' (Nat.lt_succ_self last)]
      obtain rfl : place = place' := (List.getElem?_inj (by omega) hl).mp hsettled
      have hperm := perm_swap l (last + 1) place
      rw [ih (hperm.nodup_iff.mpr hl) (by rw [hperm.length_eq]; omega) hrest hrest' heq]

theorem exists_place {last : Nat} {l p : List α} (hl : l.Nodup) (hp : p.Perm l)
    (hlast : last < l.length) (hlater : ∀ k, last < k → p[k]? = l[k]?) :
    ∃ place ≤ last, l[place]? = p[last]? := by
  have hp' : last < p.length := by rwa [hp.length_eq]
  obtain ⟨place, hplace, heq⟩ := List.getElem_of_mem (hp.subset (List.getElem_mem hp'))
  have hfrom : l[place]? = p[last]? := by
    rw [List.getElem?_eq_getElem hplace, List.getElem?_eq_getElem hp', heq]
  refine ⟨place, ?_, hfrom⟩
  -- a later place keeps its element, which would then stand in the permutation twice
  by_contra hlt
  have hsame : p[place]? = p[last]? := (hlater place (by omega)).trans hfrom
  have hplace' : place < p.length := by rwa [hp.length_eq]
  have := (List.getElem?_inj hplace' (hp.nodup_iff.mpr hl)).mp hsame
  omega

theorem exists_settled {last : Nat} {l p : List α} (hl : l.Nodup) (hp : p.Perm l)
    (hlast : last ≤ l.length - 1) (hlater : ∀ k, last < k → p[k]? = l[k]?) :
    ∃ answers, Within (rangesFrom last) answers ∧ settled last l answers = p := by
  induction last generalizing l with
  | zero =>
      refine ⟨[], .nil, ?_⟩
      cases l with
      | nil => exact (List.perm_nil.mp hp).symm
      | cons a rest =>
          obtain ⟨place, hplace, hfrom⟩ := exists_place hl hp (Nat.zero_lt_succ _) hlater
          obtain rfl : place = 0 := Nat.le_zero.mp hplace
          apply List.ext_getElem?
          rintro (_ | k)
          · exact hfrom
          · exact (hlater (k + 1) (Nat.zero_lt_succ k)).symm
  | succ last ih =>
      obtain ⟨place, hplace, hfrom⟩ := exists_place hl hp (by omega) hlater
      have hperm := perm_swap l (last + 1) place
      have hswapped : ∀ k, last < k → p[k]? = (swap l (last + 1) place)[k]? := by
        intro k hk
        rcases Nat.eq_or_lt_of_le hk with rfl | hk
        · rw [getElem?_swap_left (by omega) (by omega)]
          exact hfrom.symm
        · rw [getElem?_swap_of_lt hk (by omega)]
          exact hlater k hk
      obtain ⟨rest, hrest, heq⟩ := ih (hperm.nodup_iff.mpr hl) (hp.trans hperm.symm)
        (by rw [hperm.length_eq]; omega) hswapped
      exact ⟨place :: rest, within_rangesFrom_succ.mpr ⟨place, rest, hplace, hrest, rfl⟩, heq⟩

theorem bijOn_settled {l : List α} (hl : l.Nodup) :
    Set.BijOn (settled (l.length - 1) l) {answers | Within (rangesFrom (l.length - 1)) answers}
      {p | p.Perm l} := by
  refine ⟨?_, ?_, ?_⟩
  · intro answers _
    exact perm_run_settle (answering answers) _ l
  · intro answers h others h' heq
    exact settled_inj hl (Nat.le_refl _) h h' heq
  · intro p hp
    refine exists_settled hl hp (Nat.le_refl _) (fun k hk => ?_)
    have hlength : p.length = l.length := hp.length_eq
    rw [List.getElem?_eq_none (by omega), List.getElem?_eq_none (by omega)]

theorem shuffle_unbiased {l : List α} (hl : l.Nodup) :
    let ranges := (List.range (l.length - 1)).map (fun call => (0, l.length - 1 - call))
    (∀ source, asked source l = ranges) ∧
      (∀ source : Source, source.Proper → ∃ answers, Within ranges answers ∧
        shuffle source l = shuffle (answering answers) l) ∧
      Set.BijOn (fun answers => shuffle (answering answers) l) {answers | Within ranges answers}
        {p | p.Perm l} := by
  intro ranges
  have hranges : rangesFrom (l.length - 1) = ranges := rangesFrom_eq _
  refine ⟨fun source => ?_, fun source hproper => ?_, ?_⟩
  · rw [asked, drawing, asked_settle, hranges]
  · refine ⟨(drawing l).answers source, hranges ▸ within_answers_settle hproper _ l, ?_⟩
    rw [shuffle, shuffle, Drawing.run_answering]
  · rw [← hranges]
    exact bijOn_settled hl

theorem shuffle_unbiased_rows :
    ["fig", "oak", "sloe"].Nodup ∧
      asked (scripted [-1, 5]) ["fig", "oak", "sloe"] = [(0, 2), (0, 1)] ∧
      (∃ answers, Within [(0, 2), (0, 1)] answers ∧
        shuffle (scripted [-1, 5]) ["fig", "oak", "sloe"] =
          shuffle (answering answers) ["fig", "oak", "sloe"]) ∧
      ∃ answers, Within [(0, 2), (0, 1)] answers ∧
        shuffle (answering answers) ["fig", "oak", "sloe"] = ["sloe", "fig", "oak"] := by
  have hnodup : ["fig", "oak", "sloe"].Nodup := by decide
  obtain ⟨hasked, hproper, hbij⟩ := shuffle_unbiased hnodup
  obtain ⟨answers, hwithin, heq⟩ :=
    hbij.surjOn (show ["sloe", "fig", "oak"].Perm ["fig", "oak", "sloe"] by decide)
  exact ⟨hnodup, hasked _, hproper _ (proper_scripted _), answers, hwithin, heq⟩

end Worksheet.Shuffle
