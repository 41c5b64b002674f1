import Mathlib.Algebra.Order.Field.Rat
import Mathlib.Tactic.Linarith
import Mathlib.Tactic.Positivity
import Worksheet.Score

namespace Worksheet.Score

def InRange (s : Score) : Prop := 0 ≤ s.exact ∧ s.exact ≤ 100

theorem inRange_zero : zero.InRange := by
  constructor
  · exact le_of_eq rfl
  · change ((0 : Int) : Rat) ≤ 100
    norm_num

theorem exact_percent (a : Score) (b : Int) : (percent a b).exact = a.exact / b * 100 := rfl

theorem exact_percent_le {a : Score} {n : Nat} (h : a.exact ≤ n) : (percent a n).exact ≤ 100 := by
  have hle : a.exact / n ≤ 1 := div_le_one_of_le₀ h (Nat.cast_nonneg n)
  rw [exact_percent, Int.cast_natCast]
  linarith

theorem exact_percent_nonneg {a : Score} {n : Nat} (h : 0 ≤ a.exact) : 0 ≤ (percent a n).exact := by
  have hnonneg : 0 ≤ a.exact / n := div_nonneg h (Nat.cast_nonneg n)
  rw [exact_percent, Int.cast_natCast]
  linarith

theorem inRange_share {correct total : Nat} (h : correct ≤ total) :
    (share correct total).InRange := by
  unfold share
  split
  · constructor
    · exact exact_percent_nonneg (Int.cast_nonneg (Int.natCast_nonneg correct))
    · apply exact_percent_le
      change ((correct : Int) : Rat) ≤ total
      exact_mod_cast h
  · exact inRange_zero

theorem inRange_atLeastZero {a : Score} (h : a.exact ≤ 100) : (atLeastZero a).InRange := by
  rw [InRange, exact]
  split
  · next hpos => exact ⟨le_of_lt hpos, h⟩
  · norm_num

theorem inRange_rounded {a : Score} (h : a.InRange) : (rounded a).InRange := by
  obtain ⟨hlow, hhigh⟩ := h
  have hfloor : 0 ≤ (a.exact + 1 / 2).floor := by
    rw [Rat.le_floor_iff]
    push_cast
    linarith
  have hceil : (a.exact + 1 / 2).floor < 101 := by
    rw [Rat.floor_lt_iff]
    push_cast
    linarith
  constructor
  · exact Int.cast_nonneg hfloor
  · change ((a.exact + 1 / 2).floor : Rat) ≤ 100
    exact_mod_cast Int.lt_add_one_iff.mp hceil

theorem inRange_quotient {points n : Nat} (h : points ≤ 100 * n) :
    (quotient (whole points) (whole n)).InRange := by
  have hcast : (points : Rat) ≤ 100 * n := by exact_mod_cast h
  have hn : (0 : Rat) ≤ n := Nat.cast_nonneg n
  change 0 ≤ ((points : Int) : Rat) / ((n : Int) : Rat) ∧
    ((points : Int) : Rat) / ((n : Int) : Rat) ≤ 100
  rw [Int.cast_natCast, Int.cast_natCast]
  exact ⟨div_nonneg (Nat.cast_nonneg points) hn, div_le_of_le_mul₀ hn (by norm_num) hcast⟩

theorem exact_foldl_bounds (scores : List Score) :
    ∀ {x : Rat} {n : Nat}, (∀ s ∈ scores, s.InRange) → 0 ≤ x → x ≤ 100 * n →
      0 ≤ scores.foldl (· + ·.exact) x ∧
        scores.foldl (· + ·.exact) x ≤ 100 * (n + scores.length : Nat) := by
  induction scores with
  | nil => intro x n _ hlow hhigh; exact ⟨hlow, by simpa using hhigh⟩
  | cons s scores ih =>
      intro x n h hlow hhigh
      obtain ⟨hs, hs'⟩ := h s List.mem_cons_self
      have hnext := ih (x := x + s.exact) (n := n + 1)
        (fun a ha => h a (List.mem_cons_of_mem _ ha)) (by linarith) (by push_cast; linarith)
      rw [List.foldl_cons, List.length_cons]
      have hlength : n + (scores.length + 1) = n + 1 + scores.length := by omega
      rw [hlength]
      exact hnext

theorem exact_total_eq_sum (scores : List Score) :
    (total scores).exact = (scores.map exact).sum := by
  rw [exact_total, List.sum_eq_foldl, List.foldl_map]

theorem inRange_mean {scores : List Score} (h : ∀ s ∈ scores, s.InRange) :
    (quotient (total scores) (whole scores.length)).InRange := by
  obtain ⟨hlow, hhigh⟩ := exact_foldl_bounds scores (n := 0) h (le_refl 0) (by norm_num)
  rw [Nat.zero_add] at hhigh
  have hn : (0 : Rat) ≤ scores.length := Nat.cast_nonneg _
  change 0 ≤ (total scores).exact / ((scores.length : Int) : Rat) ∧
    (total scores).exact / ((scores.length : Int) : Rat) ≤ 100
  rw [exact_total, Int.cast_natCast]
  exact ⟨div_nonneg hlow hn, div_le_of_le_mul₀ hn (by norm_num) hhigh⟩

end Worksheet.Score
