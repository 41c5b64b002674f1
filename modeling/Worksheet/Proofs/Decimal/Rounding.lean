import Mathlib

namespace Worksheet.Decimal

open Float.Model Float.Model.UnpackedFloat

structure Normal (m : Nat) (e : Int) : Prop where
  low : 2 ^ 52 ≤ m
  high : m < 2 ^ 53
  exponent_low : -1074 ≤ e
  exponent_high : e ≤ 971

theorem toNat_implicit (m : BitVec 52) : (1#1 ++ m).toNat = 2 ^ 52 + m.toNat := by
  rw [BitVec.toNat_append, ← Nat.shiftLeft_add_eq_or_of_lt m.isLt]
  rfl

namespace Normal

variable {s : Sign} {m : Nat} {e : Int} {hm : 0 < m}

theorem log2_eq (h : Normal m e) : m.log2 = 52 :=
  (Nat.log2_eq_iff (by have := h.low; omega)).mpr ⟨h.low, h.high⟩

theorem toNat_digits (h : Normal m e) : (1#1 ++ BitVec.ofNat 52 m).toNat = m := by
  have := h.low
  have := h.high
  rw [toNat_implicit, BitVec.toNat_ofNat]
  omega

theorem toNat_field (h : Normal m e) :
    (BitVec.ofNat 11 (e + 1075).toNat).toNat = (e + 1075).toNat := by
  have := h.exponent_high
  rw [BitVec.toNat_ofNat, Nat.mod_eq_of_lt (by omega)]

theorem field_ne_zero (h : Normal m e) : BitVec.ofNat 11 (e + 1075).toNat ≠ 0#11 := by
  intro hzero
  have hval := congrArg BitVec.toNat hzero
  rw [h.toNat_field, BitVec.toNat_zero] at hval
  have := h.exponent_low
  omega

theorem field_ne_last (h : Normal m e) : BitVec.ofNat 11 (e + 1075).toNat ≠ -1#11 := by
  intro hlast
  have hval : (e + 1075).toNat = 2047 := h.toNat_field.symm.trans (congrArg BitVec.toNat hlast)
  have := h.exponent_high
  omega

theorem pack_eq (h : Normal m e) :
    UnpackedFloat.pack Format.binary64 (.finite s m e hm) =
      packComponents Format.binary64 s (BitVec.ofNat 11 (e + 1075).toNat) (BitVec.ofNat 52 m) := by
  have hexponent : e + Format.binary64.exponentBias + Format.binary64.mantissaBitsWithoutImplicit =
      e + 1075 := by
    norm_num [Format.exponentBias]
    ring
  have hfits : ¬ 2 ^ Format.binary64.exponentBits ≤ (e + 1075).toNat + 1 := by
    have := h.exponent_high
    norm_num
    omega
  have hdigits : m.log2 + 1 = Format.binary64.mantissaBits := by
    rw [h.log2_eq]
    rfl
  simp only [UnpackedFloat.pack]
  rw [hexponent, if_neg hfits, if_pos hdigits]

end Normal

theorem unpack_pack {s : Sign} {m : Nat} {e : Int} {hm : 0 < m} (h : Normal m e) :
    (Float.Model.pack (.finite s m e hm)).unpack = .finite s m e hm := by
  change UnpackedFloat.unpack _ (UnpackedFloat.pack Format.binary64 (.finite s m e hm)) = _
  rw [h.pack_eq, UnpackedFloat.unpack]
  simp only [unpackMantissa_packComponents, unpackExponent_packComponents,
    unpackSign_packComponents, h.field_ne_zero, h.field_ne_last, if_false, Sign.ofBitVec_toBitVec,
    h.toNat_field, h.toNat_digits]
  congr 1
  have := h.exponent_low
  norm_num [Format.exponentBias]
  omega

def signValue : Sign → ℚ
  | .negative => -1
  | .positive => 1

inductive Reads : UnpackedFloat → ℚ → Prop
  | zero (s : Sign) : Reads (.zero s) 0
  | finite {s : Sign} {m : Nat} {e : Int} (hm : 0 < m) (h : Normal m e) :
      Reads (.finite s m e hm) (signValue s * (m * 2 ^ e))

theorem targetExponent_eq (m : Nat) (e : Int) :
    Format.binary64.targetExponent (totalExponent m e) = max (m.log2 + e - 52) (-1074) := by
  norm_num [Format.targetExponent, totalExponent, Format.mantissaBits, Format.minExponent]
  ring_nf

theorem mantissa_shiftRight (em : ExtendedMantissa) (k : Nat) :
    (em >>> k).mantissa = em.mantissa / 2 ^ k := by
  induction k with
  | zero => exact (Nat.div_one _).symm
  | succ k ih =>
      change (em >>> k).mantissa / 2 = _
      rw [ih, Nat.div_div_eq_div_mul, pow_succ]

theorem roundedMantissa_bounds (em : ExtendedMantissa) :
    em.mantissa ≤ em.roundedMantissa ∧ em.roundedMantissa ≤ em.mantissa + 1 := by
  obtain ⟨m, r, s⟩ := em
  cases r <;> cases s <;>
    simp [ExtendedMantissa.roundedMantissa, ExtendedMantissa.accuracy, Accuracy.roundToNearestEven]
  omega

theorem shiftToTargetExponent_eq {m k : Nat} {e : Int} {a : Accuracy} (hk : m.log2 = 52 + k)
    (he : -1074 ≤ e + k) :
    shiftToTargetExponent Format.binary64 m e a =
      (ExtendedMantissa.ofMantissaAndAccuracy m a >>> k, e + k) := by
  have hshift : (max ((m.log2 : Int) + e - 52) (-1074) - e).toNat = k := by omega
  rw [shiftToTargetExponent, targetExponent_eq, shiftToExponent, hshift]

theorem mantissa_ofMantissaAndAccuracy (m : Nat) (a : Accuracy) :
    (ExtendedMantissa.ofMantissaAndAccuracy m a).mantissa = m := by
  cases a with
  | exact => rfl
  | inexact o => cases o <;> rfl

theorem div_two_pow_bounds {m k : Nat} (hk : m.log2 = 52 + k) :
    2 ^ 52 ≤ m / 2 ^ k ∧ m / 2 ^ k < 2 ^ 53 := by
  have hm : m ≠ 0 := by
    rintro rfl
    rw [Nat.log2_zero] at hk
    omega
  obtain ⟨hlow, hhigh⟩ := (Nat.log2_eq_iff hm).mp hk
  constructor
  · rw [Nat.le_div_iff_mul_le (Nat.two_pow_pos k), ← pow_add]
    exact hlow
  · rw [Nat.div_lt_iff_lt_mul (Nat.two_pow_pos k), ← pow_add]
    convert hhigh using 2
    omega

theorem shiftRight_exact (m k : Nat) :
    ExtendedMantissa.ofMantissaAndAccuracy (m * 2 ^ k) .exact >>> k = ⟨m, false, false⟩ := by
  induction k generalizing m with
  | zero =>
      rw [pow_zero, mul_one]
      rfl
  | succ k ih =>
      change ExtendedMantissa.shiftRightOne
        (ExtendedMantissa.ofMantissaAndAccuracy (m * 2 ^ (k + 1)) .exact >>> k) = _
      have hm : m * 2 ^ (k + 1) = 2 * m * 2 ^ k := by ring
      rw [hm, ih]
      simp [ExtendedMantissa.shiftRightOne]

theorem Normal.log2_mul {m k : Nat} {e : Int} (h : Normal m e) : (m * 2 ^ k).log2 = 52 + k := by
  have hm : m * 2 ^ k ≠ 0 := by
    have := h.low
    positivity
  have hlow : 2 ^ (52 + k) ≤ m * 2 ^ k := by
    rw [pow_add]
    exact Nat.mul_le_mul_right _ h.low
  have hhigh : m * 2 ^ k < 2 ^ (52 + k + 1) := by
    rw [add_right_comm, pow_add]
    exact Nat.mul_lt_mul_of_pos_right h.high (Nat.two_pow_pos k)
  exact (Nat.log2_eq_iff hm).mpr ⟨hlow, hhigh⟩

theorem shiftToTargetExponent_exact {m : Nat} {e : Int} (h : Normal m e) (k : Nat) :
    shiftToTargetExponent Format.binary64 (m * 2 ^ k) (e - k) .exact = (⟨m, false, false⟩, e) := by
  rw [shiftToTargetExponent_eq h.log2_mul (by have := h.exponent_low; omega), shiftRight_exact,
    sub_add_cancel]

theorem shiftToTargetExponent_normal {m : Nat} {e : Int} (h : Normal m e) :
    shiftToTargetExponent Format.binary64 m e .exact = (⟨m, false, false⟩, e) := by
  simpa using shiftToTargetExponent_exact h 0

theorem roundWithAccuracy_exact {s : Sign} {m : Nat} {e : Int} (h : Normal m e) (hm : 0 < m)
    (k : Nat) :
    roundWithAccuracy Format.binary64 s (m * 2 ^ k) (e - k) .exact = .finite s m e hm := by
  have hrounded : ExtendedMantissa.roundedMantissa ⟨m, false, false⟩ = m := rfl
  simp only [roundWithAccuracy, shiftToTargetExponent_exact h, hrounded,
    shiftToTargetExponent_normal h]
  rw [dif_neg hm.ne']

theorem carry {M : Nat} {e : Int} (hmin : 2 ^ 52 ≤ M) (hmax : M ≤ 2 ^ 53) (hlow : -1074 ≤ e)
    (hhigh : e ≤ 970) :
    let carried := shiftToTargetExponent Format.binary64 M e .exact
    Normal carried.1.mantissa carried.2 ∧
      (carried.1.mantissa : ℚ) * 2 ^ carried.2 = M * 2 ^ e := by
  obtain hM | rfl : M < 2 ^ 53 ∨ M = 2 ^ 53 := by omega
  · have hnormal : Normal M e := ⟨hmin, hM, hlow, by omega⟩
    simpa [shiftToTargetExponent_normal hnormal] using hnormal
  · have hcarried : shiftToTargetExponent Format.binary64 (2 ^ 53) e .exact =
        (⟨2 ^ 52, false, false⟩, e + 1) := by
      rw [shiftToTargetExponent_eq (k := 1) Nat.log2_two_pow (by omega)]
      rfl
    rw [hcarried]
    refine ⟨⟨le_rfl, by norm_num, by omega, by omega⟩, ?_⟩
    push_cast
    rw [zpow_add_one₀ (by norm_num)]
    ring

theorem abs_sub_le_of_div_bounds {m k M : Nat} {y : ℚ} (hlow : (m : ℚ) ≤ y) (hhigh : y ≤ m + 1)
    (hfloor : m / 2 ^ k ≤ M) (hceil : M ≤ m / 2 ^ k + 1) : |(M : ℚ) * 2 ^ k - y| ≤ 2 ^ k := by
  have hdiv := Nat.div_mul_le_self m (2 ^ k)
  have hlt : m + 1 ≤ (m / 2 ^ k + 1) * 2 ^ k := by
    rw [mul_comm]
    exact Nat.lt_mul_div_succ m (Nat.two_pow_pos k)
  have hbelow : M * 2 ^ k ≤ m + 2 ^ k := by nlinarith
  have habove : m + 1 ≤ M * 2 ^ k + 2 ^ k := by nlinarith
  have hbelow' : (M : ℚ) * 2 ^ k ≤ m + 2 ^ k := by exact_mod_cast hbelow
  have habove' : (m : ℚ) + 1 ≤ M * 2 ^ k + 2 ^ k := by exact_mod_cast habove
  rw [abs_le]
  constructor <;> linarith

theorem reads_roundWithAccuracy {s : Sign} {m k : Nat} {e : Int} {a : Accuracy}
    (hk : m.log2 = 52 + k) (hlow : -1074 ≤ e + k) (hhigh : e + k ≤ 970) :
    ∃ M : Nat, m / 2 ^ k ≤ M ∧ M ≤ m / 2 ^ k + 1 ∧
      Reads (roundWithAccuracy Format.binary64 s m e a) (signValue s * (M * 2 ^ (e + k))) := by
  have hfirst := shiftToTargetExponent_eq (a := a) hk hlow
  obtain ⟨hmin, hmax⟩ := div_two_pow_bounds hk
  have hbounds := roundedMantissa_bounds (ExtendedMantissa.ofMantissaAndAccuracy m a >>> k)
  rw [mantissa_shiftRight, mantissa_ofMantissaAndAccuracy] at hbounds
  refine ⟨_, hbounds.1, hbounds.2, ?_⟩
  obtain ⟨hnormal, hvalue⟩ := carry (hmin.trans hbounds.1) (by omega) hlow hhigh
  have hpos : 0 < (shiftToTargetExponent Format.binary64
      (ExtendedMantissa.ofMantissaAndAccuracy m a >>> k).roundedMantissa (e + k)
        .exact).1.mantissa := by
    have := hnormal.low
    omega
  rw [← hvalue]
  simp only [roundWithAccuracy, hfirst]
  rw [dif_neg hpos.ne']
  exact .finite hpos hnormal

def Moderate (v : ℚ) : Prop := 2 ^ (-1000 : Int) ≤ v ∧ v ≤ 2 ^ (1000 : Int)

theorem Moderate.exponent_bounds {m : Nat} {e : Int} {y : ℚ} (hm : m ≠ 0) (hlow : (m : ℚ) ≤ y)
    (hhigh : y ≤ m + 1) (h : Moderate (y * 2 ^ e)) : -1001 ≤ m.log2 + e ∧ m.log2 + e ≤ 1000 := by
  have hpow : (0 : ℚ) < 2 ^ e := zpow_pos (by norm_num) e
  have hle : (2 : ℚ) ^ m.log2 ≤ m := by exact_mod_cast Nat.log2_self_le hm
  have hlt : (m : ℚ) + 1 ≤ 2 ^ (m.log2 + 1) := by exact_mod_cast Nat.lt_log2_self
  constructor
  · have hbelow : (2 : ℚ) ^ (-1000 : Int) ≤ 2 ^ ((m.log2 + 1 : Nat) + e) := by
      rw [zpow_add₀ (by norm_num), zpow_natCast]
      exact h.1.trans (mul_le_mul_of_nonneg_right (hhigh.trans hlt) hpow.le)
    have := (zpow_le_zpow_iff_right₀ (by norm_num)).mp hbelow
    omega
  · have habove : (2 : ℚ) ^ (m.log2 + e) ≤ 2 ^ (1000 : Int) := by
      rw [zpow_add₀ (by norm_num), zpow_natCast]
      exact (mul_le_mul_of_nonneg_right (hle.trans hlow) hpow.le).trans h.2
    exact (zpow_le_zpow_iff_right₀ (by norm_num)).mp habove

theorem reads_rounded {s : Sign} {m : Nat} {e : Int} {a : Accuracy} {y : ℚ} (hm : 2 ^ 52 ≤ m)
    (hlow : (m : ℚ) ≤ y) (hhigh : y ≤ m + 1) (h : Moderate (y * 2 ^ e)) :
    ∃ w, Reads (roundWithAccuracy Format.binary64 s m e a) (signValue s * w) ∧
      |w - y * 2 ^ e| ≤ y * 2 ^ e / 2 ^ 52 := by
  have hne : m ≠ 0 := by omega
  obtain ⟨hmin, hmax⟩ := h.exponent_bounds hne hlow hhigh
  obtain ⟨k, hk⟩ := Nat.exists_eq_add_of_le ((Nat.le_log2 hne).mpr hm)
  obtain ⟨M, hfloor, hceil, hreads⟩ :=
    reads_roundWithAccuracy (s := s) (e := e) (a := a) hk (by omega) (by omega)
  refine ⟨_, hreads, ?_⟩
  have hpow : (0 : ℚ) < 2 ^ e := zpow_pos (by norm_num) e
  have hdist : |(M : ℚ) * 2 ^ k - y| ≤ y / 2 ^ 52 := by
    have hlarge : (2 : ℚ) ^ (52 + k) ≤ y := by
      rw [← hk]
      exact le_trans (by exact_mod_cast Nat.log2_self_le hne) hlow
    rw [le_div_iff₀ (by norm_num)]
    have hulp := abs_sub_le_of_div_bounds hlow hhigh hfloor hceil
    rw [pow_add] at hlarge
    linarith
  calc |(M : ℚ) * 2 ^ (e + k) - y * 2 ^ e| = |(M : ℚ) * 2 ^ k - y| * 2 ^ e := by
        rw [zpow_add₀ (by norm_num), zpow_natCast, ← abs_of_pos hpow, ← abs_mul, abs_of_pos hpow]
        ring_nf
    _ ≤ y / 2 ^ 52 * 2 ^ e := mul_le_mul_of_nonneg_right hdist hpow.le
    _ = y * 2 ^ e / 2 ^ 52 := by ring

theorem signValue_mul (s t : Sign) : signValue (s * t) = signValue s * signValue t := by
  cases s <;> cases t <;> norm_num [signValue]

theorem signValue_div (s t : Sign) : signValue (s / t) = signValue s / signValue t := by
  cases s <;> cases t <;> norm_num [signValue] <;> rfl

theorem abs_signValue_mul (s : Sign) (v : ℚ) : |signValue s * v| = |v| := by
  cases s <;> simp [signValue]

def Near (w v : ℚ) : Prop := |w - v| ≤ |v| / 2 ^ 52

theorem near_self (v : ℚ) : Near v v := by
  rw [Near, sub_self, abs_zero]
  positivity

def Bounded (v : ℚ) : Prop := v = 0 ∨ Moderate |v|

theorem near_signValue_mul (s : Sign) {w v : ℚ} (h : |w - v| ≤ v / 2 ^ 52) :
    Near (signValue s * w) (signValue s * v) := by
  rw [Near, ← mul_sub, abs_signValue_mul, abs_signValue_mul]
  exact h.trans (by gcongr; exact le_abs_self v)

theorem moderate_of_bounded {s : Sign} {v : ℚ} (hv : 0 < v) (h : Bounded (signValue s * v)) :
    Moderate v := by
  rcases h with h | h
  · have habs := abs_signValue_mul s v
    rw [h, abs_zero, abs_of_pos hv] at habs
    exact absurd habs hv.ne
  · rwa [abs_signValue_mul, abs_of_pos hv] at h

theorem reads_mul {x y : UnpackedFloat} {a b : ℚ} (hx : Reads x a) (hy : Reads y b)
    (h : Bounded (a * b)) :
    ∃ c, Reads (UnpackedFloat.mul Format.binary64 x y) c ∧ Near c (a * b) := by
  cases hx with
  | zero s =>
      cases hy with
      | zero t => exact ⟨0, .zero _, by simp [near_self]⟩
      | finite hn hy => exact ⟨0, .zero _, by simp [near_self]⟩
  | @finite s m e hm hx =>
      cases hy with
      | zero t => exact ⟨0, .zero _, by simp [near_self]⟩
      | @finite t n f hn hy =>
          have hproduct : signValue s * (m * 2 ^ e) * (signValue t * (n * 2 ^ f)) =
              signValue (s * t) * ((m * n : Nat) * 2 ^ (e + f)) := by
            rw [signValue_mul, zpow_add₀ (by norm_num)]
            push_cast
            ring
          have hlarge : 2 ^ 52 ≤ m * n := by nlinarith [hx.low, hy.low]
          rw [hproduct] at h ⊢
          have hpos : (0 : ℚ) < (m * n : Nat) * 2 ^ (e + f) := by
            have : 0 < m * n := by omega
            exact mul_pos (by exact_mod_cast this) (zpow_pos (by norm_num) _)
          obtain ⟨w, hreads, hnear⟩ := reads_rounded (s := s * t) (a := .exact) hlarge le_rfl
            (le_add_of_nonneg_right zero_le_one) (moderate_of_bounded hpos h)
          exact ⟨_, hreads, near_signValue_mul _ hnear⟩

theorem round_eq {s : Sign} {m : Nat} {e : Int} (h : -1022 ≤ m.log2 + e) :
    UnpackedFloat.round Format.binary64 s m e =
      roundWithAccuracy Format.binary64 s (m * 2 ^ (52 - m.log2)) (e - (52 - m.log2 : Nat))
        .exact := by
  have hshift : (e - max ((m.log2 : Int) + e - 52) (-1074)).toNat = 52 - m.log2 := by omega
  simp only [UnpackedFloat.round, targetExponent_eq, decreaseExponent, hshift, Nat.shiftLeft_eq]

theorem two_pow_le_mul {m : Nat} (hm : 0 < m) : 2 ^ 52 ≤ m * 2 ^ (52 - m.log2) := by
  calc 2 ^ 52 ≤ 2 ^ (m.log2 + (52 - m.log2)) := Nat.pow_le_pow_right (by norm_num) (by omega)
    _ = 2 ^ m.log2 * 2 ^ (52 - m.log2) := pow_add ..
    _ ≤ m * 2 ^ (52 - m.log2) := Nat.mul_le_mul_right _ (Nat.log2_self_le hm.ne')

theorem mul_two_pow_value (m k : Nat) (e : Int) :
    ((m * 2 ^ k : Nat) : ℚ) * 2 ^ (e - k) = m * 2 ^ e := by
  rw [zpow_sub₀ (by norm_num), zpow_natCast]
  push_cast
  field_simp

theorem reads_round {s : Sign} {m : Nat} {e : Int} (hm : 0 < m) (h : Moderate (m * 2 ^ e)) :
    ∃ w, Reads (UnpackedFloat.round Format.binary64 s m e) (signValue s * w) ∧
      |w - m * 2 ^ e| ≤ m * 2 ^ e / 2 ^ 52 := by
  obtain ⟨hmin, -⟩ := h.exponent_bounds hm.ne' le_rfl (le_add_of_nonneg_right zero_le_one)
  rw [← mul_two_pow_value m (52 - m.log2) e] at h ⊢
  rw [round_eq (by omega)]
  exact reads_rounded (two_pow_le_mul hm) le_rfl (le_add_of_nonneg_right zero_le_one) h

theorem cast_apply (s : Sign) (m : Nat) : ((s.apply m : Int) : ℚ) = signValue s * m := by
  cases s <;> simp [Sign.apply, signValue]

theorem exists_eq_apply (z : Int) : ∃ (s : Sign) (m : Nat), z = s.apply m := by
  obtain ⟨m, rfl | rfl⟩ := z.eq_nat_or_neg
  · exact ⟨.positive, m, rfl⟩
  · exact ⟨.negative, m, rfl⟩

theorem normalize_apply (s : Sign) {m : Nat} (hm : 0 < m) (e : Int) :
    UnpackedFloat.normalize Format.binary64 (s.apply m) e .positive =
      UnpackedFloat.round Format.binary64 s m e := by
  cases s with
  | negative =>
      rw [UnpackedFloat.normalize, Sign.apply, Int.compare_eq_lt.mpr (by omega)]
      simp
  | positive =>
      rw [UnpackedFloat.normalize, Sign.apply, Int.compare_eq_gt.mpr (by omega)]
      simp

theorem reads_normalize {z e : Int} (h : Bounded (z * 2 ^ e)) :
    ∃ c, Reads (UnpackedFloat.normalize Format.binary64 z e .positive) c ∧ Near c (z * 2 ^ e) := by
  obtain ⟨s, m, rfl⟩ := exists_eq_apply z
  rw [cast_apply, mul_assoc] at h ⊢
  obtain rfl | hm := m.eq_zero_or_pos
  · exact ⟨0, by cases s <;> exact .zero _, by simp [near_self]⟩
  · have hpos : (0 : ℚ) < m * 2 ^ e := mul_pos (by exact_mod_cast hm) (zpow_pos (by norm_num) e)
    obtain ⟨w, hreads, hnear⟩ := reads_round (s := s) hm (moderate_of_bounded hpos h)
    rw [normalize_apply s hm]
    exact ⟨_, hreads, near_signValue_mul s hnear⟩

theorem shiftLeft_value {m : Nat} {e f : Int} (h : f ≤ e) :
    ((m <<< (e - f).toNat : Nat) : ℚ) * 2 ^ f = m * 2 ^ e := by
  have hexp : e - ((e - f).toNat : Int) = f := by omega
  rw [Nat.shiftLeft_eq, ← mul_two_pow_value m (e - f).toNat e, hexp]

theorem reads_add {x y : UnpackedFloat} {a b : ℚ} (hx : Reads x a) (hy : Reads y b)
    (h : Bounded (a + b)) :
    ∃ c, Reads (UnpackedFloat.add Format.binary64 x y) c ∧ Near c (a + b) := by
  cases hx with
  | zero s =>
      cases hy with
      | zero t =>
          refine ⟨0, ?_, by simp [near_self]⟩
          simp only [UnpackedFloat.add]
          split <;> exact .zero _
      | finite hn hy => exact ⟨_, .finite hn hy, by rw [zero_add]; exact near_self _⟩
  | @finite s m e hm hx =>
      cases hy with
      | zero t => exact ⟨_, .finite hm hx, by rw [add_zero]; exact near_self _⟩
      | @finite t n f hn hy =>
          have hsum : signValue s * (m * 2 ^ e) + signValue t * (n * 2 ^ f) =
              ((s.apply (m <<< (e - min e f).toNat : Nat) +
                t.apply (n <<< (f - min e f).toNat : Nat) : Int) : ℚ) * 2 ^ (min e f) := by
            rw [Int.cast_add, cast_apply, cast_apply, add_mul, mul_assoc, mul_assoc,
              shiftLeft_value (min_le_left e f), shiftLeft_value (min_le_right e f)]
          rw [hsum] at h ⊢
          exact reads_normalize h

theorem divCore_eq {m n : Nat} {e f : Int} (hx : Normal m e) (hy : Normal n f)
    (h : -1021 ≤ e - f) :
    divCore Format.binary64 m e n f =
      (m * 2 ^ 53 / n, e - f - 53, accuracyOfFraction (m * 2 ^ 53 % n) n) := by
  have htarget : Format.binary64.targetExponent (totalExponent m e - totalExponent n f) =
      e - f - 53 := by
    rw [totalExponent, totalExponent, hx.log2_eq, hy.log2_eq]
    norm_num [Format.targetExponent, Format.mantissaBits, Format.minExponent]
    omega
  have hshift : (e - f - (e - f - 53)).toNat = 53 := by omega
  rw [divCore, htarget, min_eq_right (by omega), hshift, Nat.shiftLeft_eq]

theorem cast_div_bounds {a n : Nat} (hn : 0 < n) :
    ((a / n : Nat) : ℚ) ≤ a / n ∧ (a / n : ℚ) ≤ (a / n : Nat) + 1 := by
  have hn' : (0 : ℚ) < n := by exact_mod_cast hn
  constructor
  · rw [le_div_iff₀ hn']
    exact_mod_cast Nat.div_mul_le_self a n
  · rw [div_le_iff₀ hn', mul_comm]
    exact_mod_cast (Nat.lt_mul_div_succ a hn).le

theorem quotient_bounds {m n : Nat} {e f : Int} (hx : Normal m e) (hy : Normal n f) :
    2 ^ 52 ≤ m * 2 ^ 53 / n ∧ m * 2 ^ 53 / n < 2 ^ 54 := by
  have hlow := hy.low
  have hhigh := hy.high
  constructor
  · rw [Nat.le_div_iff_mul_le (by omega)]
    have := hx.low
    omega
  · rw [Nat.div_lt_iff_lt_mul (by omega)]
    have := hx.high
    omega

theorem reads_div {x y : UnpackedFloat} {a b : ℚ} (hx : Reads x a) (hy : Reads y b) (hb : b ≠ 0)
    (h : Bounded (a / b)) :
    ∃ c, Reads (UnpackedFloat.div Format.binary64 x y) c ∧ Near c (a / b) := by
  cases hy with
  | zero t => exact absurd rfl hb
  | @finite t n f hn hy =>
    cases hx with
    | zero s => exact ⟨0, .zero _, by simp [near_self]⟩
    | @finite s m e hm hx =>
        have hquotient : signValue s * (m * 2 ^ e) / (signValue t * (n * 2 ^ f)) =
            signValue (s / t) * (((m * 2 ^ 53 : Nat) / n : ℚ) * 2 ^ (e - f - 53)) := by
          rw [signValue_div, sub_sub, zpow_sub₀ (by norm_num), zpow_add₀ (by norm_num),
            mul_div_mul_comm]
          push_cast
          field_simp
        have hpos : (0 : ℚ) < ((m * 2 ^ 53 : Nat) / n : ℚ) * 2 ^ (e - f - 53) :=
          mul_pos (by positivity) (zpow_pos (by norm_num) _)
        rw [hquotient] at h ⊢
        have hmoderate := moderate_of_bounded hpos h
        obtain ⟨hfloor, hceil⟩ := cast_div_bounds (a := m * 2 ^ 53) hn
        obtain ⟨hlow, hhigh⟩ := quotient_bounds hx hy
        have hexp : -1021 ≤ e - f := by
          have hlog := (Nat.log2_lt (by omega)).mpr hhigh
          have := (hmoderate.exponent_bounds (by omega) hfloor hceil).1
          omega
        have hdiv : UnpackedFloat.div Format.binary64 (.finite s m e hm) (.finite t n f hn) =
            roundWithAccuracy Format.binary64 (s / t) (m * 2 ^ 53 / n) (e - f - 53)
              (accuracyOfFraction (m * 2 ^ 53 % n) n) := by
          simp only [UnpackedFloat.div, divCore_eq hx hy hexp]
        obtain ⟨w, hreads, hnear⟩ := reads_rounded (s := s / t)
          (a := accuracyOfFraction (m * 2 ^ 53 % n) n) hlow hfloor hceil hmoderate
        rw [hdiv]
        exact ⟨_, hreads, near_signValue_mul _ hnear⟩

theorem reads_ofNat {n : Nat} (h : n < 2 ^ 53) :
    Reads (UnpackedFloat.ofNat Format.binary64 n) n := by
  obtain rfl | hn := n.eq_zero_or_pos
  · exact .zero _
  · have hpos : 0 < n * 2 ^ (52 - n.log2) := by positivity
    have hlog := (Nat.log2_lt hn.ne').mpr h
    have hnormal : Normal (n * 2 ^ (52 - n.log2)) (0 - (52 - n.log2 : Nat)) := by
      refine ⟨two_pow_le_mul hn, ?_, by omega, by omega⟩
      calc n * 2 ^ (52 - n.log2) < 2 ^ (n.log2 + 1) * 2 ^ (52 - n.log2) :=
            Nat.mul_lt_mul_of_pos_right Nat.lt_log2_self (by positivity)
        _ = 2 ^ 53 := by
            rw [← pow_add]
            congr 1
            omega
    have hvalue : (n : ℚ) = signValue .positive *
        ((n * 2 ^ (52 - n.log2) : Nat) * 2 ^ (0 - (52 - n.log2 : Nat) : Int)) := by
      rw [mul_two_pow_value, signValue, zpow_zero, mul_one, one_mul]
    have hround : UnpackedFloat.ofNat Format.binary64 n =
        .finite .positive (n * 2 ^ (52 - n.log2)) (0 - (52 - n.log2 : Nat)) hpos := by
      have hexact := roundWithAccuracy_exact (s := .positive) hnormal hpos 0
      rw [pow_zero, mul_one, Nat.cast_zero, sub_zero] at hexact
      rw [← hexact, ← round_eq (by omega)]
      exact normalize_apply .positive hn 0
    rw [hround, hvalue]
    exact .finite hpos hnormal

theorem reads_neg {x : UnpackedFloat} {v : ℚ} (h : Reads x v) : Reads x.neg (-v) := by
  cases h with
  | zero s => exact neg_zero (G := ℚ) ▸ .zero (-s)
  | @finite s m e hm h =>
      have hsign : -(signValue s * (m * 2 ^ e)) = signValue (-s) * (m * 2 ^ e) := by
        cases s <;> simp [signValue]
      rw [hsign]
      exact .finite hm h

theorem unpack_pack_of_reads {x : UnpackedFloat} {v : ℚ} (h : Reads x v) :
    (Float.Model.pack x).unpack = x := by
  cases h with
  | zero s => cases s <;> rfl
  | finite hm h => exact unpack_pack h

end Worksheet.Decimal
