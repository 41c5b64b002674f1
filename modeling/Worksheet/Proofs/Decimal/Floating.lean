import Worksheet.Decimal.Whole
import Worksheet.Proofs.Decimal.Rounding

namespace Worksheet.Decimal

open Float.Model Float.Model.UnpackedFloat

def HasValue (x : Float) (v : ℚ) : Prop := Reads x.toModel.unpack v

theorem hasValue_of_reads {u : UnpackedFloat} {v : ℚ} (h : Reads u v) :
    HasValue (.ofModel (.pack u)) v := by
  rwa [HasValue, unpack_pack_of_reads h]

section Operations

variable {x y : Float} {a b : ℚ}

theorem HasValue.add (hx : HasValue x a) (hy : HasValue y b) (h : Bounded (a + b)) :
    ∃ c, HasValue (x + y) c ∧ Near c (a + b) := by
  obtain ⟨c, hreads, hnear⟩ := reads_add hx hy h
  exact ⟨c, hasValue_of_reads hreads, hnear⟩

theorem HasValue.mul (hx : HasValue x a) (hy : HasValue y b) (h : Bounded (a * b)) :
    ∃ c, HasValue (x * y) c ∧ Near c (a * b) := by
  obtain ⟨c, hreads, hnear⟩ := reads_mul hx hy h
  exact ⟨c, hasValue_of_reads hreads, hnear⟩

theorem HasValue.div (hx : HasValue x a) (hy : HasValue y b) (hb : b ≠ 0) (h : Bounded (a / b)) :
    ∃ c, HasValue (x / y) c ∧ Near c (a / b) := by
  obtain ⟨c, hreads, hnear⟩ := reads_div hx hy hb h
  exact ⟨c, hasValue_of_reads hreads, hnear⟩

theorem HasValue.neg (hx : HasValue x a) : HasValue (-x) (-a) := hasValue_of_reads (reads_neg hx)

theorem mul_one_of_reads {u : UnpackedFloat} {v : ℚ} (h : Reads u v) :
    UnpackedFloat.mul Format.binary64 u (.finite .positive (2 ^ 52) (-52) (by norm_num)) = u := by
  cases h with
  | zero s => cases s <;> rfl
  | @finite s m e hm h =>
      have hsign : s * .positive = s := by cases s <;> rfl
      simp only [UnpackedFloat.mul, hsign]
      exact roundWithAccuracy_exact h hm 52

theorem hasValue_ofNat {n : Nat} (h : n < 2 ^ 53) : HasValue (Float.ofNat n) n := by
  have hcount : n.toUInt64.toNat = n := by
    rw [Nat.toUInt64_eq, UInt64.toNat_ofNat']
    omega
  have hreads := reads_ofNat h
  have hone : (Float.ofBits 0x3FF0000000000000).toModel.unpack =
      .finite .positive (2 ^ 52) (-52) (by norm_num) := by rfl
  have hproduct : Float.ofNat n = n.toUInt64.toFloat * Float.ofBits 0x3FF0000000000000 := by
    unfold Float.ofNat OfScientific.ofScientific instOfScientificFloat Float.ofScientific
    simp only []
    rw [dif_pos ⟨h, by norm_num⟩]
    rfl
  have hcounted : n.toUInt64.toFloat.toModel.unpack = UnpackedFloat.ofNat Format.binary64 n := by
    change (Float.Model.pack (UnpackedFloat.ofNat Format.binary64 n.toUInt64.toNat)).unpack = _
    rw [hcount, unpack_pack_of_reads hreads]
  rw [hproduct]
  change Reads (Float.Model.pack (UnpackedFloat.mul Format.binary64
    n.toUInt64.toFloat.toModel.unpack (Float.ofBits 0x3FF0000000000000).toModel.unpack)).unpack n
  rw [hcounted, hone, mul_one_of_reads hreads, unpack_pack_of_reads hreads]
  exact hreads

theorem hasValue_ofInt {z : Int} (h : z.natAbs < 2 ^ 53) : HasValue (Float.ofInt z) z := by
  cases z with
  | ofNat n => exact hasValue_ofNat h
  | negSucc n =>
      rw [Int.cast_negSucc]
      exact (hasValue_ofNat (n := n + 1) h).neg

theorem hasValue_zero : HasValue 0.0 0 := hasValue_of_reads (.zero .positive)

theorem hasValue_half : HasValue 0.5 (1 / 2) := by
  have hnormal : Normal (2 ^ 52) (-53) := ⟨by norm_num, by norm_num, by norm_num, by norm_num⟩
  have hvalue : (1 / 2 : ℚ) = signValue .positive * ((2 ^ 52 : Nat) * 2 ^ (-53 : Int)) := by
    norm_num [signValue]
  have hreads : Reads (.finite .positive (2 ^ 52) (-53) (by norm_num)) (1 / 2) :=
    hvalue ▸ .finite (by norm_num) hnormal
  have hhalf : (0.5 : Float) =
      .ofModel (.pack (.finite .positive (2 ^ 52) (-53) (by norm_num))) := by rfl
  rw [hhalf]
  exact hasValue_of_reads hreads

theorem lt_iff : x < y ↔ UnpackedFloat.lt x.toModel.unpack y.toModel.unpack = true :=
  decide_eq_true_iff

theorem unpack_zero : (0.0 : Float).toModel.unpack = .zero .positive := by rfl

theorem Reads.sign_iff {u : UnpackedFloat} {v : ℚ} (h : Reads u v) :
    (UnpackedFloat.lt (.zero .positive) u = true ↔ 0 < v) ∧
      (UnpackedFloat.lt u (.zero .positive) = true ↔ v < 0) := by
  cases h with
  | zero s => cases s <;> simp [UnpackedFloat.lt, UnpackedFloat.compare]
  | @finite s m e hm h =>
      have hpos : (0 : ℚ) < m * 2 ^ e := mul_pos (by exact_mod_cast hm) (zpow_pos (by norm_num) e)
      cases s with
      | negative =>
          simpa [UnpackedFloat.lt, UnpackedFloat.compare, signValue] using ⟨hpos.le, hpos⟩
      | positive =>
          simpa [UnpackedFloat.lt, UnpackedFloat.compare, signValue] using ⟨hpos, hpos.le⟩

theorem HasValue.zero_lt_iff (hx : HasValue x a) : 0.0 < x ↔ 0 < a := by
  rw [lt_iff, unpack_zero]
  exact hx.sign_iff.1

theorem HasValue.lt_zero_iff (hx : HasValue x a) : x < 0.0 ↔ a < 0 := by
  rw [lt_iff, unpack_zero]
  exact hx.sign_iff.2

theorem toNat_unpackExponent (b : BitVec Format.binary64.numBits) :
    (unpackExponent b).toNat = b.toNat / 2 ^ 52 % 2 ^ 11 := by
  simp [unpackExponent, Nat.shiftRight_eq_div_pow]

theorem toNat_unpackMantissa (b : BitVec Format.binary64.numBits) :
    (unpackMantissa b).toNat = b.toNat % 2 ^ 52 := by
  simp [unpackMantissa]

theorem value_of_reads_unpack {b : BitVec Format.binary64.numBits} {v : ℚ}
    (h : Reads (UnpackedFloat.unpack Format.binary64 b) v) :
    (b.toNat / 2 ^ 52 % 2 ^ 11 = 0 ∧ b.toNat % 2 ^ 52 = 0 ∧ v = 0) ∨
      b.toNat / 2 ^ 52 % 2 ^ 11 ≠ 0 ∧ ∃ s, v = signValue s * ((2 ^ 52 + b.toNat % 2 ^ 52 : Nat) *
        2 ^ ((b.toNat / 2 ^ 52 % 2 ^ 11 : Nat) - 1075 : Int)) := by
  have hfield := toNat_unpackExponent b
  have hfraction := toNat_unpackMantissa b
  rw [← hfield, ← hfraction]
  unfold UnpackedFloat.unpack at h
  dsimp only at h
  split at h
  · split at h <;> cases h
  · split at h
    · next hzero =>
      split at h
      · next hnone =>
        cases h
        exact Or.inl ⟨by rw [hzero]; rfl, by rw [hnone]; rfl, rfl⟩
      · cases h with
        | finite hm h =>
          have := h.low
          omega
    · next hpos =>
      refine Or.inr ⟨fun hzero => hpos (BitVec.eq_of_toNat_eq hzero), ?_⟩
      cases h with
      | finite hm h =>
        refine ⟨Sign.ofBitVec (unpackSign b), ?_⟩
        rw [toNat_implicit]
        rfl

theorem HasValue.ofFloat_eq (hx : HasValue x a) :
    ∃ s, a = signValue s * ((Binary.ofFloat x).mantissa * 2 ^ (Binary.ofFloat x).exponent) := by
  have hbits : x.toBits.toNat = x.toModel.toBits.toBitVec.toNat := rfl
  have hfield : x.toBits.toNat % Nat.pow 2 63 / Nat.pow 2 52 =
      x.toModel.toBits.toBitVec.toNat / 2 ^ 52 % 2 ^ 11 := by
    rw [hbits]
    norm_num
    omega
  have hfraction : x.toBits.toNat % Nat.pow 2 63 % Nat.pow 2 52 =
      x.toModel.toBits.toBitVec.toNat % 2 ^ 52 := by
    rw [hbits]
    norm_num
  simp only [Binary.ofFloat, hfield, hfraction]
  obtain ⟨hzero, hnone, rfl⟩ | ⟨hpos, s, rfl⟩ := value_of_reads_unpack hx
  · rw [if_pos hzero, hnone]
    exact ⟨.positive, by simp⟩
  · refine ⟨s, ?_⟩
    rw [if_neg hpos]
    rfl

theorem two_zpow_eq (e : Int) : (2 : ℚ) ^ e = (2 ^ e.toNat : Nat) / (2 ^ (-e).toNat : Nat) := by
  obtain ⟨n, rfl | rfl⟩ := e.eq_nat_or_neg
  · simp
  · simp

theorem HasValue.floor_eq (hx : HasValue x a) : floor x = ⌊a⌋ := by
  obtain ⟨s, ha⟩ := hx.ofFloat_eq
  unfold floor
  generalize Binary.ofFloat x = b at ha
  obtain ⟨m, e, narrow⟩ := b
  have hpow : (0 : ℚ) < 2 ^ e := zpow_pos (by norm_num) e
  have hsigned : (if x < 0.0 then -(m * Nat.pow 2 e.toNat : Int) else m * Nat.pow 2 e.toNat) =
      s.apply (m * 2 ^ e.toNat : Nat) := by
    rw [Nat.cast_mul]
    cases s with
    | negative =>
        obtain rfl | hm := m.eq_zero_or_pos
        · simp [Sign.apply]
        · have hm' : (0 : ℚ) < m := by exact_mod_cast hm
          exact if_pos (hx.lt_zero_iff.mpr (by simp [ha, signValue, hm', hpow]))
    | positive =>
        have hm' : (0 : ℚ) ≤ m := Nat.cast_nonneg m
        have hnonneg : 0 ≤ a := by
          rw [ha, signValue, one_mul]
          exact mul_nonneg hm' hpow.le
        exact if_neg (fun hlt => absurd (hx.lt_zero_iff.mp hlt) (not_lt.mpr hnonneg))
  have hvalue : a = (s.apply (m * 2 ^ e.toNat : Nat) : Int) / (2 ^ (-e).toNat : Nat) := by
    rw [ha, cast_apply, two_zpow_eq]
    push_cast
    ring
  rw [hvalue, Rat.floor_intCast_div_natCast, ← hsigned]
  rfl

end Operations

def Tracks (x : Float) (v part : ℚ) : Prop := ∃ w, HasValue x w ∧ |w - v| ≤ part * |v|

def Sizable (v : ℚ) : Prop := v = 0 ∨ 2 ^ (-900 : Int) ≤ |v| ∧ |v| ≤ 2 ^ (900 : Int)

section Tracking

variable {x y : Float} {w c u v k part other : ℚ}

theorem Sizable.bounded (h : Sizable v) (hpart : part ≤ 1 / 2) (hc : |c - v| ≤ part * |v|) :
    Bounded c := by
  rcases h with rfl | ⟨hlow, hhigh⟩
  · rw [abs_zero, mul_zero, sub_zero] at hc
    exact Or.inl (abs_nonpos_iff.mp hc)
  · have hhalf : |c - v| ≤ |v| / 2 := by nlinarith [abs_nonneg v]
    have hbelow : |v| - |c - v| ≤ |c| := by
      have := abs_sub_abs_le_abs_sub v c
      rw [abs_sub_comm] at this
      linarith
    have habove : |c| ≤ |v| + |c - v| := by
      have := abs_sub_abs_le_abs_sub c v
      linarith
    refine Or.inr ⟨?_, ?_⟩
    · calc (2 : ℚ) ^ (-1000 : Int) ≤ 2 ^ (-901 : Int) :=
            zpow_le_zpow_right₀ (by norm_num) (by norm_num)
        _ = 2 ^ (-900 : Int) / 2 := zpow_sub_one₀ (by norm_num) (-900)
        _ ≤ |c| := by linarith
    · calc |c| ≤ |v| * 2 := by linarith
        _ ≤ 2 ^ (900 : Int) * 2 := mul_le_mul_of_nonneg_right hhigh (by norm_num)
        _ = 2 ^ (901 : Int) := (zpow_add_one₀ (by norm_num) 900).symm
        _ ≤ 2 ^ (1000 : Int) := zpow_le_zpow_right₀ (by norm_num) (by norm_num)

theorem Near.trans (hw : Near w c) (hpart : part ≤ 1 / 2) (hc : |c - v| ≤ part * |v|) :
    |w - v| ≤ (part + 1 / 2 ^ 51) * |v| := by
  have hsize : |c| ≤ 2 * |v| := by
    have := abs_sub_abs_le_abs_sub c v
    nlinarith [abs_nonneg v]
  have hround : |w - c| ≤ |v| / 2 ^ 51 := by
    calc |w - c| ≤ |c| / 2 ^ 52 := hw
      _ ≤ 2 * |v| / 2 ^ 52 := by gcongr
      _ = |v| / 2 ^ 51 := by ring
  calc |w - v| ≤ |w - c| + |c - v| := abs_sub_le w c v
    _ ≤ |v| / 2 ^ 51 + part * |v| := add_le_add hround hc
    _ = (part + 1 / 2 ^ 51) * |v| := by ring

theorem HasValue.tracks (h : HasValue x v) : Tracks x v 0 := ⟨v, h, by simp⟩

theorem Tracks.mono (h : Tracks x v part) (hle : part ≤ other) : Tracks x v other := by
  obtain ⟨w, hw, hdist⟩ := h
  exact ⟨w, hw, hdist.trans (mul_le_mul_of_nonneg_right hle (abs_nonneg v))⟩

theorem Tracks.mul (hx : Tracks x v part) (hy : HasValue y k) (hpart : part ≤ 1 / 2)
    (h : Sizable (v * k)) : Tracks (x * y) (v * k) (part + 1 / 2 ^ 51) := by
  obtain ⟨c, hc, hdist⟩ := hx
  have hexact : |c * k - v * k| ≤ part * |v * k| := by
    rw [← sub_mul, abs_mul, abs_mul, ← mul_assoc]
    exact mul_le_mul_of_nonneg_right hdist (abs_nonneg k)
  obtain ⟨w, hw, hnear⟩ := hc.mul hy (h.bounded hpart hexact)
  exact ⟨w, hw, hnear.trans hpart hexact⟩

theorem Tracks.div (hx : Tracks x v part) (hy : HasValue y k) (hk : k ≠ 0) (hpart : part ≤ 1 / 2)
    (h : Sizable (v / k)) : Tracks (x / y) (v / k) (part + 1 / 2 ^ 51) := by
  obtain ⟨c, hc, hdist⟩ := hx
  have hexact : |c / k - v / k| ≤ part * |v / k| := by
    rw [← sub_div, abs_div, abs_div, ← mul_div_assoc]
    exact div_le_div_of_nonneg_right hdist (abs_nonneg k)
  obtain ⟨w, hw, hnear⟩ := hc.div hy hk (h.bounded hpart hexact)
  exact ⟨w, hw, hnear.trans hpart hexact⟩

theorem Tracks.add (hx : Tracks x v part) (hy : Tracks y u part) (hv : 0 ≤ v) (hu : 0 ≤ u)
    (hpart : part ≤ 1 / 2) (h : Sizable (v + u)) : Tracks (x + y) (v + u) (part + 1 / 2 ^ 51) := by
  obtain ⟨c, hc, hdist⟩ := hx
  obtain ⟨d, hd, hother⟩ := hy
  have hexact : |c + d - (v + u)| ≤ part * |v + u| := by
    rw [abs_of_nonneg hv] at hdist
    rw [abs_of_nonneg hu] at hother
    rw [add_sub_add_comm, abs_of_nonneg (add_nonneg hv hu), mul_add]
    exact (abs_add_le _ _).trans (add_le_add hdist hother)
  obtain ⟨w, hw, hnear⟩ := hc.add hd (h.bounded hpart hexact)
  exact ⟨w, hw, hnear.trans hpart hexact⟩

theorem Tracks.atLeastZero (hx : Tracks x v part) (hpart : part < 1) :
    Tracks (if 0.0 < x then x else 0.0) (max 0 v) part := by
  obtain ⟨c, hc, hdist⟩ := hx
  by_cases hv : 0 < v
  · have hpos : 0 < c := by
      rw [abs_of_pos hv, abs_le] at hdist
      nlinarith [hdist.1]
    rw [if_pos (hc.zero_lt_iff.mpr hpos), max_eq_right hv.le]
    exact ⟨c, hc, hdist⟩
  · have hneg : ¬ 0 < c := by
      rw [abs_of_nonpos (not_lt.mp hv), abs_le] at hdist
      nlinarith [hdist.2]
    rw [if_neg (fun hlt => hneg (hc.zero_lt_iff.mp hlt)), max_eq_left (not_lt.mp hv)]
    exact ⟨0, hasValue_zero, by simp⟩

end Tracking

end Worksheet.Decimal
