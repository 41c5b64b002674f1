import Mathlib.Data.Int.Bitwise
import Mathlib.Data.Nat.ModEq
import Mathlib.Data.Nat.Prime.Basic
import Worksheet.Text.Hash

namespace Worksheet

namespace Hash

structure Wide where
  left : Int
  right : Int

def stir (factor own unit : UInt32) : UInt32 := (own ^^^ unit) * factor

namespace Wide

def mask (n : Int) : Int := Int.land n 0xFFFFFFFF

def stir (factor own unit : Int) : Int := mask (Int.xor own unit * factor)

def start (seed : Int) : Wide := ⟨Int.xor 0xDEADBEEF (mask seed), Int.xor 0x41C6CE57 (mask seed)⟩

def mix (a : Wide) (unit : Int) : Wide := ⟨stir 265443561 a.left unit, stir 159334677 a.right unit⟩

def run (seed : Int) (units : List UInt32) : Wide :=
  units.foldl (fun a unit => a.mix unit.toNat) (start seed)

def fold (own other low : Int) : Int :=
  Int.xor (stir 2246822507 own (other >>> 16)) (stir 3266489909 low (low >>> 13))

def finish (a : Wide) : Wide :=
  let left := fold a.left a.right a.right
  ⟨left, fold a.right a.right left⟩

def number (a : Wide) : Int := 4294967296 * Int.land 2009751 a.right + a.left

structure InRange (a : Wide) : Prop where
  left_nonneg : 0 ≤ a.left
  left_lt : a.left < 2 ^ 32
  right_nonneg : 0 ≤ a.right
  right_lt : a.right < 2 ^ 32

theorem mask_eq (n : Int) : mask n = n % 4294967296 := by
  cases n with
  | ofNat m => exact congrArg Nat.cast (Nat.and_two_pow_sub_one_eq_mod m 32)
  | negSucc m =>
      have hlt : m % 2 ^ 32 < 2 ^ 32 := Nat.mod_lt m (by decide)
      have hdiff : Nat.ldiff (2 ^ 32 - 1) m = 2 ^ 32 - (m % 2 ^ 32 + 1) := by
        apply Nat.eq_of_testBit_eq
        intro i
        rw [Nat.testBit_ldiff, Nat.testBit_two_pow_sub_one, Nat.testBit_two_pow_sub_succ hlt,
          Nat.testBit_mod_two_pow]
        cases decide (i < 32) <;> simp
      have hmask : mask (Int.negSucc m) = (Nat.ldiff (2 ^ 32 - 1) m : Nat) := rfl
      rw [hmask, hdiff]
      omega

theorem xor_toNat (a b : UInt32) : Int.xor a.toNat b.toNat = (a ^^^ b).toNat := by
  rw [UInt32.toNat_xor]
  rfl

theorem stir_toNat (factor own unit : UInt32) :
    stir factor.toNat own.toNat unit.toNat = (Hash.stir factor own unit).toNat := by
  rw [stir, xor_toNat, mask_eq, Hash.stir, UInt32.toNat_mul]
  rfl

theorem stir_shiftRight (factor own other places : UInt32) (h : places.toNat < 32) :
    stir factor.toNat own.toNat ((other.toNat : Int) >>> places.toNat) =
      (Hash.stir factor own (other >>> places)).toNat := by
  have hshift : (other.toNat : Int) >>> places.toNat = (other >>> places).toNat := by
    rw [UInt32.toNat_shiftRight, Nat.mod_eq_of_lt h]
    rfl
  rw [hshift, stir_toNat]

end Wide

def Accumulators.widen (a : Accumulators) : Wide := ⟨a.left.toNat, a.right.toNat⟩

theorem inRange_widen (a : Accumulators) : a.widen.InRange where
  left_nonneg := Int.natCast_nonneg _
  left_lt := Int.ofNat_lt.mpr a.left.toNat_lt
  right_nonneg := Int.natCast_nonneg _
  right_lt := Int.ofNat_lt.mpr a.right.toNat_lt

theorem widen_start (seed : Int) : (start seed).widen = Wide.start seed := by
  have hmask : Wide.mask seed = (UInt32.ofNat (seed % 4294967296).toNat).toNat := by
    rw [Wide.mask_eq, UInt32.toNat_ofNat']
    omega
  rw [Wide.start, hmask]
  exact congrArg₂ Wide.mk (Wide.xor_toNat 0xDEADBEEF _).symm (Wide.xor_toNat 0x41C6CE57 _).symm

theorem widen_mix (a : Accumulators) (unit : UInt32) :
    (a.mix unit).widen = a.widen.mix unit.toNat := by
  rw [Wide.mix]
  exact congrArg₂ Wide.mk (Wide.stir_toNat 265443561 a.left unit).symm
    (Wide.stir_toNat 159334677 a.right unit).symm

theorem widen_foldl (seed : Int) (units : List UInt32) :
    (units.foldl Accumulators.mix (start seed)).widen = Wide.run seed units := by
  rw [Wide.run, ← widen_start]
  exact (List.foldl_hom Accumulators.widen (fun a unit => (widen_mix a unit).symm)).symm

theorem toNat_fold (own other low : UInt32) :
    ((fold own other low).toNat : Int) = Wide.fold own.toNat other.toNat low.toNat := by
  have hhigh := Wide.stir_shiftRight 2246822507 own other 16 (by decide)
  have hcross := Wide.stir_shiftRight 3266489909 low low 13 (by decide)
  rw [Wide.fold]
  exact (Wide.xor_toNat _ _).symm.trans (congrArg₂ Int.xor hhigh.symm hcross.symm)

theorem widen_finish (a : Accumulators) : a.finish.widen = a.widen.finish := by
  rw [Accumulators.finish, Accumulators.widen, toNat_fold, toNat_fold, toNat_fold]
  rfl

theorem number_widen (a : Accumulators) : a.widen.number = a.number := by
  rw [Accumulators.number, UInt32.toNat_and, Wide.number]
  rfl

theorem mul_right_injective_of_odd {factor : UInt32} (h : Odd factor.toNat) :
    Function.Injective (· * factor) := by
  intro a b heq
  have hcoprime : Nat.gcd (2 ^ 32) factor.toNat = 1 :=
    Nat.Coprime.pow_left 32 (Nat.coprime_two_left.mpr h)
  have hmod : a.toNat * factor.toNat ≡ b.toNat * factor.toNat [MOD 2 ^ 32] := by
    have hnat := congrArg UInt32.toNat heq
    rwa [UInt32.toNat_mul, UInt32.toNat_mul] at hnat
  exact UInt32.toNat_inj.mp
    ((hmod.cancel_right_of_coprime hcoprime).eq_of_lt_of_lt a.toNat_lt b.toNat_lt)

theorem foldl_mix (a : Accumulators) (units : List UInt32) :
    units.foldl Accumulators.mix a =
      ⟨units.foldl (stir 265443561) a.left, units.foldl (stir 159334677) a.right⟩ := by
  induction units generalizing a with
  | nil => rfl
  | cons unit units ih => exact ih (a.mix unit)

variable {factor : UInt32}

theorem stir_left_injective (h : Odd factor.toNat) (unit : UInt32) :
    Function.Injective (stir factor · unit) := by
  intro a b heq
  exact (UInt32.xor_left_inj unit).mp (mul_right_injective_of_odd h heq)

theorem stir_right_injective (h : Odd factor.toNat) (own : UInt32) :
    Function.Injective (stir factor own) := by
  intro u v heq
  exact (UInt32.xor_right_inj own).mp (mul_right_injective_of_odd h heq)

theorem foldl_stir_injective (h : Odd factor.toNat) (units : List UInt32) :
    Function.Injective (units.foldl (stir factor)) := by
  induction units with
  | nil => exact Function.injective_id
  | cons unit units ih => exact ih.comp (stir_left_injective h unit)

theorem exists_of_existsUnique_ne {us vs : List UInt32} (hlength : us.length = vs.length)
    (h : ∃! i : Nat, us[i]? ≠ vs[i]?) :
    ∃ before u v after, us = before ++ u :: after ∧ vs = before ++ v :: after ∧ u ≠ v := by
  induction us generalizing vs with
  | nil =>
      obtain rfl : vs = [] := List.eq_nil_of_length_eq_zero hlength.symm
      exact absurd rfl h.exists.choose_spec
  | cons u us ih =>
      obtain ⟨v, vs, rfl⟩ := List.exists_cons_of_length_eq_add_one hlength.symm
      by_cases huv : u = v
      · obtain ⟨i, hi, hunique⟩ := h
        cases i with
        | zero => exact absurd (congrArg some huv) hi
        | succ i =>
            have hrest : ∃! i : Nat, us[i]? ≠ vs[i]? :=
              ⟨i, hi, fun j hj => Nat.succ.inj (hunique (j + 1) hj)⟩
            obtain ⟨before, a, b, after, rfl, rfl, hab⟩ := ih (Nat.succ.inj hlength) hrest
            exact ⟨u :: before, a, b, after, rfl, huv ▸ rfl, hab⟩
      · have hsame : us = vs := by
          apply List.ext_getElem?
          intro i
          by_contra hi
          have hfirst : (u :: us)[0]? ≠ (v :: vs)[0]? := fun heq => huv (Option.some.inj heq)
          have hlater : (u :: us)[i + 1]? ≠ (v :: vs)[i + 1]? := hi
          exact Nat.zero_ne_add_one i (h.unique hfirst hlater)
        exact ⟨[], u, v, us, rfl, hsame ▸ rfl, huv⟩

theorem foldl_stir_ne (h : Odd factor.toNat) (own : UInt32) {us vs : List UInt32}
    (hlength : us.length = vs.length) (hne : ∃! i : Nat, us[i]? ≠ vs[i]?) :
    us.foldl (stir factor) own ≠ vs.foldl (stir factor) own := by
  obtain ⟨before, u, v, after, rfl, rfl, huv⟩ := exists_of_existsUnique_ne hlength hne
  rw [List.foldl_append, List.foldl_append, List.foldl_cons, List.foldl_cons]
  intro heq
  exact huv (stir_right_injective h _ (foldl_stir_injective h after heq))

end Hash

namespace Text

open Hash

theorem number_finish_run_lt (us : List UInt32) (seed : Int) :
    (run seed us).finish.number < 2 ^ 53 := by
  generalize (run seed us).finish = a
  have hmask : (2009751 &&& a.right).toNat ≤ 2009751 := by
    rw [UInt32.toNat_and]
    exact Nat.and_le_left
  have hleft := a.left.toNat_lt
  rw [Accumulators.number]
  omega

theorem number_finish_wideRun (us : List UInt32) (seed : Int) :
    (Wide.run seed us).finish.number = (run seed us).finish.number := by
  rw [← widen_foldl, ← widen_finish, number_widen]
  rfl

example : hashText "abc" 7 = "738904974645385" := by decide +kernel

theorem hash_lossless (us : List UInt32) (seed : Int) :
    (∀ seen, seen <+: us → (Wide.run seed seen).InRange ∧
      Wide.run seed seen = (seen.foldl Accumulators.mix (start seed)).widen) ∧
    (∃ number : Nat, number < 2 ^ 53 ∧ Hash.text us seed = toString number ∧
      (Wide.run seed us).finish.number = number) ∧
    (∀ other : Int, other % 2 ^ 32 = seed % 2 ^ 32 → Hash.text us other = Hash.text us seed) ∧
    (∀ vs : List UInt32, vs.length = us.length → (∃! i : Nat, vs[i]? ≠ us[i]?) →
      (run seed vs).left ≠ (run seed us).left ∧ (run seed vs).right ≠ (run seed us).right) ∧
    ∀ value : String, units value = us → hashText value seed = Hash.text us seed := by
  refine ⟨fun seen _ => ?_, ?_, fun other h => ?_, fun vs hlength hne => ?_,
    fun value h => congrArg (Hash.text · seed) h⟩
  · rw [← widen_foldl]
    exact ⟨inRange_widen _, rfl⟩
  · exact ⟨_, number_finish_run_lt us seed, rfl, number_finish_wideRun us seed⟩
  · have hstart : start other = start seed := by
      rw [start, start, show other % 4294967296 = seed % 4294967296 from h]
    rw [Hash.text, Hash.text, run, run, hstart]
  · have hleft : Odd (265443561 : UInt32).toNat := by decide
    have hright : Odd (159334677 : UInt32).toNat := by decide
    simp only [run, foldl_mix]
    exact ⟨foldl_stir_ne hleft _ hlength hne, foldl_stir_ne hright _ hlength hne⟩

theorem hash_lossless_fauna :
    let butterfly := String.ofList [Char.ofNat 0x1F98B]
    let deer := String.ofList [Char.ofNat 0x1F98C]
    let torn : List UInt32 := [0xD83E, 0x61]
    units butterfly = [0xD83E, 0xDD8B] ∧ units deer = [0xD83E, 0xDD8C] ∧
      [0xD83E] <+: units butterfly ∧ (Wide.run (-1) [0xD83E]).InRange ∧
      (2 ^ 64 - 1 : Int) % 2 ^ 32 = -1 % 2 ^ 32 ∧
      hashText butterfly (2 ^ 64 - 1) = hashText butterfly (-1) ∧
      (∀ other ∈ [units deer, torn], other.length = (units butterfly).length ∧
        (∃! i : Nat, other[i]? ≠ (units butterfly)[i]?) ∧
        (run (-1) other).left ≠ (run (-1) (units butterfly)).left ∧
        (run (-1) other).right ≠ (run (-1) (units butterfly)).right) := by
  intro butterfly deer torn
  have hbutterfly : units butterfly = [0xD83E, 0xDD8B] := by decide
  have hdeer : units deer = [0xD83E, 0xDD8C] := by decide
  obtain ⟨hrange, -, hseed, hunit, htext⟩ := hash_lossless (units butterfly) (-1)
  have hbegins : [0xD83E] <+: units butterfly := by
    rw [hbutterfly]
    exact List.prefix_append [0xD83E] [0xDD8B]
  have hsame : (2 ^ 64 - 1 : Int) % 2 ^ 32 = -1 % 2 ^ 32 := by decide
  refine ⟨hbutterfly, hdeer, hbegins, (hrange _ hbegins).1, hsame,
    (hseed _ hsame).trans (htext butterfly rfl).symm, ?_⟩
  have hlast : ∀ unit : UInt32, unit ≠ 0xDD8B →
      ∃! i : Nat, ([0xD83E, unit] : List UInt32)[i]? ≠ (units butterfly)[i]? := by
    intro unit hne
    rw [hbutterfly]
    refine ⟨1, fun heq => hne (Option.some.inj heq), ?_⟩
    rintro (_ | _ | i) hi
    · exact absurd rfl hi
    · rfl
    · exact absurd rfl hi
  rw [hdeer, List.forall_mem_cons, List.forall_mem_singleton]
  have hlength : ∀ unit : UInt32,
      ([0xD83E, unit] : List UInt32).length = (units butterfly).length := by
    intro unit
    rw [hbutterfly]
    rfl
  have hdeerLast := hlast 0xDD8C (by decide)
  have htornLast := hlast 0x61 (by decide)
  exact ⟨⟨hlength _, hdeerLast, hunit _ (hlength _) hdeerLast⟩,
    ⟨hlength _, htornLast, hunit _ (hlength _) htornLast⟩⟩

end Text

end Worksheet
