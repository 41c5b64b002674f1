import Mathlib.Data.List.Infix
import Worksheet.ErrorMap
import Worksheet.Proofs.OrderedMap

namespace Worksheet

open OrderedMap

namespace ErrorMap

def IsUnder (stem key : String) : Prop := stem.toList <+: key.toList

instance (stem key : String) : Decidable (IsUnder stem key) :=
  inferInstanceAs (Decidable (_ <+: _))

def HasStem (report : ErrorMap) (stem : String) : Prop := ∃ key ∈ report.keys, IsUnder stem key

instance (report : ErrorMap) (stem : String) : Decidable (report.HasStem stem) :=
  inferInstanceAs (Decidable (∃ key ∈ report.keys, IsUnder stem key))

theorem IsUnder.append {stem key : String} (h : IsUnder stem key) (rest : String) :
    IsUnder stem (key ++ rest) := by
  rw [IsUnder, String.toList_append]
  exact h.trans (List.prefix_append _ _)

theorem isUnder_append (stem rest : String) : IsUnder stem (stem ++ rest) :=
  IsUnder.append List.prefix_rfl rest

theorem IsUnder.comparable {a b key : String} (ha : IsUnder a key) (hb : IsUnder b key) :
    IsUnder a b ∨ IsUnder b a :=
  List.prefix_or_prefix_of_prefix ha hb

theorem IsUnder.not_isUnder {a b key : String} (hb : IsUnder b key)
    (h : ¬ (IsUnder a b ∨ IsUnder b a)) : ¬ IsUnder a key :=
  fun ha => h (ha.comparable hb)

theorem ne_of_isUnder {a key other : String} (hk : IsUnder a key) (h : ¬ IsUnder a other) :
    key ≠ other := by
  rintro rfl
  exact h hk

theorem ofDigitChars_toString (n : Nat) : Nat.ofDigitChars 10 (toString n).toList 0 = n := by
  rw [Nat.toString_eq_ofList_toDigits, String.toList_ofList, Nat.ofDigitChars_ten_toDigits]

theorem toString_inj {m n : Nat} : toString m = toString n ↔ m = n := by
  constructor
  · intro h
    rw [← ofDigitChars_toString m, h, ofDigitChars_toString]
  · rintro rfl
    rfl

theorem append_toString_inj {stem : String} {m n : Nat} :
    stem ++ toString m = stem ++ toString n ↔ m = n := by
  rw [String.append_right_inj, toString_inj]

theorem dot_not_mem_toString (n : Nat) : '.' ∉ (toString n).toList := by
  intro h
  rw [Nat.toString_eq_ofList_toDigits, String.toList_ofList] at h
  exact absurd (Nat.isDigit_of_mem_toDigits (by decide) (by decide) h) (by decide)

theorem append_dot_inj {m n : Nat} {s t : String}
    (h : toString m ++ ("." ++ s) = toString n ++ ("." ++ t)) : m = n ∧ s = t := by
  have hnumber : ∀ (k : Nat) (r : String),
      (toString k ++ ("." ++ r)).toList.takeWhile (· ≠ '.') = (toString k).toList := by
    intro k r
    have hdot : ("." ++ r).toList = '.' :: r.toList := by
      rw [String.toList_append]
      rfl
    rw [String.toList_append, hdot, takeWhile_append_of_neg (by simp), takeWhile_of_forall]
    intro c hc
    exact decide_eq_true (fun hc' => dot_not_mem_toString k (hc' ▸ hc))
  have hm : toString m = toString n := by
    rw [← String.toList_inj, ← hnumber m s, h, hnumber n t]
  rw [hm, String.append_right_inj, String.append_right_inj] at h
  exact ⟨toString_inj.mp hm, h⟩

def IsNumbered (stem key : String) : Prop := ∃ n : Nat, key = stem ++ toString n

theorem IsNumbered.isUnder {stem key : String} (h : IsNumbered stem key) : IsUnder stem key := by
  obtain ⟨n, rfl⟩ := h
  exact isUnder_append stem (toString n)

instance (stem key : String) : Decidable (IsNumbered stem key) :=
  decidable_of_iff
    (key = stem ++ toString (Nat.ofDigitChars 10 (key.toList.drop stem.toList.length) 0)) <| by
    constructor
    · intro h
      exact ⟨_, h⟩
    · rintro ⟨n, rfl⟩
      rw [String.toList_append, List.drop_left, ofDigitChars_toString]

def countNumbered (report : ErrorMap) (stem : String) : Nat :=
  report.keys.countP (fun key => IsNumbered stem key)

def readingStems : List String :=
  ["categories.duplicateLabel.", "items.blank.", "answerKey.missing.", "answerKey.unknownItem.",
    "rows.blank.", "pairs.blank.", "pairs.duplicateLeft.", "validation.emptyOption.",
    "validation.missingCorrectOption."]

section Problems

variable {ι : Type} [Problem ι] {problems : List ι}

theorem mem_keys_ofProblems {key : String} :
    key ∈ (ofProblems problems).keys ↔ ∃ p ∈ problems, Problem.key p = key := by
  rw [ofProblems, mem_keys_ofList]
  simp

theorem mem_keys_ofProblems_iff_mem {key : String} {problem : ι}
    (h : ∀ {p : ι}, Problem.key p = key ↔ p = problem) :
    key ∈ (ofProblems problems).keys ↔ problem ∈ problems := by
  rw [mem_keys_ofProblems]
  simp [h]

theorem hasStem_ofProblems {stem : String} :
    (ofProblems problems).HasStem stem ↔ ∃ p ∈ problems, IsUnder stem (Problem.key p) := by
  constructor
  · rintro ⟨key, hk, hu⟩
    obtain ⟨p, hp, rfl⟩ := mem_keys_ofProblems.mp hk
    exact ⟨p, hp, hu⟩
  · rintro ⟨p, hp, hu⟩
    exact ⟨Problem.key p, mem_keys_ofProblems.mpr ⟨p, hp, rfl⟩, hu⟩

theorem keys_ofProblems (h : (problems.map Problem.key).Nodup) :
    (ofProblems problems).keys = problems.map Problem.key := by
  rw [keys, ofProblems, entries_ofList (by simpa [Function.comp_def] using h), List.map_map]
  rfl

theorem isEmpty_ofProblems : (ofProblems problems).isEmpty = true ↔ problems = [] := by
  rw [OrderedMap.isEmpty_iff]
  constructor
  · intro h
    refine List.eq_nil_iff_forall_not_mem.mpr (fun p hp => ?_)
    exact h (Problem.key p) (mem_keys_ofProblems.mpr ⟨p, hp, rfl⟩)
  · rintro rfl key hk
    obtain ⟨p, hp, -⟩ := mem_keys_ofProblems.mp hk
    exact List.not_mem_nil hp

theorem exists_of_mem_entries_ofProblems {key message : String}
    (h : (key, message) ∈ (ofProblems problems).entries) :
    ∃ p ∈ problems, Problem.key p = key ∧ Problem.message p = message := by
  have hmem := mem_of_find?_ofList (find?_eq_some_iff.mpr h)
  obtain ⟨p, hp, hentry⟩ := List.mem_map.mp hmem
  exact ⟨p, hp, congrArg Prod.fst hentry, congrArg Prod.snd hentry⟩

theorem mem_entries_ofProblems {key message : String}
    (h : ∀ p ∈ problems, ∀ q ∈ problems,
      Problem.key p = Problem.key q → Problem.message p = Problem.message q) :
    (key, message) ∈ (ofProblems problems).entries ↔
      ∃ p ∈ problems, Problem.key p = key ∧ Problem.message p = message := by
  refine ⟨exists_of_mem_entries_ofProblems, ?_⟩
  rintro ⟨p, hp, rfl, rfl⟩
  have hkey : Problem.key p ∈ (ofProblems problems).keys := mem_keys_ofProblems.mpr ⟨p, hp, rfl⟩
  obtain ⟨⟨key, message⟩, hentry, rfl⟩ := List.mem_map.mp hkey
  obtain ⟨q, hq, hsame, rfl⟩ := exists_of_mem_entries_ofProblems hentry
  rw [← h q hq p hp hsame]
  exact hentry

def Reports (report : ErrorMap) (arises : ι → Prop) : Prop :=
  ∀ key message, (key, message) ∈ report.entries ↔
    ∃ p, arises p ∧ Problem.key p = key ∧ Problem.message p = message

theorem reports_ofProblems {arises : ι → Prop} (hmem : ∀ p, p ∈ problems ↔ arises p)
    (heq : ∀ p q, arises p → arises q → Problem.key p = Problem.key q → p = q) :
    (ofProblems problems).Reports arises := by
  intro key message
  rw [mem_entries_ofProblems]
  · simp only [hmem]
  · intro p hp q hq h
    rw [heq p q ((hmem p).mp hp) ((hmem q).mp hq) h]

structure Names (report : ErrorMap) (arises : ι → Prop) : Prop where
  key_mem_iff : ∀ p, Problem.key p ∈ report.keys ↔ arises p
  exists_of_mem : ∀ key ∈ report.keys, ∃ p, arises p ∧ Problem.key p = key

theorem names_ofProblems {arises : ι → Prop} (hsound : ∀ p ∈ problems, arises p)
    (hfound : ∀ p, arises p → ∃ q ∈ problems, Problem.key q = Problem.key p)
    (hkey : ∀ p q, Problem.key p = Problem.key q → arises p → arises q) :
    (ofProblems problems).Names arises where
  key_mem_iff := by
    intro p
    rw [mem_keys_ofProblems]
    constructor
    · rintro ⟨q, hq, heq⟩
      exact hkey q p heq (hsound q hq)
    · exact hfound p
  exists_of_mem := by
    intro key h
    obtain ⟨p, hp, heq⟩ := mem_keys_ofProblems.mp h
    exact ⟨p, hsound p hp, heq⟩

theorem Names.hasStem_iff {report : ErrorMap} {arises : ι → Prop} (h : report.Names arises)
    {stem : String} : report.HasStem stem ↔ ∃ p, arises p ∧ IsUnder stem (Problem.key p) := by
  constructor
  · rintro ⟨key, hk, hu⟩
    obtain ⟨p, hp, rfl⟩ := h.exists_of_mem key hk
    exact ⟨p, hp, hu⟩
  · rintro ⟨p, hp, hu⟩
    exact ⟨Problem.key p, (h.key_mem_iff p).mpr hp, hu⟩

theorem agree_ofProblems {κ : Type} [Problem κ] {others : List κ}
    (h : ∀ p ∈ problems, ∀ q ∈ others,
      Problem.key p = Problem.key q → Problem.message p = Problem.message q) :
    (ofProblems problems).Agree (ofProblems others) := by
  intro key message other hm hn
  obtain ⟨p, hp, hkey, rfl⟩ := exists_of_mem_entries_ofProblems hm
  obtain ⟨q, hq, rfl, rfl⟩ := exists_of_mem_entries_ofProblems hn
  exact h p hp q hq hkey

theorem agree_of_stem {κ : Type} [Problem κ] {others : List κ} {stem : String}
    (hp : ∀ p ∈ problems, IsUnder stem (Problem.key p))
    (hq : ∀ q ∈ others, ¬ IsUnder stem (Problem.key q)) :
    (ofProblems problems).Agree (ofProblems others) :=
  agree_ofProblems (fun p hmem q hmem' hkey => absurd hkey (ne_of_isUnder (hp p hmem) (hq q hmem')))

end Problems

end ErrorMap

end Worksheet
