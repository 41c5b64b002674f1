import Mathlib.Data.List.Basic
import Worksheet.Proofs.Text.Collapse
import Worksheet.Text.Case

namespace Worksheet

namespace Unicode

def CaseRun.target (r : CaseRun) (n : Nat) : Nat := (n + r.shift).toNat

def CaseRun.misses (r r' : CaseRun) : Bool :=
  Nat.blt r'.last (r.target r.first) || Nat.blt (r.target r.last) r'.first ||
    (Nat.beq r.step 2 || Nat.beq r.first r.last) && Nat.beq r'.step 2 &&
      Nat.beq ((r.target r.first + r'.first) % 2) 1

def CaseRun.Valid (r : CaseRun) : Prop :=
  0 ≤ r.first + r.shift ∧
    (r.target r.last < 0xD800 ∨ 0xDFFF < r.target r.first ∧ r.target r.last < 0x110000)

instance (r : CaseRun) : Decidable r.Valid := inferInstanceAs (Decidable (_ ∧ _))

def blankRuns : List CaseRun :=
  [⟨0x09, 0x0D, 1, 0⟩, ⟨0x1C, 0x20, 1, 0⟩, ⟨0x85, 0x85, 1, 0⟩, ⟨0xA0, 0xA0, 1, 0⟩,
    ⟨0x1680, 0x1680, 1, 0⟩, ⟨0x2000, 0x200A, 1, 0⟩, ⟨0x2028, 0x2029, 1, 0⟩, ⟨0x202F, 0x202F, 1, 0⟩,
    ⟨0x205F, 0x205F, 1, 0⟩, ⟨0x3000, 0x3000, 1, 0⟩]

def keptRuns : List CaseRun := ⟨0x130, 0x130, 1, 0⟩ :: blankRuns

theorem valid_of_mem_lowerRuns : ∀ r ∈ lowerRuns, r.Valid := by decide +kernel

theorem lowerRuns_misses :
    lowerRuns.all (fun r => (lowerRuns ++ keptRuns).all r.misses) = true := by decide +kernel

theorem valid_of_mem_keptRuns : ∀ r ∈ keptRuns, r.Valid ∧ r.shift = 0 := by decide

theorem keptRuns_misses : keptRuns.all (fun r => lowerRuns.all r.misses) = true := by
  decide +kernel

section Runs

variable {r r' : CaseRun} {n : Nat}

theorem CaseRun.covers_iff :
    r.covers n = true ↔ r.first ≤ n ∧ n ≤ r.last ∧ (n - r.first) % r.step = 0 := by
  simp [covers, and_assoc]

theorem CaseRun.Valid.isValidChar_target (h : r.Valid) (hn : r.covers n = true) :
    (r.target n).isValidChar := by
  obtain ⟨hfirst, hlast, -⟩ := covers_iff.mp hn
  obtain ⟨hshift, htarget⟩ := h
  simp only [target, Nat.isValidChar] at htarget ⊢
  omega

theorem CaseRun.Valid.not_covers_target (h : r.Valid) (hmisses : r.misses r' = true)
    (hn : r.covers n = true) : r'.covers (r.target n) = false := by
  obtain ⟨hfirst, hlast, hstep⟩ := covers_iff.mp hn
  obtain ⟨hshift, -⟩ := h
  rw [Bool.eq_false_iff]
  intro hcovers
  obtain ⟨hfirst', hlast', hstep'⟩ := covers_iff.mp hcovers
  simp only [misses, Bool.or_eq_true, Bool.and_eq_true, Nat.blt_eq, Nat.beq_eq] at hmisses
  simp only [target] at hmisses hfirst' hlast' hstep'
  rcases hmisses with (hmisses | hmisses) | ⟨⟨htwo | hone, htwo'⟩, hodd⟩
  · omega
  · omega
  · rw [htwo] at hstep
    rw [htwo'] at hstep'
    omega
  · rw [htwo'] at hstep'
    omega

theorem not_covers_target (hr : r ∈ lowerRuns) (hr' : r' ∈ lowerRuns ++ keptRuns)
    (hn : r.covers n = true) : r'.covers (r.target n) = false :=
  have hmisses := List.all_eq_true.mp (List.all_eq_true.mp lowerRuns_misses r hr) r' hr'
  (valid_of_mem_lowerRuns r hr).not_covers_target hmisses hn

theorem not_covers_of_kept (hr : r ∈ keptRuns) (hr' : r' ∈ lowerRuns) (hn : r.covers n = true) :
    r'.covers n = false := by
  obtain ⟨hvalid, hshift⟩ := valid_of_mem_keptRuns r hr
  have hmisses := List.all_eq_true.mp (List.all_eq_true.mp keptRuns_misses r hr) r' hr'
  have hn' := hvalid.not_covers_target hmisses hn
  rwa [CaseRun.target, hshift, Int.add_zero, Int.toNat_natCast] at hn'

end Runs

theorem isBlank_iff_covers {c : Char} :
    isBlank c = true ↔ ∃ r ∈ blankRuns, r.covers c.toNat = true := by
  simp only [isBlank, blankRuns, List.exists_mem_cons_iff, List.not_mem_nil, false_and,
    exists_false, or_false, CaseRun.covers, Bool.or_eq_true, Bool.and_eq_true, decide_eq_true_eq,
    beq_iff_eq, Nat.mod_one, and_true]
  omega

end Unicode

namespace Chars

open Unicode

variable {c d : Char} {cs : List Char}

theorem lowerChar_of_not_covers (h : ∀ r ∈ lowerRuns, r.covers c.toNat = false) :
    lowerChar c = c := by
  have hnone : lowerRuns.find? (·.covers c.toNat) = none :=
    List.find?_eq_none.mpr fun r hr => by simp [h r hr]
  rw [lowerChar, hnone]

theorem toNat_ofNat_of_isValidChar {n : Nat} (h : n.isValidChar) : (Char.ofNat n).toNat = n := by
  have hchar : Char.ofNat n = Char.ofNatAux n h := dif_pos h
  rw [hchar]
  rfl

theorem lowerChar_eq_or (c : Char) :
    (∀ r ∈ lowerRuns, r.covers c.toNat = false) ∧ lowerChar c = c ∨
      ∃ r ∈ lowerRuns, r.covers c.toNat = true ∧ (lowerChar c).toNat = r.target c.toNat := by
  cases hfind : lowerRuns.find? (fun r => r.covers c.toNat) with
  | none =>
      have hnot : ∀ r ∈ lowerRuns, r.covers c.toNat = false := by simpa using hfind
      exact Or.inl ⟨hnot, lowerChar_of_not_covers hnot⟩
  | some r =>
      have hr := List.mem_of_find?_eq_some hfind
      have hcovers := List.find?_some hfind
      refine Or.inr ⟨r, hr, hcovers, ?_⟩
      have hvalid := (valid_of_mem_lowerRuns r hr).isValidChar_target hcovers
      rw [lowerChar, hfind]
      exact toNat_ofNat_of_isValidChar hvalid

theorem not_covers_lowerChar (c : Char) : ∀ r ∈ lowerRuns, r.covers (lowerChar c).toNat = false := by
  rcases lowerChar_eq_or c with ⟨hnot, hc⟩ | ⟨r, hr, hcovers, htarget⟩
  · rwa [hc]
  · intro r' hr'
    rw [htarget]
    exact not_covers_target hr (List.mem_append_left _ hr') hcovers

theorem covers_lowerChar {r : CaseRun} (hr : r ∈ keptRuns) (c : Char) :
    r.covers (lowerChar c).toNat = r.covers c.toNat := by
  rcases lowerChar_eq_or c with ⟨-, hc⟩ | ⟨r', hr', hcovers, htarget⟩
  · rw [hc]
  · have hleads := not_covers_target hr' (List.mem_append_right _ hr) hcovers
    have htaken : r.covers c.toNat = false := by
      rw [Bool.eq_false_iff]
      intro hc
      rw [not_covers_of_kept hr hr' hc] at hcovers
      cases hcovers
    rw [htarget, hleads, htaken]

theorem lowerChar_lowerChar (c : Char) : lowerChar (lowerChar c) = lowerChar c :=
  lowerChar_of_not_covers (not_covers_lowerChar c)

theorem isBlank_lowerChar (c : Char) : isBlank (lowerChar c) = isBlank c := by
  rw [Bool.eq_iff_iff, isBlank_iff_covers, isBlank_iff_covers]
  refine exists_congr fun r => and_congr_right fun hr => ?_
  rw [covers_lowerChar (List.mem_cons_of_mem _ hr)]

theorem lowerChar_of_isBlank (hc : isBlank c = true) : lowerChar c = c := by
  obtain ⟨r, hr, hcovers⟩ := isBlank_iff_covers.mp hc
  exact lowerChar_of_not_covers fun r' hr' =>
    not_covers_of_kept (List.mem_cons_of_mem _ hr) hr' hcovers

theorem lowerChar_ne_dottedI (hc : c ≠ 'İ') : lowerChar c ≠ 'İ' := by
  have hiff : ∀ d : Char, CaseRun.covers ⟨0x130, 0x130, 1, 0⟩ d.toNat = true ↔ d = 'İ' := by
    intro d
    rw [CaseRun.covers_iff, ← Char.toNat_inj]
    have hi : 'İ'.toNat = 0x130 := rfl
    simp only [hi, Nat.mod_one, and_true]
    omega
  intro h
  have hkept := covers_lowerChar (r := ⟨0x130, 0x130, 1, 0⟩) List.mem_cons_self c
  rw [(hiff _).mpr h] at hkept
  exact hc ((hiff c).mp hkept.symm)

def Lowered (c : Char) : Prop := c ≠ 'Σ' ∧ lowerForm c = [c]

instance (c : Char) : Decidable (Lowered c) := inferInstanceAs (Decidable (_ ∧ _))

theorem lowered_lowerChar (hc : c ≠ 'İ') : Lowered (lowerChar c) := by
  constructor
  · intro hsigma
    have hnot := not_covers_lowerChar c ⟨0x3A3, 0x3AB, 1, 32⟩ (by decide +kernel)
    rw [hsigma] at hnot
    exact absurd hnot (by decide)
  · rw [lowerForm, if_neg (lowerChar_ne_dottedI hc), lowerChar_lowerChar]

theorem lowered_of_mem_lowerForm (h : d ∈ lowerForm c) : Lowered d := by
  rw [lowerForm] at h
  split at h
  · have hi : Lowered 'i' := lowered_lowerChar (c := 'I') (by decide)
    have hdot : Lowered '\u0307' := by decide +kernel
    simp only [List.mem_cons, List.not_mem_nil, or_false] at h
    rcases h with rfl | rfl
    · exact hi
    · exact hdot
  · next hc => exact List.mem_singleton.mp h ▸ lowered_lowerChar hc

theorem lowered_of_mem_lowerAfter :
    ∀ {cs before : List Char}, d ∈ lowerAfter before cs → Lowered d := by
  intro cs
  induction cs with
  | nil => intro before h; cases h
  | cons c rest ih =>
      intro before h
      have hfinal : Lowered 'ς' := by decide +kernel
      have hsmall : Lowered 'σ' := lowered_lowerChar (c := 'Σ') (by decide)
      rw [lowerAfter] at h
      split at h
      · rcases List.mem_cons.mp h with rfl | h
        · split
          · exact hfinal
          · exact hsmall
        · exact ih h
      · rcases List.mem_append.mp h with h | h
        · exact lowered_of_mem_lowerForm h
        · exact ih h

theorem lowerAfter_of_lowered :
    ∀ {cs : List Char}, (∀ c ∈ cs, Lowered c) → ∀ before, lowerAfter before cs = cs := by
  intro cs
  induction cs with
  | nil => intro _ _; rfl
  | cons c rest ih =>
      intro h before
      obtain ⟨hsigma, hform⟩ := h c List.mem_cons_self
      rw [lowerAfter, if_neg hsigma, hform, ih fun d hd => h d (List.mem_cons_of_mem _ hd)]
      rfl

theorem lower_lower (cs : List Char) : lower (lower cs) = lower cs :=
  lowerAfter_of_lowered (fun _ hd => lowered_of_mem_lowerAfter hd) []

theorem not_isBlank_of_mem_lowerForm (hc : isBlank c = false) (h : d ∈ lowerForm c) :
    isBlank d = false := by
  rw [lowerForm] at h
  split at h
  · simp only [List.mem_cons, List.not_mem_nil, or_false] at h
    rcases h with rfl | rfl <;> decide
  · rw [List.mem_singleton.mp h, isBlank_lowerChar, hc]

theorem lowerForm_of_isBlank (hc : isBlank c = true) : lowerForm c = [c] := by
  have hi : c ≠ 'İ' := by
    rintro rfl
    exact absurd hc (by decide)
  rw [lowerForm, if_neg hi, lowerChar_of_isBlank hc]

def singleSpaced (inWord : Bool) : List Char → Bool
  | [] => inWord
  | c :: cs => if isBlank c then inWord && c == ' ' && singleSpaced false cs else singleSpaced true cs

theorem singleSpaced_append {w : List Char} (hw : IsWord w) (inWord : Bool) (cs : List Char) :
    singleSpaced inWord (w ++ cs) = singleSpaced true cs := by
  obtain ⟨hne, hblank⟩ := hw
  induction w generalizing inWord with
  | nil => exact absurd rfl hne
  | cons c w ih =>
      rw [List.cons_append, singleSpaced, if_neg (by simp [hblank c List.mem_cons_self])]
      cases w with
      | nil => rfl
      | cons d w =>
          exact ih true (List.cons_ne_nil d w) (fun e he => hblank e (List.mem_cons_of_mem _ he))

theorem singleSpaced_intercalate {inWord : Bool} :
    ∀ {ws : List (List Char)}, ws ≠ [] → (∀ w ∈ ws, IsWord w) →
      singleSpaced inWord ([' '].intercalate ws) = true := by
  intro ws
  induction ws generalizing inWord with
  | nil => intro hne; exact absurd rfl hne
  | cons w ws ih =>
      intro _ hws
      have hw := hws w List.mem_cons_self
      cases ws with
      | nil =>
          rw [List.intercalate_singleton, ← List.append_nil w, singleSpaced_append hw]
          rfl
      | cons v ws =>
          have hrest : singleSpaced false ([' '].intercalate (v :: ws)) = true :=
            ih (List.cons_ne_nil v ws) (fun u hu => hws u (List.mem_cons_of_mem _ hu))
          rw [List.intercalate_cons_cons, List.append_assoc, singleSpaced_append hw,
            List.singleton_append, singleSpaced]
          exact hrest

theorem words_of_isWord {w : List Char} (hw : IsWord w) : words w = [w] := by
  have hwords : words ([' '].intercalate [w]) = [w] := words_intercalate (by simpa using hw)
  rwa [List.intercalate_singleton] at hwords

theorem collapse_of_singleSpaced :
    ∀ {cs : List Char}, singleSpaced false cs = true → collapse cs = cs := by
  intro cs
  induction cs using induction_on_cut isBlank with
  | last w hw =>
      intro h
      have hword : IsWord w := by
        refine ⟨?_, hw⟩
        rintro rfl
        cases h
      rw [collapse, words_of_isWord hword, List.intercalate_singleton]
  | cons w c rest hw hc ih =>
      intro h
      have hword : IsWord w := by
        refine ⟨?_, hw⟩
        rintro rfl
        rw [List.nil_append, singleSpaced, if_pos hc] at h
        cases h
      rw [singleSpaced_append hword, singleSpaced, if_pos hc, Bool.true_and, Bool.and_eq_true,
        beq_iff_eq] at h
      obtain ⟨rfl, hrest⟩ := h
      have hcollapse := ih hrest
      rw [collapse] at hcollapse
      rw [collapse, words_append_cons hc, words_of_isWord hword, List.singleton_append]
      cases hwords : words rest with
      | nil =>
          rw [hwords] at hcollapse
          rw [← hcollapse] at hrest
          cases hrest
      | cons v vs => rw [List.intercalate_cons_cons, ← hwords, hcollapse, List.append_assoc]; rfl

theorem collapse_eq_self_iff : collapse cs = cs ↔ cs = [] ∨ singleSpaced false cs = true := by
  constructor
  · intro h
    cases hw : words cs with
    | nil =>
        rw [← h, collapse, hw]
        exact Or.inl rfl
    | cons w ws =>
        refine Or.inr ?_
        rw [← h, collapse]
        exact singleSpaced_intercalate (hw ▸ List.cons_ne_nil w ws) fun _ hv => isWord_of_mem_words hv
  · rintro (rfl | h)
    · rfl
    · exact collapse_of_singleSpaced h

theorem exists_isWord_lowerAfter (hc : isBlank c = false) (before rest : List Char) :
    ∃ w, IsWord w ∧ lowerAfter before (c :: rest) = w ++ lowerAfter (c :: before) rest := by
  rw [lowerAfter]
  split
  · refine ⟨[_], ⟨List.cons_ne_nil _ _, fun d hd => ?_⟩, rfl⟩
    rw [List.mem_singleton.mp hd]
    split <;> decide
  · refine ⟨lowerForm c, ⟨?_, fun d hd => not_isBlank_of_mem_lowerForm hc hd⟩, rfl⟩
    rw [lowerForm]
    split <;> exact List.cons_ne_nil _ _

theorem singleSpaced_lowerAfter (cs : List Char) :
    ∀ before inWord, singleSpaced inWord (lowerAfter before cs) = singleSpaced inWord cs := by
  induction cs with
  | nil => intro _ _; rfl
  | cons c rest ih =>
      intro before inWord
      cases hc : isBlank c with
      | true =>
          have hsigma : c ≠ 'Σ' := by
            rintro rfl
            exact absurd hc (by decide)
          rw [lowerAfter, if_neg hsigma, lowerForm_of_isBlank hc, List.singleton_append, singleSpaced,
            if_pos hc, ih, singleSpaced, if_pos hc]
      | false =>
          obtain ⟨w, hw, hlower⟩ := exists_isWord_lowerAfter hc before rest
          rw [hlower, singleSpaced_append hw, ih, singleSpaced, if_neg (by simp [hc])]

theorem lower_eq_nil_iff : lower cs = [] ↔ cs = [] := by
  cases cs with
  | nil => exact iff_of_true rfl rfl
  | cons c rest =>
      refine iff_of_false ?_ (List.cons_ne_nil c rest)
      rw [lower, lowerAfter, lowerForm]
      split
      · exact List.cons_ne_nil _ _
      · split <;> exact List.cons_ne_nil _ _

theorem collapse_lower_iff : collapse (lower cs) = lower cs ↔ collapse cs = cs := by
  rw [collapse_eq_self_iff, collapse_eq_self_iff, lower_eq_nil_iff, lower, singleSpaced_lowerAfter]

theorem collapse_lower_collapse (cs : List Char) :
    collapse (lower (collapse cs)) = lower (collapse cs) :=
  collapse_lower_iff.mpr (collapse_collapse cs)

end Chars

end Worksheet
