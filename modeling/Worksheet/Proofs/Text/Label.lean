import Worksheet.Proofs.Text.Lower
import Worksheet.Text.Label

namespace Worksheet

namespace Chars

theorem forall_ascii {P : Char → Prop} (h : ∀ n < 128, P (Char.ofNat n)) {c : Char}
    (hc : c.toNat < 128) : P c := by
  have hn := h c.toNat hc
  rwa [Char.ofNat_toNat] at hn

end Chars

theorem toList_normalizeLabel (label : String) :
    (normalizeLabel label).toList = Chars.lower (Chars.collapse label.toList) := by
  simp [normalizeLabel, Text.lower, Text.collapse]

theorem normalizeLabel_normalizeLabel (label : String) :
    normalizeLabel (normalizeLabel label) = normalizeLabel label := by
  apply String.toList_injective
  rw [toList_normalizeLabel, toList_normalizeLabel, Chars.collapse_lower_collapse, Chars.lower_lower]

theorem normalizeLabel_eq_empty_iff {label : String} :
    normalizeLabel label = "" ↔ Text.isBlank label = true := by
  rw [← String.toList_inj, toList_normalizeLabel, String.toList_empty, Chars.lower_eq_nil_iff,
    Chars.collapse_eq_nil_iff, Text.isBlank, List.all_eq_true]

theorem normalizeLabel_of_collapse_eq {s : String} (h : Text.collapse s = s) :
    normalizeLabel s = Text.lower s := by
  rw [normalizeLabel, h]

theorem lower_eq_normalizeLabel_iff {s label : String} :
    Text.lower s = normalizeLabel label ↔
      Text.collapse s = s ∧ normalizeLabel s = normalizeLabel label := by
  constructor
  · intro h
    have hchars : Chars.lower s.toList = Chars.lower (Chars.collapse label.toList) := by
      rw [← toList_normalizeLabel, ← h, Text.lower, String.toList_ofList]
    have hcollapse : Chars.collapse s.toList = s.toList := by
      rw [← Chars.collapse_lower_iff, hchars, Chars.collapse_lower_collapse]
    have hs : Text.collapse s = s := by rw [Text.collapse, hcollapse, String.ofList_toList]
    exact ⟨hs, (normalizeLabel_of_collapse_eq hs).trans h⟩
  · rintro ⟨hs, hlabel⟩
    rw [← normalizeLabel_of_collapse_eq hs, hlabel]

theorem isAscii_of_isLabelRest {c : Char} (h : isLabelRest c = true) : c.toNat < 128 := by
  have hz : ∀ d : Char, c.val ≤ d.val → c.toNat ≤ d.toNat := fun _ h => h
  delta isLabelRest Char.isAlphanum Char.isAlpha Char.isUpper Char.isLower Char.isDigit at h
  simp only [Bool.or_eq_true, Bool.and_eq_true, decide_eq_true_eq, beq_iff_eq] at h
  rcases h with ((((h | h) | h) | rfl) | rfl)
  · exact Nat.lt_of_le_of_lt (hz _ h.2) (by decide)
  · exact Nat.lt_of_le_of_lt (hz _ h.2) (by decide)
  · exact Nat.lt_of_le_of_lt (hz _ h.2) (by decide)
  · decide
  · decide

theorem isLabelRest_of_mem {label : String} (h : isCategoryLabel label = true) {c : Char}
    (hc : c ∈ label.toList) : isLabelRest c = true := by
  unfold isCategoryLabel at h
  cases hl : label.toList with
  | nil => simp [hl] at hc
  | cons d cs =>
      simp only [hl, Bool.and_eq_true, List.all_eq_true] at h
      rw [hl] at hc
      rcases List.mem_cons.mp hc with rfl | hc
      · have hstart := h.1
        simp only [isLabelStart, Bool.or_eq_true] at hstart
        simp only [isLabelRest, Char.isAlphanum, Bool.or_eq_true]
        rcases hstart with ha | hu
        · exact Or.inl (Or.inl (Or.inl ha))
        · exact Or.inl (Or.inr hu)
      · exact h.2 c hc

end Worksheet
