import Mathlib.Tactic.SplitIfs
import Worksheet.Encoding

namespace Worksheet.Encoding

namespace Utf8

theorem toNat_ofNat {n : Nat} (h : n < 256) : (UInt8.ofNat n).toNat = n := by
  rw [UInt8.toNat_ofNat']
  exact Nat.mod_eq_of_lt h

section Lead

variable {done : List Char} {offset m : Nat} {bytes : List UInt8}

theorem decodeFrom_one (h : m < 0x80) :
    decodeFrom done none offset (UInt8.ofNat m :: bytes) =
      decodeFrom (Char.ofNat m :: done) none (offset + 1) bytes := by
  rw [decodeFrom, toNat_ofNat (by omega), if_pos h]

theorem decodeFrom_leadTwo (hl : 2 ≤ m) (hh : m < 32) :
    decodeFrom done none offset (UInt8.ofNat (m + 0xC0) :: bytes) =
      decodeFrom done (some ⟨UInt8.ofNat (m + 0xC0), offset, m, 1, 0x80, 0xBF⟩) (offset + 1) bytes := by
  rw [decodeFrom, lead?, toNat_ofNat (by omega)]
  rw [if_neg (by omega), if_neg (by omega), if_pos (by omega), Nat.add_sub_cancel]

theorem decodeFrom_leadThree (h : m < 16) :
    decodeFrom done none offset (UInt8.ofNat (m + 0xE0) :: bytes) =
      decodeFrom done (some ⟨UInt8.ofNat (m + 0xE0), offset, m, 2,
        if m = 0 then 0xA0 else 0x80, if m = 13 then 0x9F else 0xBF⟩) (offset + 1) bytes := by
  have hlow : m + 0xE0 = 0xE0 ↔ m = 0 := by omega
  have hhigh : m + 0xE0 = 0xED ↔ m = 13 := by omega
  rw [decodeFrom, lead?, toNat_ofNat (by omega)]
  rw [if_neg (by omega), if_neg (by omega), if_neg (by omega), if_pos (by omega), Nat.add_sub_cancel]
  simp only [hlow, hhigh]

theorem decodeFrom_leadFour (h : m < 5) :
    decodeFrom done none offset (UInt8.ofNat (m + 0xF0) :: bytes) =
      decodeFrom done (some ⟨UInt8.ofNat (m + 0xF0), offset, m, 3,
        if m = 0 then 0x90 else 0x80, if m = 4 then 0x8F else 0xBF⟩) (offset + 1) bytes := by
  have hlow : m + 0xF0 = 0xF0 ↔ m = 0 := by omega
  have hhigh : m + 0xF0 = 0xF4 ↔ m = 4 := by omega
  rw [decodeFrom, lead?, toNat_ofNat (by omega)]
  rw [if_neg (by omega), if_neg (by omega), if_neg (by omega), if_neg (by omega),
    if_pos (by omega), Nat.add_sub_cancel]
  simp only [hlow, hhigh]

end Lead

section Tail

variable {done : List Char} {offset m : Nat} {bytes : List UInt8} {p : Pending}

theorem admits_tail (hm : m < 64) (hl : p.low ≤ m + 0x80) (hh : m + 0x80 ≤ p.high) :
    p.admits (UInt8.ofNat (m + 0x80)) = true := by
  rw [Pending.admits, toNat_ofNat (by omega)]
  simp [hl, hh]

theorem bitsWith_tail (hm : m < 64) : p.bitsWith (UInt8.ofNat (m + 0x80)) = 64 * p.bits + m := by
  rw [Pending.bitsWith, toNat_ofNat (by omega)]
  omega

theorem decodeFrom_tail (hm : m < 64) (hl : p.low ≤ m + 0x80) (hh : m + 0x80 ≤ p.high)
    {missing : Nat} (hp : p.missing = missing + 2) :
    decodeFrom done (some p) offset (UInt8.ofNat (m + 0x80) :: bytes) =
      decodeFrom done (some ⟨p.first, p.start, 64 * p.bits + m, missing + 1, 0x80, 0xBF⟩)
        (offset + 1) bytes := by
  have hmore : p.missing ≠ 1 := by omega
  rw [decodeFrom, admits_tail hm hl hh, bitsWith_tail hm, if_neg hmore, hp]
  rfl

theorem decodeFrom_lastTail (hm : m < 64) (hl : p.low ≤ m + 0x80) (hh : m + 0x80 ≤ p.high)
    (hp : p.missing = 1) :
    decodeFrom done (some p) offset (UInt8.ofNat (m + 0x80) :: bytes) =
      decodeFrom (Char.ofNat (64 * p.bits + m) :: done) none (offset + 1) bytes := by
  rw [decodeFrom, admits_tail hm hl hh, bitsWith_tail hm, if_pos hp]
  rfl

end Tail

theorem decodeFrom_encodeChar (done : List Char) (offset : Nat) (c : Char) (bytes : List UInt8) :
    ∃ offset', decodeFrom done none offset (String.utf8EncodeChar c ++ bytes) =
      decodeFrom (c :: done) none offset' bytes := by
  have hvalid : c.val.toNat < 0xD800 ∨ 0xDFFF < c.val.toNat ∧ c.val.toNat < 0x110000 := c.valid
  have hc : Char.ofNat c.val.toNat = c := Char.ofNat_toNat c
  simp only [String.utf8EncodeChar]
  generalize c.val.toNat = n at hvalid hc
  split_ifs with h₁ h₂ h₃
  · refine ⟨offset + 1, ?_⟩
    rw [List.cons_append, decodeFrom_one (by omega), hc]
    rfl
  · have hn : 64 * (n / 64 % 32) + n % 64 = n := by omega
    refine ⟨offset + 1 + 1, ?_⟩
    rw [List.cons_append, decodeFrom_leadTwo (by omega) (by omega), List.cons_append,
      decodeFrom_lastTail (by omega) (Nat.le_add_left _ _) (by grind) rfl, hn, hc]
    rfl
  · have hn : 64 * (64 * (n / 4096 % 16) + n / 64 % 64) + n % 64 = n := by omega
    refine ⟨offset + 1 + 1 + 1, ?_⟩
    rw [List.cons_append, decodeFrom_leadThree (by omega), List.cons_append,
      decodeFrom_tail (by omega) (by grind) (by grind) rfl, List.cons_append,
      decodeFrom_lastTail (by omega) (by grind) (by grind) rfl, hn, hc]
    rfl
  · have hn : 64 * (64 * (64 * (n / 262144 % 8) + n / 4096 % 64) + n / 64 % 64) + n % 64 = n := by
      omega
    refine ⟨offset + 1 + 1 + 1 + 1, ?_⟩
    rw [List.cons_append, decodeFrom_leadFour (by omega), List.cons_append,
      decodeFrom_tail (by omega) (by grind) (by grind) rfl, List.cons_append,
      decodeFrom_tail (by omega) (by grind) (by grind) rfl, List.cons_append,
      decodeFrom_lastTail (by omega) (by grind) (by grind) rfl, hn, hc]
    rfl

theorem decodeFrom_encode (cs : List Char) :
    ∀ (done : List Char) (offset : Nat),
      decodeFrom done none offset (cs.flatMap String.utf8EncodeChar) = .ok (done.reverse ++ cs) := by
  induction cs with
  | nil => intro done offset; simp [decodeFrom]
  | cons c cs ih =>
      intro done offset
      obtain ⟨offset', h⟩ := decodeFrom_encodeChar done offset c (cs.flatMap String.utf8EncodeChar)
      rw [List.flatMap_cons, h, ih]
      simp

theorem decode_encode (cs : List Char) : decode (cs.flatMap String.utf8EncodeChar) = .ok cs :=
  decodeFrom_encode cs [] 0

end Utf8

theorem decode_toUTF8 (text : String) : utf8.decode text.toUTF8.data.toList = .ok text.toList := by
  have hbytes : text.toUTF8 = (text.toList.flatMap String.utf8EncodeChar).toByteArray := by
    rw [← String.ofList_toList (s := text), String.toUTF8, String.toByteArray_ofList,
      String.toList_ofList]
    rfl
  rw [decode, hbytes, List.toList_data_toByteArray, Utf8.decode_encode]
  rfl

end Worksheet.Encoding
