import Worksheet.Proofs.Markup.Token
import Worksheet.Proofs.Text.Collapse

namespace Worksheet

theorem extract_append_of_le {s : List α} {stop : Nat} (h : stop ≤ s.length) (start : Nat)
    (t : List α) : (s ++ t).extract start stop = s.extract start stop := by
  rw [List.extract_eq_take_drop, List.extract_eq_take_drop, List.drop_append, List.take_append,
    List.length_drop]
  have hzero : stop - start - (s.length - start) = 0 := by omega
  rw [hzero, List.take_zero, List.append_nil]

theorem extract_append_of_ge {s : List α} {start : Nat} (h : s.length ≤ start) (stop : Nat)
    (t : List α) :
    (s ++ t).extract start stop = t.extract (start - s.length) (stop - s.length) := by
  rw [List.extract_eq_take_drop, List.extract_eq_take_drop, List.drop_append,
    List.drop_eq_nil_of_le h, List.nil_append]
  have hlength : stop - s.length - (start - s.length) = stop - start := by omega
  rw [hlength]

theorem extract_append_across {s : List α} {start stop : Nat} (h : start ≤ s.length)
    (h' : s.length ≤ stop) (t : List α) :
    (s ++ t).extract start stop = s.drop start ++ t.take (stop - s.length) := by
  rw [List.extract_eq_take_drop, List.drop_append, List.take_append, List.length_drop]
  have hzero : start - s.length = 0 := by omega
  have hlength : stop - start - (s.length - start) = stop - s.length := by omega
  rw [hzero, List.drop_zero, hlength, List.take_of_length_le]
  rw [List.length_drop]
  omega

namespace Chars

theorem words_extract {cs : List Char} {start stop : Nat}
    (hstart : ∀ c ∈ cs.take start, isBlank c = true) (hstop : ∀ c ∈ cs.drop stop, isBlank c = true) :
    words (cs.extract start stop) = words cs := by
  have hrest : ∀ c ∈ (cs.drop start).drop (stop - start), isBlank c = true := by
    intro c hc
    rw [List.drop_drop] at hc
    exact hstop c (List.drop_subset_drop_left cs (by omega) hc)
  rw [List.extract_eq_take_drop, ← words_append_of_blank_right _ hrest, List.take_append_drop,
    ← words_append_of_blank_left hstart, List.take_append_drop]

end Chars

namespace Markup

theorem sliceText_nil (source : List Char) : sliceText source [] = "" := rfl

theorem sliceText_eq (source : List Char) {ts : List Token} {first last : Token}
    (hf : ts.head? = some first) (hl : ts.getLast? = some last) :
    sliceText source ts =
      .ofList (Chars.collapse (source.extract first.start last.stop)) := by
  simp only [sliceText, hf, hl]

theorem exists_ends {ts : List Token} (h : ts ≠ []) :
    ∃ first last, ts.head? = some first ∧ ts.getLast? = some last ∧ first ∈ ts ∧ last ∈ ts :=
  ⟨ts.head h, ts.getLast h, List.head?_eq_some_head h, List.getLast?_eq_some_getLast h,
    List.head_mem h, List.getLast_mem h⟩

theorem sliceText_append_left {s : List Char} {ts : List Token}
    (h : ∀ x ∈ ts, x.stop ≤ s.length) (t : List Char) :
    sliceText (s ++ t) ts = sliceText s ts := by
  by_cases hne : ts = []
  · rw [hne]; rfl
  · obtain ⟨first, last, hf, hl, -, hmem⟩ := exists_ends hne
    rw [sliceText_eq _ hf hl, sliceText_eq _ hf hl, extract_append_of_le (h last hmem)]

theorem sliceText_append_right (lines : Nat) (s t : List Char) (ts : List Token) :
    sliceText (s ++ t) (ts.map (Token.shift lines s.length)) = sliceText t ts := by
  by_cases hne : ts = []
  · rw [hne]; rfl
  · obtain ⟨first, last, hf, hl, -, -⟩ := exists_ends hne
    have hf' : (ts.map (Token.shift lines s.length)).head? = some (first.shift lines s.length) := by
      rw [List.head?_map, hf, Option.map_some]
    have hl' : (ts.map (Token.shift lines s.length)).getLast? =
        some (last.shift lines s.length) := by
      rw [List.getLast?_map, hl, Option.map_some]
    rw [sliceText_eq _ hf' hl', sliceText_eq _ hf hl, Token.shift, Token.shift,
      extract_append_of_ge (Nat.le_add_left _ _), Nat.add_sub_cancel, Nat.add_sub_cancel]

end Markup

end Worksheet
