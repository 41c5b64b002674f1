import Worksheet.Proofs.Markup.Items

namespace Worksheet.Markup

open Chars

def IsBody (cs : List Char) : Prop := ∀ c ∈ cs, c ≠ '\n' ∧ c ≠ ';'

theorem isBody_and_unbracketed {cs : List Char} (h : ∀ c ∈ cs, c ∉ ['\n', ';', '[', ']']) :
    IsBody cs ∧ '[' ∉ cs ∧ ']' ∉ cs := by
  refine ⟨fun c hc => ?_, fun hc => h _ hc (by decide), fun hc => h _ hc (by decide)⟩
  have hne := h c hc
  simp only [List.mem_cons, not_or] at hne
  exact ⟨hne.1, hne.2.1⟩

def bodyTokens (line start : Nat) (body : List Char) : List Token :=
  tokensFrom line start (segments false body)

namespace IsBody

variable {c : Char} {s t : List Char}

theorem tail (h : IsBody (c :: t)) : IsBody t := fun d hd => h d (List.mem_cons_of_mem c hd)

theorem newline_not_mem (h : IsBody s) : '\n' ∉ s := fun hmem => (h '\n' hmem).1 rfl

theorem uncommented {free : Bool} (hs : IsBody s) (hf : free = false) :
    Uncommented (segments free s) := by
  induction free, s using segments.induct with
  | case1 free =>
      rw [segments_nil]
      exact fun _ => List.not_mem_nil
  | case2 free s ih => exact absurd rfl (hs _ List.mem_cons_self).1
  | case3 free c s _ m hm ih =>
      have hfree : (m == .semicolon) = false := by
        rw [beq_eq_false_iff_ne]
        rintro rfl
        exact (hs c List.mem_cons_self).2 (Mark.char_of_ofChar? hm).symm
      rw [segments_of_mark hm]
      exact (ih hs.tail hfree).cons (fun _ => Segment.noConfusion)
  | case4 free c s hn hm hc ih => simp [hf] at hc
  | case5 free c s hn hm hc run ih =>
      have hdrop : IsBody (s.dropWhile isText) :=
        fun d hd => hs.tail d ((List.dropWhile_sublist _).mem hd)
      rw [segments_of_text (isText_iff.mpr ⟨hn, hm⟩) (by simpa using hc)]
      exact (ih hdrop (by rw [hf]; rfl)).cons (fun _ => Segment.noConfusion)

theorem bodyTokens_eq (hs : IsBody s) (line start : Nat) :
    bodyTokens line start s = flatTokens line start s := by
  rw [bodyTokens, segments_eq_plainSegments (hs.uncommented rfl), ← plainTokens,
    plainTokens_eq_flatTokens hs.newline_not_mem]

theorem tokensFrom_append_mark (hs : IsBody s) (m : Mark) (line start : Nat) (t : List Char) :
    tokensFrom line start (segments false (s ++ m.char :: t)) =
      bodyTokens line start s ++ m.token line (start + s.length) ::
        tokensFrom line (start + s.length + 1) (segments (m == .semicolon) t) := by
  rw [segments_append_mark (hs.uncommented rfl), tokensFrom_append, chars_segments,
    count_newline_segments, List.count_eq_zero_of_not_mem hs.newline_not_mem]
  rfl

end IsBody

section Body

variable {body : List Char} {line start : Nat} (hb : IsBody body)

include hb

theorem kind_ne_of_mem_bodyTokens {t : Token} {m : Mark} (hm : m.char ∉ body)
    (ht : t ∈ bodyTokens line start body) : t.kind ≠ .mark m := by
  rw [hb.bodyTokens_eq] at ht
  exact kind_ne_of_mem_flatTokens hm ht

theorem kind_ne_newline_of_mem_bodyTokens {t : Token} (ht : t ∈ bodyTokens line start body) :
    t.kind ≠ .newline := by
  rw [hb.bodyTokens_eq] at ht
  exact fun hk => hb.newline_not_mem (mem_of_mem_flatTokens ht (by rw [hk]; rfl))

theorem itemTexts_bodyTokens (pre post : List Char) (line : Nat) :
    itemTexts (pre ++ (body ++ post)) (bodyTokens line pre.length body) = bodyItems body := by
  rw [hb.bodyTokens_eq, itemTexts_flatTokens]

theorem depthAfter_bodyTokens (hopen : '[' ∉ body) (hclose : ']' ∉ body) (line start depth : Nat) :
    depthAfter depth (bodyTokens line start body) = depth :=
  depthAfter_of_not_bracket
    (fun _ ht => ⟨kind_ne_of_mem_bodyTokens hb hopen ht, kind_ne_of_mem_bodyTokens hb hclose ht⟩)
    depth

end Body

end Worksheet.Markup
