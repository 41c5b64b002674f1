import Worksheet.Markup.Token
import Worksheet.Proofs.Text.Lines

namespace Worksheet.Markup

open Chars

variable {c : Char} {cs : List Char} {free : Bool}

theorem segments_nil (free : Bool) : segments free [] = [] := by
  rw [segments]

theorem segments_newline (free : Bool) (cs : List Char) :
    segments free ('\n' :: cs) = .newline :: segments true cs := by
  rw [segments, if_pos rfl]

theorem segments_of_mark {m : Mark} (hm : Mark.ofChar? c = some m) (free : Bool) (cs : List Char) :
    segments free (c :: cs) = .mark m :: segments (m == .semicolon) cs := by
  have hc : c ≠ '\n' := by
    rintro rfl
    cases hm
  rw [segments, if_neg hc, hm]

theorem isText_iff : isText c = true ↔ c ≠ '\n' ∧ Mark.ofChar? c = none := by
  simp [isText]

theorem segments_of_comment (hc : isText c = true)
    (h : (free && startsComment (c :: cs)) = true) :
    segments free (c :: cs) =
      .comment (c :: cs.takeWhile (· != '\n')) :: segments free (cs.dropWhile (· != '\n')) := by
  obtain ⟨hn, hm⟩ := isText_iff.mp hc
  rw [segments, if_neg hn, hm]
  simp only [h, if_true]

theorem segments_of_text (hc : isText c = true)
    (h : (free && startsComment (c :: cs)) = false) :
    segments free (c :: cs) =
      .text (c :: cs.takeWhile isText) ::
        segments (free && (c :: cs.takeWhile isText).all isBlank) (cs.dropWhile isText) := by
  obtain ⟨hn, hm⟩ := isText_iff.mp hc
  rw [segments, if_neg hn, hm]
  simp only [h, Bool.false_eq_true, if_false]

theorem startsComment_iff :
    startsComment cs = true ↔ ∃ note, cs.dropWhile isIndent = '/' :: '/' :: note := by
  unfold startsComment
  split
  · next note h => simp [h]
  · next h => simpa using fun note hn => h note hn

theorem startsComment_of_indent {indent : List Char} (h : ∀ c ∈ indent, isIndent c = true)
    (note : List Char) : startsComment (indent ++ '/' :: '/' :: note) = true := by
  rw [startsComment_iff, List.dropWhile_append_of_pos h]
  exact ⟨note, List.dropWhile_cons_of_neg (by decide)⟩

theorem startsComment_of_slash_not_mem (h : '/' ∉ cs) : startsComment cs = false := by
  rw [← Bool.not_eq_true, startsComment_iff]
  rintro ⟨note, hnote⟩
  exact h ((List.dropWhile_sublist isIndent).mem (hnote ▸ List.mem_cons_self))

theorem isText_of_isIndent (h : isIndent c = true) : isText c = true := by
  simp only [isIndent, Bool.or_eq_true, beq_iff_eq] at h
  rcases h with rfl | rfl <;> decide

theorem isBlank_of_isIndent {c : Char} (h : isIndent c = true) : isBlank c = true := by
  simp only [isIndent, Bool.or_eq_true, beq_iff_eq] at h
  rcases h with rfl | rfl <;> decide

theorem segments_of_startsComment (h : startsComment cs = true) (hn : '\n' ∉ cs) :
    segments true cs = [.comment cs] := by
  cases cs with
  | nil => exact absurd h (by decide)
  | cons c cs =>
      have hc : isText c = true := by
        cases hi : isIndent c with
        | true => exact isText_of_isIndent hi
        | false =>
            obtain ⟨note, hnote⟩ := startsComment_iff.mp h
            rw [List.dropWhile_cons_of_neg (by simp [hi])] at hnote
            cases hnote
            decide
      have hcs : ∀ d ∈ cs, (d != '\n') = true := by
        intro d hd
        exact bne_iff_ne.mpr (fun hdn => hn (hdn ▸ List.mem_cons_of_mem c hd))
      rw [segments_of_comment hc (by rw [h]; rfl), takeWhile_of_forall hcs, dropWhile_of_forall hcs,
        segments_nil]

theorem startsComment_append_cons (hi : isIndent c = false) (hc : c ≠ '/') (s t : List Char) :
    startsComment (s ++ c :: t) = startsComment s := by
  rw [Bool.eq_iff_iff, startsComment_iff, startsComment_iff, dropWhile_append_of_neg hi]
  match s.dropWhile isIndent with
  | [] => simp [hc]
  | [a] => simp [hc]
  | a :: b :: rest => simp

theorem segments_append_newline (free : Bool) (s t : List Char) :
    segments free (s ++ '\n' :: t) = segments free s ++ .newline :: segments true t := by
  induction free, s using segments.induct with
  | case1 free => rw [List.nil_append, segments_newline, segments_nil, List.nil_append]
  | case2 free s ih => rw [List.cons_append, segments_newline, ih, segments_newline, List.cons_append]
  | case3 free c s _ m hm ih =>
      rw [List.cons_append, segments_of_mark hm, ih, segments_of_mark hm, List.cons_append]
  | case4 free c s hn hm h ih =>
      have hc := isText_iff.mpr ⟨hn, hm⟩
      have h' : (free && startsComment (c :: (s ++ '\n' :: t))) = true := by
        rw [← List.cons_append, startsComment_append_cons (by decide) (by decide), h]
      rw [List.cons_append, segments_of_comment hc h', segments_of_comment hc h,
        takeWhile_append_of_neg (by decide), dropWhile_append_of_neg (by decide), ih,
        List.cons_append]
  | case5 free c s hn hm h run ih =>
      have hc := isText_iff.mpr ⟨hn, hm⟩
      rw [Bool.not_eq_true] at h
      have h' : (free && startsComment (c :: (s ++ '\n' :: t))) = false := by
        rw [← List.cons_append, startsComment_append_cons (by decide) (by decide), h]
      rw [List.cons_append, segments_of_text hc h', segments_of_text hc h,
        takeWhile_append_of_neg (by decide), dropWhile_append_of_neg (by decide), ih,
        List.cons_append]

theorem chars_segments (free : Bool) (cs : List Char) :
    (segments free cs).flatMap Segment.chars = cs := by
  induction free, cs using segments.induct with
  | case1 free => rw [segments_nil, List.flatMap_nil]
  | case2 free cs ih => rw [segments_newline, List.flatMap_cons, ih]; rfl
  | case3 free c cs _ m hm ih =>
      rw [segments_of_mark hm, List.flatMap_cons, ih, Segment.chars, Mark.char_of_ofChar? hm,
        List.singleton_append]
  | case4 free c cs hn hm h ih =>
      rw [segments_of_comment (isText_iff.mpr ⟨hn, hm⟩) h, List.flatMap_cons, ih, Segment.chars,
        List.cons_append, List.takeWhile_append_dropWhile]
  | case5 free c cs hn hm h run ih =>
      rw [segments_of_text (isText_iff.mpr ⟨hn, hm⟩) (by simpa using h), List.flatMap_cons, ih,
        Segment.chars, List.cons_append, List.takeWhile_append_dropWhile]

def Segment.OnLine (s : Segment) : Prop := s = .newline ∨ '\n' ∉ s.chars

theorem onLine_of_mem_segments {s : Segment} (hs : s ∈ segments free cs) : s.OnLine := by
  induction free, cs using segments.induct with
  | case1 free => simp [segments_nil] at hs
  | case2 free cs ih =>
      rw [segments_newline] at hs
      rcases List.mem_cons.mp hs with rfl | hs
      · exact Or.inl rfl
      · exact ih hs
  | case3 free c cs _ m hm ih =>
      rw [segments_of_mark hm] at hs
      rcases List.mem_cons.mp hs with rfl | hs
      · right; cases m <;> decide
      · exact ih hs
  | case4 free c cs hn hm h ih =>
      rw [segments_of_comment (isText_iff.mpr ⟨hn, hm⟩) h] at hs
      rcases List.mem_cons.mp hs with rfl | hs
      · right
        intro hmem
        rcases List.mem_cons.mp hmem with h' | h'
        · exact hn h'.symm
        · simpa using List.all_eq_true.mp List.all_takeWhile _ h'
      · exact ih hs
  | case5 free c cs hn hm h run ih =>
      rw [segments_of_text (isText_iff.mpr ⟨hn, hm⟩) (by simpa using h)] at hs
      rcases List.mem_cons.mp hs with rfl | hs
      · right
        intro hmem
        rcases List.mem_cons.mp hmem with h' | h'
        · exact hn h'.symm
        · exact absurd (List.all_eq_true.mp List.all_takeWhile _ h') (by decide)
      · exact ih hs

theorem count_newline_chars {segs : List Segment} (h : ∀ s ∈ segs, s.OnLine) :
    (segs.flatMap Segment.chars).count '\n' = segs.count .newline := by
  induction segs with
  | nil => rfl
  | cons s segs ih =>
      rw [List.flatMap_cons, List.count_append, ih (fun u hu => h u (List.mem_cons_of_mem _ hu)),
        List.count_cons, Nat.add_comm]
      congr 1
      rcases h s List.mem_cons_self with rfl | hs
      · rfl
      · have : s ≠ .newline := by rintro rfl; exact hs List.mem_cons_self
        simp [List.count_eq_zero_of_not_mem hs, this]

theorem count_newline_segments (free : Bool) (cs : List Char) :
    (segments free cs).count .newline = cs.count '\n' := by
  rw [← count_newline_chars (fun _ => onLine_of_mem_segments), chars_segments]

def Token.shift (lines chars : Nat) (t : Token) : Token :=
  { t with line := t.line + lines, start := t.start + chars, stop := t.stop + chars }

theorem Token.shift_shift (t : Token) (lines chars lines' chars' : Nat) :
    (t.shift lines chars).shift lines' chars' = t.shift (lines + lines') (chars + chars') := by
  simp only [Token.shift, Nat.add_assoc]

theorem tokensFrom_shift (lines chars : Nat) :
    ∀ (segs : List Segment) (line start : Nat),
      tokensFrom (line + lines) (start + chars) segs =
        (tokensFrom line start segs).map (Token.shift lines chars) := by
  intro segs
  induction segs with
  | nil => intro line start; rfl
  | cons s segs ih =>
      intro line start
      cases s with
      | comment cs =>
          simp only [tokensFrom, ← ih, Nat.add_right_comm]
      | newline => simp only [tokensFrom, List.map_cons, Token.shift, ← ih, Nat.add_right_comm]
      | mark m => simp only [tokensFrom, List.map_cons, Token.shift, ← ih, Nat.add_right_comm]
      | text cs =>
          simp only [tokensFrom]
          split
          · simp only [← ih, Nat.add_right_comm]
          · simp only [List.map_cons, Token.shift, ← ih, Nat.add_right_comm]

theorem tokensFrom_append (ys : List Segment) :
    ∀ (xs : List Segment) (line start : Nat),
      tokensFrom line start (xs ++ ys) =
        tokensFrom line start xs ++
          tokensFrom (line + xs.count .newline) (start + (xs.flatMap Segment.chars).length) ys := by
  intro xs
  induction xs with
  | nil => intro line start; rfl
  | cons s xs ih =>
      intro line start
      have hlen : ∀ n, n + s.chars.length + (xs.flatMap Segment.chars).length =
          n + ((s :: xs).flatMap Segment.chars).length := by
        intro n
        rw [List.flatMap_cons, List.length_append, Nat.add_assoc]
      cases s with
      | comment cs =>
          rw [List.cons_append, tokensFrom, ih, ← hlen, tokensFrom, List.count_cons_of_ne (by simp)]
          rfl
      | newline =>
          rw [List.cons_append, tokensFrom, ih, ← hlen, tokensFrom, List.count_cons_self,
            List.cons_append, Nat.add_right_comm, Nat.add_assoc line]
          rfl
      | mark m =>
          rw [List.cons_append, tokensFrom, ih, ← hlen, tokensFrom, List.count_cons_of_ne (by simp),
            List.cons_append]
          rfl
      | text cs =>
          rw [List.cons_append, tokensFrom, ih, ← hlen, tokensFrom, List.count_cons_of_ne (by simp)]
          split <;> rfl

theorem segments_append {s : List Char} (hs : EndsLine s) (t : List Char) :
    segments true (s ++ t) = segments true s ++ segments true t := by
  rcases hs with rfl | ⟨init, rfl⟩
  · rw [segments_nil, List.nil_append, List.nil_append]
  · rw [List.append_assoc, List.singleton_append, segments_append_newline, segments_append_newline,
      segments_nil, List.append_assoc, List.singleton_append]

theorem scan_append {s : List Char} (hs : EndsLine s) (t : List Char) :
    scan (s ++ t) = scan s ++ (scan t).map (Token.shift (s.count '\n') s.length) := by
  rw [scan, segments_append hs, tokensFrom_append, chars_segments, count_newline_segments,
    tokensFrom_shift]
  rfl

structure Token.Within (line start lines chars : Nat) (t : Token) : Prop where
  le_line : line ≤ t.line
  line_le : t.line ≤ line + lines
  le_start : start ≤ t.start
  start_le : t.start ≤ t.stop
  stop_le : t.stop ≤ start + chars

theorem Token.Within.later {line start lines chars : Nat} {t : Token} {n m : Nat}
    (h : t.Within (line + n) (start + m) lines chars) :
    t.Within line start (n + lines) (m + chars) := by
  obtain ⟨h1, h2, h3, h4, h5⟩ := h
  exact ⟨by omega, by omega, by omega, h4, by omega⟩

theorem within_of_mem_tokensFrom {t : Token} :
    ∀ {segs : List Segment} {line start : Nat}, t ∈ tokensFrom line start segs →
      t.Within line start (segs.count .newline) (segs.flatMap Segment.chars).length := by
  intro segs
  induction segs with
  | nil => intro line start h; simp [tokensFrom] at h
  | cons s segs ih =>
      intro line start h
      rw [List.flatMap_cons, List.length_append, List.count_cons, Nat.add_comm (segs.count _)]
      cases s with
      | comment cs => exact (ih h).later (n := 0)
      | newline =>
          rcases List.mem_cons.mp h with rfl | h
          · exact ⟨Nat.le_refl _, Nat.le_add_right _ _, Nat.le_refl _, Nat.le_succ _,
              by simp [Segment.chars]⟩
          · exact (ih h).later
      | mark m =>
          rcases List.mem_cons.mp h with rfl | h
          · exact ⟨Nat.le_refl _, Nat.le_add_right _ _, Nat.le_refl _, Nat.le_succ _,
              by simp [Segment.chars]⟩
          · exact (ih h).later (n := 0)
      | text cs =>
          simp only [tokensFrom] at h
          split at h
          · exact (ih h).later (n := 0)
          · rcases List.mem_cons.mp h with rfl | h
            · exact ⟨Nat.le_refl _, Nat.le_add_right _ _, Nat.le_refl _, Nat.le_add_right _ _,
                by simp [Segment.chars]⟩
            · exact (ih h).later (n := 0)

theorem within_of_mem_scan {source : List Char} {t : Token} (h : t ∈ scan source) :
    t.Within 1 0 (source.count '\n') source.length := by
  have hw := within_of_mem_tokensFrom h
  rwa [chars_segments, count_newline_segments] at hw

theorem line_le_of_mem_scan {s : List Char} (hs : EndsLine s) {t : Token} (h : t ∈ scan s) :
    t.line ≤ s.count '\n' := by
  rcases hs with rfl | ⟨init, rfl⟩
  · simp [scan, segments_nil, tokensFrom] at h
  · rw [List.count_append, List.count_singleton_self, Nat.add_comm]
    rw [scan, segments_append_newline, tokensFrom_append, List.mem_append] at h
    rcases h with h | h
    · exact (within_of_mem_scan h).line_le
    · rw [segments_nil, count_newline_segments] at h
      simp only [tokensFrom, List.mem_singleton] at h
      exact h ▸ Nat.le_refl _

end Worksheet.Markup
