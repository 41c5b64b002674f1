import Worksheet.Proofs.Markup.Margin
import Worksheet.Proofs.Markup.Outline
import Worksheet.Proofs.Text.Trim

namespace Worksheet.Markup

open Chars

def pushChar (c : Char) (segs : List Segment) : List Segment :=
  if c = '\n' then .newline :: segs
  else match Mark.ofChar? c, segs with
    | some m, _ => .mark m :: segs
    | none, .text run :: rest => .text (c :: run) :: rest
    | none, _ => .text [c] :: segs

def plainSegments (cs : List Char) : List Segment := cs.foldr pushChar []

section Segments

variable {c : Char} {cs : List Char}

theorem plainSegments_nil : plainSegments [] = [] := rfl

theorem plainSegments_cons (c : Char) (cs : List Char) :
    plainSegments (c :: cs) = pushChar c (plainSegments cs) := rfl

theorem plainSegments_newline (cs : List Char) :
    plainSegments ('\n' :: cs) = .newline :: plainSegments cs := rfl

theorem plainSegments_mark (m : Mark) (cs : List Char) :
    plainSegments (m.char :: cs) = .mark m :: plainSegments cs := by
  cases m <;> rfl

theorem pushChar_append {s : Segment} (hs : ∀ run, s ≠ .text run) (c : Char)
    (segs rest : List Segment) : pushChar c (segs ++ s :: rest) = pushChar c segs ++ s :: rest := by
  unfold pushChar
  split
  · rfl
  · cases Mark.ofChar? c with
    | some m => rfl
    | none =>
        cases segs with
        | nil =>
            cases s with
            | text run => exact absurd rfl (hs run)
            | _ => rfl
        | cons first segs => cases first <;> rfl

theorem plainSegments_append {s : Segment} {t : List Char} {rest : List Segment}
    (hs : ∀ run, s ≠ .text run) (ht : plainSegments t = s :: rest) :
    ∀ cs, plainSegments (cs ++ t) = plainSegments cs ++ plainSegments t := by
  intro cs
  induction cs with
  | nil => rfl
  | cons c cs ih =>
      rw [List.cons_append, plainSegments_cons, ih, ht, pushChar_append hs, plainSegments_cons]

theorem plainSegments_append_newline (s t : List Char) :
    plainSegments (s ++ '\n' :: t) = plainSegments s ++ .newline :: plainSegments t := by
  rw [plainSegments_append (fun _ => Segment.noConfusion) (plainSegments_newline t),
    plainSegments_newline]

theorem plainSegments_append_mark (s : List Char) (m : Mark) (t : List Char) :
    plainSegments (s ++ m.char :: t) = plainSegments s ++ .mark m :: plainSegments t := by
  rw [plainSegments_append (fun _ => Segment.noConfusion) (plainSegments_mark m t),
    plainSegments_mark]

theorem plainSegments_of_isText (hne : cs ≠ []) (h : ∀ c ∈ cs, isText c = true) :
    plainSegments cs = [.text cs] := by
  induction cs with
  | nil => exact absurd rfl hne
  | cons c cs ih =>
      obtain ⟨hn, hm⟩ := isText_iff.mp (h c List.mem_cons_self)
      have hrun : ∀ d ∈ cs, isText d = true := fun d hd => h d (List.mem_cons_of_mem _ hd)
      rw [plainSegments_cons]
      by_cases hcs : cs = []
      · simp only [hcs, plainSegments_nil, pushChar, if_neg hn, hm]
      · simp only [ih hcs hrun, pushChar, if_neg hn, hm]

theorem chars_pushChar (c : Char) (segs : List Segment) :
    (pushChar c segs).flatMap Segment.chars = c :: segs.flatMap Segment.chars := by
  unfold pushChar
  split
  · next hc => rw [hc]; rfl
  · cases hm : Mark.ofChar? c with
    | some m => rw [← Mark.char_of_ofChar? hm]; rfl
    | none =>
        cases segs with
        | nil => rfl
        | cons first segs => cases first <;> rfl

theorem chars_plainSegments (cs : List Char) : (plainSegments cs).flatMap Segment.chars = cs := by
  induction cs with
  | nil => rfl
  | cons c cs ih => rw [plainSegments_cons, chars_pushChar, ih]

theorem eq_newline_or_mark (h : isText c = false) : c = '\n' ∨ ∃ m : Mark, m.char = c := by
  by_cases hn : c = '\n'
  · exact Or.inl hn
  · cases hm : Mark.ofChar? c with
    | none => exact absurd (isText_iff.mpr ⟨hn, hm⟩) (by simp [h])
    | some m => exact Or.inr ⟨m, Mark.char_of_ofChar? hm⟩

theorem plainSegments_takeWhile_isText (hc : isText c = true) (cs : List Char) :
    plainSegments (c :: cs) =
      .text (c :: cs.takeWhile isText) :: plainSegments (cs.dropWhile isText) := by
  have hrun : ∀ d ∈ c :: cs.takeWhile isText, isText d = true := by
    intro d hd
    rcases List.mem_cons.mp hd with rfl | hd
    · exact hc
    · exact mem_takeWhile hd
  have htext := plainSegments_of_isText (List.cons_ne_nil c _) hrun
  have hsplit : c :: cs = (c :: cs.takeWhile isText) ++ cs.dropWhile isText := by
    rw [List.cons_append, List.takeWhile_append_dropWhile]
  conv => lhs; rw [hsplit]
  cases hrest : cs.dropWhile isText with
  | nil => rw [List.append_nil, htext, plainSegments_nil]
  | cons d rest =>
      have hd : isText d = false := of_dropWhile_eq_cons hrest
      rcases eq_newline_or_mark hd with rfl | ⟨m, rfl⟩
      · rw [plainSegments_append_newline, plainSegments_newline, htext, List.singleton_append]
      · rw [plainSegments_append_mark, plainSegments_mark, htext, List.singleton_append]

theorem segments_eq_plainSegments {free : Bool} (h : Uncommented (segments free cs)) :
    segments free cs = plainSegments cs := by
  induction free, cs using segments.induct with
  | case1 free => rw [segments_nil, plainSegments_nil]
  | case2 free cs ih =>
      rw [segments_newline] at h
      rw [segments_newline, ih h.tail, plainSegments_newline]
  | case3 free c cs _ m hm ih =>
      rw [segments_of_mark hm] at h
      rw [segments_of_mark hm, ih h.tail, ← Mark.char_of_ofChar? hm, plainSegments_mark]
  | case4 free c cs hn hm hc ih =>
      rw [segments_of_comment (isText_iff.mpr ⟨hn, hm⟩) hc] at h
      exact absurd List.mem_cons_self (h _)
  | case5 free c cs hn hm hc run ih =>
      have htext := isText_iff.mpr ⟨hn, hm⟩
      rw [Bool.not_eq_true] at hc
      rw [segments_of_text htext hc] at h
      rw [segments_of_text htext hc, ih h.tail, plainSegments_takeWhile_isText htext]

theorem uncommented_of_slash_not_mem {free : Bool} (h : '/' ∉ cs) : Uncommented (segments free cs) := by
  induction free, cs using segments.induct with
  | case1 free =>
      rw [segments_nil]
      exact fun _ => List.not_mem_nil
  | case2 free cs ih =>
      rw [segments_newline]
      exact (ih (fun hmem => h (List.mem_cons_of_mem _ hmem))).cons (fun _ => Segment.noConfusion)
  | case3 free c cs _ m hm ih =>
      rw [segments_of_mark hm]
      exact (ih (fun hmem => h (List.mem_cons_of_mem _ hmem))).cons (fun _ => Segment.noConfusion)
  | case4 free c cs hn hm hc ih =>
      rw [startsComment_of_slash_not_mem h, Bool.and_false] at hc
      cases hc
  | case5 free c cs hn hm hc run ih =>
      have hrest : '/' ∉ cs.dropWhile isText :=
        fun hmem => h (List.mem_cons_of_mem _ ((List.dropWhile_sublist _).mem hmem))
      rw [segments_of_text (isText_iff.mpr ⟨hn, hm⟩) (by simpa using hc)]
      exact (ih hrest).cons (fun _ => Segment.noConfusion)

theorem count_newline_pushChar (c : Char) (segs : List Segment) :
    (pushChar c segs).count .newline = segs.count .newline + if c = '\n' then 1 else 0 := by
  unfold pushChar
  split
  · rw [List.count_cons_self]
  · cases Mark.ofChar? c with
    | some m => rw [List.count_cons_of_ne (by simp), Nat.add_zero]
    | none =>
        cases segs with
        | nil => rfl
        | cons first segs => cases first <;> simp

theorem count_newline_plainSegments (cs : List Char) :
    (plainSegments cs).count .newline = cs.count '\n' := by
  induction cs with
  | nil => rfl
  | cons c cs ih =>
      rw [plainSegments_cons, count_newline_pushChar, ih, List.count_cons]
      simp only [beq_iff_eq]

theorem uncommented_pushChar {segs : List Segment} (h : Uncommented segs) (c : Char) :
    Uncommented (pushChar c segs) := by
  unfold pushChar
  split
  · exact h.cons (fun _ => Segment.noConfusion)
  · cases Mark.ofChar? c with
    | some m => exact h.cons (fun _ => Segment.noConfusion)
    | none =>
        cases segs with
        | nil => exact h.cons (fun _ => Segment.noConfusion)
        | cons first segs =>
            cases first with
            | text run => exact h.tail.cons (fun _ => Segment.noConfusion)
            | _ => exact h.cons (fun _ => Segment.noConfusion)

theorem uncommented_plainSegments (cs : List Char) : Uncommented (plainSegments cs) := by
  induction cs with
  | nil => exact fun _ => List.not_mem_nil
  | cons c cs ih => exact uncommented_pushChar ih c

end Segments

def Segment.flat : Segment → Segment
  | newline => text ['\n']
  | s => s

theorem Segment.chars_flat (s : Segment) : s.flat.chars = s.chars := by
  cases s <;> rfl

theorem chars_map_flat (segs : List Segment) :
    (segs.map Segment.flat).flatMap Segment.chars = segs.flatMap Segment.chars := by
  rw [List.flatMap_map]
  simp only [Segment.chars_flat]

theorem Uncommented.map_flat {segs : List Segment} (h : Uncommented segs) :
    Uncommented (segs.map Segment.flat) := by
  intro note hmem
  obtain ⟨s, hs, hflat⟩ := List.mem_map.mp hmem
  cases s with
  | comment cs => exact h cs hs
  | newline => cases hflat
  | mark m => cases hflat
  | text cs => cases hflat

theorem newline_not_mem_map_flat (segs : List Segment) : .newline ∉ segs.map Segment.flat := by
  intro hmem
  obtain ⟨s, -, hflat⟩ := List.mem_map.mp hmem
  cases s <;> cases hflat

def Mark.token (m : Mark) (line start : Nat) : Token :=
  ⟨.mark m, m.char.toString, line, start, start + 1⟩

def plainTokens (line start : Nat) (cs : List Char) : List Token :=
  tokensFrom line start (plainSegments cs)

def flatTokens (line start : Nat) (cs : List Char) : List Token :=
  tokensFrom line start ((plainSegments cs).map Segment.flat)

def Token.onLine (line : Nat) (t : Token) : Token := { t with line := line }

theorem moves_onLine (line : Nat) : Moves (Token.onLine line) (fun _ => line) :=
  ⟨fun _ => rfl, fun _ => rfl, fun _ => rfl⟩

theorem map_onLine_tokensFrom (n : Nat) :
    ∀ (segs : List Segment) (line start : Nat),
      ((tokensFrom line start segs).filter (·.kind ≠ .newline)).map (Token.onLine n) =
        tokensFrom n start (segs.map Segment.flat) := by
  intro segs
  induction segs with
  | nil => intro line start; rfl
  | cons s segs ih =>
      intro line start
      cases s with
      | comment cs => exact ih line _
      | newline => exact ih (line + 1) _
      | mark m => exact congrArg (_ :: ·) (ih line _)
      | text cs =>
          simp only [tokensFrom, List.map_cons, Segment.flat]
          split
          · exact ih line _
          · exact congrArg (_ :: ·) (ih line _)

section Tokens

variable {cs : List Char} {line start : Nat}

theorem scan_eq_plainTokens (h : Uncommented (segments true cs)) : scan cs = plainTokens 1 0 cs := by
  rw [scan, segments_eq_plainSegments h, plainTokens]

theorem plainTokens_append_mark (line start : Nat) (s : List Char) (m : Mark) (t : List Char) :
    plainTokens line start (s ++ m.char :: t) =
      plainTokens line start s ++ m.token (line + s.count '\n') (start + s.length) ::
        plainTokens (line + s.count '\n') (start + s.length + 1) t := by
  rw [plainTokens, plainSegments_append_mark, tokensFrom_append, count_newline_plainSegments,
    chars_plainSegments]
  rfl

theorem count_newline_append_mark (s : List Char) (m : Mark) (t : List Char) :
    (s ++ m.char :: t).count '\n' = s.count '\n' + t.count '\n' := by
  have hm : m.char ≠ '\n' := by cases m <;> decide
  rw [List.count_append, List.count_cons_of_ne hm]

theorem plainTokens_append_newline (line start : Nat) (s t : List Char) :
    ∃ u : Token, u.kind = .newline ∧ plainTokens line start (s ++ '\n' :: t) =
      plainTokens line start s ++ u ::
        plainTokens (line + s.count '\n' + 1) (start + s.length + 1) t := by
  rw [plainTokens, plainSegments_append_newline, tokensFrom_append, count_newline_plainSegments,
    chars_plainSegments]
  exact ⟨_, rfl, rfl⟩

theorem mem_of_mem_plainTokens {t : Token} {c : Char} (ht : t ∈ plainTokens line start cs)
    (hc : t.kind.char? = some c) : c ∈ cs := by
  have hmem := mem_chars_of_mem_tokensFrom ht hc
  rwa [chars_plainSegments] at hmem

theorem filter_plainTokens_of_line (hn : '\n' ∉ cs) (line start : Nat) :
    (plainTokens line start cs).filter (·.kind ≠ .newline) = plainTokens line start cs := by
  refine List.filter_eq_self.mpr (fun t ht => decide_eq_true (fun hk => hn ?_))
  exact mem_of_mem_plainTokens ht (by rw [hk]; rfl)

theorem plainTokens_eq_flatTokens (h : '\n' ∉ cs) : plainTokens line start cs = flatTokens line start cs := by
  have hsegs : Segment.newline ∉ plainSegments cs := by
    rw [← List.count_eq_zero, count_newline_plainSegments]
    exact List.count_eq_zero_of_not_mem h
  have hflat : ∀ s ∈ plainSegments cs, s.flat = s := by
    intro s hs
    cases s with
    | newline => exact absurd hs hsegs
    | _ => rfl
  rw [flatTokens, List.map_congr_left hflat, List.map_id', plainTokens]

theorem flatTokens_append_mark (line start : Nat) (s : List Char) (m : Mark) (t : List Char) :
    flatTokens line start (s ++ m.char :: t) =
      flatTokens line start s ++ m.token line (start + s.length) ::
        flatTokens line (start + s.length + 1) t := by
  rw [flatTokens, plainSegments_append_mark, List.map_append, tokensFrom_append, chars_map_flat,
    chars_plainSegments, List.count_eq_zero.mpr (newline_not_mem_map_flat _)]
  rfl

theorem flatTokens_append_open (line start : Nat) (s t : List Char) :
    flatTokens line start (s ++ '[' :: t) =
      flatTokens line start s ++ Mark.openBracket.token line (start + s.length) ::
        flatTokens line (start + s.length + 1) t :=
  flatTokens_append_mark line start s .openBracket t

theorem flatTokens_append_close (line start : Nat) (s t : List Char) :
    flatTokens line start (s ++ ']' :: t) =
      flatTokens line start s ++ Mark.closeBracket.token line (start + s.length) ::
        flatTokens line (start + s.length + 1) t :=
  flatTokens_append_mark line start s .closeBracket t

theorem flatTokens_of_blank (h : ∀ c ∈ cs, isBlank c = true) (line start : Nat) :
    flatTokens line start cs = [] := by
  apply tokensFrom_of_blank _ (newline_not_mem_map_flat _)
  rw [chars_map_flat, chars_plainSegments]
  exact h

theorem mem_of_mem_flatTokens {t : Token} {c : Char} (ht : t ∈ flatTokens line start cs)
    (hc : t.kind.char? = some c) : c ∈ cs := by
  have hmem := mem_chars_of_mem_tokensFrom ht hc
  rwa [chars_map_flat, chars_plainSegments] at hmem

theorem kind_ne_of_mem_flatTokens {t : Token} {m : Mark} (hm : m.char ∉ cs)
    (ht : t ∈ flatTokens line start cs) : t.kind ≠ .mark m :=
  fun hk => hm (mem_of_mem_flatTokens ht (by rw [hk]; rfl))

theorem sliceText_flatTokens (cs pre post : List Char) (line : Nat) :
    sliceText (pre ++ (cs ++ post)) (flatTokens line pre.length cs) = .ofList (collapse cs) := by
  have hslice := sliceText_tokensFrom (uncommented_plainSegments cs).map_flat pre post line
  rwa [chars_map_flat, chars_plainSegments] at hslice

end Tokens

theorem map_onLine_plainTokens (n line start : Nat) (cs : List Char) :
    ((plainTokens line start cs).filter (·.kind ≠ .newline)).map (Token.onLine n) =
      flatTokens n start cs :=
  map_onLine_tokensFrom n (plainSegments cs) line start

end Worksheet.Markup
