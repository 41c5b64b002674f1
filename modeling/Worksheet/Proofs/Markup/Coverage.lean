import Mathlib.Data.List.Chain
import Worksheet.Proofs.Markup.Plain

namespace Worksheet.Markup

open Chars

section Segments

variable {cs : List Char} {free : Bool} {s : Segment} {segs : List Segment}

def Segment.Sound : Segment → Prop
  | comment cs => startsComment cs = true ∧ '\n' ∉ cs
  | text cs => cs ≠ [] ∧ ∀ c ∈ cs, isText c = true
  | newline | mark _ => True

def Segment.FitsAt (free : Bool) : Segment → Prop
  | comment _ => free = true
  | text cs => (free && startsComment cs) = false
  | newline | mark _ => True

def Segment.Precedes : Segment → Segment → Prop
  | comment _, s => s = newline
  | text _, s => s = newline ∨ ∃ m, s = mark m
  | newline, s => s.FitsAt true
  | mark m, s => s.FitsAt (m == .semicolon)

theorem startsComment_takeWhile {p : Char → Bool}
    (hp : ∀ d, p d = false → isIndent d = false ∧ d ≠ '/') (cs : List Char) :
    startsComment (cs.takeWhile p) = startsComment cs := by
  have hsplit : cs.takeWhile p ++ cs.dropWhile p = cs := List.takeWhile_append_dropWhile
  cases hrest : cs.dropWhile p with
  | nil => rw [hrest, List.append_nil] at hsplit; rw [hsplit]
  | cons d rest =>
      have hd : p d = false := of_dropWhile_eq_cons hrest
      rw [hrest] at hsplit
      conv => rhs; rw [← hsplit]
      exact (startsComment_append_cons (hp d hd).1 (hp d hd).2 _ _).symm

theorem startsComment_takeWhile_line (cs : List Char) :
    startsComment (cs.takeWhile (· != '\n')) = startsComment cs := by
  refine startsComment_takeWhile (fun d hd => ?_) cs
  have hd' : d = '\n' := by simpa using hd
  subst hd'
  exact ⟨by decide, by decide⟩

theorem startsComment_takeWhile_isText (cs : List Char) :
    startsComment (cs.takeWhile isText) = startsComment cs := by
  refine startsComment_takeWhile (fun d hd => ?_) cs
  rcases eq_newline_or_mark hd with rfl | ⟨m, rfl⟩
  · exact ⟨by decide, by decide⟩
  · cases m <;> exact ⟨by decide, by decide⟩

theorem sound_of_mem_segments (hs : s ∈ segments free cs) : s.Sound := by
  induction free, cs using segments.induct with
  | case1 free => simp [segments_nil] at hs
  | case2 free cs ih =>
      rw [segments_newline] at hs
      rcases List.mem_cons.mp hs with rfl | hs
      · trivial
      · exact ih hs
  | case3 free c cs _ m hm ih =>
      rw [segments_of_mark hm] at hs
      rcases List.mem_cons.mp hs with rfl | hs
      · trivial
      · exact ih hs
  | case4 free c cs hn hm h ih =>
      rw [segments_of_comment (isText_iff.mpr ⟨hn, hm⟩) h] at hs
      rcases List.mem_cons.mp hs with rfl | hs
      · have hline : c :: cs.takeWhile (· != '\n') = (c :: cs).takeWhile (· != '\n') := by
          rw [List.takeWhile_cons_of_pos (by simpa using hn)]
        rw [Segment.Sound, hline, startsComment_takeWhile_line]
        refine ⟨(Bool.and_eq_true_iff.mp h).2, fun hmem => ?_⟩
        exact absurd (mem_takeWhile hmem) (by decide)
      · exact ih hs
  | case5 free c cs hn hm h run ih =>
      have hc := isText_iff.mpr ⟨hn, hm⟩
      rw [segments_of_text hc (by simpa using h)] at hs
      rcases List.mem_cons.mp hs with rfl | hs
      · refine ⟨List.cons_ne_nil _ _, fun d hd => ?_⟩
        rcases List.mem_cons.mp hd with rfl | hd
        · exact hc
        · exact mem_takeWhile hd
      · exact ih hs

theorem fitsAt_head_segments (hs : s ∈ (segments free cs).head?) : s.FitsAt free := by
  cases cs with
  | nil => simp [segments_nil] at hs
  | cons c cs =>
      by_cases hc : isText c = true
      · cases h : free && startsComment (c :: cs) with
        | true =>
            rw [segments_of_comment hc h] at hs
            cases hs
            exact (Bool.and_eq_true_iff.mp h).1
        | false =>
            rw [segments_of_text hc h] at hs
            cases hs
            rw [Segment.FitsAt, ← List.takeWhile_cons_of_pos hc, startsComment_takeWhile_isText, h]
      · rw [Bool.not_eq_true] at hc
        rcases eq_newline_or_mark hc with rfl | ⟨m, rfl⟩
        · rw [segments_newline] at hs
          cases hs
          trivial
        · rw [segments_of_mark m.ofChar?_char] at hs
          cases hs
          trivial

theorem isChain_segments (free : Bool) (cs : List Char) :
    (segments free cs).IsChain Segment.Precedes := by
  induction free, cs using segments.induct with
  | case1 free => rw [segments_nil]; exact .nil
  | case2 free cs ih =>
      rw [segments_newline, List.isChain_cons]
      exact ⟨fun s hs => fitsAt_head_segments hs, ih⟩
  | case3 free c cs _ m hm ih =>
      rw [segments_of_mark hm, List.isChain_cons]
      exact ⟨fun s hs => fitsAt_head_segments hs, ih⟩
  | case4 free c cs hn hm h ih =>
      rw [segments_of_comment (isText_iff.mpr ⟨hn, hm⟩) h, List.isChain_cons]
      refine ⟨fun s hs => ?_, ih⟩
      cases hrest : cs.dropWhile (· != '\n') with
      | nil => simp [hrest, segments_nil] at hs
      | cons d rest =>
          have hd : d = '\n' := by simpa using of_dropWhile_eq_cons hrest
          rw [hrest, hd, segments_newline] at hs
          cases hs
          rfl
  | case5 free c cs hn hm h run ih =>
      rw [segments_of_text (isText_iff.mpr ⟨hn, hm⟩) (by simpa using h), List.isChain_cons]
      refine ⟨fun s hs => ?_, ih⟩
      cases hrest : cs.dropWhile isText with
      | nil => simp [hrest, segments_nil] at hs
      | cons d rest =>
          rw [hrest] at hs
          rcases eq_newline_or_mark (of_dropWhile_eq_cons hrest) with rfl | ⟨m, rfl⟩
          · rw [segments_newline] at hs
            cases hs
            exact Or.inl rfl
          · rw [segments_of_mark m.ofChar?_char] at hs
            cases hs
            exact Or.inr ⟨m, rfl⟩

theorem exists_cut_at {pre rest : List Char} {c : Char}
    (h : segs.flatMap Segment.chars = pre ++ c :: rest) :
    ∃ before s after left right, segs = before ++ s :: after ∧
      pre = before.flatMap Segment.chars ++ left ∧ s.chars = left ++ c :: right ∧
      rest = right ++ after.flatMap Segment.chars := by
  induction segs generalizing pre with
  | nil => simp at h
  | cons s segs ih =>
      have hlater : ∀ pre', pre = s.chars ++ pre' → segs.flatMap Segment.chars = pre' ++ c :: rest →
          ∃ before u after left right, s :: segs = before ++ u :: after ∧
            pre = before.flatMap Segment.chars ++ left ∧ u.chars = left ++ c :: right ∧
            rest = right ++ after.flatMap Segment.chars := by
        intro pre' hpre hsegs
        obtain ⟨before, u, after, left, right, rfl, rfl, hu, hrest⟩ := ih hsegs
        exact ⟨s :: before, u, after, left, right, rfl,
          by rw [hpre, List.flatMap_cons, List.append_assoc], hu, hrest⟩
      rw [List.flatMap_cons, List.append_eq_append_iff] at h
      rcases h with ⟨pre', hpre, hsegs⟩ | ⟨right, hs, hrest⟩
      · exact hlater pre' hpre hsegs
      · cases right with
        | nil => exact hlater [] (by rw [hs, List.append_nil, List.append_nil]) hrest.symm
        | cons d right =>
            obtain ⟨rfl, rfl⟩ := List.cons.inj hrest
            exact ⟨[], s, segs, pre, right, rfl, rfl, hs, rfl⟩

end Segments

def Token.Reads (t : Token) (span : List Char) : Prop :=
  match t.kind with
  | .text => (∀ c ∈ span, isText c = true) ∧ t.value = .ofList (collapse span) ∧ t.value ≠ ""
  | .mark m => span = [m.char] ∧ t.value = m.char.toString
  | .newline => span = ['\n'] ∧ t.value = "\n"
  | .finish => False

section Tokens

variable {source : List Char} {before after segs : List Segment} {s : Segment} {t : Token}
  {line start : Nat}

theorem Token.Reads.ne_nil {span : List Char} (h : t.Reads span) : span ≠ [] := by
  rintro rfl
  unfold Token.Reads at h
  split at h
  · exact h.2.2 h.2.1
  · exact List.cons_ne_nil _ _ h.1.symm
  · exact List.cons_ne_nil _ _ h.1.symm
  · exact h

theorem reads_of_mem_tokensFrom_singleton (hs : s.Sound) (ht : t ∈ tokensFrom line start [s]) :
    t.line = line ∧ t.start = start ∧ t.stop = start + s.chars.length ∧ t.Reads s.chars := by
  cases s with
  | comment cs => exact absurd ht List.not_mem_nil
  | newline =>
      rw [List.mem_singleton.mp ht]
      exact ⟨rfl, rfl, rfl, rfl, rfl⟩
  | mark m =>
      rw [List.mem_singleton.mp ht]
      exact ⟨rfl, rfl, rfl, rfl, rfl⟩
  | text cs =>
      simp only [tokensFrom] at ht
      split at ht
      · exact absurd ht List.not_mem_nil
      · next hne =>
          rw [List.mem_singleton.mp ht]
          exact ⟨rfl, rfl, rfl, hs.2, rfl, fun he => hne (String.ofList_eq_empty_iff.mp he)⟩

theorem tokensFrom_cut (line start : Nat) (before : List Segment) (s : Segment)
    (after : List Segment) :
    tokensFrom line start (before ++ s :: after) =
      tokensFrom line start before ++
        (tokensFrom (line + before.count .newline)
            (start + (before.flatMap Segment.chars).length) [s] ++
          tokensFrom (line + before.count .newline + [s].count .newline)
            (start + (before.flatMap Segment.chars).length + s.chars.length) after) := by
  rw [tokensFrom_append, tokensFrom_cons]

theorem exists_segment_of_mem_tokensFrom (ht : t ∈ tokensFrom line start segs) :
    ∃ before s after, segs = before ++ s :: after ∧
      t ∈ tokensFrom (line + before.count .newline)
        (start + (before.flatMap Segment.chars).length) [s] := by
  induction segs generalizing line start with
  | nil => exact absurd ht List.not_mem_nil
  | cons s segs ih =>
      rw [tokensFrom_cons, List.mem_append] at ht
      rcases ht with ht | ht
      · exact ⟨[], s, segs, rfl, ht⟩
      · obtain ⟨before, u, after, rfl, hu⟩ := ih ht
        refine ⟨s :: before, u, after, rfl, ?_⟩
        rw [← List.singleton_append, List.count_append, List.flatMap_append, List.length_append,
          List.flatMap_singleton, ← Nat.add_assoc, ← Nat.add_assoc]
        exact hu

theorem source_eq_of_cut (h : segments true source = before ++ s :: after) :
    source = before.flatMap Segment.chars ++ (s.chars ++ after.flatMap Segment.chars) := by
  rw [← List.flatMap_cons, ← List.flatMap_append, ← h, chars_segments]

theorem count_newline_of_cut (h : segments true source = before ++ s :: after) :
    before.count .newline = (before.flatMap Segment.chars).count '\n' := by
  refine (count_newline_chars (fun u hu => ?_)).symm
  exact onLine_of_mem_segments (h ▸ List.mem_append_left _ hu)

theorem sound_of_cut (h : segments true source = before ++ s :: after) : s.Sound :=
  sound_of_mem_segments (h ▸ List.mem_append_right before List.mem_cons_self)

theorem exists_cut_of_mem_scan (ht : t ∈ scan source) :
    ∃ before s after, segments true source = before ++ s :: after ∧
      t.line = 1 + (before.flatMap Segment.chars).count '\n' ∧
      t.start = (before.flatMap Segment.chars).length ∧
      t.stop = (before.flatMap Segment.chars).length + s.chars.length ∧ t.Reads s.chars := by
  obtain ⟨before, s, after, hsegs, hs⟩ := exists_segment_of_mem_tokensFrom ht
  rw [count_newline_of_cut hsegs, Nat.zero_add] at hs
  exact ⟨before, s, after, hsegs, reads_of_mem_tokensFrom_singleton (sound_of_cut hsegs) hs⟩

theorem mem_scan_of_cut (h : segments true source = before ++ s :: after)
    (ht : t ∈ tokensFrom (1 + before.count .newline) (before.flatMap Segment.chars).length [s]) :
    t ∈ scan source := by
  rw [scan, h, tokensFrom_cut, Nat.zero_add]
  exact List.mem_append_right _ (List.mem_append_left _ ht)

theorem pairwise_tokensFrom (segs : List Segment) :
    ∀ line start, (∀ s ∈ segs, s.Sound) →
      (tokensFrom line start segs).Pairwise (fun t u => t.stop ≤ u.start) := by
  induction segs with
  | nil => exact fun _ _ _ => .nil
  | cons s segs ih =>
      intro line start hsound
      rw [tokensFrom_cons, List.pairwise_append]
      refine ⟨?_, ih _ _ (fun u hu => hsound u (List.mem_cons_of_mem _ hu)), ?_⟩
      · cases s with
        | comment cs => exact .nil
        | newline => exact List.pairwise_singleton _ _
        | mark m => exact List.pairwise_singleton _ _
        | text cs =>
            simp only [tokensFrom]
            split
            · exact .nil
            · exact List.pairwise_singleton _ _
      · intro t ht u hu
        obtain ⟨-, -, hstop, -⟩ := reads_of_mem_tokensFrom_singleton (hsound s List.mem_cons_self) ht
        rw [hstop]
        exact (within_of_mem_tokensFrom hu).le_start

theorem isChain_tokensFrom (segs : List Segment) :
    ∀ line start, segs.IsChain Segment.Precedes →
      (tokensFrom line start segs).IsChain (fun t u => t.kind = .text → u.kind ≠ .text) := by
  induction segs with
  | nil => exact fun _ _ _ => .nil
  | cons s segs ih =>
      intro line start hchain
      obtain ⟨hnext, hrest⟩ := List.isChain_cons.mp hchain
      cases s with
      | comment cs => exact ih _ _ hrest
      | newline => exact List.isChain_cons.mpr ⟨fun u _ hk => TokenKind.noConfusion hk, ih _ _ hrest⟩
      | mark m => exact List.isChain_cons.mpr ⟨fun u _ hk => TokenKind.noConfusion hk, ih _ _ hrest⟩
      | text cs =>
          simp only [tokensFrom]
          split
          · exact ih _ _ hrest
          · refine List.isChain_cons.mpr ⟨fun u hu _ => ?_, ih _ _ hrest⟩
            cases segs with
            | nil => cases hu
            | cons next segs =>
                rcases hnext next rfl with rfl | ⟨m, rfl⟩
                · cases hu
                  exact TokenKind.noConfusion
                · cases hu
                  exact TokenKind.noConfusion

end Tokens

structure IsComment (before text after : List Char) : Prop where
  opens : ∀ c, before.getLast? = some c → c = '\n' ∨ c = ';'
  slashes : ∃ indent note, text = indent ++ '/' :: '/' :: note ∧ ∀ c ∈ indent, isIndent c = true
  newline_not_mem : '\n' ∉ text
  closes : ∀ c, after.head? = some c → c = '\n'

structure Lossless (source : List Char) (tokens : List Token) : Prop where
  span : ∀ t ∈ tokens, t.start < t.stop ∧ t.stop ≤ source.length
  disjoint : tokens.Pairwise (fun t u => t.stop ≤ u.start)
  reads : ∀ t ∈ tokens, t.Reads (source.extract t.start t.stop)
  line : ∀ t ∈ tokens, t.line = 1 + (source.take t.start).count '\n'
  apart : tokens.IsChain (fun t u => t.kind = .text → u.kind ≠ .text)
  newline : ∀ n, source[n]? = some '\n' → ∃ t ∈ tokens, t.kind = .newline ∧ t.start = n
  gap : ∀ n c, source[n]? = some c → (∀ t ∈ tokens, ¬ (t.start ≤ n ∧ n < t.stop)) →
    (isBlank c = true ∧ c ≠ '\n') ∨
      ∃ before text after, source = before ++ (text ++ after) ∧ IsComment before text after ∧
        before.length ≤ n ∧ n < before.length + text.length
  comment : ∀ before text after, source = before ++ (text ++ after) → IsComment before text after →
    ∀ t ∈ tokens, t.stop ≤ before.length ∨ before.length + text.length ≤ t.start

section Comments

variable {source note : List Char} {before after : List Segment} {s : Segment}

theorem opens_of_cut (h : segments true source = before ++ .comment note :: after) :
    ∀ c, (before.flatMap Segment.chars).getLast? = some c → c = '\n' ∨ c = ';' := by
  intro c hc
  have hchain := isChain_segments true source
  rw [h] at hchain
  rcases List.eq_nil_or_concat before with rfl | ⟨init, last, rfl⟩
  · cases hc
  · rw [List.concat_eq_append, List.append_assoc, List.singleton_append] at hchain
    have hlast := (List.isChain_append_cons_cons.mp hchain).2.1
    rw [List.concat_eq_append, List.flatMap_append, List.flatMap_singleton] at hc
    cases last with
    | comment cs => cases hlast
    | text cs => rcases hlast with hn | ⟨m, hm⟩ <;> contradiction
    | newline =>
        rw [Segment.chars, List.getLast?_concat] at hc
        exact Or.inl (Option.some.inj hc).symm
    | mark m =>
        have hm : m = .semicolon := eq_of_beq hlast
        rw [Segment.chars, List.getLast?_concat, hm] at hc
        exact Or.inr (Option.some.inj hc).symm

theorem closes_of_cut (h : segments true source = before ++ .comment note :: after) :
    ∀ c, (after.flatMap Segment.chars).head? = some c → c = '\n' := by
  intro c hc
  have hchain := isChain_segments true source
  rw [h] at hchain
  cases after with
  | nil => cases hc
  | cons next after =>
      have hnext : next = .newline := (List.isChain_append_cons_cons.mp hchain).2.1
      rw [hnext] at hc
      exact (Option.some.inj hc).symm

theorem isComment_of_cut (h : segments true source = before ++ .comment note :: after) :
    IsComment (before.flatMap Segment.chars) note (after.flatMap Segment.chars) := by
  obtain ⟨hstarts, hn⟩ := sound_of_cut h
  obtain ⟨rest, hrest⟩ := startsComment_iff.mp hstarts
  refine ⟨opens_of_cut h, ⟨note.takeWhile isIndent, rest, ?_, fun _ hc => mem_takeWhile hc⟩, hn,
    closes_of_cut h⟩
  rw [← hrest, List.takeWhile_append_dropWhile]

theorem fitsAt_of_cut (h : segments true source = before ++ s :: after)
    (hopens : ∀ c, (before.flatMap Segment.chars).getLast? = some c → c = '\n' ∨ c = ';') :
    s.FitsAt true := by
  have hchain := isChain_segments true source
  rcases List.eq_nil_or_concat before with rfl | ⟨init, last, rfl⟩
  · exact fitsAt_head_segments (by rw [h]; rfl)
  · rw [h, List.concat_eq_append, List.append_assoc, List.singleton_append] at hchain
    have hlast := (List.isChain_append_cons_cons.mp hchain).2.1
    cases last with
    | comment cs => exact hlast ▸ trivial
    | text cs =>
        rcases hlast with rfl | ⟨m, rfl⟩
        · trivial
        · trivial
    | newline => exact hlast
    | mark m =>
        rcases hopens m.char (by simp [Segment.chars]) with hm | hm
        · cases m <;> cases hm
        · cases m <;> first | exact hlast | cases hm

theorem startsComment_of_cut (h : segments true source = before ++ .text note :: after) :
    startsComment (note ++ after.flatMap Segment.chars) = startsComment note := by
  have hchain := isChain_segments true source
  rw [h] at hchain
  cases after with
  | nil => rw [List.flatMap_nil, List.append_nil]
  | cons next after =>
      rcases (List.isChain_append_cons_cons.mp hchain).2.1 with rfl | ⟨m, rfl⟩
      · exact startsComment_append_cons (by decide) (by decide) _ _
      · cases m <;> exact startsComment_append_cons (by decide) (by decide) _ _

theorem IsComment.exists_cut {pre text post : List Char} (hc : IsComment pre text post)
    (hsource : source = pre ++ (text ++ post)) :
    ∃ before note after, segments true source = before ++ .comment note :: after ∧
      (before.flatMap Segment.chars).length ≤ pre.length ∧
      pre.length + text.length ≤ (before.flatMap Segment.chars).length + note.length := by
  obtain ⟨indent, rest, htext, hindent⟩ := hc.slashes
  have hstarts : startsComment (text ++ post) = true := by
    rw [htext, List.append_assoc]
    exact startsComment_of_indent hindent _
  obtain ⟨d, tail, rfl⟩ : ∃ d tail, text = d :: tail :=
    List.exists_cons_of_ne_nil (by rw [htext]; simp)
  have hd : isText d = true := by
    cases indent with
    | nil => exact (List.cons.inj htext).1 ▸ by decide
    | cons e indent =>
        exact (List.cons.inj htext).1 ▸ isText_of_isIndent (hindent e List.mem_cons_self)
  rw [List.cons_append] at hsource hstarts
  obtain ⟨before, s, after, left, right, hsegs, rfl, hs, hright⟩ :=
    exists_cut_at ((chars_segments true source).trans hsource)
  obtain ⟨note, rfl⟩ : ∃ note, s = .comment note := by
    cases s with
    | comment note => exact ⟨note, rfl⟩
    | newline =>
        have hmem : d ∈ Segment.newline.chars := hs ▸ List.mem_append_right _ List.mem_cons_self
        rw [List.mem_singleton.mp hmem] at hd
        cases hd
    | mark m =>
        have hmem : d ∈ (Segment.mark m).chars := hs ▸ List.mem_append_right _ List.mem_cons_self
        rw [List.mem_singleton.mp hmem, m.isText_char] at hd
        cases hd
    | text run =>
        exfalso
        obtain ⟨-, hrun⟩ := sound_of_cut hsegs
        change run = left ++ d :: right at hs
        rcases List.eq_nil_or_concat left with rfl | ⟨init, c, rfl⟩
        · have hfits := fitsAt_of_cut hsegs (by simpa using hc.opens)
          have hlook := startsComment_of_cut hsegs
          rw [hs, List.nil_append, List.cons_append, ← hright, hstarts] at hlook
          rw [Segment.FitsAt, hs, List.nil_append, ← hlook] at hfits
          cases hfits
        · -- the run would hold the line feed or the semicolon before the comment
          have hc' := hc.opens c (by simp)
          have htextc := hrun c (by simp [hs])
          rcases hc' with rfl | rfl
          · cases htextc
          · cases htextc
  refine ⟨before, note, after, hsegs, by simp, ?_⟩
  change note = left ++ d :: right at hs
  have hlength : tail.length ≤ right.length := by
    rcases List.append_eq_append_iff.mp hright with ⟨w, rfl, -⟩ | ⟨w, htail, hafter⟩
    · exact (List.prefix_append tail w).length_le
    · cases w with
      | nil => rw [htail, List.append_nil]
      | cons e w =>
          have he : e = '\n' := closes_of_cut hsegs e (by rw [hafter]; rfl)
          exact absurd (by rw [htail, he]; simp) hc.newline_not_mem
  rw [hs]
  simp only [List.length_append, List.length_cons]
  omega

end Comments

section Scan

variable {source : List Char}

theorem blank_or_comment {before after : List Segment} {s : Segment}
    (h : segments true source = before ++ s :: after)
    (hgap : ∀ t ∈ scan source, ¬ (t.start ≤ (before.flatMap Segment.chars).length ∧
      (before.flatMap Segment.chars).length + s.chars.length ≤ t.stop)) :
    (∀ c ∈ s.chars, isBlank c = true ∧ c ≠ '\n') ∨ ∃ note, s = .comment note := by
  by_cases hs : ∃ note, s = .comment note
  · exact Or.inr hs
  · left
    rcases tokensFrom_singleton (1 + before.count .newline) (before.flatMap Segment.chars).length
        (fun note heq => hs ⟨note, heq⟩) with ⟨hnil, hblank⟩ | ⟨t, ht, hstart, hstop, -⟩
    · intro c hc
      refine ⟨hblank c hc, ?_⟩
      rintro rfl
      rcases onLine_of_mem_segments (h ▸ List.mem_append_right before List.mem_cons_self) with
        rfl | hn
      · exact List.cons_ne_nil _ _ hnil
      · exact hn hc
    · have hmem := mem_scan_of_cut h (ht ▸ List.mem_singleton_self t)
      exact absurd ⟨hstart.le, hstop.ge⟩ (hgap t hmem)

theorem exists_cut_of_getElem? {n : Nat} {c : Char} (h : source[n]? = some c) :
    ∃ before s after left right, segments true source = before ++ s :: after ∧
      n = (before.flatMap Segment.chars).length + left.length ∧ s.chars = left ++ c :: right := by
  obtain ⟨hn, rfl⟩ := List.getElem?_eq_some_iff.mp h
  have hsource : source = source.take n ++ source[n] :: source.drop (n + 1) := by
    rw [← List.drop_eq_getElem_cons hn, List.take_append_drop]
  obtain ⟨before, s, after, left, right, hsegs, htake, hs, -⟩ :=
    exists_cut_at ((chars_segments true source).trans hsource)
  refine ⟨before, s, after, left, right, hsegs, ?_, hs⟩
  rw [← List.length_append, ← htake, List.length_take_of_le hn.le]

theorem lossless_scan (source : List Char) : Lossless source (scan source) where
  span t ht := by
    obtain ⟨before, s, after, -, -, hstart, hstop, hreads⟩ := exists_cut_of_mem_scan ht
    have hpos := List.length_pos_of_ne_nil hreads.ne_nil
    exact ⟨by omega, by simpa using (within_of_mem_scan ht).stop_le⟩
  disjoint := pairwise_tokensFrom _ 1 0 (fun _ => sound_of_mem_segments)
  reads t ht := by
    obtain ⟨before, s, after, hsegs, -, hstart, hstop, hreads⟩ := exists_cut_of_mem_scan ht
    have hspan : source.extract t.start t.stop = s.chars := by
      rw [source_eq_of_cut hsegs, hstart, hstop, extract_append_of_ge (Nat.le_refl _),
        Nat.sub_self, Nat.add_sub_cancel_left, extract_append_of_le (Nat.le_refl _)]
      simp [List.extract_eq_take_drop]
    rw [hspan]
    exact hreads
  line t ht := by
    obtain ⟨before, s, after, hsegs, hline, hstart, -, -⟩ := exists_cut_of_mem_scan ht
    rw [hline, hstart]
    conv => rhs; rw [source_eq_of_cut hsegs, List.take_left]
  apart := isChain_tokensFrom _ 1 0 (isChain_segments true source)
  newline n h := by
    obtain ⟨before, s, after, left, right, hsegs, rfl, hs⟩ := exists_cut_of_getElem? h
    rcases onLine_of_mem_segments (hsegs ▸ List.mem_append_right before List.mem_cons_self) with
      rfl | hn
    · cases left with
      | nil => exact ⟨_, mem_scan_of_cut hsegs (List.mem_singleton_self _), rfl, rfl⟩
      | cons d left => simp [Segment.chars] at hs
    · exact absurd (by simp [hs]) hn
  gap n c h hgap := by
    obtain ⟨before, s, after, left, right, hsegs, rfl, hs⟩ := exists_cut_of_getElem? h
    have hlength : s.chars.length = left.length + (right.length + 1) := by
      rw [hs, List.length_append, List.length_cons]
    rcases blank_or_comment hsegs (fun t ht hspan => hgap t ht ⟨by omega, by omega⟩) with
      hblank | ⟨note, rfl⟩
    · exact Or.inl (hblank c (by simp [hs]))
    · refine Or.inr ⟨_, note, _, source_eq_of_cut hsegs, isComment_of_cut hsegs, by omega, ?_⟩
      change note.length = _ at hlength
      omega
  comment pre text post hsource hc t ht := by
    obtain ⟨before, note, after, hsegs, hle, hge⟩ := hc.exists_cut hsource
    rw [scan, hsegs, tokensFrom_cut] at ht
    rcases List.mem_append.mp ht with ht | ht
    · exact Or.inl (by simpa using (within_of_mem_tokensFrom ht).stop_le.trans (by omega))
    · have hlow := (within_of_mem_tokensFrom ht).le_start
      change _ + note.length ≤ _ at hlow
      exact Or.inr (by omega)

theorem tokenize_lossless (source : List Char) :
    ∃ tokens finish, tokenize source = tokens ++ [finish] ∧ Lossless source tokens ∧
      finish.kind = .finish ∧ finish.start = source.length ∧ finish.stop = source.length ∧
      finish.line = 1 + source.count '\n' :=
  ⟨scan source, finishToken source, rfl, lossless_scan source, rfl, rfl, rfl, rfl⟩

end Scan

end Worksheet.Markup
