import Worksheet.Proofs.Markup.Slice

namespace Worksheet.Markup

open Chars

def Uncommented (segs : List Segment) : Prop := ∀ note, Segment.comment note ∉ segs

theorem Uncommented.head {s : Segment} {segs : List Segment} (h : Uncommented (s :: segs)) :
    ∀ note, s ≠ .comment note := fun note hs => h note (hs ▸ List.mem_cons_self)

theorem Uncommented.tail {s : Segment} {segs : List Segment} (h : Uncommented (s :: segs)) :
    Uncommented segs := fun note hmem => h note (List.mem_cons_of_mem s hmem)

theorem Uncommented.cons {s : Segment} {segs : List Segment} (h : Uncommented segs)
    (hs : ∀ note, s ≠ .comment note) : Uncommented (s :: segs) := by
  intro note hmem
  rcases List.mem_cons.mp hmem with heq | hmem
  · exact hs note heq.symm
  · exact h note hmem

theorem Mark.isText_char (m : Mark) : isText m.char = false := by
  cases m <;> decide

theorem segments_append_mark {free : Bool} {s : List Char} (h : Uncommented (segments free s))
    (m : Mark) (t : List Char) :
    segments free (s ++ m.char :: t) = segments free s ++ .mark m :: segments (m == .semicolon) t := by
  induction free, s using segments.induct with
  | case1 free => rw [List.nil_append, segments_of_mark m.ofChar?_char, segments_nil, List.nil_append]
  | case2 free s ih =>
      rw [segments_newline] at h
      rw [List.cons_append, segments_newline, ih h.tail, segments_newline, List.cons_append]
  | case3 free c s _ k hk ih =>
      rw [segments_of_mark hk] at h
      rw [List.cons_append, segments_of_mark hk, ih h.tail, segments_of_mark hk, List.cons_append]
  | case4 free c s hn hm hc ih =>
      rw [segments_of_comment (isText_iff.mpr ⟨hn, hm⟩) hc] at h
      exact absurd List.mem_cons_self (h _)
  | case5 free c s hn hm hc run ih =>
      have htext := isText_iff.mpr ⟨hn, hm⟩
      rw [Bool.not_eq_true] at hc
      rw [segments_of_text htext hc] at h
      have hc' : (free && startsComment (c :: (s ++ m.char :: t))) = false := by
        rw [← List.cons_append,
          startsComment_append_cons (by cases m <;> decide) (by cases m <;> decide), hc]
      rw [List.cons_append, segments_of_text htext hc', segments_of_text htext hc,
        takeWhile_append_of_neg m.isText_char, dropWhile_append_of_neg m.isText_char, ih h.tail,
        List.cons_append]

theorem segments_of_isText {free : Bool} {cs : List Char} (hne : cs ≠ [])
    (h : ∀ c ∈ cs, isText c = true) (hc : (free && startsComment cs) = false) :
    segments free cs = [.text cs] := by
  cases cs with
  | nil => exact absurd rfl hne
  | cons c cs =>
      have hcs : ∀ d ∈ cs, isText d = true := fun d hd => h d (List.mem_cons_of_mem _ hd)
      rw [segments_of_text (h c List.mem_cons_self) hc, takeWhile_of_forall hcs,
        dropWhile_of_forall hcs, segments_nil]

theorem uncommented_segments_of_isText {cs : List Char} (h : ∀ c ∈ cs, isText c = true)
    (hc : startsComment cs = false) : Uncommented (segments true cs) := by
  intro note hmem
  by_cases hne : cs = []
  · rw [hne, segments_nil] at hmem
    exact List.not_mem_nil hmem
  · have hfree : (true && startsComment cs) = false := hc
    rw [segments_of_isText hne h hfree] at hmem
    cases List.mem_singleton.mp hmem

def TokenKind.char? : TokenKind → Option Char
  | mark m => some m.char
  | newline => some '\n'
  | text | finish => none

theorem tokensFrom_cons (line start : Nat) (s : Segment) (segs : List Segment) :
    tokensFrom line start (s :: segs) = tokensFrom line start [s] ++
      tokensFrom (line + [s].count .newline) (start + s.chars.length) segs := by
  rw [← List.singleton_append, tokensFrom_append, List.flatMap_singleton]

theorem tokensFrom_singleton (line start : Nat) {s : Segment} (hs : ∀ note, s ≠ .comment note) :
    (tokensFrom line start [s] = [] ∧ ∀ c ∈ s.chars, isBlank c = true) ∨
      ∃ t : Token, tokensFrom line start [s] = [t] ∧ t.start = start ∧
        t.stop = start + s.chars.length ∧ ∀ c, t.kind.char? = some c → s.chars = [c] := by
  cases s with
  | comment cs => exact absurd rfl (hs cs)
  | newline => exact Or.inr ⟨_, rfl, rfl, rfl, by simp [TokenKind.char?, Segment.chars]⟩
  | mark m => exact Or.inr ⟨_, rfl, rfl, rfl, by simp [TokenKind.char?, Segment.chars]⟩
  | text cs =>
      by_cases hcs : collapse cs = []
      · left
        exact ⟨by simp [tokensFrom, hcs], collapse_eq_nil_iff.mp hcs⟩
      · exact Or.inr ⟨_, by simp [tokensFrom, hcs]; rfl, rfl, rfl, by simp [TokenKind.char?]⟩

theorem blank_of_tokensFrom_eq_nil {segs : List Segment} (hu : Uncommented segs) {line start : Nat}
    (h : tokensFrom line start segs = []) : ∀ c ∈ segs.flatMap Segment.chars, isBlank c = true := by
  induction segs generalizing line start with
  | nil => intro c hc; simp at hc
  | cons s segs ih =>
      rw [tokensFrom_cons, List.append_eq_nil_iff] at h
      obtain ⟨-, hs⟩ | ⟨t, ht, -⟩ := tokensFrom_singleton line start hu.head
      · intro c hc
        rw [List.flatMap_cons, List.mem_append] at hc
        rcases hc with hc | hc
        · exact hs c hc
        · exact ih hu.tail h.2 c hc
      · rw [ht] at h
        exact absurd h.1 (List.cons_ne_nil _ _)

theorem before_head_tokensFrom {segs : List Segment} (hu : Uncommented segs) {line start : Nat}
    {first : Token} (h : (tokensFrom line start segs).head? = some first) :
    ∃ lead rest, segs.flatMap Segment.chars = lead ++ rest ∧ (∀ c ∈ lead, isBlank c = true) ∧
      first.start = start + lead.length ∧
      ∀ c, first.kind.char? = some c → rest.head? = some c := by
  induction segs generalizing line start with
  | nil => simp [tokensFrom] at h
  | cons s segs ih =>
      rw [tokensFrom_cons] at h
      rw [List.flatMap_cons]
      obtain ⟨hnil, hs⟩ | ⟨t, ht, hstart, -, hchar⟩ := tokensFrom_singleton line start hu.head
      · rw [hnil, List.nil_append] at h
        obtain ⟨lead, rest, hsegs, hlead, hfirst, hrest⟩ := ih hu.tail h
        refine ⟨s.chars ++ lead, rest, ?_, ?_, ?_, hrest⟩
        · rw [hsegs, List.append_assoc]
        · intro c hc
          rcases List.mem_append.mp hc with hc | hc
          · exact hs c hc
          · exact hlead c hc
        · rw [hfirst, List.length_append, Nat.add_assoc]
      · rw [ht, List.singleton_append, List.head?_cons, Option.some.injEq] at h
        subst h
        refine ⟨[], _, rfl, by simp, hstart, fun c hc => ?_⟩
        rw [hchar c hc]
        rfl

theorem after_last_tokensFrom {segs : List Segment} (hu : Uncommented segs) {line start : Nat}
    {last : Token} (h : (tokensFrom line start segs).getLast? = some last) :
    ∃ init trail, segs.flatMap Segment.chars = init ++ trail ∧ (∀ c ∈ trail, isBlank c = true) ∧
      last.stop = start + init.length ∧
      ∀ c, last.kind.char? = some c → init.getLast? = some c := by
  induction segs generalizing line start with
  | nil => simp [tokensFrom] at h
  | cons s segs ih =>
      rw [tokensFrom_cons, List.getLast?_append] at h
      rw [List.flatMap_cons]
      cases hrest : (tokensFrom (line + [s].count .newline) (start + s.chars.length) segs).getLast? with
      | some t =>
          rw [hrest, Option.some_or] at h
          obtain ⟨init, trail, hsegs, htrail, hlast, hinit⟩ := ih hu.tail (hrest.trans h)
          refine ⟨s.chars ++ init, trail, by rw [hsegs, List.append_assoc], htrail, ?_, ?_⟩
          · rw [hlast, List.length_append, Nat.add_assoc]
          · intro c hc
            rw [List.getLast?_append, hinit c hc]
            rfl
      | none =>
          -- no token follows, so this segment holds the last one
          have hblank := blank_of_tokensFrom_eq_nil hu.tail (List.getLast?_eq_none_iff.mp hrest)
          rw [hrest, Option.none_or] at h
          obtain ⟨hnil, -⟩ | ⟨t, ht, -, hstop, hchar⟩ := tokensFrom_singleton line start hu.head
          · simp [hnil] at h
          · rw [ht, List.getLast?_singleton, Option.some.injEq] at h
            subst h
            refine ⟨s.chars, _, rfl, hblank, hstop, fun c hc => ?_⟩
            rw [hchar c hc]
            rfl

theorem tokensFrom_of_blank {segs : List Segment}
    (h : ∀ c ∈ segs.flatMap Segment.chars, isBlank c = true) (hn : Segment.newline ∉ segs)
    (line start : Nat) : tokensFrom line start segs = [] := by
  induction segs generalizing line start with
  | nil => rfl
  | cons s segs ih =>
      rw [tokensFrom_cons]
      have htail := ih (fun c hc => h c (List.mem_append_right _ hc))
        (fun hmem => hn (List.mem_cons_of_mem s hmem))
      have hs : ∀ c ∈ s.chars, isBlank c = true := fun c hc => h c (List.mem_append_left _ hc)
      rw [htail, List.append_nil]
      cases s with
      | comment cs => rfl
      | newline => exact absurd List.mem_cons_self hn
      | mark m =>
          have := hs m.char List.mem_cons_self
          cases m <;> exact absurd this (by decide)
      | text cs =>
          have hcs : collapse cs = [] := collapse_eq_nil_iff.mpr hs
          simp [tokensFrom, hcs]

theorem mem_chars_of_mem_tokensFrom {segs : List Segment} {line start : Nat} {t : Token} {c : Char}
    (ht : t ∈ tokensFrom line start segs) (hc : t.kind.char? = some c) :
    c ∈ segs.flatMap Segment.chars := by
  induction segs generalizing line start with
  | nil => simp [tokensFrom] at ht
  | cons s segs ih =>
      rw [tokensFrom_cons, List.mem_append] at ht
      rw [List.flatMap_cons, List.mem_append]
      rcases ht with ht | ht
      · left
        cases s with
        | comment cs => simp [tokensFrom] at ht
        | newline =>
            simp only [tokensFrom, List.mem_singleton] at ht
            subst ht
            simpa [TokenKind.char?, Segment.chars, eq_comm] using hc
        | mark m =>
            simp only [tokensFrom, List.mem_singleton] at ht
            subst ht
            simpa [TokenKind.char?, Segment.chars, eq_comm] using hc
        | text cs =>
            simp only [tokensFrom] at ht
            split at ht
            · simp at ht
            · rw [List.mem_singleton.mp ht] at hc
              simp [TokenKind.char?] at hc
      · exact Or.inr (ih ht)

theorem sliceText_tokensFrom {segs : List Segment} (hu : Uncommented segs) (pre post : List Char)
    (line : Nat) :
    sliceText (pre ++ (segs.flatMap Segment.chars ++ post)) (tokensFrom line pre.length segs) =
      .ofList (collapse (segs.flatMap Segment.chars)) := by
  by_cases hne : tokensFrom line pre.length segs = []
  · rw [hne, sliceText_nil, collapse_eq_nil_iff.mpr (blank_of_tokensFrom_eq_nil hu hne)]
  · obtain ⟨first, last, hf, hl, -, -⟩ := exists_ends hne
    obtain ⟨lead, rest, hlead, hblank, hstart, -⟩ := before_head_tokensFrom hu hf
    obtain ⟨init, trail, htrail, hblank', hstop, -⟩ := after_last_tokensFrom hu hl
    have hlength : init.length ≤ (segs.flatMap Segment.chars).length := by
      rw [htrail, List.length_append]
      exact Nat.le_add_right _ _
    rw [sliceText_eq _ hf hl, hstart, hstop, extract_append_of_ge (Nat.le_add_right _ _),
      Nat.add_sub_cancel_left, Nat.add_sub_cancel_left, extract_append_of_le hlength, collapse,
      words_extract, collapse]
    · rw [hlead, List.take_left]
      exact hblank
    · rw [htrail, List.drop_left]
      exact hblank'

end Worksheet.Markup
