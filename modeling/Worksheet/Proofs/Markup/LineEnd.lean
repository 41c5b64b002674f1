import Worksheet.Proofs.Markup.Document
import Worksheet.Proofs.Text.Newline

namespace Worksheet.Markup

open Chars

def Token.pushed (place : Nat) (t : Token) : Token :=
  if place < t.stop then t.shift 0 1
  else if t.kind = .text ∧ t.stop = place then { t with stop := place + 1 }
  else t

theorem moves_pushed (place : Nat) : Moves (Token.pushed place) id := by
  refine ⟨fun t => ?_, fun t => ?_, fun t => ?_⟩
  all_goals
    unfold Token.pushed
    split
    · rfl
    · split <;> rfl

theorem Token.pushed_of_lt {place : Nat} {t : Token} (h : t.stop < place) : t.pushed place = t := by
  rw [pushed, if_neg (by omega), if_neg (fun ht => by omega)]

theorem Token.pushed_of_kind {place : Nat} {t : Token} (hk : t.kind ≠ .text) (h : t.stop ≤ place) :
    t.pushed place = t := by
  rw [pushed, if_neg (by omega), if_neg (fun ht => hk ht.1)]

theorem Token.pushed_of_gt {place : Nat} {t : Token} (h : place < t.stop) :
    t.pushed place = t.shift 0 1 := if_pos h

theorem Token.pushed_of_le {place : Nat} {t : Token} (h : t.stop ≤ place) :
    (t.pushed place).start = t.start ∧
      ((t.pushed place).stop = t.stop ∨ t.stop = place ∧ (t.pushed place).stop = place + 1) := by
  rw [pushed, if_neg (Nat.not_lt.mpr h)]
  split
  · next ht => exact ⟨rfl, .inr ⟨ht.2, rfl⟩⟩
  · exact ⟨rfl, .inl rfl⟩

theorem startsComment_append_return (cs : List Char) :
    startsComment (cs ++ ['\r']) = startsComment cs :=
  startsComment_append_cons (by decide) (by decide) cs []

theorem collapse_append_return (cs : List Char) : collapse (cs ++ ['\r']) = collapse cs := by
  rw [collapse, words_concat (by decide), collapse]

theorem span_append_return {p : Char → Bool} (hp : p '\r' = true) (cs : List Char) :
    (cs.takeWhile p = cs ∧ cs.dropWhile p = [] ∧ (cs ++ ['\r']).takeWhile p = cs ++ ['\r'] ∧
        (cs ++ ['\r']).dropWhile p = []) ∨
      (cs.dropWhile p ≠ [] ∧ (cs ++ ['\r']).takeWhile p = cs.takeWhile p ∧
        (cs ++ ['\r']).dropWhile p = cs.dropWhile p ++ ['\r']) := by
  have hsplit := List.takeWhile_append_dropWhile (p := p) (l := cs)
  by_cases h : cs.dropWhile p = []
  · rw [h, List.append_nil] at hsplit
    have hall : ∀ c ∈ cs, p c = true := fun c hc => mem_takeWhile (hsplit.symm ▸ hc)
    have hall' : ∀ c ∈ cs ++ ['\r'], p c = true := by
      intro c hc
      rcases List.mem_append.mp hc with hc | hc
      · exact hall c hc
      · exact List.mem_singleton.mp hc ▸ hp
    exact .inl ⟨hsplit, h, takeWhile_of_forall hall', dropWhile_of_forall hall'⟩
  · have hlength : (cs.takeWhile p).length ≠ cs.length := by
      have hsum := congrArg List.length hsplit
      have hpos := List.length_pos_iff.mpr h
      rw [List.length_append] at hsum
      omega
    refine .inr ⟨h, ?_, ?_⟩
    · rw [List.takeWhile_append, if_neg hlength]
    · rw [List.dropWhile_append, if_neg (by simpa using h)]

theorem tokensFrom_append_return (free : Bool) (cs : List Char) :
    ∀ line start : Nat, tokensFrom line start (segments free (cs ++ ['\r'])) =
      (tokensFrom line start (segments free cs)).map (Token.pushed (start + cs.length)) := by
  induction free, cs using segments.induct with
  | case1 free =>
      intro line start
      have hc : (free && startsComment ['\r']) = false := by
        cases free <;> decide
      have hblank : collapse ['\r'] = [] := collapse_append_return []
      rw [List.nil_append, segments_of_text (by decide) hc, segments_nil]
      simp only [List.takeWhile_nil, List.dropWhile_nil, segments_nil, tokensFrom, hblank, if_true,
        List.map_nil]
  | case2 free cs ih =>
      intro line start
      rw [List.cons_append, segments_newline, segments_newline, tokensFrom, tokensFrom, ih,
        List.map_cons, Token.pushed_of_kind (by simp) (by simp), List.length_cons, Nat.add_assoc,
        Nat.add_comm 1]
  | case3 free c cs _ m hm ih =>
      intro line start
      rw [List.cons_append, segments_of_mark hm, segments_of_mark hm, tokensFrom, tokensFrom, ih,
        List.map_cons, Token.pushed_of_kind (by simp) (by simp), List.length_cons, Nat.add_assoc,
        Nat.add_comm 1]
  | case4 free c cs hn hm h ih =>
      intro line start
      have hc := isText_iff.mpr ⟨hn, hm⟩
      have h' : (free && startsComment (c :: (cs ++ ['\r']))) = true := by
        rw [← List.cons_append, startsComment_append_return, h]
      rw [List.cons_append, segments_of_comment hc h', segments_of_comment hc h]
      rcases span_append_return (p := (· != '\n')) (by decide) cs with
        ⟨-, hdrop, -, hdrop'⟩ | ⟨-, htake, hdrop⟩
      · rw [hdrop, hdrop', segments_nil]
        rfl
      · have hlength : (c :: cs.takeWhile (· != '\n')).length + (cs.dropWhile (· != '\n')).length =
            (c :: cs).length := by
          rw [← List.length_append, List.cons_append, List.takeWhile_append_dropWhile]
        rw [htake, hdrop, tokensFrom, tokensFrom, ih, Nat.add_assoc, hlength]
  | case5 free c cs hn hm h run ih =>
      intro line start
      have hc := isText_iff.mpr ⟨hn, hm⟩
      rw [Bool.not_eq_true] at h
      have h' : (free && startsComment (c :: (cs ++ ['\r']))) = false := by
        rw [← List.cons_append, startsComment_append_return, h]
      rw [List.cons_append, segments_of_text hc h', segments_of_text hc h]
      rcases span_append_return (p := isText) (by decide) cs with
        ⟨htake, hdrop, htake', hdrop'⟩ | ⟨hne, htake, hdrop⟩
      · rw [htake, htake', hdrop, hdrop', ← List.cons_append]
        simp only [segments_nil, tokensFrom, collapse_append_return]
        split
        · rfl
        · simp [Token.pushed, Nat.add_assoc]
      · have hlength : (c :: cs.takeWhile isText).length + (cs.dropWhile isText).length =
            (c :: cs).length := by
          rw [← List.length_append, List.cons_append, List.takeWhile_append_dropWhile]
        have hpos := List.length_pos_iff.mpr hne
        rw [htake, hdrop]
        simp only [tokensFrom]
        rw [ih, Nat.add_assoc, hlength]
        split
        · rfl
        · rw [List.map_cons, Token.pushed_of_lt]
          simp only
          omega

theorem scan_append_newline_cons (s t : List Char) :
    scan (s ++ '\n' :: t) =
      scan s ++ tokensFrom (1 + s.count '\n') s.length (.newline :: segments true t) := by
  rw [scan, segments_append_newline, tokensFrom_append, chars_segments, count_newline_segments,
    Nat.zero_add]
  rfl

theorem le_start_of_mem_tokensFrom_newline {x : Token} {line start : Nat} {segs : List Segment}
    (hx : x ∈ tokensFrom line start (.newline :: segs)) : start ≤ x.start ∧ start < x.stop := by
  rw [tokensFrom] at hx
  rcases List.mem_cons.mp hx with rfl | hx
  · exact ⟨Nat.le_refl _, Nat.lt_succ_self _⟩
  · obtain ⟨-, -, hstart, hstop, -⟩ := within_of_mem_tokensFrom hx
    omega

theorem place_of_mem_scan_newline {s t : List Char} {x : Token} (hx : x ∈ scan (s ++ '\n' :: t)) :
    (x.start ≤ s.length ∧ x.stop ≤ s.length) ∨ (s.length ≤ x.start ∧ s.length < x.stop) := by
  rw [scan_append_newline_cons, List.mem_append] at hx
  rcases hx with hx | hx
  · obtain ⟨-, -, -, hstart, hstop⟩ := within_of_mem_scan hx
    exact .inl (by omega)
  · exact .inr (le_start_of_mem_tokensFrom_newline hx)

theorem scan_insert_return (s t : List Char) :
    scan (s ++ '\r' :: '\n' :: t) = (scan (s ++ '\n' :: t)).map (Token.pushed s.length) := by
  have hlater : ∀ x ∈ tokensFrom (1 + s.count '\n') s.length (.newline :: segments true t),
      x.shift 0 1 = x.pushed s.length := by
    intro x hx
    exact (Token.pushed_of_gt (le_start_of_mem_tokensFrom_newline hx).2).symm
  have hreturn : (s ++ ['\r']).count '\n' = s.count '\n' := by
    rw [List.count_append]
    rfl
  rw [List.append_cons, scan_append_newline_cons, scan, tokensFrom_append_return, hreturn,
    List.length_append, Nat.zero_add, scan_append_newline_cons, List.map_append,
    ← List.map_congr_left hlater, ← tokensFrom_shift]
  rfl

section Slice

variable {s t : List Char} {start stop : Nat}

theorem extract_eq_nil (h : stop ≤ start) (cs : List Char) : cs.extract start stop = [] := by
  rw [List.extract_eq_take_drop, Nat.sub_eq_zero_of_le h, List.take_zero]

theorem words_extract_across (hstart : start ≤ s.length) (hstop : s.length < stop) :
    words ((s ++ '\r' :: '\n' :: t).extract start (stop + 1)) =
      words ((s ++ '\n' :: t).extract start stop) := by
  obtain ⟨n, rfl⟩ := Nat.exists_eq_add_of_lt hstop
  have hn : s.length + n + 1 - s.length = n + 1 := by omega
  have hn' : s.length + n + 1 + 1 - s.length = n + 1 + 1 := by omega
  rw [extract_append_across hstart (by omega), extract_append_across hstart (by omega), hn, hn',
    List.take_succ_cons, List.take_succ_cons, words_append_cons (by decide),
    words_cons_of_blank (by decide), words_append_cons (by decide)]

theorem words_extract_ending (hstart : start ≤ s.length) :
    words ((s ++ '\r' :: '\n' :: t).extract start (s.length + 1)) =
      words ((s ++ '\n' :: t).extract start s.length) := by
  have hone : s.length + 1 - s.length = 1 := by omega
  rw [extract_append_across hstart (by omega), extract_append_across hstart (Nat.le_refl _), hone,
    Nat.sub_self, List.take_zero, List.append_nil, List.take_succ_cons, List.take_zero]
  exact words_concat (by decide) _

theorem extract_below (hstart : s.length ≤ start) :
    (s ++ '\r' :: '\n' :: t).extract (start + 1) (stop + 1) =
      (s ++ '\n' :: t).extract start stop := by
  rw [List.append_cons, extract_append_of_ge (by simpa using hstart), extract_append_of_ge hstart,
    List.length_append, List.length_singleton, Nat.add_sub_add_right, Nat.add_sub_add_right]

end Slice

theorem sliceText_pushed {s t : List Char} {run : List Token}
    (hrun : ∀ x ∈ run, x ∈ scan (s ++ '\n' :: t)) :
    sliceText (s ++ '\r' :: '\n' :: t) (run.map (Token.pushed s.length)) =
      sliceText (s ++ '\n' :: t) run := by
  by_cases hne : run = []
  · rw [hne]; rfl
  · obtain ⟨first, last, hf, hl, hfmem, hlmem⟩ := exists_ends hne
    have hf' : (run.map (Token.pushed s.length)).head? = some (first.pushed s.length) := by
      rw [List.head?_map, hf, Option.map_some]
    have hl' : (run.map (Token.pushed s.length)).getLast? = some (last.pushed s.length) := by
      rw [List.getLast?_map, hl, Option.map_some]
    rw [sliceText_eq _ hf' hl', sliceText_eq _ hf hl, collapse, collapse]
    congr 2
    rcases place_of_mem_scan_newline (hrun last hlmem) with ⟨-, hstop⟩ | ⟨-, hstop⟩
    · obtain ⟨-, hlast⟩ := Token.pushed_of_le hstop
      rcases place_of_mem_scan_newline (hrun first hfmem) with ⟨hstart, hfstop⟩ | ⟨hstart, hfstop⟩
      · rw [(Token.pushed_of_le hfstop).1]
        rcases hlast with hlast | ⟨heq, hlast⟩
        · rw [hlast, extract_append_of_le hstop, extract_append_of_le hstop]
        · rw [hlast, heq]
          exact words_extract_ending hstart
      · -- it would begin after its end, and holds nothing in both texts
        have hlast' : (last.pushed s.length).stop ≤ s.length + 1 := by omega
        rw [Token.pushed_of_gt hfstop, Token.shift,
          extract_eq_nil (Nat.le_trans hlast' (Nat.succ_le_succ hstart)),
          extract_eq_nil (Nat.le_trans hstop hstart)]
    · rw [Token.pushed_of_gt hstop, Token.shift]
      rcases place_of_mem_scan_newline (hrun first hfmem) with ⟨hstart, hfstop⟩ | ⟨hstart, hfstop⟩
      · rw [(Token.pushed_of_le hfstop).1]
        exact words_extract_across hstart hstop
      · rw [Token.pushed_of_gt hfstop, Token.shift, extract_below hstart]

theorem readDocument_insert_return (rule : LabelRule) (s t : List Char) :
    readDocument rule (s ++ '\r' :: '\n' :: t) = readDocument rule (s ++ '\n' :: t) := by
  have hmoves := moves_pushed s.length
  have hstatement : ∀ c ∈ (outline rule (scan (s ++ '\n' :: t))).clauses,
      (c.map (Token.pushed s.length) id).statement (s ++ '\r' :: '\n' :: t) =
        c.statement (s ++ '\n' :: t) := by
    intro c hc
    have hitems : itemTexts (s ++ '\r' :: '\n' :: t) (c.body.map (Token.pushed s.length)) =
        itemTexts (s ++ '\n' :: t) c.body := by
      rw [itemTexts_eq, itemTexts_eq, itemRuns_map hmoves, List.map_map]
      congr 1
      refine List.map_congr_left fun run hr => sliceText_pushed fun x hx => ?_
      exact mem_of_mem_body hc (mem_of_mem_itemRuns hr hx)
    rw [Clause.statement, Clause.map, hitems, isBracketed_map hmoves, Clause.statement]
    rfl
  rw [readDocument_eq, readDocument_eq, scan_insert_return, outline_map hmoves, Outline.document,
    Outline.map, List.map_map, List.map_id, Outline.document]
  exact congrArg₂ Document.mk (List.map_congr_left hstatement) rfl

def SameLine (m l : List Char) : Prop := m = l ∨ m = l ++ ['\r']

theorem readDocument_closeLines (rule : LabelRule) {ms ls : List (List Char)}
    (h : List.Forall₂ SameLine ms ls) :
    ∀ above : List Char,
      readDocument rule (above ++ closeLines ms) = readDocument rule (above ++ closeLines ls) := by
  induction h with
  | nil => exact fun _ => rfl
  | @cons m l ms ls hline _ ih =>
      intro above
      -- the lines further down go first, so that this line is the only one that differs
      have hrest := ih (above ++ m ++ ['\n'])
      rw [← List.append_cons, ← List.append_cons] at hrest
      rw [closeLines_cons, closeLines_cons, ← List.append_assoc, hrest, ← List.append_assoc]
      rcases hline with rfl | rfl
      · rfl
      · rw [← List.append_assoc, ← List.append_cons]
        exact readDocument_insert_return rule (above ++ l) (closeLines ls)

theorem readDocument_unlines_congr (rule : LabelRule) {ms ls : List (List Char)}
    (h : List.Forall₂ SameLine ms ls) :
    readDocument rule (unlines ms) = readDocument rule (unlines ls) := by
  rw [readDocument_unlines, readDocument_unlines]
  exact readDocument_closeLines rule h []

end Worksheet.Markup
