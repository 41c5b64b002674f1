import Mathlib.Algebra.Order.BigOperators.Group.List
import Mathlib.Algebra.Order.Group.Nat
import Worksheet.Proofs.Markup.Document

namespace Worksheet.Markup

open Chars

def opened (n line : Nat) : Nat := if line ≤ n then line else line + 1

def Token.opened (n chars : Nat) (t : Token) : Token :=
  if t.line ≤ n then t else t.shift 1 chars

theorem moves_opened (n chars : Nat) : Moves (Token.opened n chars) (opened n) := by
  refine ⟨?_, ?_, ?_⟩
  · intro t
    unfold Token.opened
    split <;> rfl
  · intro t
    unfold Token.opened
    split <;> rfl
  · intro t
    unfold Token.opened Markup.opened
    split <;> rfl

def Across (n : Nat) (run : List Token) : Prop :=
  ∃ first last, run.head? = some first ∧ run.getLast? = some last ∧ first.line ≤ n ∧ n < last.line

section Tokens

variable {s t comment : List Char} (hs : EndsLine s)

include hs

theorem place_of_mem_scan {x : Token} (hx : x ∈ scan (s ++ t)) :
    (x.line ≤ s.count '\n' ∧ x.start ≤ s.length ∧ x.stop ≤ s.length) ∨
      (s.count '\n' < x.line ∧ s.length ≤ x.start ∧ s.length ≤ x.stop) := by
  rw [scan_append hs, List.mem_append] at hx
  rcases hx with hx | hx
  · obtain ⟨-, -, -, hstart, hstop⟩ := within_of_mem_scan hx
    exact Or.inl ⟨line_le_of_mem_scan hs hx, by omega, by omega⟩
  · obtain ⟨y, hy, rfl⟩ := List.mem_map.mp hx
    have hline := (within_of_mem_scan hy).le_line
    exact Or.inr ⟨by simp only [Token.shift]; omega, Nat.le_add_left _ _, Nat.le_add_left _ _⟩

theorem map_opened_scan (chars : Nat) :
    (scan (s ++ t)).map (Token.opened (s.count '\n') chars) =
      scan s ++ (scan t).map (Token.shift (s.count '\n' + 1) (s.length + chars)) := by
  rw [scan_append hs, List.map_append, List.map_map]
  congr 1
  · exact map_of_forall_eq fun x hx => if_pos (line_le_of_mem_scan hs hx)
  · refine List.map_congr_left fun x hx => ?_
    have hline := (within_of_mem_scan hx).le_line
    have hafter : ¬ (x.shift (s.count '\n') s.length).line ≤ s.count '\n' := by
      simp only [Token.shift]
      omega
    rw [Function.comp_apply, Token.opened, if_neg hafter, Token.shift_shift]

theorem scan_eq_nil_or_concat :
    scan s = [] ∨ ∃ init u, scan s = init ++ [u] ∧ u.kind = .newline := by
  rcases hs with rfl | ⟨init, rfl⟩
  · left
    rw [scan, segments_nil, tokensFrom]
  · obtain ⟨u, hu, hscan⟩ := scan_append_newline init
    exact Or.inr ⟨scan init, u, hscan, hu⟩

theorem outline_scan_comment (rule : LabelRule) (hc : startsComment comment = true)
    (hn : '\n' ∉ comment) :
    outline rule (scan (s ++ ((comment ++ ['\n']) ++ t))) =
      (outline rule (scan (s ++ t))).map
        (Token.opened (s.count '\n') (comment ++ ['\n']).length) (opened (s.count '\n')) := by
  obtain ⟨u, hu, hcomment⟩ := scan_append_newline comment
  have hcount : (comment ++ ['\n']).count '\n' = 1 := by
    rw [List.count_append, List.count_eq_zero_of_not_mem hn]
    rfl
  have hempty : scan comment = [] := by
    rw [scan, segments_of_startsComment hc hn]
    rfl
  have hscan : scan (s ++ ((comment ++ ['\n']) ++ t)) =
      scan s ++ u.shift (s.count '\n') s.length ::
        (scan t).map (Token.shift (s.count '\n' + 1) (s.length + (comment ++ ['\n']).length)) := by
    rw [scan_append hs, scan_append (endsLine_append_newline comment), hcomment, hempty, hcount]
    simp only [List.nil_append, List.singleton_append, List.map_cons, List.map_map]
    congr 2
    refine List.map_congr_left fun x _ => ?_
    rw [Function.comp_apply, Token.shift_shift, Nat.add_comm 1, Nat.add_comm _ s.length]
  have hkind : (u.shift (s.count '\n') s.length).kind = .newline := hu
  rw [hscan, outline_insert_newline rule hkind (scan_eq_nil_or_concat hs), ← map_opened_scan hs,
    outline_map (moves_opened _ _)]

theorem sliceText_opened {run : List Token} (hrun : ∀ x ∈ run, x ∈ scan (s ++ t))
    (h : ¬ Across (s.count '\n') run) (note : List Char) :
    sliceText (s ++ (note ++ t)) (run.map (Token.opened (s.count '\n') note.length)) =
      sliceText (s ++ t) run := by
  by_cases hne : run = []
  · rw [hne]; rfl
  · obtain ⟨first, last, hf, hl, hfmem, hlmem⟩ := exists_ends hne
    have hf' : (run.map (Token.opened (s.count '\n') note.length)).head? =
        some (first.opened (s.count '\n') note.length) := by
      rw [List.head?_map, hf, Option.map_some]
    have hl' : (run.map (Token.opened (s.count '\n') note.length)).getLast? =
        some (last.opened (s.count '\n') note.length) := by
      rw [List.getLast?_map, hl, Option.map_some]
    rw [sliceText_eq _ hf' hl', sliceText_eq _ hf hl]
    congr 2
    rcases place_of_mem_scan hs (hrun last hlmem) with ⟨hline, -, hstop⟩ | ⟨hline, -, -⟩
    · -- the run ends above the comment
      rw [Token.opened, Token.opened, if_pos hline, extract_append_of_le hstop,
        extract_append_of_le hstop]
      rcases place_of_mem_scan hs (hrun first hfmem) with ⟨hfline, -⟩ | ⟨hfline, hstart, -⟩
      · rw [if_pos hfline]
      · -- it would begin after its end, and holds nothing in both texts
        have hnil : ∀ start, s.length ≤ start → s.extract start last.stop = [] := by
          intro start hstart
          rw [List.extract_eq_take_drop, List.drop_eq_nil_of_le hstart, List.take_nil]
        rw [hnil _ hstart, hnil]
        split
        · exact hstart
        · exact Nat.le_trans hstart (Nat.le_add_right _ _)
    · -- the run begins below the comment
      have hfline : s.count '\n' < first.line := by
        rcases Nat.lt_or_ge (s.count '\n') first.line with hlt | hge
        · exact hlt
        · exact absurd ⟨first, last, hf, hl, hge, hline⟩ h
      obtain ⟨hge, -⟩ | ⟨-, hstart, -⟩ := place_of_mem_scan hs (hrun first hfmem)
      · omega
      · rw [Token.opened, Token.opened, if_neg (by omega), if_neg (by omega), Token.shift,
          Token.shift, ← List.append_assoc, extract_append_of_ge (by simp; omega),
          extract_append_of_ge hstart]
        simp only [List.length_append]
        congr 1 <;> omega

theorem words_sliceText_opened {run : List Token} (hrun : ∀ x ∈ run, x ∈ scan (s ++ t))
    (h : Across (s.count '\n') run) {note : List Char} (hnote : EndsLine note) :
    ∃ above below,
      words (sliceText (s ++ t) run).toList = above ++ below ∧
      words (sliceText (s ++ (note ++ t))
        (run.map (Token.opened (s.count '\n') note.length))).toList =
          above ++ words note ++ below := by
  obtain ⟨first, last, hf, hl, hfline, hlline⟩ := h
  have hf' : (run.map (Token.opened (s.count '\n') note.length)).head? = some first := by
    rw [List.head?_map, hf, Option.map_some, Token.opened, if_pos hfline]
  have hl' : (run.map (Token.opened (s.count '\n') note.length)).getLast? =
      some (last.shift 1 note.length) := by
    rw [List.getLast?_map, hl, Option.map_some, Token.opened, if_neg (Nat.not_le.mpr hlline)]
  have hstart : first.start ≤ s.length := by
    rcases place_of_mem_scan hs (hrun first (List.mem_of_mem_head? hf)) with h | h <;> omega
  have hstop : s.length ≤ last.stop := by
    rcases place_of_mem_scan hs (hrun last (List.mem_of_mem_getLast? hl)) with h | h <;> omega
  refine ⟨words (s.drop first.start), words (t.take (last.stop - s.length)), ?_, ?_⟩
  · rw [sliceText_eq _ hf hl, String.toList_ofList, words_collapse,
      extract_append_across hstart hstop, (hs.drop _).words_append]
  · rw [sliceText_eq _ hf' hl', String.toList_ofList, words_collapse, Token.shift,
      extract_append_across hstart (by simp only; omega), (hs.drop _).words_append,
      List.append_assoc]
    congr 1
    rw [← hnote.words_append]
    congr 1
    rw [List.take_append, List.take_of_length_le (by simp only; omega)]
    congr 2
    simp only
    omega

end Tokens

def itemWords (items : List String) : List (List Char) :=
  items.flatMap (fun item => words item.toList)

theorem itemWords_filter (items : List String) :
    itemWords (items.filter (· ≠ "")) = itemWords items := by
  induction items with
  | nil => rfl
  | cons item items ih =>
      by_cases h : item = ""
      · rw [h]
        exact ih
      · rw [List.filter_cons_of_pos (by simpa using h), itemWords, List.flatMap_cons, ← itemWords, ih]
        rfl

theorem length_itemWords_lt {ι : Type} {l : List ι} {f g : ι → String}
    (h : ∀ i ∈ l, (words (f i).toList).length ≤ (words (g i).toList).length)
    (hlt : ∃ i ∈ l, (words (f i).toList).length < (words (g i).toList).length) :
    (itemWords (l.map f)).length < (itemWords (l.map g)).length := by
  rw [itemWords, itemWords, List.flatMap_map, List.flatMap_map, List.length_flatMap,
    List.length_flatMap]
  exact List.sum_lt_sum _ _ h hlt

def Outline.runs (o : Outline) : List (List Token) := o.clauses.flatMap (fun c => itemRuns c.body)

theorem Outline.mem_of_mem_runs {rule : LabelRule} {ts run : List Token} {x : Token}
    (hr : run ∈ (outline rule ts).runs) (hx : x ∈ run) : x ∈ ts := by
  obtain ⟨c, hc, hr⟩ := List.mem_flatMap.mp hr
  exact mem_of_mem_body hc (mem_of_mem_itemRuns hr hx)

theorem Outline.runs_map {f : Token → Token} {g : Nat → Nat} (h : Moves f g) (o : Outline) :
    (o.map f g).runs = o.runs.map (List.map f) := by
  simp only [runs, Outline.map, List.flatMap_map, List.map_flatMap, Clause.map, itemRuns_map h]

theorem Outline.items_document (source : List Char) (o : Outline) :
    (o.document source).statements.flatMap (·.items) =
      (o.runs.map (sliceText source)).filter (· ≠ "") := by
  simp only [document, Clause.statement, itemTexts_eq, runs, List.flatMap_map, List.map_flatMap,
    List.filter_flatMap]

def ItemAcross (rule : LabelRule) (source : List Char) (n : Nat) : Prop :=
  ∃ run ∈ (outline rule (scan source)).runs, Across n run

theorem itemAcross_append_newline (rule : LabelRule) (source : List Char) (n : Nat) :
    ItemAcross rule (source ++ ['\n']) n ↔ ItemAcross rule source n := by
  obtain ⟨t, ht, hscan⟩ := scan_append_newline source
  rw [ItemAcross, hscan, outline_concat_newline rule ht, ItemAcross]

section Comment

variable {s t comment : List Char} (hs : EndsLine s) (hc : startsComment comment = true)
  (hn : '\n' ∉ comment)

include hc in
theorem words_comment_ne_nil : words (comment ++ ['\n']) ≠ [] := by
  intro h
  obtain ⟨note, hnote⟩ := startsComment_iff.mp hc
  have hmem : '/' ∈ comment := by
    apply (List.dropWhile_sublist isIndent).mem
    rw [hnote]
    exact List.mem_cons_self
  exact absurd (words_eq_nil_iff.mp h '/' (List.mem_append_left _ hmem)) (by decide)

include hs hc hn

theorem not_itemAcross_of_items_eq (rule : LabelRule)
    (h : (readDocument rule (s ++ ((comment ++ ['\n']) ++ t))).statements.flatMap (·.items) =
      (readDocument rule (s ++ t)).statements.flatMap (·.items)) :
    ¬ ItemAcross rule (s ++ t) (s.count '\n') := by
  rintro ⟨run, hr, hacross⟩
  have hrun : ∀ run ∈ (outline rule (scan (s ++ t))).runs, ∀ x ∈ run, x ∈ scan (s ++ t) :=
    fun run hr x hx => Outline.mem_of_mem_runs hr hx
  have hnote := endsLine_append_newline comment
  have hadd : ∀ run ∈ (outline rule (scan (s ++ t))).runs, Across (s.count '\n') run →
      (words (sliceText (s ++ t) run).toList).length <
        (words (sliceText (s ++ ((comment ++ ['\n']) ++ t))
          (run.map (Token.opened (s.count '\n') (comment ++ ['\n']).length))).toList).length := by
    intro run hr ha
    obtain ⟨above, below, hold, hnew⟩ := words_sliceText_opened hs (hrun run hr) ha hnote
    have hpos := List.length_pos_iff.mpr (words_comment_ne_nil hc)
    rw [hold, hnew]
    simp only [List.length_append]
    omega
  have hle : ∀ run ∈ (outline rule (scan (s ++ t))).runs,
      (words (sliceText (s ++ t) run).toList).length ≤
        (words (sliceText (s ++ ((comment ++ ['\n']) ++ t))
          (run.map (Token.opened (s.count '\n') (comment ++ ['\n']).length))).toList).length := by
    intro run hr
    by_cases ha : Across (s.count '\n') run
    · exact Nat.le_of_lt (hadd run hr ha)
    · exact Nat.le_of_eq (by rw [sliceText_opened hs (hrun run hr) ha])
  -- no item loses words and this one gains those of the comment, so the items cannot be the same
  have hwords := congrArg (fun items => (itemWords items).length) h
  simp only [readDocument_eq, outline_scan_comment hs rule hc hn, Outline.items_document,
    Outline.runs_map (moves_opened _ _), itemWords_filter, List.map_map] at hwords
  exact absurd hwords.symm (Nat.ne_of_lt (length_itemWords_lt hle ⟨run, hr, hadd run hr hacross⟩))

theorem items_eq_of_not_itemAcross (rule : LabelRule)
    (h : ¬ ItemAcross rule (s ++ t) (s.count '\n')) :
    (readDocument rule (s ++ ((comment ++ ['\n']) ++ t))).statements.map (·.items) =
      (readDocument rule (s ++ t)).statements.map (·.items) := by
  rw [readDocument_eq, readDocument_eq, outline_scan_comment hs rule hc hn]
  simp only [Outline.document, Outline.map, List.map_map]
  refine List.map_congr_left fun c hmem => ?_
  simp only [Function.comp_apply, Clause.map, Clause.statement, itemTexts_eq,
    itemRuns_map (moves_opened _ _), List.map_map]
  congr 1
  refine List.map_congr_left fun run hr => ?_
  have hruns : run ∈ (outline rule (scan (s ++ t))).runs := List.mem_flatMap.mpr ⟨c, hmem, hr⟩
  exact sliceText_opened hs (fun x hx => Outline.mem_of_mem_runs hruns hx)
    (fun ha => h ⟨run, hruns, ha⟩) _

end Comment

theorem readDocument_insertLine (rule : LabelRule) (source : List Char) {n : Nat}
    (h : n ≤ (lines source).length) {indent note : List Char}
    (hindent : ∀ c ∈ indent, isIndent c = true) (hnote : '\n' ∉ note) :
    let plain := readDocument rule source
    let commented := readDocument rule (insertLine n (indent ++ '/' :: '/' :: note) source)
    commented.statements.map (fun s => (s.label, s.line, s.bracketed)) =
        plain.statements.map (fun s => (s.label, opened n s.line, s.bracketed)) ∧
      commented.skipped = plain.skipped.map (opened n) ∧
      (commented.statements.map (·.items) = plain.statements.map (·.items) ↔
        ¬ ItemAcross rule source n) := by
  have hc := startsComment_of_indent hindent note
  have hn : '\n' ∉ indent ++ '/' :: '/' :: note := by
    intro hmem
    simp only [List.mem_append, List.mem_cons] at hmem
    rcases hmem with hmem | hmem | hmem | hmem
    · exact absurd (hindent _ hmem) (by decide)
    · exact absurd hmem (by decide)
    · exact absurd hmem (by decide)
    · exact hnote hmem
  generalize indent ++ '/' :: '/' :: note = comment at hc hn
  intro plain commented
  obtain ⟨above, habove⟩ : ∃ above, above = (lines source).take n := ⟨_, rfl⟩
  obtain ⟨below, hbelow⟩ : ∃ below, below = (lines source).drop n := ⟨_, rfl⟩
  have hlines : lines source = above ++ below := by
    rw [habove, hbelow, List.take_append_drop]
  have hs := endsLine_closeLines above
  have hcount : (closeLines above).count '\n' = n := by
    rw [count_closeLines, habove, List.length_take_of_le h]
    exact fun l hl => not_mem_of_mem_lines (List.mem_of_mem_take (habove ▸ hl))
  have hclose : source ++ ['\n'] = closeLines above ++ closeLines below := by
    rw [← closeLines_append, ← hlines, closeLines_eq_unlines_append (lines_ne_nil source),
      unlines_lines]
  have hplain : plain = readDocument rule (closeLines above ++ closeLines below) := by
    rw [← hclose, readDocument_append_newline]
  have hcommented : commented =
      readDocument rule (closeLines above ++ ((comment ++ ['\n']) ++ closeLines below)) := by
    change readDocument rule (insertLine n comment source) = _
    rw [insertLine, ← habove, ← hbelow, readDocument_unlines, closeLines_append, closeLines_cons,
      List.append_assoc, List.singleton_append]
  have hacross : ItemAcross rule source n ↔
      ItemAcross rule (closeLines above ++ closeLines below) n := by
    rw [← hclose, itemAcross_append_newline]
  rw [hacross, hplain, hcommented, ← hcount]
  refine ⟨?_, ?_, ?_, items_eq_of_not_itemAcross hs hc hn rule⟩
  · rw [readDocument_eq, readDocument_eq, outline_scan_comment hs rule hc hn]
    simp only [Outline.document, Outline.map, Clause.map, Clause.statement, List.map_map,
      Function.comp_def, isBracketed_map (moves_opened _ _)]
  · rw [readDocument_eq, readDocument_eq, outline_scan_comment hs rule hc hn]
    rfl
  · intro hitems
    refine not_itemAcross_of_items_eq hs hc hn rule ?_
    rw [List.flatMap_def, List.flatMap_def, hitems]

def herbs : List Char := "Herb = [sage |\nmint];".toList

theorem readDocument_insertLine_herbs :
    ¬ ItemAcross .category herbs 1 ∧
      (readDocument .category (insertLine 1 "\t// dried".toList herbs)).statements =
        [⟨some "Herb", ["sage", "mint"], 1, true⟩] := by
  have hindent : ∀ c ∈ ['\t'], isIndent c = true := fun _ hc => List.mem_singleton.mp hc ▸ rfl
  have hnote : '\n' ∉ " dried".toList := by decide
  have h := readDocument_insertLine .category herbs (n := 1) (by decide) hindent hnote
  exact ⟨h.2.2.mp (by decide +kernel), by decide +kernel⟩

def leaf : List Char := "Herb = sage\nleaf;".toList

theorem insertLine_within_item :
    (readDocument .category leaf).statements.map (·.items) = [["sage leaf"]] ∧
      (readDocument .category (insertLine 1 "// dried".toList leaf)).statements.map (·.items) =
        [["sage // dried leaf"]] := by
  decide +kernel

end Worksheet.Markup
