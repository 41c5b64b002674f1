import Worksheet.Proofs.Markup.Outline
import Worksheet.Proofs.Markup.Slice

namespace Worksheet.Markup

open Chars

theorem moves_shift (lines chars : Nat) : Moves (Token.shift lines chars) (· + lines) :=
  ⟨fun _ => rfl, fun _ => rfl, fun _ => rfl⟩

namespace Document

def append (d e : Document) : Document := ⟨d.statements ++ e.statements, d.skipped ++ e.skipped⟩

instance : Append Document := ⟨append⟩

theorem append_statements (d e : Document) :
    (d ++ e).statements = d.statements ++ e.statements := rfl

theorem append_skipped (d e : Document) : (d ++ e).skipped = d.skipped ++ e.skipped := rfl

def shift (n : Nat) (d : Document) : Document :=
  ⟨d.statements.map (fun s => { s with line := s.line + n }), d.skipped.map (· + n)⟩

theorem shift_append (n : Nat) (d e : Document) : (d ++ e).shift n = d.shift n ++ e.shift n := by
  rw [shift, append_statements, append_skipped, List.map_append, List.map_append]
  rfl

theorem labelled_append (d e : Document) : (d ++ e).labelled = d.labelled ++ e.labelled :=
  List.filterMap_append

theorem unlabelled_append (d e : Document) : (d ++ e).unlabelled = d.unlabelled ++ e.unlabelled :=
  List.filter_append _ _

end Document

namespace Outline

def Bodies (p : Token → Prop) (o : Outline) : Prop := ∀ c ∈ o.clauses, ∀ t ∈ c.body, p t

theorem document_append_left {s : List Char} {o : Outline} (h : o.Bodies (·.stop ≤ s.length))
    (t : List Char) : o.document (s ++ t) = o.document s := by
  have hstatement : ∀ c ∈ o.clauses, c.statement (s ++ t) = c.statement s := by
    intro c hc
    have hitems : itemTexts (s ++ t) c.body = itemTexts s c.body := by
      rw [itemTexts_eq, itemTexts_eq]
      congr 1
      refine List.map_congr_left (fun run hr => sliceText_append_left (fun x hx => ?_) t)
      exact h c hc x (mem_of_mem_itemRuns hr hx)
    rw [Clause.statement, hitems, Clause.statement]
  rw [document, document, List.map_congr_left hstatement]

theorem document_append_right (lines : Nat) (s t : List Char) (o : Outline) :
    (o.map (Token.shift lines s.length) (· + lines)).document (s ++ t) =
      (o.document t).shift lines := by
  have hmoves := moves_shift lines s.length
  have hstatement : ∀ c : Clause,
      (c.map (Token.shift lines s.length) (· + lines)).statement (s ++ t) =
        { c.statement t with line := c.line + lines } := by
    intro c
    have hitems : itemTexts (s ++ t) (c.body.map (Token.shift lines s.length)) =
        itemTexts t c.body := by
      rw [itemTexts_eq, itemTexts_eq, itemRuns_map hmoves, List.map_map]
      congr 1
      exact List.map_congr_left (fun run _ => sliceText_append_right lines s t run)
    simp only [Clause.map, Clause.statement, hitems, isBracketed_map hmoves]
  simp only [document, Document.shift, Outline.map, List.map_map, Function.comp_def, hstatement]
  rfl

theorem document_append (source : List Char) (o p : Outline) :
    (o ++ p).document source = o.document source ++ p.document source :=
  congrArg (Document.mk · (o.skipped ++ p.skipped)) List.map_append

end Outline

theorem bodies_outline_scan (rule : LabelRule) (source : List Char) :
    (outline rule (scan source)).Bodies (·.stop ≤ source.length) := by
  intro c hc t ht
  have hw := (within_of_mem_scan (mem_of_mem_body hc ht)).stop_le
  rwa [Nat.zero_add] at hw

theorem scan_append_newline (cs : List Char) :
    ∃ t : Token, t.kind = .newline ∧ scan (cs ++ ['\n']) = scan cs ++ [t] := by
  rw [scan, segments_append_newline, tokensFrom_append, segments_nil]
  refine ⟨_, ?_, rfl⟩
  rfl

theorem readDocument_append_newline (rule : LabelRule) (cs : List Char) :
    readDocument rule (cs ++ ['\n']) = readDocument rule cs := by
  obtain ⟨t, ht, hscan⟩ := scan_append_newline cs
  rw [readDocument_eq, hscan, outline_concat_newline rule ht,
    Outline.document_append_left (bodies_outline_scan rule cs), readDocument_eq]

theorem readDocument_unlines (rule : LabelRule) (ls : List (List Char)) :
    readDocument rule (unlines ls) = readDocument rule (closeLines ls) := by
  cases ls with
  | nil => rfl
  | cons l ls =>
      rw [closeLines_eq_unlines_append (List.cons_ne_nil l ls), readDocument_append_newline]

structure Settled (ts : List Token) : Prop where
  pending : ∀ t ∈ (groups 0 ts).2, t.kind = .newline
  depth : depthAfter 0 ts = 0

theorem tokenLines_of_newlines {ts : List Token} (h : ∀ t ∈ ts, t.kind = .newline) :
    tokenLines ts = [] := by
  induction ts with
  | nil => rfl
  | cons t ts ih =>
      rw [← List.nil_append (t :: ts), tokenLines_append_newline (h t List.mem_cons_self),
        ih (fun u hu => h u (List.mem_cons_of_mem _ hu))]
      rfl

theorem tokenLines_append_of_newlines {ts : List Token} (h : ∀ t ∈ ts, t.kind = .newline)
    (us : List Token) : tokenLines (ts ++ us) = tokenLines us := by
  induction ts with
  | nil => rfl
  | cons t ts ih =>
      rw [List.cons_append, ← List.nil_append (t :: _),
        tokenLines_append_newline (h t List.mem_cons_self),
        ih (fun u hu => h u (List.mem_cons_of_mem _ hu))]
      rfl

theorem Settled.groupLines_append {ts : List Token} (h : Settled ts) (us : List Token) :
    groupLines 0 (ts ++ us) =
      ((groupLines 0 ts).1 ++ (groupLines 0 us).1, (groupLines 0 us).2) := by
  have hpending : ∀ l, tokenLines ((groups 0 ts).2 ++ l) = [] ++ tokenLines l :=
    fun l => tokenLines_append_of_newlines h.pending l
  rw [groupLines, groups_append, h.depth, follow_map hpending]
  change follow ((groupLines 0 ts).1, []) (groupLines 0 us) = _
  obtain ⟨closed, left⟩ := groupLines 0 us
  cases closed <;> simp [follow]

theorem Settled.outline_append {ts : List Token} (h : Settled ts) (rule : LabelRule)
    (us : List Token) : outline rule (ts ++ us) = outline rule ts ++ outline rule us := by
  have hleft : (groupLines 0 ts).2 = [] := tokenLines_of_newlines h.pending
  change _ = Outline.mk _ _
  simp only [outline, h.groupLines_append, Outline.ofGroups, hleft, List.map_append,
    List.flatMap_append, List.append_assoc, List.map_nil, List.nil_append]

theorem readDocument_append {s : List Char} (hs : EndsLine s) (h : Settled (scan s))
    (rule : LabelRule) (t : List Char) :
    readDocument rule (s ++ t) =
      readDocument rule s ++ (readDocument rule t).shift (s.count '\n') := by
  rw [readDocument_eq, scan_append hs, h.outline_append,
    outline_map (moves_shift (s.count '\n') s.length), Outline.document_append,
    Outline.document_append_left (bodies_outline_scan rule s), Outline.document_append_right,
    readDocument_eq, readDocument_eq]

theorem scan_nil : scan [] = [] := by
  rw [scan, segments_nil, tokensFrom]

theorem readDocument_nil (rule : LabelRule) : readDocument rule [] = ⟨[], []⟩ := by
  rw [readDocument_eq, scan_nil]
  rfl

theorem readDocument_newline_cons (rule : LabelRule) (t : List Char) :
    readDocument rule ('\n' :: t) = (readDocument rule t).shift 1 := by
  obtain ⟨u, hu, hscan⟩ := scan_append_newline []
  rw [scan_nil] at hscan
  have hsettled : Settled (scan ([] ++ ['\n'])) := by
    rw [hscan]
    refine ⟨?_, by simp [depthAfter, bracketDepth, hu]⟩
    intro v hv
    rw [List.nil_append, groups_newline hu, groups, follow_nil_right, List.mem_singleton] at hv
    exact hv ▸ hu
  have happend := readDocument_append (endsLine_append_newline []) hsettled rule t
  rw [readDocument_append_newline, readDocument_nil] at happend
  exact happend

end Worksheet.Markup
