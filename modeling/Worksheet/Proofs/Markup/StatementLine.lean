import Worksheet.Proofs.Markup.Body
import Worksheet.Proofs.Markup.Document

namespace Worksheet.Markup

open Chars

def IsSilent (cs : List Char) : Prop :=
  '\n' ∉ cs ∧ ((∀ c ∈ cs, isIndent c = true) ∨ startsComment cs = true)

theorem IsSilent.tokensFrom_eq_nil {cs : List Char} (h : IsSilent cs) (line start : Nat) :
    tokensFrom line start (segments true cs) = [] := by
  obtain ⟨hn, hindent | hcomment⟩ := h
  · apply tokensFrom_of_blank
    · intro c hc
      rw [chars_segments] at hc
      exact isBlank_of_isIndent (hindent c hc)
    · rw [← List.count_eq_zero, count_newline_segments, List.count_eq_zero]
      exact hn
  · rw [segments_of_startsComment hcomment hn]
    rfl

theorem scan_append_equals {head : List Char} (hu : Uncommented (segments true head))
    (hn : '\n' ∉ head) (rest : List Char) :
    scan (head ++ '=' :: rest) =
      scan head ++ Mark.equals.token 1 head.length :: bodyTokens 1 (head.length + 1) rest := by
  have hsegments := segments_append_mark hu .equals rest
  have hcount : (segments true head).count .newline = 0 := by
    rw [count_newline_segments, List.count_eq_zero]
    exact hn
  simp only [Mark.char] at hsegments
  rw [scan, hsegments, tokensFrom_append, chars_segments, hcount, Nat.zero_add]
  rfl

structure StatementLine where
  head : List Char
  body : List Char
  tail : List Char
  isText_head : ∀ c ∈ head, isText c = true
  uncommented_head : startsComment head = false
  isBody_body : IsBody body
  balanced : depthAfter 0 (bodyTokens 1 (head.length + 1) body) = 0
  isSilent_tail : IsSilent tail

namespace StatementLine

variable (l : StatementLine)

def chars : List Char := l.head ++ '=' :: (l.body ++ ';' :: l.tail)

def label : Option String :=
  if collapse l.head = [] then none else some (.ofList (collapse l.head))

def tokens : List Token := bodyTokens 1 (l.head.length + 1) l.body

def header : List Token := l.label.toList.map (fun value => ⟨.text, value, 1, 0, l.head.length⟩)

def group : List Token := l.header ++ Mark.equals.token 1 l.head.length :: l.tokens

def statement : Statement := ⟨l.label, bodyItems l.body, 1, isBracketed l.tokens⟩

theorem scan_head : scan l.head = l.header := by
  by_cases hne : l.head = []
  · rw [header, label, hne, scan, segments_nil]
    rfl
  · have hc : (true && startsComment l.head) = false := l.uncommented_head
    rw [scan, segments_of_isText hne l.isText_head hc, header, label]
    by_cases h : collapse l.head = []
    · simp [tokensFrom, h]
    · simp [tokensFrom, h]

theorem newline_not_mem_head : '\n' ∉ l.head :=
  fun h => (isText_iff.mp (l.isText_head _ h)).1 rfl

theorem scan_chars :
    scan l.chars =
      l.group ++ [Mark.semicolon.token 1 (l.head.length + 1 + l.body.length)] := by
  have hhead := uncommented_segments_of_isText l.isText_head l.uncommented_head
  have hbody := l.isBody_body.tokensFrom_append_mark .semicolon 1 (l.head.length + 1) l.tail
  rw [Mark.char, beq_self_eq_true, l.isSilent_tail.tokensFrom_eq_nil] at hbody
  rw [chars, scan_append_equals hhead l.newline_not_mem_head, scan_head, group,
    List.append_assoc, List.cons_append, bodyTokens, hbody]
  rfl

theorem kind_of_mem_header {t : Token} (h : t ∈ l.header) : t.kind = .text := by
  obtain ⟨value, -, rfl⟩ := List.mem_map.mp h
  rfl

theorem kind_of_mem_group {t : Token} (h : t ∈ l.group) :
    t.kind ≠ .newline ∧ t.kind ≠ .mark .semicolon := by
  rcases List.mem_append.mp h with h | h
  · simp [l.kind_of_mem_header h]
  · rcases List.mem_cons.mp h with rfl | h
    · simp [Mark.token]
    · exact ⟨kind_ne_newline_of_mem_bodyTokens l.isBody_body h,
        kind_ne_of_mem_bodyTokens l.isBody_body (fun hmem => (l.isBody_body ';' hmem).2 rfl) h⟩

theorem group_ne_nil : l.group ≠ [] := by
  simp [group]

theorem isHeader_group : isHeader l.group = true := by
  rw [group, header]
  cases l.label <;> simp [isHeader, Mark.token]

theorem headerLabel_group : headerLabel l.group = l.label := by
  rw [group, header]
  cases l.label with
  | none => rfl
  | some value => rfl

theorem drop_group : l.group.drop (if l.label.isSome then 2 else 1) = l.tokens := by
  rw [group, header]
  cases l.label <;> rfl

theorem depthAfter_group : depthAfter 0 l.group = 0 := by
  have hheader : depthAfter 0 l.header = 0 :=
    depthAfter_of_not_bracket (fun t ht => by simp [l.kind_of_mem_header ht]) 0
  rw [group, depthAfter_append, hheader]
  exact l.balanced

theorem groups_scan : groups 0 (scan l.chars) = ([l.group], []) := by
  rw [scan_chars]
  exact groups_close (fun t ht => (l.kind_of_mem_group ht).2) l.depthAfter_group rfl

theorem groupLines_scan : groupLines 0 (scan l.chars) = ([[l.group]], []) := by
  rw [groupLines, groups_scan, List.map_singleton,
    tokenLines_of_not_newline l.group_ne_nil (fun t ht => (l.kind_of_mem_group ht).1)]
  rfl

theorem outline_scan {rule : LabelRule} (h : l.label.all rule.admits = true) :
    outline rule (scan l.chars) = ⟨[⟨l.label, 1, l.tokens⟩], []⟩ := by
  have hline : lineNumber l.group = 1 := by
    rw [group, header]
    cases l.label <;> rfl
  simp [outline, groupLines_scan, Outline.ofGroups, Outline.ofGroup, splitAtLast, l.isHeader_group,
    l.headerLabel_group, h, hline]
  exact l.drop_group

theorem readDocument_chars {rule : LabelRule} (h : l.label.all rule.admits = true) :
    readDocument rule l.chars = ⟨[l.statement], []⟩ := by
  have hsource : l.chars = (l.head ++ ['=']) ++ (l.body ++ (';' :: l.tail)) := by
    simp [chars]
  have hlength : l.head.length + 1 = (l.head ++ ['=']).length := by simp
  have hitems : itemTexts l.chars l.tokens = bodyItems l.body := by
    rw [tokens, hsource, hlength]
    exact itemTexts_bodyTokens l.isBody_body _ _ 1
  rw [readDocument_eq, l.outline_scan h]
  simp only [Outline.document, List.map_singleton, Clause.statement, hitems, statement]

theorem newline_not_mem_chars : '\n' ∉ l.chars := by
  intro h
  simp only [chars, List.mem_append, List.mem_cons] at h
  rcases h with h | h | h | h | h
  · exact l.newline_not_mem_head h
  · exact absurd h (by decide)
  · exact (l.isBody_body _ h).1 rfl
  · exact absurd h (by decide)
  · exact l.isSilent_tail.1 h

theorem settled : Settled (scan (l.chars ++ ['\n'])) := by
  obtain ⟨t, ht, hscan⟩ := scan_append_newline l.chars
  rw [hscan]
  refine ⟨?_, ?_⟩
  · intro u hu
    rw [groups_append, groups_scan, groups_newline ht] at hu
    simp [groups, follow] at hu
    exact hu ▸ ht
  · have hnewline : depthAfter 0 [t] = 0 := by simp [depthAfter, bracketDepth, ht]
    rw [depthAfter_append, scan_chars, depthAfter_append, l.depthAfter_group]
    exact hnewline

theorem readDocument_chars_append {rule : LabelRule} (h : l.label.all rule.admits = true)
    (rest : List Char) :
    readDocument rule (l.chars ++ '\n' :: rest) =
      ⟨[l.statement], []⟩ ++ (readDocument rule rest).shift 1 := by
  have hcount : (l.chars ++ ['\n']).count '\n' = 1 := by
    rw [List.count_append, List.count_eq_zero_of_not_mem l.newline_not_mem_chars]
    rfl
  have happend := readDocument_append (endsLine_append_newline l.chars) l.settled rule rest
  rw [hcount, readDocument_append_newline, l.readDocument_chars h, List.append_assoc] at happend
  exact happend

end StatementLine

end Worksheet.Markup
