import Worksheet.Proofs.Markup.Items
import Worksheet.Proofs.Text.Lines

namespace Worksheet.Markup

open Chars

def charDepth (depth : Nat) (c : Char) : Nat :=
  if c = '[' then depth + 1 else if c = ']' then depth - 1 else depth

def closedTexts (depth : Nat) : List Char → List (List Char)
  | [] => []
  | c :: cs =>
      if c = ';' ∧ depth = 0 then [] :: closedTexts 0 cs
      else (closedTexts (charDepth depth c) cs).modifyHead (c :: ·)

def isHeaderLine (line : List Char) : Bool := (line.dropWhile isText).head? = some '='

structure Passage where
  head : List Char
  raw : List Char
  deriving DecidableEq, Repr

namespace Passage

def label (p : Passage) : Option String :=
  if collapse p.head = [] then none else some (.ofList (collapse p.head))

def IsBracketed (p : Passage) : Prop :=
  2 ≤ (trim p.raw).length ∧ (trim p.raw).head? = some '[' ∧ (trim p.raw).getLast? = some ']'

instance (p : Passage) : Decidable p.IsBracketed := inferInstanceAs (Decidable (_ ∧ _))

def items (p : Passage) : List String :=
  splitPipes (if p.IsBracketed then ((trim p.raw).drop 1).dropLast else p.raw)

end Passage

def passage? (text : List Char) : Option Passage :=
  (splitAtLast isHeaderLine (lines text)).map fun (_, header, after) =>
    ⟨header.takeWhile isText, unlines ((header.dropWhile isText).drop 1 :: after)⟩

def passages (source : List Char) : List Passage := (closedTexts 0 source).filterMap passage?

section Closing

variable {l rest : List Char}

def isStop (c : Char) : Bool := c ∈ [';', '[', ']']

theorem stop_not_mem {m : Mark} (hm : isStop m.char = true) (hl : ∀ c ∈ l, isStop c = false) :
    m.char ∉ l := by
  intro hmem
  rw [hl _ hmem] at hm
  cases hm

theorem closedTexts_append (hl : ∀ c ∈ l, isStop c = false) (depth : Nat) (rest : List Char) :
    closedTexts depth (l ++ rest) = (closedTexts depth rest).modifyHead (l ++ ·) := by
  induction l with
  | nil => exact (congrFun List.modifyHead_id _).symm
  | cons c l ih =>
      have hc := hl c List.mem_cons_self
      simp only [isStop, List.mem_cons, List.not_mem_nil, or_false, decide_eq_false_iff_not, not_or] at hc
      rw [List.cons_append, closedTexts, if_neg (fun h => hc.1 h.1), charDepth, if_neg hc.2.1,
        if_neg hc.2.2, ih (fun d hd => hl d (List.mem_cons_of_mem _ hd)), List.modifyHead_modifyHead]
      rfl

theorem follow_open_fst (ts : List Token) (g : List (List Token) × List Token) :
    (follow ([], ts) g).1 = g.1.modifyHead (ts ++ ·) := by
  obtain ⟨closed, left⟩ := g
  cases closed <;> rfl

theorem charDepth_char (m : Mark) (line start depth : Nat) :
    charDepth depth m.char = bracketDepth depth (m.token line start) := by
  cases m <;> rfl

theorem groups_plainTokens_append (hl : ∀ c ∈ l, isStop c = false) (line start depth : Nat)
    (ts : List Token) :
    (groups depth (plainTokens line start l ++ ts)).1 =
      (groups depth ts).1.modifyHead (plainTokens line start l ++ ·) := by
  have hkind : ∀ m : Mark, isStop m.char = true → ∀ t ∈ plainTokens line start l, t.kind ≠ .mark m :=
    fun m hm t ht hk => stop_not_mem hm hl (mem_of_mem_plainTokens ht (by rw [hk]; rfl))
  have hdepth : depthAfter depth (plainTokens line start l) = depth :=
    depthAfter_of_not_bracket
      (fun t ht => ⟨hkind .openBracket rfl t ht, hkind .closeBracket rfl t ht⟩) depth
  rw [groups_append, groups_of_not_semicolon (hkind .semicolon rfl), hdepth, follow_open_fst]

theorem groups_cons_of_mark {m : Mark} {depth : Nat} (h : ¬ (m.char = ';' ∧ depth = 0))
    (line start : Nat) (ts : List Token) :
    (groups depth (m.token line start :: ts)).1 =
      (groups (charDepth depth m.char) ts).1.modifyHead (m.token line start :: ·) := by
  have hclose : ¬ ((m.token line start).kind = .mark .semicolon ∧ depth = 0) := by
    rintro ⟨hk, hd⟩
    exact h ⟨TokenKind.mark.inj hk ▸ rfl, hd⟩
  rw [groups_cons_of_not_close hclose, follow_open_fst, ← charDepth_char]
  rfl

theorem exists_mark_of_isStop {c : Char} (h : isStop c = true) : ∃ m : Mark, m.char = c := by
  simp only [isStop, List.mem_cons, List.not_mem_nil, or_false, decide_eq_true_eq] at h
  rcases h with rfl | rfl | rfl
  · exact ⟨.semicolon, rfl⟩
  · exact ⟨.openBracket, rfl⟩
  · exact ⟨.closeBracket, rfl⟩

theorem closedTexts_cases (cs : List Char) :
    ∀ depth line start : Nat,
      (closedTexts depth cs = [] ∧ (groups depth (plainTokens line start cs)).1 = []) ∨
        ∃ text rest, cs = text ++ ';' :: rest ∧ closedTexts depth cs = text :: closedTexts 0 rest ∧
          (groups depth (plainTokens line start cs)).1 = plainTokens line start text ::
            (groups 0 (plainTokens (line + text.count '\n') (start + text.length + 1) rest)).1 := by
  induction cs using induction_on_cut isStop with
  | last l hl =>
      intro depth line start
      left
      have hclosed := closedTexts_append hl depth []
      have hgroups := groups_plainTokens_append hl line start depth []
      rw [List.append_nil] at hclosed hgroups
      exact ⟨hclosed, hgroups⟩
  | cons l c rest hl hc ih =>
      intro depth line start
      obtain ⟨m, rfl⟩ := exists_mark_of_isStop hc
      rw [plainTokens_append_mark, groups_plainTokens_append hl, closedTexts_append hl]
      by_cases hcloses : m.char = ';' ∧ depth = 0
      · right
        obtain ⟨hm, rfl⟩ := hcloses
        have hm' : m = .semicolon := by cases m <;> first | rfl | exact absurd hm (by decide)
        subst hm'
        refine ⟨l, rest, rfl, ?_, ?_⟩
        · rw [closedTexts, if_pos ⟨rfl, rfl⟩, List.modifyHead_cons, List.append_nil]
        · rw [groups_cons_of_close rfl, List.modifyHead_cons, List.append_nil]
      · rw [groups_cons_of_mark hcloses, closedTexts, if_neg hcloses]
        rcases ih (charDepth depth m.char) (line + l.count '\n') (start + l.length + 1) with
          ⟨hclosed, hgroups⟩ | ⟨text, rest, rfl, hclosed, hgroups⟩
        · left
          rw [hclosed, hgroups]
          exact ⟨rfl, rfl⟩
        · right
          refine ⟨l ++ m.char :: text, rest, ?_, ?_, ?_⟩
          · rw [List.append_assoc, List.cons_append]
          · rw [hclosed]
            rfl
          · rw [hgroups, plainTokens_append_mark, count_newline_append_mark, length_append_cons]
            simp only [List.modifyHead_cons, ← Nat.add_assoc]

end Closing

section Lines

variable {l x : List Char}

theorem Passage.plainTokens_head (p : Passage) (h : ∀ c ∈ p.head, isText c = true)
    (line start : Nat) :
    plainTokens line start p.head =
      p.label.toList.map (fun value => ⟨.text, value, line, start, start + p.head.length⟩) := by
  rw [Passage.label]
  by_cases hne : p.head = []
  · rw [hne]
    rfl
  · rw [plainTokens, plainSegments_of_isText hne h]
    by_cases hblank : collapse p.head = [] <;> simp [tokensFrom, hblank]

theorem Passage.header_plainTokens (p : Passage) (h : ∀ c ∈ p.head, isText c = true)
    (x : List Char) (line start : Nat) :
    isHeader (plainTokens line start (p.head ++ '=' :: x)) = true ∧
      headerLabel (plainTokens line start (p.head ++ '=' :: x)) = p.label ∧
      (plainTokens line start (p.head ++ '=' :: x)).drop (if p.label.isSome then 2 else 1) =
        plainTokens (line + p.head.count '\n') (start + p.head.length + 1) x := by
  have hmark := plainTokens_append_mark line start p.head .equals x
  rw [Mark.char, p.plainTokens_head h] at hmark
  rw [hmark]
  cases p.label with
  | none => exact ⟨rfl, rfl, rfl⟩
  | some value => exact ⟨rfl, rfl, rfl⟩

theorem exists_of_isHeaderLine (h : isHeaderLine l = true) :
    ∃ head x, l = head ++ '=' :: x ∧ (∀ c ∈ head, isText c = true) ∧ l.takeWhile isText = head ∧
      (l.dropWhile isText).drop 1 = x := by
  obtain ⟨x, hx⟩ := List.head?_eq_some_iff.mp (of_decide_eq_true h)
  refine ⟨l.takeWhile isText, x, ?_, fun _ hc => mem_takeWhile hc, rfl, by rw [hx]; rfl⟩
  rw [← hx, List.takeWhile_append_dropWhile]

theorem isHeader_plainTokens_of_not (hn : '\n' ∉ l) (h : isHeaderLine l = false) (line start : Nat) :
    isHeader (plainTokens line start l) = false := by
  have hhead := Passage.plainTokens_head ⟨l.takeWhile isText, []⟩ (fun _ hc => mem_takeWhile hc) line start
  have hsplit : l = l.takeWhile isText ++ l.dropWhile isText := List.takeWhile_append_dropWhile.symm
  rw [isHeaderLine, decide_eq_false_iff_not] at h
  generalize l.takeWhile isText = run at hhead hsplit
  cases hrest : l.dropWhile isText with
  | nil =>
      rw [hrest, List.append_nil] at hsplit
      rw [hsplit, hhead]
      cases (⟨run, []⟩ : Passage).label <;> rfl
  | cons c rest =>
      have hc : isText c = false := of_dropWhile_eq_cons hrest
      rw [hrest] at h hsplit
      rcases eq_newline_or_mark hc with rfl | ⟨m, rfl⟩
      · exact absurd (hsplit ▸ List.mem_append_right run List.mem_cons_self) hn
      · have hm : m ≠ .equals := fun heq => h (heq ▸ rfl)
        rw [hsplit, plainTokens_append_mark, hhead]
        cases (⟨run, []⟩ : Passage).label <;> simp [isHeader, Mark.token, hm]

theorem tokenLines_plainTokens (hn : '\n' ∉ l) (line start : Nat) :
    tokenLines (plainTokens line start l) =
      if plainTokens line start l = [] then [] else [plainTokens line start l] := by
  have hkind : ∀ t ∈ plainTokens line start l, t.kind ≠ .newline :=
    fun t ht hk => hn (mem_of_mem_plainTokens ht (by rw [hk]; rfl))
  by_cases hnil : plainTokens line start l = []
  · rw [if_pos hnil, hnil]
    rfl
  · rw [if_neg hnil, tokenLines_of_not_newline hnil hkind]

theorem passage?_of_line (hn : '\n' ∉ l) :
    passage? l =
      if isHeaderLine l then some ⟨l.takeWhile isText, (l.dropWhile isText).drop 1⟩ else none := by
  rw [passage?, lines_of_not_mem hn, splitAtLast, splitAtLast]
  cases isHeaderLine l with
  | true => simp [unlines]
  | false => rfl

theorem passage?_append_newline (hn : '\n' ∉ l) (rest : List Char) :
    passage? (l ++ '\n' :: rest) =
      (passage? rest).or (if isHeaderLine l then
        some ⟨l.takeWhile isText, (l.dropWhile isText).drop 1 ++ '\n' :: rest⟩ else none) := by
  rw [passage?, lines_append_newline hn, splitAtLast, passage?]
  cases splitAtLast isHeaderLine (lines rest) with
  | some parts => rfl
  | none =>
      cases isHeaderLine l with
      | true => simp [unlines_cons_lines]
      | false => rfl

structure Agrees (text : List Char) (line start : Nat) (p : Passage) (above : List Char)
    (header : List Token) (after : List (List Token)) : Prop where
  text_eq : text = above ++ (p.head ++ '=' :: p.raw)
  isText_head : ∀ c ∈ p.head, isText c = true
  endsLine_above : EndsLine above
  splitAtLast_eq : ∃ before, splitAtLast isHeader (tokenLines (plainTokens line start text)) =
    some (before, header, after)
  headerLabel_eq : headerLabel header = p.label
  body_eq : ∃ n, header.drop (if p.label.isSome then 2 else 1) ++ after.flatten =
    (plainTokens n (start + above.length + p.head.length + 1) p.raw).filter (·.kind ≠ .newline)

theorem tokenLines_append_line (line start : Nat) (l rest : List Char) :
    tokenLines (plainTokens line start (l ++ '\n' :: rest)) =
      tokenLines (plainTokens line start l) ++
        tokenLines (plainTokens (line + l.count '\n' + 1) (start + l.length + 1) rest) := by
  obtain ⟨u, hu, htokens⟩ := plainTokens_append_newline line start l rest
  rw [htokens, tokenLines_append_newline hu]

theorem forall_not_isHeader (hn : '\n' ∉ l) (h : isHeaderLine l = false) (line start : Nat) :
    ∀ ts ∈ tokenLines (plainTokens line start l), isHeader ts = false := by
  intro ts hts
  rw [tokenLines_plainTokens hn] at hts
  split at hts
  · exact absurd hts List.not_mem_nil
  · rw [List.mem_singleton.mp hts]
    exact isHeader_plainTokens_of_not hn h line start

theorem splitAtLast_header {head : List Char} (h : ∀ c ∈ head, isText c = true)
    (hn : '\n' ∉ head ++ '=' :: x) (line start : Nat) {ls : List (List Token)}
    (hls : ∀ ts ∈ ls, isHeader ts = false) :
    splitAtLast isHeader (tokenLines (plainTokens line start (head ++ '=' :: x)) ++ ls) =
      some ([], plainTokens line start (head ++ '=' :: x), ls) := by
  obtain ⟨hheader, -⟩ := Passage.header_plainTokens ⟨head, []⟩ h x line start
  have hne : plainTokens line start (head ++ '=' :: x) ≠ [] := by
    intro hnil
    rw [hnil] at hheader
    cases hheader
  rw [tokenLines_plainTokens hn, if_neg hne]
  exact splitAtLast_append hheader hls []

theorem agrees_last {head : List Char} (h : ∀ c ∈ head, isText c = true)
    (hn : '\n' ∉ head ++ '=' :: x) (line start : Nat) :
    Agrees (head ++ '=' :: x) line start ⟨head, x⟩ []
      (plainTokens line start (head ++ '=' :: x)) [] := by
  obtain ⟨-, hlabel, hdrop⟩ := Passage.header_plainTokens ⟨head, x⟩ h x line start
  have hx : '\n' ∉ x := fun hmem => hn (List.mem_append_right _ (List.mem_cons_of_mem _ hmem))
  refine ⟨rfl, h, Or.inl rfl, ⟨[], ?_⟩, hlabel, line + head.count '\n', ?_⟩
  · rw [← splitAtLast_header h hn line start (fun _ hts => absurd hts List.not_mem_nil),
      List.append_nil]
  · rw [hdrop, List.flatten_nil, List.append_nil]
    exact (filter_plainTokens_of_line hx _ _).symm

theorem agrees_of_header {head rest : List Char} (h : ∀ c ∈ head, isText c = true)
    (hn : '\n' ∉ head ++ '=' :: x) {line start : Nat} {ls : List (List Token)}
    (hls : ls = tokenLines (plainTokens (line + (head ++ '=' :: x).count '\n' + 1)
      (start + (head ++ '=' :: x).length + 1) rest)) (hrest : ∀ ts ∈ ls, isHeader ts = false) :
    Agrees (head ++ '=' :: x ++ '\n' :: rest) line start ⟨head, x ++ '\n' :: rest⟩ []
      (plainTokens line start (head ++ '=' :: x)) ls := by
  obtain ⟨-, hlabel, hdrop⟩ :=
    Passage.header_plainTokens ⟨head, x ++ '\n' :: rest⟩ h x line start
  have hx : '\n' ∉ x := fun hmem => hn (List.mem_append_right _ (List.mem_cons_of_mem _ hmem))
  refine ⟨?_, h, Or.inl rfl, ⟨[], ?_⟩, hlabel, line + head.count '\n', ?_⟩
  · rw [List.nil_append, List.append_assoc, List.cons_append]
  · rw [tokenLines_append_line, ← hls, splitAtLast_header h hn line start hrest]
  · obtain ⟨u, hu, hbody⟩ :=
      plainTokens_append_newline (line + head.count '\n') (start + head.length + 1) x rest
    have hcount := count_newline_append_mark head .equals x
    rw [Mark.char] at hcount
    rw [hdrop, hls, flatten_tokenLines, hcount, length_append_cons]
    simp only [List.length_nil, Nat.add_zero, ← Nat.add_assoc, hbody, List.filter_append,
      filter_plainTokens_of_line hx]
    rw [List.filter_cons_of_neg (by simp [hu])]

theorem Agrees.below {text : List Char} {line start : Nat} {p : Passage} {above : List Char}
    {header : List Token} {after : List (List Token)}
    (h : Agrees text (line + l.count '\n' + 1) (start + l.length + 1) p above header after) :
    Agrees (l ++ '\n' :: text) line start p (l ++ '\n' :: above) header after := by
  obtain ⟨before, hbefore⟩ := h.splitAtLast_eq
  obtain ⟨n, hbody⟩ := h.body_eq
  refine ⟨?_, h.isText_head, h.endsLine_above.append l,
    ⟨tokenLines (plainTokens line start l) ++ before, ?_⟩, h.headerLabel_eq, n, ?_⟩
  · rw [h.text_eq, List.append_assoc, List.cons_append]
  · rw [tokenLines_append_line]
    exact splitAtLast_append_right hbefore _
  · rw [length_append_cons, ← Nat.add_assoc, ← Nat.add_assoc]
    exact hbody

theorem passage?_cases (text : List Char) :
    ∀ line start : Nat,
      (passage? text = none ∧ splitAtLast isHeader (tokenLines (plainTokens line start text)) = none) ∨
        ∃ p above header after, passage? text = some p ∧
          Agrees text line start p above header after := by
  induction text using induction_on_pieces '\n' with
  | last l hl =>
      intro line start
      rw [passage?_of_line hl]
      cases h : isHeaderLine l with
      | true =>
          right
          obtain ⟨head, x, rfl, htext, htake, hdrop⟩ := exists_of_isHeaderLine h
          rw [if_pos rfl, htake, hdrop]
          exact ⟨_, _, _, _, rfl, agrees_last htext hl line start⟩
      | false =>
          exact Or.inl ⟨rfl, splitAtLast_eq_none_iff.mpr (forall_not_isHeader hl h line start)⟩
  | cons l rest hl ih =>
      intro line start
      rw [passage?_append_newline hl]
      rcases ih (line + l.count '\n' + 1) (start + l.length + 1) with
        ⟨hnone, hsplit⟩ | ⟨p, above, header, after, hp, hagrees⟩
      · have hrest := splitAtLast_eq_none_iff.mp hsplit
        rw [hnone, Option.none_or]
        cases h : isHeaderLine l with
        | true =>
            right
            obtain ⟨head, x, rfl, htext, htake, hdrop⟩ := exists_of_isHeaderLine h
            rw [if_pos rfl, htake, hdrop]
            exact ⟨_, _, _, _, rfl, agrees_of_header htext hl rfl hrest⟩
        | false =>
            left
            refine ⟨rfl, splitAtLast_eq_none_iff.mpr (fun ts hts => ?_)⟩
            rw [tokenLines_append_line, List.mem_append] at hts
            rcases hts with hts | hts
            · exact forall_not_isHeader hl h line start ts hts
            · exact hrest ts hts
      · rw [hp]
        exact Or.inr ⟨p, _, _, _, rfl, hagrees.below⟩

end Lines

namespace Passage

theorem isBracketed_iff (p : Passage) : p.IsBracketed ↔ Enclosed p.raw := by
  constructor
  · rintro ⟨-, hends⟩
    exact enclosed_iff.mpr hends
  · intro h
    refine ⟨?_, enclosed_iff.mp h⟩
    obtain ⟨lead, mid, trail, hraw, hl, ht⟩ := h
    rw [hraw, trim_append_append hl ht (by decide) (by decide)]
    simp

theorem bodyItems_raw (p : Passage) : bodyItems p.raw = p.items := by
  rw [bodyItems, items]
  by_cases h : p.IsBracketed
  · rw [if_pos h, unbracket, if_pos h.2]
  · rw [if_neg h, unbracket_trim_of_not_enclosed (mt p.isBracketed_iff.mpr h), splitPipes_trim]

end Passage

section Document

variable {source : List Char} (rule : LabelRule)

theorem readGroup_plainTokens (pre text post : List Char) (line : Nat) :
    (readGroup rule (pre ++ (text ++ post)) (plainTokens line pre.length text)).statements.map
        (fun s => (s.label, s.items, s.bracketed)) =
      ((passage? text).toList.filter (·.label.all rule.admits)).map
        (fun p => (p.label, p.items, decide p.IsBracketed)) := by
  rcases passage?_cases text line pre.length with
    ⟨hnone, hsplit⟩ | ⟨p, above, header, after, hp, hagrees⟩
  · rw [readGroup, hsplit, hnone]
    rfl
  · obtain ⟨before, hsplit⟩ := hagrees.splitAtLast_eq
    obtain ⟨n, hbody⟩ := hagrees.body_eq
    have hsource : pre ++ (text ++ post) =
        (pre ++ (above ++ (p.head ++ ['=']))) ++ (p.raw ++ post) := by
      simp [hagrees.text_eq]
    have hlength : pre.length + above.length + p.head.length + 1 =
        (pre ++ (above ++ (p.head ++ ['=']))).length := by
      simp only [List.length_append, List.length_singleton, Nat.add_assoc]
    rw [hlength] at hbody
    have hitems := itemTexts_plainTokens p.raw (pre ++ (above ++ (p.head ++ ['=']))) post n
    have hbracketed : isBracketed ((plainTokens n (pre ++ (above ++ (p.head ++ ['=']))).length
        p.raw).filter (·.kind ≠ .newline)) = decide p.IsBracketed := by
      rw [Bool.eq_iff_iff, isBracketed_plainTokens_iff, decide_eq_true_iff, p.isBracketed_iff]
    rw [hsource, readGroup, hsplit, hp]
    simp only [hagrees.headerLabel_eq, hbody, hitems, hbracketed, p.bodyItems_raw]
    by_cases hadmits : p.label.all rule.admits = true
    · simp [hadmits]
    · simp [hadmits]

theorem statements_plainTokens {texts : List (List Char)} :
    ∀ {cs pre : List Char} {line : Nat}, source = pre ++ cs → closedTexts 0 cs = texts →
      ((groups 0 (plainTokens line pre.length cs)).1.flatMap
          (fun group => (readGroup rule source group).statements)).map
          (fun s => (s.label, s.items, s.bracketed)) =
        ((texts.filterMap passage?).filter (·.label.all rule.admits)).map
          (fun p => (p.label, p.items, decide p.IsBracketed)) := by
  induction texts with
  | nil =>
      intro cs pre line _ hclosed
      rcases closedTexts_cases cs 0 line pre.length with ⟨-, hgroups⟩ | ⟨text, rest, -, hsome, -⟩
      · rw [hgroups]
        rfl
      · rw [hsome] at hclosed
        cases hclosed
  | cons text texts ih =>
      intro cs pre line hsource hclosed
      rcases closedTexts_cases cs 0 line pre.length with
        ⟨hnone, -⟩ | ⟨first, rest, rfl, hsome, hgroups⟩
      · rw [hnone] at hclosed
        cases hclosed
      · obtain ⟨rfl, htexts⟩ := List.cons.inj (hsome.symm.trans hclosed)
        have hrest : source = (pre ++ (first ++ [';'])) ++ rest := by
          simp [hsource]
        have hlength : pre.length + first.length + 1 = (pre ++ (first ++ [';'])).length := by
          simp only [List.length_append, List.length_singleton, Nat.add_assoc]
        have hgroup := readGroup_plainTokens rule pre first (';' :: rest) line
        rw [← hsource] at hgroup
        rw [hgroups, List.flatMap_cons, List.map_append, hgroup, hlength, ih hrest htexts]
        cases hp : passage? first with
        | none => rw [List.filterMap_cons_none hp]; rfl
        | some p =>
            rw [List.filterMap_cons_some hp, Option.toList_some, ← List.map_append,
              ← List.filter_append, List.singleton_append]

theorem exists_of_mem_closedTexts {texts : List (List Char)} :
    ∀ {cs : List Char}, closedTexts 0 cs = texts → ∀ text ∈ texts,
      ∃ above below, cs = above ++ (text ++ ';' :: below) ∧
        ∀ c, above.getLast? = some c → c = ';' := by
  induction texts with
  | nil => intro cs _ text ht; exact absurd ht List.not_mem_nil
  | cons first texts ih =>
      intro cs hclosed text ht
      rcases closedTexts_cases cs 0 1 0 with ⟨hnone, -⟩ | ⟨text', rest, rfl, hsome, -⟩
      · rw [hnone] at hclosed
        cases hclosed
      · obtain ⟨rfl, htexts⟩ := List.cons.inj (hsome.symm.trans hclosed)
        rcases List.mem_cons.mp ht with rfl | ht
        · exact ⟨[], rest, rfl, fun c hc => by cases hc⟩
        · obtain ⟨above, below, rfl, hlast⟩ := ih htexts text ht
          refine ⟨text' ++ ';' :: above, below, ?_, ?_⟩
          · rw [List.append_assoc, List.cons_append]
          · intro c hc
            rw [List.getLast?_append, List.getLast?_cons] at hc
            cases habove : above.getLast? with
            | none => simpa [habove, eq_comm] using hc
            | some d =>
                rw [habove] at hc
                exact hlast c (habove.trans hc)

theorem exists_of_mem_passages {p : Passage} (hp : p ∈ passages source) :
    ∃ above below, source = above ++ (p.head ++ '=' :: (p.raw ++ ';' :: below)) ∧
      (∀ c ∈ p.head, isText c = true) ∧ ∀ c, above.getLast? = some c → c = '\n' ∨ c = ';' := by
  obtain ⟨text, htext, hpassage⟩ := List.mem_filterMap.mp hp
  obtain ⟨pre, below, hsource, hlast⟩ := exists_of_mem_closedTexts rfl text htext
  rcases passage?_cases text 1 0 with ⟨hnone, -⟩ | ⟨q, above, header, after, hq, hagrees⟩
  · rw [hnone] at hpassage
    cases hpassage
  · obtain rfl := Option.some.inj (hq.symm.trans hpassage)
    refine ⟨pre ++ above, below, ?_, hagrees.isText_head, ?_⟩
    · rw [hsource, hagrees.text_eq]
      simp only [List.append_assoc, List.cons_append]
    · intro c hc
      rcases hagrees.endsLine_above with rfl | ⟨init, rfl⟩
      · rw [List.append_nil] at hc
        exact Or.inr (hlast c hc)
      · rw [← List.append_assoc, List.getLast?_concat] at hc
        exact Or.inl (Option.some.inj hc).symm

theorem statements_eq_passages (hu : Uncommented (segments true source)) :
    (readDocument rule source).statements.map (fun s => (s.label, s.items, s.bracketed)) =
        ((passages source).filter (·.label.all rule.admits)).map
          (fun p => (p.label, p.items, decide p.IsBracketed)) ∧
      ∀ p ∈ passages source, ∃ above below,
        source = above ++ (p.head ++ '=' :: (p.raw ++ ';' :: below)) ∧
          (∀ c ∈ p.head, isText c = true) ∧ ∀ c, above.getLast? = some c → c = '\n' ∨ c = ';' := by
  refine ⟨?_, fun p hp => exists_of_mem_passages hp⟩
  have hread := @statements_plainTokens source rule (closedTexts 0 source) source [] 1 rfl rfl
  have hstatements : (readDocument rule source).statements =
      (groups 0 (scan source)).1.flatMap (fun group => (readGroup rule source group).statements) := by
    rw [readDocument]
    exact List.flatMap_map ..
  rw [hstatements, scan_eq_plainTokens hu, passages, ← hread]
  rfl

theorem statements_eq_passages_plum :
    let source := "Plum = [a [b] | c; d] | e = f;\nPear\n jam = [x\n| y ];".toList
    Uncommented (segments true source) ∧
      (readDocument .category source).statements.map (fun s => (s.label, s.items, s.bracketed)) =
        [(some "Plum", ["[a [b]", "c; d]", "e = f"], false), (some "jam", ["x", "y"], true)] := by
  intro source
  have hu : Uncommented (segments true source) := uncommented_of_slash_not_mem (by decide)
  refine ⟨hu, (statements_eq_passages .category hu).1.trans ?_⟩
  decide +kernel

end Document

end Worksheet.Markup
