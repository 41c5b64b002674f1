import Worksheet.Markup.Statement
import Worksheet.Proofs.Markup.Statement

namespace Worksheet.Markup

structure Clause where
  label : Option String
  line : Nat
  body : List Token

def Clause.statement (source : List Char) (c : Clause) : Statement :=
  ⟨c.label, itemTexts source c.body, c.line, isBracketed c.body⟩

structure Outline where
  clauses : List Clause
  skipped : List Nat

namespace Outline

def append (o p : Outline) : Outline := ⟨o.clauses ++ p.clauses, o.skipped ++ p.skipped⟩

instance : Append Outline := ⟨append⟩

def document (source : List Char) (o : Outline) : Document :=
  ⟨o.clauses.map (·.statement source), o.skipped⟩

def ofGroup (rule : LabelRule) (lines : List (List Token)) : Outline :=
  match splitAtLast isHeader lines with
  | none => ⟨[], lines.map lineNumber⟩
  | some (before, header, after) =>
      let label := headerLabel header
      if label.all rule.admits then
        ⟨[⟨label, lineNumber header, header.drop (if label.isSome then 2 else 1) ++ after.flatten⟩],
          before.map lineNumber⟩
      else ⟨[], lines.map lineNumber⟩

def ofGroups (rule : LabelRule) (closed : List (List (List Token))) (left : List (List Token)) :
    Outline :=
  let read := closed.map (ofGroup rule)
  ⟨read.flatMap (·.clauses), read.flatMap (·.skipped) ++ left.map lineNumber⟩

end Outline

def groupLines (depth : Nat) (ts : List Token) : List (List (List Token)) × List (List Token) :=
  ((groups depth ts).1.map tokenLines, tokenLines (groups depth ts).2)

def outline (rule : LabelRule) (ts : List Token) : Outline :=
  .ofGroups rule (groupLines 0 ts).1 (groupLines 0 ts).2

theorem readGroup_eq (rule : LabelRule) (source : List Char) (group : List Token) :
    readGroup rule source group = (Outline.ofGroup rule (tokenLines group)).document source := by
  simp only [readGroup, Outline.ofGroup]
  cases splitAtLast isHeader (tokenLines group) with
  | none => rfl
  | some parts =>
      simp only
      split <;> rfl

theorem readDocument_eq (rule : LabelRule) (source : List Char) :
    readDocument rule source = (outline rule (scan source)).document source := by
  simp only [readDocument, outline, groupLines, Outline.ofGroups, Outline.document,
    List.flatMap_map, List.map_flatMap, readGroup_eq]

section Groups

variable {α β : Type}

def follow (g : List (List α) × List α) :
    List (List α) × List α → List (List α) × List α
  | ([], left) => (g.1, g.2 ++ left)
  | (group :: closed, left) => (g.1 ++ (g.2 ++ group) :: closed, left)

@[simp]
theorem follow_nil_left (g : List (List α) × List α) : follow ([], []) g = g := by
  obtain ⟨closed, left⟩ := g
  cases closed <;> rfl

@[simp]
theorem follow_nil_right (g : List (List α) × List α) : follow g ([], []) = g := by
  simp [follow]

theorem follow_assoc (g h k : List (List α) × List α) :
    follow (follow g h) k = follow g (follow h k) := by
  obtain ⟨hclosed, hleft⟩ := h
  obtain ⟨kclosed, kleft⟩ := k
  cases hclosed <;> cases kclosed <;> simp [follow]

theorem follow_map {f : List α → List β} {g : List (List α) × List α} {h : List (List α) × List α}
    {left : List β} (hf : ∀ l, f (g.2 ++ l) = left ++ f l) :
    ((follow g h).1.map f, f (follow g h).2) = follow (g.1.map f, left) (h.1.map f, f h.2) := by
  obtain ⟨closed, left⟩ := h
  cases closed <;> simp [follow, hf]

end Groups

def depthAfter (depth : Nat) (ts : List Token) : Nat := ts.foldl bracketDepth depth

theorem depthAfter_append (depth : Nat) (ts us : List Token) :
    depthAfter depth (ts ++ us) = depthAfter (depthAfter depth ts) us := List.foldl_append

theorem groups_cons (depth : Nat) (t : Token) (ts : List Token) :
    groups depth (t :: ts) = follow (groups depth [t]) (groups (bracketDepth depth t) ts) := by
  simp only [groups]
  obtain ⟨closed, left⟩ := groups (bracketDepth depth t) ts
  split
  · cases closed <;> rfl
  · cases closed <;> rfl

theorem groups_append (ys : List Token) :
    ∀ (xs : List Token) (depth : Nat),
      groups depth (xs ++ ys) = follow (groups depth xs) (groups (depthAfter depth xs) ys) := by
  intro xs
  induction xs with
  | nil => intro depth; exact (follow_nil_left _).symm
  | cons t xs ih =>
      intro depth
      rw [List.cons_append, groups_cons, ih, groups_cons depth t xs, follow_assoc]
      rfl

theorem depthAfter_of_not_bracket {ts : List Token}
    (h : ∀ t ∈ ts, t.kind ≠ .mark .openBracket ∧ t.kind ≠ .mark .closeBracket) (depth : Nat) :
    depthAfter depth ts = depth := by
  induction ts with
  | nil => rfl
  | cons t ts ih =>
      obtain ⟨hopen, hclose⟩ := h t List.mem_cons_self
      rw [depthAfter, List.foldl_cons, bracketDepth, if_neg hopen, if_neg hclose]
      exact ih (fun u hu => h u (List.mem_cons_of_mem _ hu))

theorem bracketDepth_congr {t u : Token} (h : t.kind = u.kind) (depth : Nat) :
    bracketDepth depth t = bracketDepth depth u := by
  rw [bracketDepth, bracketDepth, h]

theorem depthAfter_map {f : Token → Token} (hf : ∀ t, (f t).kind = t.kind) (ts : List Token)
    (depth : Nat) : depthAfter depth (ts.map f) = depthAfter depth ts := by
  induction ts generalizing depth with
  | nil => rfl
  | cons t ts ih =>
      rw [List.map_cons, depthAfter, List.foldl_cons, bracketDepth_congr (hf t)]
      exact ih _

theorem groups_map {f : Token → Token} (hf : ∀ t, (f t).kind = t.kind) :
    ∀ (ts : List Token) (depth : Nat),
      groups depth (ts.map f) =
        ((groups depth ts).1.map (List.map f), (groups depth ts).2.map f) := by
  have hone : ∀ t depth, groups depth [f t] =
      ((groups depth [t]).1.map (List.map f), (groups depth [t]).2.map f) := by
    intro t depth
    simp only [groups, hf, bracketDepth_congr (hf t)]
    split <;> rfl
  intro ts
  induction ts with
  | nil => intro depth; rfl
  | cons t ts ih =>
      intro depth
      rw [List.map_cons, groups_cons, hone, bracketDepth_congr (hf t), ih, groups_cons depth t ts,
        ← follow_map (fun _ => List.map_append)]

theorem groups_of_not_semicolon {ts : List Token} (h : ∀ t ∈ ts, t.kind ≠ .mark .semicolon)
    (depth : Nat) : groups depth ts = ([], ts) := by
  induction ts generalizing depth with
  | nil => rfl
  | cons t ts ih =>
      rw [groups_cons, ih (fun u hu => h u (List.mem_cons_of_mem _ hu))]
      simp [groups, h t List.mem_cons_self, follow]

theorem bracketDepth_of_semicolon {t : Token} (ht : t.kind = .mark .semicolon) (depth : Nat) :
    bracketDepth depth t = depth := by
  simp [bracketDepth, ht]

theorem groups_cons_of_close {t : Token} (ht : t.kind = .mark .semicolon) (ts : List Token) :
    groups 0 (t :: ts) = ([] :: (groups 0 ts).1, (groups 0 ts).2) := by
  simp only [groups, bracketDepth_of_semicolon ht, ht, true_and, if_true]

theorem groups_cons_of_not_close {t : Token} {depth : Nat}
    (ht : ¬ (t.kind = .mark .semicolon ∧ depth = 0)) (ts : List Token) :
    groups depth (t :: ts) = follow ([], [t]) (groups (bracketDepth depth t) ts) := by
  have hclose : ¬ (t.kind = .mark .semicolon ∧ bracketDepth depth t = 0) := by
    rintro ⟨hk, hd⟩
    exact ht ⟨hk, by rwa [bracketDepth_of_semicolon hk] at hd⟩
  rw [groups_cons]
  simp [groups, hclose]

theorem groups_close {ts : List Token} (h : ∀ t ∈ ts, t.kind ≠ .mark .semicolon)
    (hd : depthAfter 0 ts = 0) {t : Token} (ht : t.kind = .mark .semicolon) :
    groups 0 (ts ++ [t]) = ([ts], []) := by
  rw [groups_append, groups_of_not_semicolon h, hd]
  simp [groups, bracketDepth, ht, follow]

theorem tokenLines_of_not_newline {ts : List Token} (hne : ts ≠ [])
    (h : ∀ t ∈ ts, t.kind ≠ .newline) : tokenLines ts = [ts] := by
  rw [tokenLines, pieces_of_forall_not (fun t ht => decide_eq_false (h t ht))]
  simp [hne]

theorem tokenLines_append_newline {t : Token} (ht : t.kind = .newline) (ts us : List Token) :
    tokenLines (ts ++ t :: us) = tokenLines ts ++ tokenLines us := by
  rw [tokenLines, pieces_append_of_pos (by simpa using ht), List.filter_append]
  rfl

theorem flatten_tokenLines (ts : List Token) :
    (tokenLines ts).flatten = ts.filter (·.kind ≠ .newline) := by
  rw [tokenLines, List.flatten_filter_ne_nil, flatten_pieces]
  simp

theorem groups_newline {t : Token} (ht : t.kind = .newline) (depth : Nat) (ts : List Token) :
    groups depth (t :: ts) = follow ([], [t]) (groups depth ts) := by
  rw [groups_cons]
  simp [groups, bracketDepth, ht]

theorem groupLines_append_newline {t : Token} (ht : t.kind = .newline) (ts us : List Token)
    (depth : Nat) :
    groupLines depth (ts ++ t :: us) =
      follow (groupLines depth ts) (groupLines (depthAfter depth ts) us) := by
  have hpending : ∀ l, tokenLines ((follow (groups depth ts) ([], [t])).2 ++ l) =
      tokenLines (groups depth ts).2 ++ tokenLines l := by
    intro l
    rw [follow, List.append_assoc, List.singleton_append, tokenLines_append_newline ht]
  rw [groupLines, groups_append, groups_newline ht, ← follow_assoc, follow_map hpending]
  rfl

theorem groupLines_nil (depth : Nat) : groupLines depth [] = ([], []) := rfl

theorem groupLines_cons_newline {t : Token} (ht : t.kind = .newline) (ts : List Token)
    (depth : Nat) : groupLines depth (t :: ts) = groupLines depth ts := by
  rw [← List.nil_append (t :: ts), groupLines_append_newline ht, groupLines_nil, follow_nil_left]
  rfl

theorem groupLines_concat_newline {t : Token} (ht : t.kind = .newline) (ts : List Token)
    (depth : Nat) : groupLines depth (ts ++ [t]) = groupLines depth ts := by
  rw [groupLines_append_newline ht, groupLines_nil, follow_nil_right]

theorem ne_nil_of_mem_tokenLines {ts line : List Token} (h : line ∈ tokenLines ts) : line ≠ [] := by
  simpa using (List.mem_filter.mp h).2

structure Moves (f : Token → Token) (g : Nat → Nat) : Prop where
  kind : ∀ t, (f t).kind = t.kind
  value : ∀ t, (f t).value = t.value
  line : ∀ t, (f t).line = g t.line

def Clause.map (f : Token → Token) (g : Nat → Nat) (c : Clause) : Clause :=
  ⟨c.label, g c.line, c.body.map f⟩

def Outline.map (f : Token → Token) (g : Nat → Nat) (o : Outline) : Outline :=
  ⟨o.clauses.map (·.map f g), o.skipped.map g⟩

section Moves

variable {f : Token → Token} {g : Nat → Nat} (h : Moves f g)

include h

theorem tokenLines_map (ts : List Token) :
    tokenLines (ts.map f) = (tokenLines ts).map (List.map f) := by
  have hkind : ∀ t : Token, decide ((f t).kind = .newline) = decide (t.kind = .newline) := by
    intro t
    rw [h.kind]
  rw [tokenLines, pieces_map hkind, List.filter_map, tokenLines]
  congr 1
  exact List.filter_congr (fun l _ => by simp)

theorem groupLines_map (depth : Nat) (ts : List Token) :
    groupLines depth (ts.map f) =
      ((groupLines depth ts).1.map (List.map (List.map f)),
        (groupLines depth ts).2.map (List.map f)) := by
  rw [groupLines, groups_map h.kind, groupLines]
  simp only [List.map_map, tokenLines_map h, Function.comp_def]

theorem isHeader_map (line : List Token) : isHeader (line.map f) = isHeader line := by
  match line with
  | [] => rfl
  | [t] => simp [isHeader, h.kind]
  | t :: u :: rest => simp [isHeader, h.kind]

theorem headerLabel_map (header : List Token) : headerLabel (header.map f) = headerLabel header := by
  cases header with
  | nil => rfl
  | cons t rest =>
      simp [headerLabel, Option.filter_some, h.kind]
      split <;> simp [h.value]

theorem lineNumber_map {line : List Token} (hne : line ≠ []) :
    lineNumber (line.map f) = g (lineNumber line) := by
  cases line with
  | nil => exact absurd rfl hne
  | cons t rest => exact h.line t

theorem isBracketed_map (body : List Token) : isBracketed (body.map f) = isBracketed body := by
  simp [isBracketed, h.kind, Function.comp_def]

theorem map_lineNumber_map {lines : List (List Token)} (hne : ∀ l ∈ lines, l ≠ []) :
    (lines.map (List.map f)).map lineNumber = (lines.map lineNumber).map g := by
  rw [List.map_map, List.map_map]
  exact List.map_congr_left (fun l hl => lineNumber_map h (hne l hl))

theorem ofGroup_map (rule : LabelRule) {lines : List (List Token)} (hne : ∀ l ∈ lines, l ≠ []) :
    Outline.ofGroup rule (lines.map (List.map f)) = (Outline.ofGroup rule lines).map f g := by
  unfold Outline.ofGroup
  rw [splitAtLast_map (isHeader_map h)]
  cases hsplit : splitAtLast isHeader lines with
  | none => simp only [Option.map_none, map_lineNumber_map h hne, Outline.map, List.map_nil]
  | some parts =>
      obtain ⟨before, header, after⟩ := parts
      rw [append_of_splitAtLast hsplit] at hne
      have hheader : lineNumber (header.map f) = g (lineNumber header) :=
        lineNumber_map h (hne header (by simp))
      have hbefore : (before.map (List.map f)).map lineNumber = (before.map lineNumber).map g :=
        map_lineNumber_map h (fun l hl => hne l (List.mem_append_left _ hl))
      simp only [Option.map_some, headerLabel_map h]
      split
      · simp only [hheader, hbefore, Outline.map, Clause.map, List.map_cons, List.map_nil,
          List.map_append, List.map_drop, List.map_flatten]
      · simp only [append_of_splitAtLast hsplit, map_lineNumber_map h hne, Outline.map, List.map_nil]

theorem outline_map (rule : LabelRule) (ts : List Token) :
    outline rule (ts.map f) = (outline rule ts).map f g := by
  have hread : ((groupLines 0 ts).1.map (List.map (List.map f))).map (Outline.ofGroup rule) =
      ((groupLines 0 ts).1.map (Outline.ofGroup rule)).map (Outline.map f g) := by
    rw [List.map_map, List.map_map]
    refine List.map_congr_left (fun group hg => ?_)
    obtain ⟨ts', -, rfl⟩ := List.mem_map.mp hg
    exact ofGroup_map h rule (fun l hl => ne_nil_of_mem_tokenLines hl)
  have hleft : ∀ l ∈ (groupLines 0 ts).2, l ≠ [] := fun l hl => ne_nil_of_mem_tokenLines hl
  simp only [outline, groupLines_map h, Outline.ofGroups, hread, map_lineNumber_map h hleft, Outline.map,
    List.flatMap_map, List.map_flatMap, List.map_append]

end Moves

theorem outline_insert_newline (rule : LabelRule) {t : Token} (ht : t.kind = .newline)
    {ts : List Token} (hts : ts = [] ∨ ∃ init u, ts = init ++ [u] ∧ u.kind = .newline)
    (us : List Token) : outline rule (ts ++ t :: us) = outline rule (ts ++ us) := by
  have hlines : groupLines 0 (ts ++ t :: us) = groupLines 0 (ts ++ us) := by
    rcases hts with rfl | ⟨init, u, rfl, hu⟩
    · exact groupLines_cons_newline ht us 0
    · rw [List.append_assoc, List.append_assoc, List.singleton_append, List.singleton_append,
        groupLines_append_newline hu, groupLines_cons_newline ht, groupLines_append_newline hu]
  rw [outline, hlines, outline]

theorem outline_concat_newline (rule : LabelRule) {t : Token} (ht : t.kind = .newline)
    (ts : List Token) : outline rule (ts ++ [t]) = outline rule ts := by
  rw [outline, groupLines_concat_newline ht, outline]

theorem mem_of_mem_body {rule : LabelRule} {ts : List Token} {c : Clause} {t : Token}
    (hc : c ∈ (outline rule ts).clauses) (ht : t ∈ c.body) : t ∈ ts := by
  simp only [outline, Outline.ofGroups, groupLines, List.mem_flatMap, List.mem_map] at hc
  obtain ⟨_, ⟨_, ⟨group, hgroup, rfl⟩, rfl⟩, hc⟩ := hc
  unfold Outline.ofGroup at hc
  cases hsplit : splitAtLast isHeader (tokenLines group) with
  | none => simp [hsplit] at hc
  | some parts =>
      obtain ⟨before, header, after⟩ := parts
      have hlines : ∀ l ∈ header :: after, l ∈ tokenLines group := by
        intro l hl
        rw [append_of_splitAtLast hsplit]
        exact List.mem_append_right _ hl
      simp only [hsplit] at hc
      split at hc
      · rw [List.mem_singleton] at hc
        subst hc
        have hline : ∃ l ∈ header :: after, t ∈ l := by
          rcases List.mem_append.mp ht with ht | ht
          · exact ⟨header, List.mem_cons_self, List.mem_of_mem_drop ht⟩
          · obtain ⟨l, hl, ht⟩ := List.mem_flatten.mp ht
            exact ⟨l, List.mem_cons_of_mem _ hl, ht⟩
        obtain ⟨l, hl, ht⟩ := hline
        exact (mem_of_mem_groups ts 0).1 group hgroup t (mem_of_mem_tokenLines (hlines l hl) ht)
      · simp at hc

def itemRuns (body : List Token) : List (List Token) :=
  pieces (·.kind = .mark .pipe) (if isBracketed body then (body.drop 1).dropLast else body)

theorem itemTexts_eq (source : List Char) (body : List Token) :
    itemTexts source body = ((itemRuns body).map (sliceText source)).filter (· ≠ "") := rfl

theorem mem_of_mem_itemRuns {body run : List Token} {t : Token} (hr : run ∈ itemRuns body)
    (ht : t ∈ run) : t ∈ body := by
  have hinner := (mem_of_mem_pieces hr ht).1
  split at hinner
  · exact List.mem_of_mem_drop ((List.dropLast_sublist _).mem hinner)
  · exact hinner

theorem itemRuns_map {f : Token → Token} {g : Nat → Nat} (h : Moves f g) (body : List Token) :
    itemRuns (body.map f) = (itemRuns body).map (List.map f) := by
  have hkind : ∀ t : Token, decide ((f t).kind = .mark .pipe) = decide (t.kind = .mark .pipe) := by
    intro t
    rw [h.kind]
  unfold itemRuns
  rw [isBracketed_map h, ← List.map_drop, ← List.map_dropLast]
  split
  · exact pieces_map hkind _
  · exact pieces_map hkind _

end Worksheet.Markup
