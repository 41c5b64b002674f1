import Worksheet.Proofs.Markup.Coverage

namespace Worksheet.Markup

section Groups

def withDepth (depth : Nat) : List Token → List (Nat × Token)
  | [] => []
  | t :: ts => (depth, t) :: withDepth (bracketDepth depth t) ts

def closes (t : Nat × Token) : Bool := t.1 = 0 && t.2.kind = .mark .semicolon

def cutGroups (ts : List Token) : List (List Token) :=
  (pieces closes (withDepth 0 ts)).map (List.map Prod.snd)

theorem map_snd_withDepth (ts : List Token) : ∀ depth, (withDepth depth ts).map Prod.snd = ts := by
  induction ts with
  | nil => exact fun _ => rfl
  | cons t ts ih => exact fun depth => congrArg (t :: ·) (ih _)

theorem map_modifyHead {f : α → β} {g : α → α} {h : β → β} (hf : ∀ a, f (g a) = h (f a))
    (l : List α) : (l.modifyHead g).map f = (l.map f).modifyHead h := by
  cases l with
  | nil => rfl
  | cons a l => exact congrArg (· :: l.map f) (hf a)

theorem follow_one (t : Token) (g : List (List Token) × List Token) :
    (follow ([], [t]) g).1 ++ [(follow ([], [t]) g).2] = (g.1 ++ [g.2]).modifyHead (t :: ·) := by
  obtain ⟨closed, left⟩ := g
  cases closed <;> rfl

theorem map_pieces_withDepth (ts : List Token) :
    ∀ depth, (pieces closes (withDepth depth ts)).map (List.map Prod.snd) =
      (groups depth ts).1 ++ [(groups depth ts).2] := by
  induction ts with
  | nil => exact fun _ => rfl
  | cons t ts ih =>
      intro depth
      have hrest := ih (bracketDepth depth t)
      rw [withDepth, pieces_cons]
      by_cases h : t.kind = .mark .semicolon ∧ depth = 0
      · obtain ⟨hk, rfl⟩ := h
        rw [bracketDepth_of_semicolon hk] at hrest
        rw [if_pos (by simp [closes, hk]), List.map_cons, bracketDepth_of_semicolon hk, hrest,
          groups_cons_of_close hk]
        rfl
      · rw [if_neg (by simpa [closes, and_comm] using h), groups_cons_of_not_close h, follow_one,
          ← hrest, map_modifyHead (fun _ => List.map_cons)]

theorem cutGroups_eq (ts : List Token) : cutGroups ts = (groups 0 ts).1 ++ [(groups 0 ts).2] :=
  map_pieces_withDepth ts 0

theorem infix_of_mem_cutGroups {ts group : List Token} (h : group ∈ cutGroups ts) :
    group <:+: ts := by
  obtain ⟨piece, hp, rfl⟩ := List.mem_map.mp h
  have hinfix := (infix_of_mem_pieces hp).map Prod.snd
  rwa [map_snd_withDepth] at hinfix

theorem flatten_cutGroups_sublist (ts : List Token) : (cutGroups ts).flatten.Sublist ts := by
  have hsublist : ((withDepth 0 ts).filter (!closes ·)).Sublist (withDepth 0 ts) :=
    List.filter_sublist
  have hmap := hsublist.map Prod.snd
  rwa [map_snd_withDepth, ← flatten_pieces, List.map_flatten] at hmap

def allLines (ts : List Token) : List (List Token) := (cutGroups ts).flatMap tokenLines

theorem flatten_allLines (ts : List Token) :
    (allLines ts).flatten = (cutGroups ts).flatten.filter (·.kind ≠ .newline) := by
  rw [allLines, List.flatMap_def, List.flatten_flatten, List.map_map, List.filter_flatten]
  exact congrArg List.flatten (List.map_congr_left (fun group _ => flatten_tokenLines group))

end Groups

section Numbers

variable {ts : List Token} {lines : List (List Token)}

theorem pairwise_line_scan (source : List Char) :
    (scan source).Pairwise (fun t u => t.line ≤ u.line) := by
  have hscan := lossless_scan source
  refine hscan.disjoint.imp_of_mem (fun {t u} ht hu h => ?_)
  have hle : t.start ≤ u.start := (hscan.span t ht).1.le.trans h
  have hcount := (List.take_sublist_take_left hle (l := source)).count_le '\n'
  rw [hscan.line t ht, hscan.line u hu]
  omega

theorem line_of_head_tokensFrom {segs : List Segment} {line start : Nat} {t : Token}
    (h : t ∈ (tokensFrom line start segs).head?) : t.line = line := by
  induction segs generalizing start with
  | nil => cases h
  | cons s segs ih =>
      cases s with
      | comment cs => exact ih h
      | newline => cases h; rfl
      | mark m => cases h; rfl
      | text cs =>
          simp only [tokensFrom] at h
          split at h
          · exact ih h
          · cases h; rfl

theorem isChain_line_tokensFrom (segs : List Segment) :
    ∀ line start, (tokensFrom line start segs).IsChain
      (fun t u => t.kind ≠ .newline → u.line = t.line) := by
  induction segs with
  | nil => exact fun _ _ => .nil
  | cons s segs ih =>
      intro line start
      cases s with
      | comment cs => exact ih _ _
      | newline => exact List.isChain_cons.mpr ⟨fun u _ hk => absurd rfl hk, ih _ _⟩
      | mark m =>
          exact List.isChain_cons.mpr ⟨fun u hu _ => line_of_head_tokensFrom hu, ih _ _⟩
      | text cs =>
          simp only [tokensFrom]
          split
          · exact ih _ _
          · exact List.isChain_cons.mpr ⟨fun u hu _ => line_of_head_tokensFrom hu, ih _ _⟩

theorem line_eq_of_isChain (h : ts.IsChain (fun t u => t.kind ≠ .newline → u.line = t.line))
    (hn : ∀ t ∈ ts, t.kind ≠ .newline) : ∀ t ∈ ts, t.line = lineNumber ts := by
  induction ts with
  | nil => exact fun t ht => absurd ht List.not_mem_nil
  | cons first ts ih =>
      obtain ⟨hnext, hrest⟩ := List.isChain_cons.mp h
      intro t ht
      rcases List.mem_cons.mp ht with rfl | ht
      · rfl
      · have hline := ih hrest (fun u hu => hn u (List.mem_cons_of_mem _ hu)) t ht
        cases ts with
        | nil => exact absurd ht List.not_mem_nil
        | cons next ts => exact hline.trans (hnext next rfl (hn first List.mem_cons_self))

theorem line_eq_lineNumber {source : List Char} {group line : List Token}
    (hg : group ∈ cutGroups (scan source)) (hl : line ∈ tokenLines group) :
    ∀ t ∈ line, t.line = lineNumber line := by
  have hpiece := (List.mem_filter.mp hl).1
  obtain ⟨above, below, hscan⟩ := (infix_of_mem_pieces hpiece).trans (infix_of_mem_cutGroups hg)
  have hchain := isChain_line_tokensFrom (segments true source) 1 0
  rw [← scan, ← hscan] at hchain
  refine line_eq_of_isChain hchain.left_of_append.right_of_append (fun t ht => ?_)
  exact of_decide_eq_false (mem_of_mem_pieces hpiece ht).2

theorem pairwise_lineNumber (h : lines.flatten.Pairwise (fun t u => t.line ≤ u.line))
    (hne : ∀ line ∈ lines, line ≠ []) : (lines.map lineNumber).Pairwise (· ≤ ·) := by
  rw [List.pairwise_map]
  refine (List.pairwise_flatten.mp h).2.imp_of_mem (fun {l m} hl hm hlm => ?_)
  obtain ⟨t, l, rfl⟩ := List.exists_cons_of_ne_nil (hne l hl)
  obtain ⟨u, m, rfl⟩ := List.exists_cons_of_ne_nil (hne m hm)
  exact hlm t List.mem_cons_self u List.mem_cons_self

theorem pairwise_lineNumber_allLines (source : List Char) :
    ((allLines (scan source)).map lineNumber).Pairwise (· ≤ ·) := by
  have hsublist : (allLines (scan source)).flatten.Sublist (scan source) := by
    rw [flatten_allLines]
    exact List.filter_sublist.trans (flatten_cutGroups_sublist _)
  refine pairwise_lineNumber ((pairwise_line_scan source).sublist hsublist) (fun line hl => ?_)
  obtain ⟨group, -, hline⟩ := List.mem_flatMap.mp hl
  exact ne_nil_of_mem_tokenLines hline

end Numbers

structure Share where
  skipped : List (List Token)
  accepted : List (List Token)

namespace Share

structure Of (rule : LabelRule) (lines : List (List Token)) (s : Share) : Prop where
  lines_eq : lines = s.skipped ++ s.accepted
  accepted : ∀ header after, s.accepted = header :: after → isHeader header = true ∧
    (∀ line ∈ after, isHeader line = false) ∧ (headerLabel header).all rule.admits = true
  refused : s.accepted = [] → ∀ before header after, lines = before ++ header :: after →
    isHeader header = true → (∀ line ∈ after, isHeader line = false) →
      (headerLabel header).all rule.admits = false

def clause? (s : Share) : Option Clause :=
  s.accepted.head?.map fun header =>
    ⟨headerLabel header, lineNumber header,
      s.accepted.flatten.drop (if (headerLabel header).isSome then 2 else 1)⟩

def ofLines (rule : LabelRule) (lines : List (List Token)) : Share :=
  match splitAtLast isHeader lines with
  | none => ⟨lines, []⟩
  | some (before, header, after) =>
      if (headerLabel header).all rule.admits then ⟨before, header :: after⟩ else ⟨lines, []⟩

theorem Of.of_refused {rule : LabelRule} {lines : List (List Token)}
    (h : ∀ before header after, lines = before ++ header :: after → isHeader header = true →
      (∀ line ∈ after, isHeader line = false) → (headerLabel header).all rule.admits = false) :
    Of rule lines ⟨lines, []⟩ where
  lines_eq := (List.append_nil lines).symm
  accepted := fun header after hnil => absurd hnil.symm (List.cons_ne_nil header after)
  refused := fun _ => h

theorem of_ofLines (rule : LabelRule) (lines : List (List Token)) :
    (ofLines rule lines).Of rule lines := by
  unfold ofLines
  cases hsplit : splitAtLast isHeader lines with
  | none =>
      have hnone := splitAtLast_eq_none_iff.mp hsplit
      refine Of.of_refused (fun before header after hlines hheader _ => ?_)
      rw [hnone header (by simp [hlines])] at hheader
      cases hheader
  | some parts =>
      obtain ⟨before, header, after⟩ := parts
      obtain ⟨hheader, hafter⟩ := after_of_splitAtLast hsplit
      cases hadmits : (headerLabel header).all rule.admits with
      | true =>
          simp only [hadmits, if_true]
          refine ⟨append_of_splitAtLast hsplit, fun first rest h => ?_, fun h => by cases h⟩
          obtain ⟨rfl, rfl⟩ := List.cons.inj h
          exact ⟨hheader, hafter, hadmits⟩
      | false =>
          simp only [hadmits, Bool.false_eq_true, if_false]
          refine Of.of_refused (fun before' header' after' hlines hheader' hafter' => ?_)
          have hsame := splitAtLast_append hheader' hafter' before'
          rw [← hlines, hsplit] at hsame
          obtain ⟨-, rfl, -⟩ : before = before' ∧ header = header' ∧ after = after' := by
            simpa using hsame
          exact hadmits

theorem drop_flatten_of_isHeader {header : List Token} (h : isHeader header = true)
    (after : List (List Token)) :
    (header :: after).flatten.drop (if (headerLabel header).isSome then 2 else 1) =
      header.drop (if (headerLabel header).isSome then 2 else 1) ++ after.flatten := by
  have hlength : (if (headerLabel header).isSome then 2 else 1) ≤ header.length := by
    match header with
    | [] => cases h
    | [t] =>
        have ht : t.kind = .mark .equals := by simpa [isHeader] using h
        simp [headerLabel, ht]
    | t :: u :: rest => split <;> simp
  rw [List.flatten_cons, List.drop_append_of_le_length hlength]

theorem ofGroup_eq (rule : LabelRule) (lines : List (List Token)) :
    Outline.ofGroup rule lines =
      ⟨(ofLines rule lines).clause?.toList, (ofLines rule lines).skipped.map lineNumber⟩ := by
  unfold Outline.ofGroup ofLines
  cases hsplit : splitAtLast isHeader lines with
  | none => rfl
  | some parts =>
      obtain ⟨before, header, after⟩ := parts
      obtain ⟨hheader, -⟩ := after_of_splitAtLast hsplit
      cases hadmits : (headerLabel header).all rule.admits with
      | true =>
          simp only [hadmits, if_true, clause?, List.head?_cons, Option.map_some, Option.toList_some,
            drop_flatten_of_isHeader hheader]
      | false =>
          simp only [hadmits, Bool.false_eq_true, if_false]
          rfl

end Share

section Document

variable (rule : LabelRule) (source : List Char)

def shares : List Share :=
  (groups 0 (scan source)).1.map (fun group => Share.ofLines rule (tokenLines group))

theorem forall₂_shares :
    List.Forall₂ (fun group share => Share.Of rule (tokenLines group) share)
      (groups 0 (scan source)).1 (shares rule source) := by
  rw [shares, List.forall₂_map_right_iff, List.forall₂_same]
  exact fun group _ => Share.of_ofLines rule (tokenLines group)

theorem statements_eq :
    (readDocument rule source).statements =
      (shares rule source).filterMap (fun s => s.clause?.map (·.statement source)) := by
  rw [List.filterMap_eq_flatMap_toList, readDocument_eq]
  simp only [outline, Outline.ofGroups, Outline.document, groupLines, shares, Share.ofGroup_eq,
    List.flatMap_map, List.map_flatMap, Option.toList_map]

theorem skipped_eq :
    (readDocument rule source).skipped =
      ((shares rule source).flatMap (·.skipped) ++
        tokenLines (groups 0 (scan source)).2).map lineNumber := by
  rw [readDocument_eq]
  simp only [outline, Outline.ofGroups, Outline.document, groupLines, shares, Share.ofGroup_eq,
    List.flatMap_map, List.map_append, List.map_flatMap]

theorem Share.sublist_of_forall₂ {groups : List (List Token)} {shares : List Share}
    (h : List.Forall₂ (fun group share => Share.Of rule (tokenLines group) share) groups shares)
    {f : Share → List (List Token)} (hf : ∀ s, (f s).Sublist (s.skipped ++ s.accepted)) :
    (shares.flatMap f).Sublist (groups.flatMap tokenLines) := by
  induction h with
  | nil => exact List.Sublist.slnil
  | cons hshare _ ih =>
      rw [List.flatMap_cons, List.flatMap_cons, hshare.lines_eq]
      exact (hf _).append ih

theorem map_line_statements :
    (readDocument rule source).statements.map (·.line) =
      ((shares rule source).flatMap (·.accepted.head?.toList)).map lineNumber := by
  rw [statements_eq, List.filterMap_eq_flatMap_toList, List.map_flatMap, List.map_flatMap]
  congr 1
  funext s
  rw [Share.clause?]
  cases s.accepted.head? <;> rfl

theorem groups_accounted :
    ∃ closed left shares, cutGroups (scan source) = closed ++ [left] ∧
      List.Forall₂ (fun group share => Share.Of rule (tokenLines group) share) closed shares ∧
      (readDocument rule source).statements =
        shares.filterMap (fun s => s.clause?.map (·.statement source)) ∧
      (readDocument rule source).skipped =
        (shares.flatMap (·.skipped) ++ tokenLines left).map lineNumber ∧
      (∀ group ∈ cutGroups (scan source), ∀ line ∈ tokenLines group, ∀ t ∈ line,
        t.line = lineNumber line) ∧
      ((readDocument rule source).statements.map (·.line)).Pairwise (· ≤ ·) ∧
      (readDocument rule source).skipped.Pairwise (· ≤ ·) := by
  have hshares := forall₂_shares rule source
  have hlines := pairwise_lineNumber_allLines source
  rw [allLines, cutGroups_eq, List.flatMap_append, List.flatMap_singleton] at hlines
  refine ⟨_, _, shares rule source, cutGroups_eq _, hshares, statements_eq rule source,
    skipped_eq rule source, fun group hg line hl => line_eq_lineNumber hg hl, ?_, ?_⟩
  · rw [map_line_statements]
    refine (hlines.sublist ((List.sublist_append_left _ _).map _)).sublist (List.Sublist.map _ ?_)
    refine Share.sublist_of_forall₂ rule hshares (fun s => List.Sublist.trans ?_
      (List.sublist_append_right _ _))
    cases s.accepted with
    | nil => exact List.Sublist.slnil
    | cons header after => exact List.singleton_sublist.mpr List.mem_cons_self
  · rw [skipped_eq]
    refine hlines.sublist (List.Sublist.map _ (List.Sublist.append_right ?_ _))
    exact Share.sublist_of_forall₂ rule hshares (fun s => List.sublist_append_left _ _)

end Document

end Worksheet.Markup
