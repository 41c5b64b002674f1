import Mathlib.Data.List.Forall2
import Worksheet.Proofs.Markup.StatementLine

namespace Worksheet.Markup

open Chars

theorem mem_takeWhile_ne {c d : Char} {cs : List Char} (h : d ∈ cs.takeWhile (· != c)) : d ≠ c := by
  simpa using mem_takeWhile h

theorem distractorBody?_eq_some {line body : List Char} (h : distractorBody? line = some body) :
    ∃ head tail, line = head ++ '=' :: (body ++ ';' :: tail) ∧ (∀ c ∈ head, isIndent c = true) ∧
      ';' ∉ body ∧ ((∀ c ∈ tail, isIndent c = true) ∨ startsComment tail = true) := by
  unfold distractorBody? at h
  split at h
  · next rest hrest =>
      split at h
      · next tail htail =>
          have hline : line =
              line.takeWhile isIndent ++ '=' :: (rest.takeWhile (· != ';') ++ ';' :: tail) := by
            rw [← htail, List.takeWhile_append_dropWhile, ← hrest, List.takeWhile_append_dropWhile]
          have hsemicolon : ';' ∉ rest.takeWhile (· != ';') :=
            fun hmem => mem_takeWhile_ne hmem rfl
          split at h
          · next hnil =>
              obtain rfl := Option.some.inj h
              refine ⟨_, tail, hline, fun c hc => mem_takeWhile hc, hsemicolon, Or.inl ?_⟩
              intro c hc
              rw [← List.takeWhile_append_dropWhile (p := isIndent) (l := tail), hnil,
                List.append_nil] at hc
              exact mem_takeWhile hc
          · next note hnote =>
              obtain rfl := Option.some.inj h
              exact ⟨_, tail, hline, fun c hc => mem_takeWhile hc, hsemicolon,
                Or.inr (startsComment_iff.mpr ⟨note, hnote⟩)⟩
          · cases h
      · cases h
  · cases h

theorem distractorBody?_append {head body tail : List Char} (hhead : ∀ c ∈ head, isIndent c = true)
    (hbody : ';' ∉ body)
    (htail : (∀ c ∈ tail, isIndent c = true) ∨ startsComment tail = true) :
    distractorBody? (head ++ '=' :: (body ++ ';' :: tail)) = some body := by
  have hopen : ∀ c ∈ body, (c != ';') = true :=
    fun c hc => bne_iff_ne.mpr (fun heq => hbody (heq ▸ hc))
  have hdrop : (body ++ ';' :: tail).dropWhile (· != ';') = ';' :: tail := by
    rw [List.dropWhile_append_of_pos hopen, List.dropWhile_cons_of_neg (by decide)]
  have htake : (body ++ ';' :: tail).takeWhile (· != ';') = body := by
    rw [List.takeWhile_append_of_pos hopen, List.takeWhile_cons_of_neg (by decide), List.append_nil]
  rw [distractorBody?, List.dropWhile_append_of_pos hhead, List.dropWhile_cons_of_neg (by decide)]
  simp only [hdrop, htake]
  rcases htail with hindent | hcomment
  · rw [dropWhile_of_forall hindent]
  · obtain ⟨note, hnote⟩ := startsComment_iff.mp hcomment
    simp only [hnote]

theorem distractorBody?_cons_of_ne {c : Char} (hi : isIndent c = false) (hc : c ≠ '=')
    (cs : List Char) : distractorBody? (c :: cs) = none := by
  rw [distractorBody?, List.dropWhile_cons_of_neg (by simp [hi])]
  split
  · next heq => exact absurd (List.cons.inj heq).1 hc
  · rfl

def DistractorsApart (above : List (List Char)) : List (List Char) → Prop
  | [] => True
  | line :: below =>
      ((distractorBody? line).isSome = true → Settled (scan (closeLines above)) ∧
        depthAfter 0 (scan (closeLines above ++ line.takeWhile (· != ';'))) = 0) ∧
      DistractorsApart (above ++ [line]) below

instance (ts : List Token) : Decidable (Settled ts) :=
  decidable_of_iff ((∀ t ∈ (groups 0 ts).2, t.kind = .newline) ∧ depthAfter 0 ts = 0)
    ⟨fun h => ⟨h.1, h.2⟩, fun h => ⟨h.pending, h.depth⟩⟩

instance DistractorsApart.decidable :
    ∀ above below : List (List Char), Decidable (DistractorsApart above below)
  | _, [] => isTrue trivial
  | above, line :: below =>
      have := DistractorsApart.decidable (above ++ [line]) below
      inferInstanceAs (Decidable (_ ∧ _))

theorem exists_statementLine {above : List (List Char)} {line body : List Char}
    (h : distractorBody? line = some body) (hn : '\n' ∉ line)
    (hs : Settled (scan (closeLines above)))
    (hd : depthAfter 0 (scan (closeLines above ++ line.takeWhile (· != ';'))) = 0) :
    ∃ l : StatementLine, l.chars = line ∧ l.label = none ∧ l.body = body := by
  obtain ⟨head, tail, rfl, hhead, hsemicolon, htail⟩ := distractorBody?_eq_some h
  simp only [List.mem_append, List.mem_cons, not_or] at hn
  obtain ⟨hnhead, -, hnbody, -, hntail⟩ := hn
  have hscan : scan head = [] := IsSilent.tokensFrom_eq_nil ⟨hnhead, Or.inl hhead⟩ 1 0
  have hbody : IsBody body :=
    fun c hc => ⟨fun heq => hnbody (heq ▸ hc), fun heq => hsemicolon (heq ▸ hc)⟩
  have hopen : (head ++ '=' :: (body ++ ';' :: tail)).takeWhile (· != ';') = head ++ '=' :: body := by
    have hall : ∀ c ∈ head ++ '=' :: body, (c != ';') = true := by
      intro c hc
      rw [bne_iff_ne]
      rintro rfl
      rcases List.mem_append.mp hc with hc | hc
      · exact absurd (hhead _ hc) (by decide)
      · rcases List.mem_cons.mp hc with hc | hc
        · exact absurd hc (by decide)
        · exact hsemicolon hc
    rw [← List.cons_append, ← List.append_assoc, takeWhile_append_of_neg (by decide),
      takeWhile_of_forall hall]
  have huncommented : startsComment head = false :=
    startsComment_of_slash_not_mem (fun hmem => absurd (hhead _ hmem) (by decide))
  have htext : ∀ c ∈ head, isText c = true := fun c hc => isText_of_isIndent (hhead c hc)
  have hsegments := uncommented_segments_of_isText htext huncommented
  rw [hopen, scan_append (endsLine_closeLines above), depthAfter_append, hs.depth,
    depthAfter_map (moves_shift _ _).kind, scan_append_equals hsegments hnhead, hscan] at hd
  refine ⟨⟨head, body, tail, htext, huncommented, hbody, hd, hntail, htail⟩, rfl, ?_, rfl⟩
  exact if_pos (collapse_eq_nil_iff.mpr (fun c hc => isBlank_of_isIndent (hhead c hc)))

structure Document.Extends (items : List String) (d e : Document) : Prop where
  labelled : d.labelled = e.labelled
  unlabelled : ∀ item, item ∈ d.unlabelled.flatMap (·.items) ↔
    item ∈ items ∨ item ∈ e.unlabelled.flatMap (·.items)

namespace Document.Extends

theorem refl (d : Document) : Extends [] d d := ⟨rfl, fun _ => by simp⟩

theorem trans {xs ys : List String} {d e f : Document} (h : Extends ys d e) (h' : Extends xs e f) :
    Extends (xs ++ ys) d f := by
  refine ⟨h.labelled.trans h'.labelled, fun item => ?_⟩
  rw [h.unlabelled, h'.unlabelled, List.mem_append, ← or_assoc, or_comm (a := item ∈ xs)]

theorem of_unlabelled (d e : Document) {s : Statement} (hs : s.label = none) :
    Extends s.items (d ++ (⟨[s], []⟩ ++ e)) (d ++ e) := by
  have hlabelled : (⟨[s], []⟩ : Document).labelled = [] := by simp [Document.labelled, hs]
  have hunlabelled : (⟨[s], []⟩ : Document).unlabelled = [s] := by simp [Document.unlabelled, hs]
  refine ⟨?_, fun item => ?_⟩
  · rw [labelled_append, labelled_append, hlabelled, List.nil_append, labelled_append]
  · simp only [unlabelled_append, hunlabelled, List.flatMap_append, List.flatMap_singleton,
      List.mem_append]
    rw [← or_assoc, or_comm (a := item ∈ d.unlabelled.flatMap _), or_assoc]

end Document.Extends

def emptied (line : List Char) : List Char := if (distractorBody? line).isSome then [] else line

theorem extractDistractors_unlines {ls : List (List Char)} (hn : ∀ l ∈ ls, '\n' ∉ l) :
    extractDistractors (unlines ls) =
      ⟨distinct ((ls.filterMap distractorBody?).flatMap bodyItems), unlines (ls.map emptied)⟩ := by
  cases ls with
  | nil => rfl
  | cons l ls =>
      rw [extractDistractors, lines_unlines (List.cons_ne_nil l ls) hn]
      rfl

theorem extends_emptied (rule : LabelRule) {above : List (List Char)} {line : List Char}
    (hn : '\n' ∉ line)
    (h : (distractorBody? line).isSome = true → Settled (scan (closeLines above)) ∧
      depthAfter 0 (scan (closeLines above ++ line.takeWhile (· != ';'))) = 0)
    (below : List (List Char)) :
    Document.Extends (((distractorBody? line).map bodyItems).getD [])
      (readDocument rule (closeLines (above ++ line :: below)))
      (readDocument rule (closeLines (above ++ emptied line :: below))) := by
  cases hbody : distractorBody? line with
  | none =>
      rw [emptied, hbody]
      exact .refl _
  | some body =>
      rw [hbody] at h
      obtain ⟨hs, hd⟩ := h rfl
      obtain ⟨l, rfl, hlabel, rfl⟩ := exists_statementLine hbody hn hs hd
      have hrule : l.label.all rule.admits = true := by rw [hlabel]; rfl
      rw [emptied, hbody, closeLines_append, closeLines_append, closeLines_cons, closeLines_cons,
        readDocument_append (endsLine_closeLines above) hs,
        readDocument_append (endsLine_closeLines above) hs, l.readDocument_chars_append hrule]
      simp only [Option.isSome_some, if_true, List.nil_append, readDocument_newline_cons]
      rw [Document.shift_append]
      exact .of_unlabelled (s := { l.statement with line := _ }) _ _ hlabel

theorem flatMap_bodyItems_cons (l : List Char) (ls : List (List Char)) :
    ((l :: ls).filterMap distractorBody?).flatMap bodyItems =
      ((distractorBody? l).map bodyItems).getD [] ++
        (ls.filterMap distractorBody?).flatMap bodyItems := by
  rw [List.filterMap_cons]
  cases distractorBody? l <;> rfl

theorem extends_lines {rule : LabelRule} {R : List Char → List Char → Prop}
    (step : ∀ {above m l}, R m l → '\n' ∉ l →
      ((distractorBody? l).isSome = true → Settled (scan (closeLines above)) ∧
        depthAfter 0 (scan (closeLines above ++ l.takeWhile (· != ';'))) = 0) →
      ∀ below, Document.Extends (((distractorBody? m).map bodyItems).getD [])
        (readDocument rule (closeLines (above ++ l :: below)))
        (readDocument rule (closeLines (above ++ emptied m :: below))))
    {ms ls : List (List Char)} (h : List.Forall₂ R ms ls) (hn : ∀ l ∈ ls, '\n' ∉ l) :
    ∀ {above : List (List Char)}, DistractorsApart above ls →
      Document.Extends ((ms.filterMap distractorBody?).flatMap bodyItems)
        (readDocument rule (closeLines (above ++ ls)))
        (readDocument rule (closeLines (above ++ ms.map emptied))) := by
  induction h with
  | nil => intro above _; exact .refl _
  | @cons m l ms ls hml _ ih =>
      intro above hapart
      -- the lines below go first, so that the lines above are still those of the text
      have hrest := ih (fun k hk => hn k (List.mem_cons_of_mem _ hk)) hapart.2
      have hline := step hml (hn l List.mem_cons_self) hapart.1 (ms.map emptied)
      rw [List.append_assoc, List.append_assoc, List.singleton_append, List.singleton_append] at hrest
      rw [flatMap_bodyItems_cons, List.map_cons]
      exact hrest.trans hline

theorem extends_extracted (rule : LabelRule) {ls : List (List Char)} (hn : ∀ l ∈ ls, '\n' ∉ l)
    {above : List (List Char)} (h : DistractorsApart above ls) :
    Document.Extends ((ls.filterMap distractorBody?).flatMap bodyItems)
      (readDocument rule (closeLines (above ++ ls)))
      (readDocument rule (closeLines (above ++ ls.map emptied))) := by
  refine extends_lines (R := Eq) ?_ (List.forall₂_same.mpr (fun _ _ => rfl)) hn h
  rintro above m _ rfl hn h below
  exact extends_emptied rule hn h below

theorem readDocument_extractDistractors (rule : LabelRule) {source : List Char}
    (h : DistractorsApart [] (lines source)) :
    let whole := readDocument rule source
    let rest := readDocument rule (extractDistractors source).remainder
    whole.labelled = rest.labelled ∧
      ∀ item, item ∈ whole.unlabelled.flatMap (·.items) ↔
        item ∈ (extractDistractors source).items ∨ item ∈ rest.unlabelled.flatMap (·.items) := by
  intro whole rest
  have hextends := extends_extracted rule (fun l hl => not_mem_of_mem_lines hl) h
  have hwhole : readDocument rule (closeLines ([] ++ lines source)) = whole := by
    rw [List.nil_append, ← readDocument_unlines, unlines_lines]
  have hrest : readDocument rule (closeLines ([] ++ (lines source).map emptied)) = rest := by
    rw [List.nil_append, ← readDocument_unlines]
    rfl
  rw [hwhole, hrest] at hextends
  refine ⟨hextends.labelled, fun item => ?_⟩
  rw [hextends.unlabelled, extractDistractors, mem_distinct]

def orchard : List Char := "Fruit = fig;\n= [elm | oak]; // trees\nHerb =\n mint;\n = ash;".toList

theorem distractorsApart_orchard : DistractorsApart [] (lines orchard) := by decide +kernel

theorem readDocument_extractDistractors_orchard :
    DistractorsApart [] (lines orchard) ∧
      (readDocument .category orchard).labelled.map (·.1) = ["Fruit", "Herb"] ∧
      "oak" ∈ (readDocument .category orchard).unlabelled.flatMap (·.items) := by
  have h := readDocument_extractDistractors .category distractorsApart_orchard
  exact ⟨distractorsApart_orchard, h.1 ▸ by decide +kernel, (h.2 "oak").mpr (by decide +kernel)⟩

end Worksheet.Markup
