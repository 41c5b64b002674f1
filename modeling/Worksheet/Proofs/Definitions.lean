import Worksheet.Category
import Worksheet.Proofs.Markup.DistractorLine
import Worksheet.Proofs.Text.Pipes

namespace Worksheet

open Chars Markup Text

abbrev Definition := String × List String

namespace Definition

def line (d : Definition) : List Char := d.1.toList ++ " = ".toList ++ joinPipes d.2 ++ [';']

structure Legible (rule : LabelRule) (d : Definition) : Prop where
  admits : rule.admits d.1 = true
  isItem_label : IsItem d.1
  isText_label : ∀ c ∈ d.1.toList, isText c = true
  uncommented_label : ¬ ['/', '/'] <+: d.1.toList
  isPlain_items : ∀ item ∈ d.2, IsPlain item

end Definition

theorem isBody_space_joinPipes {items : List String} (h : ∀ item ∈ items, IsPlain item) :
    IsBody (' ' :: joinPipes items) ∧
      '[' ∉ ' ' :: joinPipes items ∧ ']' ∉ ' ' :: joinPipes items := by
  apply isBody_and_unbracketed
  intro c hc
  rcases List.mem_cons.mp hc with rfl | hc
  · decide
  · exact mem_joinPipes h hc

theorem bodyItems_space_joinPipes {items : List String} (h : ∀ item ∈ items, IsPlain item) :
    bodyItems (' ' :: joinPipes items) = items := by
  have hopen : ¬ Enclosed (' ' :: joinPipes items) := by
    rintro ⟨lead, mid, trail, hbody, -, -⟩
    apply (isBody_space_joinPipes h).2.1
    rw [hbody]
    exact List.mem_append_right _ List.mem_cons_self
  rw [bodyItems, unbracket_trim_of_not_enclosed hopen, splitPipes_trim, ← List.singleton_append,
    splitPipes_append_of_blank_left isBlank_of_mem_space, splitPipes_joinPipes h]

theorem startsComment_append_space {c : Char} {cs : List Char} (hi : isIndent c = false)
    (h : ¬ ['/', '/'] <+: c :: cs) : startsComment (c :: cs ++ [' ']) = false := by
  rw [← Bool.not_eq_true, startsComment_iff, List.cons_append,
    List.dropWhile_cons_of_neg (by simp [hi])]
  rintro ⟨note, hnote⟩
  obtain ⟨rfl, htail⟩ := List.cons.inj hnote
  apply h
  cases cs with
  | nil => exact absurd (List.cons.inj htail).1 (by decide)
  | cons d cs =>
      obtain ⟨rfl, -⟩ := List.cons.inj htail
      exact ⟨cs, rfl⟩

theorem isIndent_eq_false {c : Char} (h : isBlank c = false) : isIndent c = false := by
  rw [Bool.eq_false_iff]
  intro hi
  rw [isBlank_of_isIndent hi] at h
  cases h

namespace Definition

variable {rule : LabelRule} {d : Definition}

theorem Legible.uncommented (h : d.Legible rule) : startsComment (d.1.toList ++ [' ']) = false := by
  obtain ⟨c, cs, hcs, hc⟩ := h.isItem_label.exists_cons
  have hlabel := h.uncommented_label
  rw [hcs] at hlabel ⊢
  exact startsComment_append_space (isIndent_eq_false hc) hlabel

def statementLine (h : d.Legible rule) : StatementLine where
  head := d.1.toList ++ [' ']
  body := ' ' :: joinPipes d.2
  tail := []
  isText_head := by
    intro c hc
    rcases List.mem_append.mp hc with hc | hc
    · exact h.isText_label c hc
    · exact List.mem_singleton.mp hc ▸ rfl
  uncommented_head := h.uncommented
  isBody_body := (isBody_space_joinPipes h.isPlain_items).1
  balanced :=
    have hbracket := isBody_space_joinPipes h.isPlain_items
    depthAfter_bodyTokens hbracket.1 hbracket.2.1 hbracket.2.2 _ _ _
  isSilent_tail := ⟨List.not_mem_nil, Or.inl (fun _ hc => absurd hc List.not_mem_nil)⟩

theorem chars_statementLine (h : d.Legible rule) : (statementLine h).chars = d.line := by
  simp [statementLine, StatementLine.chars, line]

theorem label_statementLine (h : d.Legible rule) : (statementLine h).label = some d.1 := by
  have hcollapse : Chars.collapse (d.1.toList ++ [' ']) = d.1.toList := by
    rw [Chars.collapse, words_append_of_blank_right _ isBlank_of_mem_space]
    exact toList_of_collapse_eq h.isItem_label.2
  have hne : d.1.toList ≠ [] := by
    obtain ⟨c, cs, hcs, -⟩ := h.isItem_label.exists_cons
    rw [hcs]
    exact List.cons_ne_nil c cs
  rw [StatementLine.label, statementLine, hcollapse, if_neg hne, String.ofList_toList]

theorem statement_statementLine (h : d.Legible rule) :
    (statementLine h).statement.label = some d.1 ∧ (statementLine h).statement.items = d.2 :=
  ⟨label_statementLine h, bodyItems_space_joinPipes h.isPlain_items⟩

theorem newline_not_mem_line (h : d.Legible rule) : '\n' ∉ d.line := by
  rw [← chars_statementLine h]
  exact StatementLine.newline_not_mem_chars _

theorem distractorBody?_line (h : d.Legible rule) : distractorBody? d.line = none := by
  obtain ⟨c, cs, hcs, hc⟩ := h.isItem_label.exists_cons
  have hequals : c ≠ '=' := by
    rintro rfl
    exact absurd (h.isText_label '=' (hcs ▸ List.mem_cons_self)) (by decide)
  rw [line, hcs]
  exact distractorBody?_cons_of_ne (isIndent_eq_false hc) hequals _

end Definition

def content (d : Document) : List Definition × List String :=
  (d.labelled.map (fun e => (e.1, e.2.items)), d.unlabelled.flatMap (·.items))

theorem content_shift (n : Nat) (d : Document) : content (d.shift n) = content d := by
  simp only [content, Document.labelled, Document.unlabelled, Document.shift, List.filterMap_map,
    List.filter_map, List.flatMap_map, List.map_filterMap, Function.comp_def, Option.map_map]

theorem content_append (d e : Document) :
    content (d ++ e) = ((content d).1 ++ (content e).1, (content d).2 ++ (content e).2) := by
  simp only [content, Document.labelled_append, Document.unlabelled_append, List.map_append,
    List.flatMap_append]

def distractorLine (items : List String) : List Char := "= ".toList ++ joinPipes items ++ [';']

def bracketedLine (items : List String) : List Char := "= [".toList ++ joinPipes items ++ "];".toList

structure Lists (l : List Char) (items : List String) : Prop where
  newline_not_mem : '\n' ∉ l
  items_eq : (distractorBody? l).map bodyItems = some items

theorem lists_of_body {body : List Char} {items : List String} (hb : IsBody body)
    (hitems : bodyItems body = items) : Lists ('=' :: (body ++ [';'])) items := by
  have hnil : ∀ c ∈ ([] : List Char), isIndent c = true := fun _ hc => absurd hc List.not_mem_nil
  have hline : distractorBody? ([] ++ '=' :: (body ++ ';' :: [])) = some body :=
    distractorBody?_append hnil (fun hc => (hb ';' hc).2 rfl) (Or.inl hnil)
  rw [List.nil_append] at hline
  refine ⟨?_, by rw [hline, Option.map_some, hitems]⟩
  simp only [List.mem_cons, List.mem_append, not_or]
  exact ⟨by decide, fun hc => (hb '\n' hc).1 rfl, by decide⟩

theorem lists_distractorLine {items : List String} (h : ∀ item ∈ items, IsPlain item) :
    Lists (distractorLine items) items := by
  have hline : distractorLine items = '=' :: (' ' :: joinPipes items ++ [';']) := by
    simp [distractorLine]
  rw [hline]
  exact lists_of_body (isBody_space_joinPipes h).1 (bodyItems_space_joinPipes h)

theorem lists_bracketedLine {items : List String} (h : ∀ item ∈ items, IsPlain item) :
    Lists (bracketedLine items) items := by
  have hline : bracketedLine items =
      '=' :: ([' '] ++ '[' :: (joinPipes items ++ ']' :: []) ++ [';']) := by
    simp [bracketedLine]
  have hbody : IsBody ([' '] ++ '[' :: (joinPipes items ++ ']' :: [])) := by
    intro c hc
    simp only [List.mem_append, List.mem_cons, List.not_mem_nil, or_false] at hc
    rcases hc with rfl | rfl | hc | rfl
    · decide
    · decide
    · exact (isBody_space_joinPipes h).1 c (List.mem_cons_of_mem _ hc)
    · decide
  rw [hline]
  apply lists_of_body hbody
  rw [bodyItems, unbracket_trim_enclosed isBlank_of_mem_space (fun _ hc => absurd hc List.not_mem_nil),
    splitPipes_joinPipes h]

section Lines

variable {rule : LabelRule}

theorem content_lines_append {ds : List Definition} (h : ∀ d ∈ ds, d.Legible rule)
    (rest : List Char) :
    content (readDocument rule (closeLines (ds.map Definition.line) ++ rest)) =
      (ds ++ (content (readDocument rule rest)).1, (content (readDocument rule rest)).2) := by
  induction ds with
  | nil => rfl
  | cons d ds ih =>
      have hd := h d List.mem_cons_self
      have hrule : (Definition.statementLine hd).label.all rule.admits = true := by
        rw [Definition.label_statementLine]
        exact hd.admits
      have hcontent : content ⟨[(Definition.statementLine hd).statement], []⟩ = ([d], []) := by
        obtain ⟨hlabel, hitems⟩ := Definition.statement_statementLine hd
        simp [content, Document.labelled, Document.unlabelled, hlabel, hitems]
      rw [List.map_cons, closeLines_cons, List.append_assoc, List.cons_append,
        ← Definition.chars_statementLine hd, StatementLine.readDocument_chars_append _ hrule,
        content_append, content_shift, hcontent, ih (fun e he => h e (List.mem_cons_of_mem _ he))]
      rfl

theorem filterMap_lines {ds : List Definition} (h : ∀ d ∈ ds, d.Legible rule) :
    (ds.map Definition.line).filterMap distractorBody? = [] := by
  rw [List.filterMap_eq_nil_iff]
  intro l hl
  obtain ⟨d, hmem, rfl⟩ := List.mem_map.mp hl
  exact Definition.distractorBody?_line (h d hmem)

theorem map_emptied_lines {ds : List Definition} (h : ∀ d ∈ ds, d.Legible rule) :
    (ds.map Definition.line).map emptied = ds.map Definition.line := by
  rw [List.map_map]
  refine List.map_congr_left (fun d hmem => ?_)
  rw [Function.comp_apply, emptied, Definition.distractorBody?_line (h d hmem)]
  rfl

theorem content_lines {ds : List Definition} (h : ∀ d ∈ ds, d.Legible rule) :
    content (readDocument rule (closeLines (ds.map Definition.line))) = (ds, []) := by
  have happend := content_lines_append h []
  rw [List.append_nil, readDocument_nil] at happend
  rw [happend]
  exact congrArg (·, []) (List.append_nil ds)

theorem content_emptied_append {ls : List (List Char)}
    (h : ∀ l ∈ ls, (distractorBody? l).isSome = true) (rest : List Char) :
    content (readDocument rule (closeLines (ls.map emptied) ++ rest)) =
      content (readDocument rule rest) := by
  induction ls with
  | nil => rfl
  | cons l ls ih =>
      have hempty : emptied l = [] := if_pos (h l List.mem_cons_self)
      rw [List.map_cons, hempty, closeLines_cons, List.nil_append, List.cons_append,
        readDocument_newline_cons, content_shift, ih (fun m hm => h m (List.mem_cons_of_mem _ hm))]

theorem definitions_unlines {front back : List Definition} {l : List Char} {items : List String}
    (h : ∀ d ∈ front ++ back, d.Legible rule) (hl : Lists l items) (hnodup : items.Nodup) :
    definitions rule (.ofList (unlines (front.map Definition.line ++
        ((if items = [] then [] else [l]) ++ back.map Definition.line)))) =
      (front ++ back, items) := by
  have hfront : ∀ d ∈ front, d.Legible rule := fun d hmem => h d (List.mem_append_left _ hmem)
  have hback : ∀ d ∈ back, d.Legible rule := fun d hmem => h d (List.mem_append_right _ hmem)
  obtain ⟨body, hbody, hitems⟩ := Option.map_eq_some_iff.mp hl.items_eq
  generalize hls : (if items = [] then [] else [l]) = ls
  have hmem : ∀ m ∈ ls, m = l := by
    intro m hm
    rw [← hls] at hm
    split at hm
    · cases hm
    · exact List.mem_singleton.mp hm
  have hnewline : ∀ m ∈ front.map Definition.line ++ (ls ++ back.map Definition.line), '\n' ∉ m := by
    intro m hm
    simp only [List.mem_append, List.mem_map] at hm
    rcases hm with ⟨d, hd, rfl⟩ | hm | ⟨d, hd, rfl⟩
    · exact Definition.newline_not_mem_line (hfront d hd)
    · exact hmem m hm ▸ hl.newline_not_mem
    · exact Definition.newline_not_mem_line (hback d hd)
  have hlisted : ((front.map Definition.line ++ (ls ++ back.map Definition.line)).filterMap
      distractorBody?).flatMap bodyItems = items := by
    rw [List.filterMap_append, List.filterMap_append, filterMap_lines hfront, filterMap_lines hback,
      List.nil_append, List.append_nil, ← hls]
    split
    · next hnil => rw [hnil]; rfl
    · rw [List.filterMap_cons_some hbody, List.filterMap_nil, List.flatMap_singleton, hitems]
  have hcontent : content (readDocument rule (unlines
      ((front.map Definition.line ++ (ls ++ back.map Definition.line)).map emptied))) =
        (front ++ back, []) := by
    rw [readDocument_unlines, List.map_append, List.map_append, map_emptied_lines hfront,
      map_emptied_lines hback, closeLines_append, closeLines_append, content_lines_append hfront,
      content_emptied_append (fun m hm => hmem m hm ▸ hbody ▸ rfl), content_lines hback]
  have hdefined := congrArg Prod.fst hcontent
  have hloose := congrArg Prod.snd hcontent
  simp only [content] at hdefined hloose
  simp only [definitions, String.toList_ofList, extractDistractors_unlines hnewline, hlisted,
    hdefined, hloose, List.append_nil, distinct_of_nodup hnodup]

end Lines

end Worksheet
