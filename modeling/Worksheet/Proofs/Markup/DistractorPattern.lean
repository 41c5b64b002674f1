import Worksheet.Proofs.Markup.DistractorLine
import Worksheet.Proofs.Text.Pattern

namespace Worksheet.Markup

open Chars Pattern

variable {before : Option Char} {cs line rest : List Char} {w : Way}

def IsDistractorLine (line body : List Char) : Prop :=
  ∃ head gap note, line = head ++ '=' :: (body ++ ';' :: (gap ++ note)) ∧
    (∀ c ∈ head, isIndent c = true) ∧ ';' ∉ body ∧ (∀ c ∈ gap, isIndent c = true) ∧
    (note = [] ∨ ['/', '/'] <+: note)

def commentPattern : Pattern :=
  .next (.one (· == '/')) <| .next (.one (· == '/')) <| .many (· != '\n')

def tailPattern : Pattern := .next (.many isIndent) <| .next (.optional commentPattern) .lineEnd

def distractorPattern : Pattern :=
  .next .lineStart <| .next (.many isIndent) <| .next (.one (· == '=')) <| .next (.many isIndent) <|
    .next (.group (.few (fun c => c != ';' && c != '\n'))) <| .next (.many isIndent) <|
      .next (.one (· == ';')) tailPattern

def foundItems (found : List Way) : List String :=
  found.flatMap (fun w => w.groups.flatMap bodyItems)

def extractByPattern (source : List Char) : Extraction :=
  ⟨distinct (foundItems (distractorPattern.cut source).found), (distractorPattern.cut source).left⟩

theorem indents_or_startsComment_iff :
    ((∀ c ∈ cs, isIndent c = true) ∨ startsComment cs = true) ↔
      ∃ gap note, cs = gap ++ note ∧ (∀ c ∈ gap, isIndent c = true) ∧
        (note = [] ∨ ['/', '/'] <+: note) := by
  constructor
  · rintro (hindent | hcomment)
    · exact ⟨cs, [], (List.append_nil cs).symm, hindent, Or.inl rfl⟩
    · obtain ⟨note, hnote⟩ := startsComment_iff.mp hcomment
      refine ⟨cs.takeWhile isIndent, '/' :: '/' :: note, ?_, fun c hc => mem_takeWhile hc,
        Or.inr (List.prefix_append _ note)⟩
      rw [← hnote, List.takeWhile_append_dropWhile]
  · rintro ⟨gap, note, rfl, hgap, rfl | ⟨text, rfl⟩⟩
    · rw [List.append_nil]
      exact Or.inl hgap
    · exact Or.inr (startsComment_of_indent hgap text)

theorem distractorBody?_eq_some_iff {body : List Char} :
    distractorBody? line = some body ↔ IsDistractorLine line body := by
  constructor
  · intro h
    obtain ⟨head, tail, hline, hhead, hbody, htail⟩ := distractorBody?_eq_some h
    obtain ⟨gap, note, rfl, hgap, hnote⟩ := indents_or_startsComment_iff.mp htail
    exact ⟨head, gap, note, hline, hhead, hbody, hgap, hnote⟩
  · rintro ⟨head, gap, note, rfl, hhead, hbody, hgap, hnote⟩
    exact distractorBody?_append hhead hbody
      (indents_or_startsComment_iff.mpr ⟨gap, note, rfl, hgap, hnote⟩)

theorem mem_ways_tailPattern :
    w ∈ tailPattern.ways before cs ↔
      ∃ tail rest, cs = tail ++ rest ∧ IsSilent tail ∧ StartsLine rest.head? ∧
        w = ⟨tail, [], rest⟩ := by
  simp only [tailPattern, commentPattern, mem_ways_many_next, mem_ways_optional_next,
    mem_ways_next_next, mem_ways_one_next, mem_ways_lineEnd, beq_iff_eq]
  constructor
  · rintro ⟨gap, _, rfl, hgap, _, ⟨_, _, rfl, rfl, _, ⟨_, _, rfl, rfl, _, ⟨note, rest, rfl, hnote, _,
      ⟨hrest, rfl⟩, rfl⟩, rfl⟩, rfl⟩ | ⟨hrest, rfl⟩, rfl⟩
    · refine ⟨gap ++ '/' :: '/' :: note, rest, by simp, ⟨?_, ?_⟩, hrest, by simp⟩
      · have hn : '\n' ∉ note := fun hmem => absurd (hnote _ hmem) (by decide)
        simp [not_mem_of_forall hgap (a := '\n') (by decide), hn]
      · exact Or.inr (startsComment_of_indent hgap note)
    · exact ⟨gap, _, rfl, ⟨not_mem_of_forall hgap (by decide), Or.inl hgap⟩, hrest, by simp⟩
  · rintro ⟨_, rest, rfl, ⟨hn, htail⟩, hrest, rfl⟩
    obtain ⟨gap, _, rfl, hgap, rfl | ⟨note, rfl⟩⟩ := indents_or_startsComment_iff.mp htail
    · exact ⟨gap, rest, by simp, hgap, _, Or.inr ⟨hrest, rfl⟩, rfl⟩
    · have hline : ∀ c ∈ note, (c != '\n') = true := by
        intro c hc
        rw [bne_iff_ne]
        rintro rfl
        exact hn (by simp [hc])
      exact ⟨gap, '/' :: '/' :: (note ++ rest), by simp, hgap, _,
        Or.inl ⟨'/', _, rfl, rfl, _, ⟨'/', _, rfl, rfl, _, ⟨note, rest, rfl, hline, _, ⟨hrest, rfl⟩,
          rfl⟩, rfl⟩, rfl⟩, by simp⟩

theorem mem_ways_distractorPattern :
    w ∈ distractorPattern.ways before cs ↔
      StartsLine before ∧ ∃ head left body right tail rest,
        cs = head ++ '=' :: (left ++ (body ++ (right ++ ';' :: (tail ++ rest)))) ∧
        (∀ c ∈ head, isIndent c = true) ∧ (∀ c ∈ left, isIndent c = true) ∧
        (∀ c ∈ body, c ≠ ';' ∧ c ≠ '\n') ∧ (∀ c ∈ right, isIndent c = true) ∧ IsSilent tail ∧
        StartsLine rest.head? ∧
        w = ⟨head ++ '=' :: (left ++ (body ++ (right ++ ';' :: tail))), [body], rest⟩ := by
  simp only [distractorPattern, mem_ways_lineStart_next, mem_ways_many_next, mem_ways_one_next,
    mem_ways_group_few_next, mem_ways_tailPattern, beq_iff_eq, Bool.and_eq_true, bne_iff_ne]
  refine and_congr_right (fun _ => ?_)
  constructor
  · rintro ⟨head, _, rfl, hhead, _, ⟨_, _, rfl, rfl, _, ⟨left, _, rfl, hleft, _, ⟨body, _, rfl, hbody,
      _, ⟨right, _, rfl, hright, _, ⟨_, _, rfl, rfl, _, ⟨tail, rest, rfl, htail, hrest, rfl⟩, rfl⟩,
      rfl⟩, rfl⟩, rfl⟩, rfl⟩, rfl⟩
    exact ⟨head, left, body, right, tail, rest, rfl, hhead, hleft, hbody, hright, htail, hrest, rfl⟩
  · rintro ⟨head, left, body, right, tail, rest, rfl, hhead, hleft, hbody, hright, htail, hrest, rfl⟩
    exact ⟨head, _, rfl, hhead, _, ⟨_, _, rfl, rfl, _, ⟨left, _, rfl, hleft, _, ⟨body, _, rfl, hbody,
      _, ⟨right, _, rfl, hright, _, ⟨_, _, rfl, rfl, _, ⟨tail, rest, rfl, htail, hrest, rfl⟩, rfl⟩,
      rfl⟩, rfl⟩, rfl⟩, rfl⟩, rfl⟩

theorem bodyItems_append_append {left right : List Char} (hleft : ∀ c ∈ left, isIndent c = true)
    (hright : ∀ c ∈ right, isIndent c = true) (body : List Char) :
    bodyItems (left ++ (body ++ right)) = bodyItems body := by
  rw [bodyItems, trim_append_of_blank_left (fun c hc => isBlank_of_isIndent (hleft c hc)),
    trim_append_of_blank_right (fun c hc => isBlank_of_isIndent (hright c hc)), bodyItems]

theorem line_of_mem_ways (h : w ∈ distractorPattern.ways before cs) :
    StartsLine before ∧ cs = w.taken ++ w.rest ∧ '\n' ∉ w.taken ∧ StartsLine w.rest.head? ∧
      ∃ body, distractorBody? w.taken = some body ∧
        w.groups.flatMap bodyItems = bodyItems body := by
  obtain ⟨hb, head, left, body, right, tail, rest, rfl, hhead, hleft, hbody, hright, ⟨hn, htail⟩,
    hrest, rfl⟩ := mem_ways_distractorPattern.mp h
  have hsemicolon : ';' ∉ left ++ (body ++ right) := by
    simp only [List.mem_append, not_or]
    exact ⟨not_mem_of_forall hleft (by decide), fun hmem => (hbody _ hmem).1 rfl,
      not_mem_of_forall hright (by decide)⟩
  refine ⟨hb, by simp, ?_, hrest, left ++ (body ++ right), ?_, ?_⟩
  · simp only [List.mem_append, List.mem_cons, not_or]
    exact ⟨not_mem_of_forall hhead (by decide), by decide, not_mem_of_forall hleft (by decide),
      fun hmem => (hbody _ hmem).2 rfl, not_mem_of_forall hright (by decide), by decide, hn⟩
  · have hparts := distractorBody?_append hhead hsemicolon htail
    simpa only [List.append_assoc] using hparts
  · rw [List.flatMap_singleton, bodyItems_append_append hleft hright]

theorem exists_mem_ways {body : List Char} (hb : StartsLine before) (hn : '\n' ∉ line)
    (hr : StartsLine rest.head?) (h : distractorBody? line = some body) :
    ∃ w ∈ distractorPattern.ways before (line ++ rest), w.taken ≠ [] := by
  obtain ⟨head, tail, rfl, hhead, hsemicolon, htail⟩ := distractorBody?_eq_some h
  simp only [List.mem_append, List.mem_cons, not_or] at hn
  obtain ⟨-, -, hnbody, -, hntail⟩ := hn
  have hbody : ∀ c ∈ body, c ≠ ';' ∧ c ≠ '\n' :=
    fun c hc => ⟨fun heq => hsemicolon (heq ▸ hc), fun heq => hnbody (heq ▸ hc)⟩
  have hnone : ∀ c ∈ ([] : List Char), isIndent c = true := fun _ hc => absurd hc List.not_mem_nil
  exact ⟨_, mem_ways_distractorPattern.mpr ⟨hb, head, [], body, [], tail, rest, by simp, hhead, hnone,
    hbody, hnone, ⟨hntail, htail⟩, hr, rfl⟩, by simp⟩

theorem takeWhile_line (hn : '\n' ∉ line) (hr : StartsLine rest.head?) :
    (line ++ rest).takeWhile (· != '\n') = line := by
  have hline : ∀ c ∈ line, (c != '\n') = true :=
    fun c hc => bne_iff_ne.mpr (fun heq => hn (heq ▸ hc))
  cases rest with
  | nil => rw [List.append_nil, takeWhile_of_forall hline]
  | cons c rest =>
      obtain rfl : c = '\n' := by simpa [StartsLine] using hr
      rw [takeWhile_append_of_neg (by decide), takeWhile_of_forall hline]

theorem taken_eq_of_mem_ways (hn : '\n' ∉ line) (hr : StartsLine rest.head?)
    (h : w ∈ distractorPattern.ways before (line ++ rest)) : w.taken = line ∧ w.rest = rest := by
  obtain ⟨-, hcs, hntaken, hrest, -⟩ := line_of_mem_ways h
  have htaken : w.taken = line := by
    rw [← takeWhile_line hntaken hrest, ← hcs, takeWhile_line hn hr]
  rw [htaken] at hcs
  exact ⟨htaken, (List.append_cancel_left hcs).symm⟩

theorem find?_ways {body : List Char} (hb : StartsLine before) (hn : '\n' ∉ line)
    (hr : StartsLine rest.head?) (h : distractorBody? line = some body) :
    ∃ groups, (distractorPattern.ways before (line ++ rest)).find? (·.taken ≠ []) =
        some ⟨line, groups, rest⟩ ∧
      groups.flatMap bodyItems = bodyItems body := by
  obtain ⟨v, hv, hne⟩ := exists_mem_ways hb hn hr h
  have hsome : ((distractorPattern.ways before (line ++ rest)).find? (·.taken ≠ [])).isSome :=
    List.find?_isSome.mpr ⟨v, hv, decide_eq_true hne⟩
  obtain ⟨w, hw⟩ := Option.isSome_iff_exists.mp hsome
  have hmem := List.mem_of_find?_eq_some hw
  obtain ⟨-, -, -, -, other, hother, hitems⟩ := line_of_mem_ways hmem
  obtain ⟨rfl, rfl⟩ := taken_eq_of_mem_ways hn hr hmem
  obtain rfl : body = other := Option.some.inj (h.symm.trans hother)
  exact ⟨w.groups, hw, hitems⟩

theorem ways_eq_nil (hn : '\n' ∉ line) (hr : StartsLine rest.head?)
    (h : distractorBody? line = none) : distractorPattern.ways before (line ++ rest) = [] := by
  rw [List.eq_nil_iff_forall_not_mem]
  intro w hw
  obtain ⟨-, -, -, -, body, hbody, -⟩ := line_of_mem_ways hw
  rw [(taken_eq_of_mem_ways hn hr hw).1, h] at hbody
  cases hbody

theorem ways_eq_nil_of_not_startsLine (before : Option Char) (cs : List Char)
    (h : ¬ StartsLine before) : distractorPattern.ways before cs = [] :=
  List.eq_nil_iff_forall_not_mem.mpr (fun _ hw => h (line_of_mem_ways hw).1)

theorem cutFrom_newline (cs : List Char) :
    distractorPattern.cutFrom before 0 ('\n' :: cs) =
      ⟨(distractorPattern.cutFrom (some '\n') 0 cs).found,
        '\n' :: (distractorPattern.cutFrom (some '\n') 0 cs).left⟩ := by
  have hr : StartsLine ('\n' :: cs).head? := Or.inr rfl
  have hways : distractorPattern.ways before ([] ++ '\n' :: cs) = [] :=
    ways_eq_nil List.not_mem_nil hr rfl
  exact cutFrom_of_ways_eq_nil hways

theorem cutFrom_line (hb : StartsLine before) (hn : '\n' ∉ line) (hr : StartsLine rest.head?) :
    foundItems (distractorPattern.cutFrom before 0 (line ++ rest)).found =
        ((distractorBody? line).map bodyItems).getD [] ++
          foundItems (distractorPattern.cutFrom (line.getLast?.or before) 0 rest).found ∧
      (distractorPattern.cutFrom before 0 (line ++ rest)).left =
        emptied line ++ (distractorPattern.cutFrom (line.getLast?.or before) 0 rest).left := by
  cases hbody : distractorBody? line with
  | none =>
      have hemptied : emptied line = line := by rw [emptied, hbody]; rfl
      cases line with
      | nil => exact ⟨rfl, by rw [hemptied]; rfl⟩
      | cons c line =>
          have hways : distractorPattern.ways before (c :: line ++ rest) = [] :=
            ways_eq_nil hn hr hbody
          rw [List.mem_cons, not_or] at hn
          have hc : ¬ StartsLine (some c) := by
            simpa [StartsLine] using Ne.symm hn.1
          rw [List.cons_append] at hways
          rw [hemptied, List.cons_append, cutFrom_of_ways_eq_nil hways,
            cutFrom_append_of_not_startsLine ways_eq_nil_of_not_startsLine hn.2 hc,
            getLast?_cons_or]
          exact ⟨rfl, rfl⟩
  | some body =>
      have hemptied : emptied line = [] := by rw [emptied, hbody]; rfl
      obtain ⟨groups, hfind, hitems⟩ := find?_ways hb hn hr hbody
      rw [cutFrom_of_find? hfind rfl, hemptied]
      refine ⟨?_, rfl⟩
      rw [foundItems, List.flatMap_cons, hitems]
      rfl

theorem cutFrom_lines (source : List Char) (hb : StartsLine before) :
    foundItems (distractorPattern.cutFrom before 0 source).found =
        ((lines source).filterMap distractorBody?).flatMap bodyItems ∧
      (distractorPattern.cutFrom before 0 source).left = unlines ((lines source).map emptied) := by
  induction source using induction_on_pieces '\n' generalizing before with
  | last l hl =>
      have hr : StartsLine ([] : List Char).head? := Or.inl rfl
      obtain ⟨hitems, hleft⟩ := cutFrom_line hb hl hr
      rw [List.append_nil] at hitems hleft
      rw [hitems, hleft, lines_of_not_mem hl, flatMap_bodyItems_cons, List.map_singleton, unlines,
        List.intercalate_singleton, cutFrom]
      exact ⟨rfl, List.append_nil _⟩
  | cons l rest hl ih =>
      have hnewline : StartsLine (some '\n') := Or.inr rfl
      have hr : StartsLine ('\n' :: rest).head? := hnewline
      obtain ⟨hitems, hleft⟩ := cutFrom_line hb hl hr
      obtain ⟨hitems', hleft'⟩ := ih hnewline
      have hne : (lines rest).map emptied ≠ [] := by simpa using lines_ne_nil rest
      -- the search goes on at the line feed, which no match takes, and begins the next line behind it
      simp only [cutFrom_newline, hitems', hleft'] at hitems hleft
      rw [hitems, hleft, lines_append_newline hl, List.map_cons, unlines_cons hne,
        flatMap_bodyItems_cons]
      exact ⟨rfl, rfl⟩

theorem extractDistractors_eq (source : List Char) :
    extractDistractors source =
      ⟨distinct (((lines source).filterMap distractorBody?).flatMap bodyItems),
        unlines ((lines source).map emptied)⟩ := rfl

theorem extractByPattern_eq (source : List Char) :
    extractByPattern source = extractDistractors source := by
  have hstart : StartsLine none := Or.inl rfl
  obtain ⟨hitems, hleft⟩ := cutFrom_lines source hstart
  rw [extractByPattern, cut, hitems, hleft, extractDistractors_eq]

example : extractByPattern "Tree = elm;\n\t= [fig |  oak ] ; // = x;\n= yew; =;\n=;\r".toList =
    ⟨["fig", "oak"], "Tree = elm;\n\n= yew; =;\n=;\r".toList⟩ := by decide +kernel

theorem distractorBody?_emptied (line : List Char) : distractorBody? (emptied line) = none := by
  cases h : distractorBody? line with
  | none => rwa [emptied, h]
  | some body =>
      rw [emptied, h]
      rfl

theorem emptied_emptied (line : List Char) : emptied (emptied line) = emptied line :=
  if_neg (by rw [distractorBody?_emptied]; decide)

theorem lines_remainder (source : List Char) :
    lines (extractDistractors source).remainder = (lines source).map emptied := by
  rw [extractDistractors_eq]
  refine lines_unlines (by simpa using lines_ne_nil source) (fun l hl => ?_)
  obtain ⟨line, hline, rfl⟩ := List.mem_map.mp hl
  rw [emptied]
  split
  · exact List.not_mem_nil
  · exact not_mem_of_mem_lines hline

theorem extractDistractors_remainder (source : List Char) :
    extractDistractors (extractDistractors source).remainder =
      ⟨[], (extractDistractors source).remainder⟩ := by
  have hnone : ((lines source).map emptied).filterMap distractorBody? = [] := by
    rw [List.filterMap_map, List.filterMap_eq_nil_iff]
    exact fun line _ => distractorBody?_emptied line
  have hkept : ((lines source).map emptied).map emptied = (lines source).map emptied := by
    rw [List.map_map]
    exact List.map_congr_left (fun line _ => emptied_emptied line)
  rw [extractDistractors_eq (extractDistractors source).remainder, lines_remainder, hnone, hkept]
  rfl

theorem extractDistractors_by_lines (source : List Char) :
    extractDistractors source = extractByPattern source ∧
      (∀ line body, distractorBody? line = some body ↔ IsDistractorLine line body) ∧
      lines (extractDistractors source).remainder =
        (lines source).map (fun line => if (distractorBody? line).isSome then [] else line) ∧
      (extractDistractors source).items =
        distinct (((lines source).filterMap distractorBody?).flatMap
          (fun body => splitPipes (unbracket (trim body)))) ∧
      extractDistractors (extractDistractors source).remainder =
        ⟨[], (extractDistractors source).remainder⟩ :=
  ⟨(extractByPattern_eq source).symm, fun _ _ => distractorBody?_eq_some_iff, lines_remainder source,
    rfl, extractDistractors_remainder source⟩

end Worksheet.Markup
