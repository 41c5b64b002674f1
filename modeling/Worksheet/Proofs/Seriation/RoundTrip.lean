import Worksheet.Exercise.Basic
import Worksheet.Proofs.Seriation.Validation
import Worksheet.Proofs.Text.Lines
import Worksheet.Proofs.Text.Pipes

namespace Worksheet.Seriation

open Chars Text

theorem zeros_apart : ∀ first ∈ Unicode.zeros, first = 0x30 ∨
    0x660 ≤ first ∧ first ≤ 0x1090 ∨ 0x17E0 ≤ first ∧ first ≤ 0x1C50 ∨ 0xA620 ≤ first := by
  decide

theorem digit_cases {c : Char} (h : isDecimalDigit c = true) :
    isBlank c = false ∧ c ∉ ['.', ')', '|', '\n'] := by
  simp only [isDecimalDigit, List.any_eq_true, Bool.and_eq_true, decide_eq_true_eq] at h
  obtain ⟨first, hfirst, hlow, hhigh⟩ := h
  have hzero := zeros_apart first hfirst
  constructor
  · simp only [isBlank, Bool.or_eq_false_iff, Bool.and_eq_false_iff, decide_eq_false_iff_not,
      beq_eq_false_iff_ne]
    omega
  · simp only [List.mem_cons, List.not_mem_nil, or_false, ← Char.toNat_inj, Char.reduceToNat]
    omega

theorem dropMarker_suffix (line : List Char) : dropMarker line <:+ line := by
  have hbody : ∀ {rest : List Char}, rest <:+ line.dropWhile isBlank →
      rest.dropWhile isBlank <:+ line :=
    fun h => (List.dropWhile_suffix _).trans (h.trans (List.dropWhile_suffix _))
  unfold dropMarker
  dsimp only
  split
  · next c rest _ hrest =>
      split
      · apply hbody
        exact (hrest ▸ List.suffix_cons c rest).trans (List.dropWhile_suffix _)
      · exact List.suffix_rfl
  · next letter c blank rest _ hrest =>
      split
      · apply hbody
        have htail : rest <:+ letter :: c :: blank :: rest := ⟨[letter, c, blank], rfl⟩
        exact (hrest ▸ htail).trans (List.dropWhile_suffix _)
      · exact List.suffix_rfl
  · exact List.suffix_rfl

theorem isListed_of_mem_splitPipes {cs : List Char} {item : String}
    (h : item ∈ Chars.splitPipes cs) : IsListed item := by
  refine ⟨isItem_of_mem_splitPipes h, ?_⟩
  simp only [Chars.splitPipes, List.mem_filter, List.mem_map] at h
  obtain ⟨⟨piece, hpiece, rfl⟩, -⟩ := h
  rw [String.toList_ofList]
  intro hmem
  rcases mem_collapse hmem with heq | hmem
  · exact absurd heq (by decide)
  · exact absurd (mem_of_mem_pieces hpiece hmem).2 (by decide)

theorem isListed_of_mem_lineItems {source : List Char} (hs : '|' ∉ source) {item : String}
    (h : item ∈ lineItems source) : IsListed item := by
  refine ⟨isItem_of_mem_lineItems h, ?_⟩
  simp only [lineItems, List.mem_filter, List.mem_map] at h
  obtain ⟨⟨line, hline, rfl⟩, -⟩ := h
  rw [String.toList_ofList]
  intro hmem
  rcases mem_collapse hmem with heq | hmem
  · exact absurd heq (by decide)
  · exact hs (mem_of_mem_pieces hline ((dropMarker_suffix line).mem hmem)).1

theorem isListed_of_mem_read {text item : String} (h : item ∈ (read text).1.items) :
    IsListed item := by
  unfold read at h
  dsimp only at h
  split at h
  · cases h
  · split at h
    · exact isListed_of_mem_splitPipes h
    · next hpipe =>
        rw [List.contains_iff_mem] at hpipe
        exact isListed_of_mem_lineItems hpipe h

theorem read_of_pipe_mem {text : String} (h : '|' ∈ Chars.trim text.toList) :
    read text =
      (⟨Chars.splitPipes text.toList⟩, countDefects (Chars.splitPipes text.toList)) := by
  have hsome : (Chars.trim text.toList).isEmpty = false := by
    rw [List.isEmpty_eq_false_iff]
    exact List.ne_nil_of_mem h
  simp only [read, hsome, List.contains_iff_mem.mpr h, splitPipes_trim, Bool.false_eq_true, if_false,
    if_true]

theorem read_of_pipe_not_mem {text : String} (hne : Chars.trim text.toList ≠ [])
    (h : '|' ∉ Chars.trim text.toList) :
    read text = (⟨lineItems (Chars.trim text.toList)⟩,
      countDefects (lineItems (Chars.trim text.toList))) := by
  have hsome : (Chars.trim text.toList).isEmpty = false := List.isEmpty_eq_false_iff.mpr hne
  have hpipe : (Chars.trim text.toList).contains '|' = false := by
    rw [Bool.eq_false_iff, ne_eq, List.contains_iff_mem]
    exact h
  simp only [read, hsome, hpipe, Bool.false_eq_true, if_false]

theorem countDefects_eq_nil {items : List String} (h : 2 ≤ items.length) : countDefects items = [] :=
  if_neg (Nat.not_lt.mpr h)

def pipedText (items : List String) : String := .ofList (joinPipes items)

theorem read_pipedText {items : List String} (h : ∀ item ∈ items, IsListed item)
    (hcount : 2 ≤ items.length) : read (pipedText items) = (⟨items⟩, []) := by
  have hpipe : '|' ∈ Chars.trim (joinPipes items) := by
    match items, hcount with
    | a :: b :: items, _ =>
        obtain ⟨lead, trail, hjoin, hlead, htrail⟩ := exists_margins (joinPipes (a :: b :: items))
        have hmem : '|' ∈ joinPipes (a :: b :: items) := by
          rw [joinPipes_cons_cons]
          exact List.mem_append_right _ List.mem_cons_self
        rw [hjoin, List.mem_append, List.mem_append] at hmem
        rcases hmem with hmem | hmem | hmem
        · exact absurd (hlead _ hmem) (by decide)
        · exact hmem
        · exact absurd (htrail _ hmem) (by decide)
  have htext : (pipedText items).toList = joinPipes items := String.toList_ofList
  rw [← htext] at hpipe
  rw [read_of_pipe_mem hpipe, htext, splitPipes_joinPipes_of_isListed h, countDefects_eq_nil hcount]

structure Numbered where
  number : String
  marker : Char
  item : String

namespace Numbered

structure WellFormed (n : Numbered) : Prop where
  number_ne_empty : n.number ≠ ""
  digits : ∀ c ∈ n.number.toList, isDecimalDigit c = true
  closesMarker_marker : closesMarker n.marker = true
  isListed_item : IsListed n.item

instance (n : Numbered) : Decidable n.WellFormed :=
  decidable_of_iff
    (n.number ≠ "" ∧ n.number.toList.all isDecimalDigit = true ∧ closesMarker n.marker = true ∧
      IsListed n.item) <| by
    rw [List.all_eq_true]
    exact ⟨fun ⟨hn, hd, hm, hi⟩ => ⟨hn, hd, hm, hi⟩,
      fun h => ⟨h.number_ne_empty, h.digits, h.closesMarker_marker, h.isListed_item⟩⟩

def line (n : Numbered) : List Char := n.number.toList ++ n.marker :: ' ' :: n.item.toList

variable {n : Numbered}

theorem exists_digit (h : n.WellFormed) :
    ∃ c cs, n.number.toList = c :: cs ∧ isDecimalDigit c = true := by
  obtain ⟨c, cs, hcs⟩ :=
    List.exists_cons_of_ne_nil (mt String.toList_eq_nil_iff.mp h.number_ne_empty)
  exact ⟨c, cs, hcs, h.digits c (hcs ▸ List.mem_cons_self)⟩

theorem marker_cases (h : n.WellFormed) : n.marker = '.' ∨ n.marker = ')' := by
  simpa [closesMarker] using h.closesMarker_marker

theorem isDecimalDigit_marker (h : n.WellFormed) : isDecimalDigit n.marker = false := by
  rw [Bool.eq_false_iff]
  intro hdigit
  apply (digit_cases hdigit).2
  rcases marker_cases h with hm | hm <;> simp [hm]

theorem dropMarker_line (h : n.WellFormed) : dropMarker n.line = n.item.toList := by
  obtain ⟨d, ds, hds, hd⟩ := exists_digit h
  obtain ⟨c, cs, hcs, hc⟩ := h.isListed_item.isItem.exists_cons
  have hbody : n.line.dropWhile isBlank = n.line := by
    rw [line, hds, List.cons_append, List.dropWhile_cons_of_neg (by simp [(digit_cases hd).1])]
  have htake : n.line.takeWhile isDecimalDigit = d :: ds := by
    rw [line, takeWhile_append_of_neg (isDecimalDigit_marker h), takeWhile_of_forall h.digits, hds]
  have hdrop : n.line.dropWhile isDecimalDigit = n.marker :: ' ' :: n.item.toList := by
    rw [line, dropWhile_append_of_neg (isDecimalDigit_marker h), dropWhile_of_forall h.digits,
      List.nil_append]
  have hitem : (' ' :: n.item.toList).dropWhile isBlank = n.item.toList := by
    rw [List.dropWhile_cons_of_pos (by decide), hcs, List.dropWhile_cons_of_neg (by simp [hc])]
  simp only [dropMarker, hbody, htake, hdrop, h.closesMarker_marker, if_true, hitem]

theorem not_mem_line (h : n.WellFormed) {c : Char} (hc : c ∈ ['|', '\n']) : c ∉ n.line := by
  have hdigits : c ∉ n.number.toList := by
    intro hmem
    have hother := (digit_cases (h.digits c hmem)).2
    simp only [List.mem_cons, List.not_mem_nil, or_false] at hc
    rcases hc with rfl | rfl <;> exact hother (by decide)
  have hitem : c ∉ n.item.toList := by
    simp only [List.mem_cons, List.not_mem_nil, or_false] at hc
    rcases hc with rfl | rfl
    · exact h.isListed_item.pipe_not_mem
    · exact newline_not_mem_of_collapse_eq h.isListed_item.isItem.2
  have hmarker : c ∉ [n.marker, ' '] := by
    simp only [List.mem_cons, List.not_mem_nil, or_false] at hc
    rcases hc with rfl | rfl <;> rcases marker_cases h with hm | hm <;> rw [hm] <;> decide
  simp only [line, List.mem_append, List.mem_cons, List.not_mem_nil, or_false, not_or] at hmarker ⊢
  exact ⟨hdigits, hmarker.1, hmarker.2, hitem⟩

theorem not_isBlank_head_line (h : n.WellFormed) {c : Char} (hc : n.line.head? = some c) :
    isBlank c = false := by
  obtain ⟨d, ds, hds, hd⟩ := exists_digit h
  rw [line, hds, List.cons_append, List.head?_cons, Option.some.injEq] at hc
  exact hc ▸ (digit_cases hd).1

theorem not_isBlank_getLast_line (h : n.WellFormed) {c : Char} (hc : n.line.getLast? = some c) :
    isBlank c = false := by
  obtain ⟨d, ds, hds, -⟩ := h.isListed_item.isItem.exists_cons
  have hline : n.line = (n.number.toList ++ [n.marker, ' ']) ++ n.item.toList := by
    simp [line]
  rw [hline, List.getLast?_append, hds, List.getLast?_cons, Option.some_or] at hc
  apply h.isListed_item.isItem.not_isBlank_getLast
  rw [hds, List.getLast?_cons, hc]

end Numbered

def numberedText (ns : List Numbered) : String := .ofList (unlines (ns.map Numbered.line))

section Lines

variable {ns : List Numbered} (h : ∀ n ∈ ns, n.WellFormed)

include h

theorem exists_numbered {l : List Char} (hl : l ∈ ns.map Numbered.line) :
    ∃ n : Numbered, n.WellFormed ∧ l = n.line := by
  obtain ⟨n, hn, rfl⟩ := List.mem_map.mp hl
  exact ⟨n, h n hn, rfl⟩

theorem trim_numbered : Chars.trim (unlines (ns.map Numbered.line)) = unlines (ns.map Numbered.line) := by
  have hne : ∀ l ∈ ns.map Numbered.line, l ≠ [] := by
    intro l hl
    obtain ⟨n, -, rfl⟩ := exists_numbered h hl
    simp [Numbered.line]
  apply trim_eq_self
  · intro c hc
    obtain ⟨l, hl, hhead⟩ := exists_head_of_intercalate hne hc
    obtain ⟨n, hn, rfl⟩ := exists_numbered h hl
    exact Numbered.not_isBlank_head_line hn hhead
  · intro c hc
    obtain ⟨l, hl, hlast⟩ := exists_getLast_of_intercalate hne hc
    obtain ⟨n, hn, rfl⟩ := exists_numbered h hl
    exact Numbered.not_isBlank_getLast_line hn hlast

theorem pipe_not_mem_numbered : '|' ∉ unlines (ns.map Numbered.line) := by
  intro hmem
  rcases mem_intercalate hmem with hmem | ⟨l, hl, hmem⟩
  · exact absurd hmem (by decide)
  · obtain ⟨n, hn, rfl⟩ := exists_numbered h hl
    exact Numbered.not_mem_line hn (by decide) hmem

theorem lineItems_numbered (hne : ns ≠ []) :
    lineItems (unlines (ns.map Numbered.line)) = ns.map Numbered.item := by
  have hnewline : ∀ l ∈ ns.map Numbered.line, '\n' ∉ l := by
    intro l hl
    obtain ⟨n, hn, rfl⟩ := exists_numbered h hl
    exact Numbered.not_mem_line hn (by decide)
  have hread : ∀ n ∈ ns, String.ofList (Chars.collapse (dropMarker n.line)) = n.item := by
    intro n hn
    rw [Numbered.dropMarker_line (h n hn),
      toList_of_collapse_eq (h n hn).isListed_item.isItem.2, String.ofList_toList]
  rw [lineItems, lines_unlines (mt List.map_eq_nil_iff.mp hne) hnewline, List.map_map]
  refine (congrArg (List.filter _) (List.map_congr_left hread)).trans ?_
  rw [List.filter_eq_self]
  intro item hi
  obtain ⟨n, hn, rfl⟩ := List.mem_map.mp hi
  exact decide_eq_true (h n hn).isListed_item.isItem.1

theorem read_numberedText (hcount : 2 ≤ ns.length) :
    read (numberedText ns) = (⟨ns.map Numbered.item⟩, []) := by
  have hne : ns ≠ [] := by
    rintro rfl
    exact absurd hcount (by decide)
  have hitems := lineItems_numbered h hne
  have htext : Chars.trim (numberedText ns).toList = unlines (ns.map Numbered.line) := by
    rw [numberedText, String.toList_ofList, trim_numbered h]
  have hsome : Chars.trim (numberedText ns).toList ≠ [] := by
    rw [htext]
    intro hnil
    rw [hnil] at hitems
    exact hne (List.map_eq_nil_iff.mp hitems.symm)
  have hpipe : '|' ∉ Chars.trim (numberedText ns).toList := by
    rw [htext]
    exact pipe_not_mem_numbered h
  rw [read_of_pipe_not_mem hsome hpipe, htext, hitems,
    countDefects_eq_nil (by rwa [List.length_map])]

end Lines

theorem read_piped_and_numbered :
    (∀ text, 2 ≤ (read text).1.items.length →
      Exercise.read .seriation (pipedText (read text).1.items) = ⟨.seriation (read text).1, ∅⟩) ∧
    ∀ ns : List Numbered, 2 ≤ ns.length → (∀ n ∈ ns, n.WellFormed) →
      Exercise.read .seriation (numberedText ns) = ⟨.seriation ⟨ns.map Numbered.item⟩, ∅⟩ := by
  constructor
  · intro text hcount
    rw [Exercise.read_seriation, read_pipedText (fun _ hi => isListed_of_mem_read hi) hcount]
    rfl
  · intro ns hcount h
    rw [Exercise.read_seriation, read_numberedText h hcount]
    rfl

def stages : String := " a. Egg\nB)  Larva of 2 \n\n٣) pupa;\n4.Adult"

def steps : List Numbered := [⟨"٣٤", ')', "2. boil // drain"⟩, ⟨"007", '.', "B) // cool"⟩]

theorem read_piped_and_numbered_stages :
    (read stages).1.items = ["Egg", "Larva of 2", "pupa;", "Adult"] ∧
      Exercise.read .seriation "Egg | Larva of 2 | pupa; | Adult" =
        ⟨.seriation ⟨["Egg", "Larva of 2", "pupa;", "Adult"]⟩, ∅⟩ ∧
      Exercise.read .seriation "٣٤) 2. boil // drain\n007. B) // cool" =
        ⟨.seriation ⟨["2. boil // drain", "B) // cool"]⟩, ∅⟩ := by
  have hitems : (read stages).1 = ⟨["Egg", "Larva of 2", "pupa;", "Adult"]⟩ := by decide +kernel
  have hpiped := read_piped_and_numbered.1 stages (by rw [hitems]; decide)
  have hnumbered := read_piped_and_numbered.2 steps (by decide) (by decide)
  have hfirst : pipedText ["Egg", "Larva of 2", "pupa;", "Adult"] =
      "Egg | Larva of 2 | pupa; | Adult" := rfl
  have hsecond : numberedText steps = "٣٤) 2. boil // drain\n007. B) // cool" := rfl
  rw [hitems, hfirst] at hpiped
  rw [hsecond] at hnumbered
  exact ⟨congrArg Seriation.items hitems, hpiped, hnumbered⟩

end Worksheet.Seriation
