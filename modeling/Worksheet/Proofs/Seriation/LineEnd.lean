import Worksheet.Proofs.Seriation.RoundTrip
import Worksheet.Proofs.Text.Label
import Worksheet.Proofs.Text.Newline

namespace Worksheet.Seriation

open Chars

theorem letter_cases {c : Char} (h : c.isAlpha = true) :
    isBlank c = false ∧ isDecimalDigit c = false := by
  have hascii : c.toNat < 128 := isAscii_of_isLabelRest (by simp [isLabelRest, Char.isAlphanum, h])
  exact forall_ascii (P := fun c => c.isAlpha = true → isBlank c = false ∧ isDecimalDigit c = false)
    (by decide) hascii h

def IsBareMarker (line : List Char) : Prop :=
  ∃ letter c, line.dropWhile isBlank = [letter, c] ∧ letter.isAlpha = true ∧ closesMarker c = true

theorem collapse_dropWhile (cs : List Char) : collapse (cs.dropWhile isBlank) = collapse cs := by
  have hwords := words_append_of_blank_left (s := cs.takeWhile isBlank)
    (fun _ hc => mem_takeWhile hc) (cs.dropWhile isBlank)
  rw [List.takeWhile_append_dropWhile] at hwords
  rw [collapse, ← hwords, collapse]

theorem dropMarker_of_isBareMarker {line : List Char} (h : IsBareMarker line) :
    collapse (dropMarker line) ≠ [] ∧ dropMarker (line ++ ['\r']) = [] := by
  obtain ⟨letter, c, hbody, hletter, hc⟩ := h
  obtain ⟨hletterBlank, hdigit⟩ := letter_cases hletter
  have hreturn : (line ++ ['\r']).dropWhile isBlank = [letter, c, '\r'] := by
    rw [List.dropWhile_append, hbody]
    rfl
  constructor
  · have hkept : dropMarker line = line := by
      simp [dropMarker, hbody, hdigit]
    rw [hkept, ← collapse_dropWhile, hbody, ne_eq, collapse_eq_nil_iff]
    intro hblank
    rw [hblank letter List.mem_cons_self] at hletterBlank
    cases hletterBlank
  · have hblank : isBlank '\r' = true := by decide
    simp [dropMarker, hreturn, hdigit, hletter, hc, hblank]

theorem collapse_dropMarker_return {line : List Char} (h : ¬ IsBareMarker line) :
    collapse (dropMarker (line ++ ['\r'])) = collapse (dropMarker line) := by
  have hblank : isBlank '\r' = true := by decide
  have hcloses : closesMarker '\r' = false := by decide
  have hdigit : isDecimalDigit '\r' = false :=
    Bool.eq_false_iff.mpr fun h => by simp [(digit_cases h).1] at hblank
  have hreturned : ∀ cs : List Char, collapse (cs ++ ['\r']) = collapse cs := by
    intro cs
    rw [collapse, words_concat hblank, collapse]
  have hline := hreturned line
  cases hbody : line.dropWhile isBlank with
  | nil => simp [dropMarker, List.dropWhile_append, hbody, hblank, hline]
  | cons a rest =>
      have hreturn : (line ++ ['\r']).dropWhile isBlank = (a :: rest) ++ ['\r'] := by
        rw [List.dropWhile_append, hbody]
        rfl
      have htake := takeWhile_append_of_neg hdigit [] (a :: rest)
      have hdrop := dropWhile_append_of_neg hdigit [] (a :: rest)
      have hitem : ∀ cs : List Char, collapse ((cs ++ ['\r']).dropWhile isBlank) =
          collapse (cs.dropWhile isBlank) := by
        intro cs
        rw [collapse_dropWhile, collapse_dropWhile, hreturned]
      have hsplit := List.takeWhile_append_dropWhile (p := isDecimalDigit) (l := a :: rest)
      simp only [dropMarker, hreturn, hbody, htake, hdrop]
      generalize (a :: rest).takeWhile isDecimalDigit = digits at hsplit
      generalize (a :: rest).dropWhile isDecimalDigit = after at hsplit
      cases digits with
      | cons d digits =>
          cases after with
          | nil => simp [hcloses, hline]
          | cons c after =>
              simp only [List.cons_append]
              split
              · exact hitem after
              · exact hline
      | nil =>
          rcases after with _ | ⟨letter, _ | ⟨c, _ | ⟨blank, after⟩⟩⟩
          · exact hline
          · exact hline
          · simp only [List.cons_append, List.nil_append]
            rw [if_neg]
            · exact hline
            · intro hmarker
              rw [Bool.and_eq_true, Bool.and_eq_true] at hmarker
              exact h ⟨letter, c, hbody.trans hsplit.symm, hmarker.1⟩
          · simp only [List.cons_append]
            split
            · exact hitem after
            · exact hline

def itemsOfLines (ls : List (List Char)) : List String :=
  (ls.map (fun line => String.ofList (collapse (dropMarker line)))).filter (· ≠ "")

theorem itemsOfLines_cons (l : List Char) (ls : List (List Char)) :
    itemsOfLines (l :: ls) = [String.ofList (collapse (dropMarker l))].filter (· ≠ "") ++
      itemsOfLines ls := by
  rw [itemsOfLines, List.map_cons, ← List.singleton_append, List.filter_append, itemsOfLines]

theorem item_of_isBareMarker {l : List Char} (h : IsBareMarker l) :
    [String.ofList (collapse (dropMarker (l ++ ['\r'])))].filter (· ≠ "") = [] ∧
      [String.ofList (collapse (dropMarker l))].filter (· ≠ "") =
        [String.ofList (collapse (dropMarker l))] := by
  obtain ⟨hne, hreturn⟩ := dropMarker_of_isBareMarker h
  refine ⟨by rw [hreturn]; rfl, ?_⟩
  have hitem : String.ofList (collapse (dropMarker l)) ≠ "" :=
    fun heq => hne (by simpa using congrArg String.toList heq)
  simp [hitem]

theorem sublist_itemsOfLines_returned (ls : List (List Char)) :
    (itemsOfLines (returned ls)).Sublist (itemsOfLines ls) := by
  induction ls using returned.induct with
  | case1 => exact .refl _
  | case2 l => exact .refl _
  | case3 l m rest ih =>
      rw [returned, itemsOfLines_cons, itemsOfLines_cons]
      by_cases h : IsBareMarker l
      · rw [(item_of_isBareMarker h).1, List.nil_append]
        exact ih.trans (List.sublist_append_right _ _)
      · rw [collapse_dropMarker_return h]
        exact ih.append_left _

theorem itemsOfLines_returned_iff (ls : List (List Char)) :
    itemsOfLines (returned ls) = itemsOfLines ls ↔ ∀ l ∈ ls.dropLast, ¬ IsBareMarker l := by
  induction ls using returned.induct with
  | case1 => simp [returned]
  | case2 l => simp [returned]
  | case3 l m rest ih =>
      rw [returned, itemsOfLines_cons, itemsOfLines_cons l, List.dropLast_cons_cons,
        List.forall_mem_cons]
      by_cases h : IsBareMarker l
      · obtain ⟨hreturn, hitem⟩ := item_of_isBareMarker h
        rw [hreturn, hitem]
        refine iff_of_false (fun heq => ?_) (fun hall => hall.1 h)
        have hlength := (sublist_itemsOfLines_returned (m :: rest)).length_le
        rw [List.nil_append] at heq
        rw [heq, List.length_append, List.length_singleton] at hlength
        omega
      · rw [collapse_dropMarker_return h, List.append_cancel_left_eq, ih]
        exact (and_iff_right h).symm

theorem lineItems_withReturns_iff (source : List Char) :
    lineItems (withReturns source) = lineItems source ↔
      ∀ l ∈ (lines source).dropLast, ¬ IsBareMarker l := by
  rw [← itemsOfLines_returned_iff, ← lines_withReturns]
  rfl

theorem trim_toList_withReturns (text : String) :
    Chars.trim (Text.withReturns text).toList = withReturns (Chars.trim text.toList) := by
  rw [Text.withReturns, String.toList_ofList, trim_withReturns]

theorem fst_read_withReturns_iff (text : String) :
    (read (Text.withReturns text)).1 = (read text).1 ↔
      '|' ∈ Chars.trim text.toList ∨
        ∀ l ∈ (lines (Chars.trim text.toList)).dropLast, ¬ IsBareMarker l := by
  have htrim := trim_toList_withReturns text
  by_cases hpipe : '|' ∈ Chars.trim text.toList
  · have hpipe' : '|' ∈ Chars.trim (Text.withReturns text).toList := by
      rw [htrim, mem_withReturns (by decide)]
      exact hpipe
    refine iff_of_true ?_ (.inl hpipe)
    rw [read_of_pipe_mem hpipe', read_of_pipe_mem hpipe, Text.withReturns, String.toList_ofList,
      splitPipes_withReturns]
  · rw [or_iff_right hpipe]
    cases hsource : Chars.trim text.toList with
    | nil =>
        rw [hsource] at htrim
        refine iff_of_true ?_ (fun l hl => absurd hl List.not_mem_nil)
        simp only [read, htrim, hsource]
        rfl
    | cons c cs =>
        have hne : Chars.trim text.toList ≠ [] := hsource ▸ List.cons_ne_nil c cs
        have hne' : Chars.trim (Text.withReturns text).toList ≠ [] := by
          rw [htrim, ne_eq, withReturns_eq_nil_iff]
          exact hne
        have hpipe' : '|' ∉ Chars.trim (Text.withReturns text).toList := by
          rw [htrim, mem_withReturns (by decide)]
          exact hpipe
        rw [read_of_pipe_not_mem hne' hpipe', read_of_pipe_not_mem hne hpipe, htrim, ← hsource,
          ← lineItems_withReturns_iff, Seriation.mk.injEq]

theorem snd_read (text : String) :
    (read text).2 =
      if Chars.trim text.toList = [] then [.emptyInput] else countDefects (read text).1.items := by
  simp only [← List.isEmpty_iff, read]
  split <;> rfl

theorem read_withReturns_iff (text : String) :
    read (Text.withReturns text) = read text ↔
      (read (Text.withReturns text)).1 = (read text).1 := by
  constructor
  · exact fun h => congrArg Prod.fst h
  · intro h
    refine Prod.ext h ?_
    rw [snd_read, snd_read, trim_toList_withReturns, h]
    simp only [withReturns_eq_nil_iff]

end Worksheet.Seriation
