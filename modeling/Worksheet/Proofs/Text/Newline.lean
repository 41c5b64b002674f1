import Mathlib.Data.List.Induction
import Worksheet.Proofs.Text.Lines
import Worksheet.Proofs.Text.Trim
import Worksheet.Text.Newline

namespace Worksheet

namespace Chars

def withReturns (cs : List Char) : List Char :=
  cs.flatMap (fun c => if c = '\n' then ['\r', '\n'] else [c])

theorem withReturns_newline (cs : List Char) :
    withReturns ('\n' :: cs) = '\r' :: '\n' :: withReturns cs := rfl

theorem withReturns_cons {c : Char} (h : c ≠ '\n') (cs : List Char) :
    withReturns (c :: cs) = c :: withReturns cs := by
  simp [withReturns, h]

theorem withReturns_append (cs ds : List Char) :
    withReturns (cs ++ ds) = withReturns cs ++ withReturns ds :=
  List.flatMap_append

theorem withReturns_of_not_mem {l : List Char} (h : '\n' ∉ l) : withReturns l = l := by
  induction l with
  | nil => rfl
  | cons c l ih =>
      simp only [List.mem_cons, not_or] at h
      rw [withReturns_cons (Ne.symm h.1), ih h.2]

theorem withReturns_append_newline {l : List Char} (h : '\n' ∉ l) (rest : List Char) :
    withReturns (l ++ '\n' :: rest) = l ++ '\r' :: '\n' :: withReturns rest := by
  rw [withReturns_append, withReturns_of_not_mem h, withReturns_newline]

theorem mem_withReturns {c : Char} (h : c ≠ '\r') {cs : List Char} :
    c ∈ withReturns cs ↔ c ∈ cs := by
  rw [withReturns, List.mem_flatMap]
  constructor
  · rintro ⟨d, hd, hc⟩
    split at hc
    · next hn => simp_all
    · simp_all
  · intro hc
    refine ⟨c, hc, ?_⟩
    split
    · next hn => simp [hn]
    · simp

theorem withReturns_eq_nil_iff {cs : List Char} : withReturns cs = [] ↔ cs = [] := by
  cases cs with
  | nil => exact iff_of_true rfl rfl
  | cons c cs =>
      refine iff_of_false ?_ (List.cons_ne_nil c cs)
      by_cases hc : c = '\n'
      · exact hc ▸ List.cons_ne_nil _ _
      · exact withReturns_cons hc cs ▸ List.cons_ne_nil _ _

theorem unifyNewlines_cons {c : Char} (h : c ≠ '\r') (cs : List Char) :
    unifyNewlines (c :: cs) = c :: unifyNewlines cs := by
  rw [unifyNewlines]
  · exact fun _ hc _ => h hc
  · exact h

theorem unifyNewlines_of_not_mem {cs : List Char} (h : '\r' ∉ cs) : unifyNewlines cs = cs := by
  induction cs with
  | nil => rfl
  | cons c cs ih =>
      simp only [List.mem_cons, not_or] at h
      rw [unifyNewlines_cons (Ne.symm h.1), ih h.2]

theorem unifyNewlines_withReturns {cs : List Char} (h : '\r' ∉ cs) :
    unifyNewlines (withReturns cs) = cs := by
  induction cs with
  | nil => rfl
  | cons c cs ih =>
      simp only [List.mem_cons, not_or] at h
      by_cases hc : c = '\n'
      · subst hc
        rw [withReturns_newline, unifyNewlines, ih h.2]
      · rw [withReturns_cons hc, unifyNewlines_cons (Ne.symm h.1), ih h.2]

def returned : List (List Char) → List (List Char)
  | [] => []
  | [l] => [l]
  | l :: m :: rest => (l ++ ['\r']) :: returned (m :: rest)

theorem returned_cons {ls : List (List Char)} (h : ls ≠ []) (l : List Char) :
    returned (l :: ls) = (l ++ ['\r']) :: returned ls := by
  cases ls with
  | nil => exact absurd rfl h
  | cons m rest => rfl

theorem lines_withReturns (cs : List Char) : lines (withReturns cs) = returned (lines cs) := by
  induction cs using induction_on_pieces '\n' with
  | last l h => rw [withReturns_of_not_mem h, lines_of_not_mem h, returned]
  | cons l rest h ih =>
      have hreturn : '\n' ∉ l ++ ['\r'] := by simp [h]
      rw [withReturns_append_newline h, List.append_cons, lines_append_newline hreturn,
        lines_append_newline h, returned_cons (lines_ne_nil rest), ih]

theorem words_concat {c : Char} (hc : isBlank c = true) (cs : List Char) :
    words (cs ++ [c]) = words cs :=
  words_append_of_blank_right cs (fun _ hd => List.mem_singleton.mp hd ▸ hc)

theorem words_withReturns (cs : List Char) : words (withReturns cs) = words cs := by
  induction cs using induction_on_pieces '\n' with
  | last l h => rw [withReturns_of_not_mem h]
  | cons l rest h ih =>
      rw [withReturns_append_newline h, words_append_cons (by decide), words_cons_of_blank (by decide),
        ih, words_append_cons (by decide)]

theorem collapse_withReturns (cs : List Char) : collapse (withReturns cs) = collapse cs := by
  rw [collapse, words_withReturns, collapse]

theorem splitPipes_withReturns (cs : List Char) : splitPipes (withReturns cs) = splitPipes cs := by
  have hfirst : ∀ l, '|' ∉ l → splitPipes (withReturns l) = splitPipes l := by
    intro l h
    have hpipe : '|' ∉ withReturns l := mt (mem_withReturns (by decide)).mp h
    rw [splitPipes_of_not_mem hpipe, splitPipes_of_not_mem h, collapse_withReturns]
  induction cs using induction_on_pieces '|' with
  | last l h => exact hfirst l h
  | cons l rest h ih =>
      rw [withReturns_append, withReturns_cons (by decide), splitPipes_append_pipe, hfirst l h, ih,
        splitPipes_append_pipe]

theorem trimEnd_concat (cs : List Char) (c : Char) :
    trimEnd (cs ++ [c]) = if isBlank c then trimEnd cs else cs ++ [c] := by
  rw [trimEnd, List.reverse_concat, List.dropWhile_cons]
  split
  · rfl
  · rw [List.reverse_cons, List.reverse_reverse]

theorem trim_concat {c : Char} (hc : isBlank c = true) (cs : List Char) :
    trim (cs ++ [c]) = trim cs :=
  trim_append_of_blank_right (fun _ hd => List.mem_singleton.mp hd ▸ hc) cs

theorem trimStart_withReturns (cs : List Char) :
    trimStart (withReturns cs) = withReturns (trimStart cs) := by
  induction cs with
  | nil => rfl
  | cons c cs ih =>
      by_cases hn : c = '\n'
      · subst hn
        exact ih
      · rw [withReturns_cons hn, trimStart, trimStart, List.dropWhile_cons, List.dropWhile_cons]
        split
        · exact ih
        · exact (withReturns_cons hn cs).symm

theorem trimEnd_withReturns (cs : List Char) :
    trimEnd (withReturns cs) = withReturns (trimEnd cs) := by
  induction cs using List.reverseRecOn with
  | nil => rfl
  | append_singleton cs c ih =>
      rw [withReturns_append, trimEnd_concat]
      by_cases hn : c = '\n'
      · subst hn
        have hreturn : withReturns ['\n'] = ['\r', '\n'] := rfl
        rw [hreturn, List.append_cons, trimEnd_concat, trimEnd_concat]
        exact ih
      · have hone : withReturns [c] = [c] := withReturns_cons hn []
        rw [hone, trimEnd_concat]
        split
        · exact ih
        · rw [withReturns_append, hone]

theorem trim_withReturns (cs : List Char) : trim (withReturns cs) = withReturns (trim cs) := by
  rw [trim, trimStart_withReturns, trimEnd_withReturns, trim]

end Chars

namespace Text

def withReturns (s : String) : String := .ofList (Chars.withReturns s.toList)

end Text

end Worksheet
