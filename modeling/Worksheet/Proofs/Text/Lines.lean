import Worksheet.Proofs.Text.Collapse

namespace Worksheet.Chars

theorem unlines_lines (cs : List Char) : unlines (lines cs) = cs :=
  intercalate_pieces '\n' cs

theorem lines_unlines {ls : List (List Char)} (hne : ls ≠ []) (h : ∀ l ∈ ls, '\n' ∉ l) :
    lines (unlines ls) = ls := by
  refine pieces_intercalate rfl hne ?_
  intro l hl c hc
  have hcn : c ≠ '\n' := by
    rintro rfl
    exact h l hl hc
  exact beq_false_of_ne hcn

theorem lines_ne_nil (cs : List Char) : lines cs ≠ [] := pieces_ne_nil _ cs

theorem not_mem_of_mem_lines {cs l : List Char} (h : l ∈ lines cs) : '\n' ∉ l := by
  intro hn
  have hfalse := (mem_of_mem_pieces h hn).2
  exact absurd hfalse (by decide)

theorem lines_append_newline {l : List Char} (h : '\n' ∉ l) (cs : List Char) :
    lines (l ++ '\n' :: cs) = l :: lines cs :=
  pieces_append_cons (by rfl) cs (fun _ hc => beq_false_of_ne (fun heq => h (heq ▸ hc)))

theorem lines_of_not_mem {l : List Char} (h : '\n' ∉ l) : lines l = [l] :=
  pieces_of_forall_not (fun _ hc => beq_false_of_ne (fun heq => h (heq ▸ hc)))

theorem unlines_cons {ls : List (List Char)} (h : ls ≠ []) (l : List Char) :
    unlines (l :: ls) = l ++ '\n' :: unlines ls := by
  obtain ⟨first, others, rfl⟩ := List.exists_cons_of_ne_nil h
  rw [unlines, List.intercalate_cons_cons, List.append_assoc, List.singleton_append, unlines]

theorem unlines_cons_lines (l cs : List Char) : unlines (l :: lines cs) = l ++ '\n' :: cs := by
  rw [unlines_cons (lines_ne_nil cs), unlines_lines]

def EndsLine (cs : List Char) : Prop := cs = [] ∨ ∃ init, cs = init ++ ['\n']

theorem endsLine_append_newline (cs : List Char) : EndsLine (cs ++ ['\n']) := Or.inr ⟨cs, rfl⟩

theorem EndsLine.append {t : List Char} (h : EndsLine t) (s : List Char) :
    EndsLine (s ++ '\n' :: t) := by
  rcases h with rfl | ⟨init, rfl⟩
  · exact endsLine_append_newline s
  · rw [← List.cons_append, ← List.append_assoc]
    exact endsLine_append_newline _

theorem EndsLine.drop {cs : List Char} (h : EndsLine cs) (n : Nat) : EndsLine (cs.drop n) := by
  rcases h with rfl | ⟨init, rfl⟩
  · exact Or.inl List.drop_nil
  · rcases Nat.lt_or_ge init.length n with hn | hn
    · left
      apply List.drop_eq_nil_of_le
      simpa using Nat.succ_le_of_lt hn
    · rw [List.drop_append_of_le_length hn]
      exact endsLine_append_newline _

theorem EndsLine.words_append {s : List Char} (h : EndsLine s) (t : List Char) :
    words (s ++ t) = words s ++ words t := by
  rcases h with rfl | ⟨init, rfl⟩
  · rfl
  · rw [List.append_assoc, List.singleton_append, words_append_cons (by decide),
      words_append_cons (by decide)]
    simp [words, pieces_nil]

def closeLines (ls : List (List Char)) : List Char := ls.flatMap (· ++ ['\n'])

theorem closeLines_cons (l : List Char) (ls : List (List Char)) :
    closeLines (l :: ls) = l ++ '\n' :: closeLines ls := by
  rw [closeLines, List.flatMap_cons, List.append_assoc, List.singleton_append]
  rfl

theorem closeLines_append (ls ms : List (List Char)) :
    closeLines (ls ++ ms) = closeLines ls ++ closeLines ms := List.flatMap_append

theorem endsLine_closeLines (ls : List (List Char)) : EndsLine (closeLines ls) := by
  induction ls with
  | nil => exact Or.inl rfl
  | cons l ls ih =>
      rw [closeLines_cons]
      exact ih.append l

theorem count_closeLines {ls : List (List Char)} (h : ∀ l ∈ ls, '\n' ∉ l) :
    (closeLines ls).count '\n' = ls.length := by
  induction ls with
  | nil => rfl
  | cons l ls ih =>
      rw [closeLines_cons, List.count_append, List.count_cons_self,
        List.count_eq_zero_of_not_mem (h l List.mem_cons_self),
        ih (fun m hm => h m (List.mem_cons_of_mem _ hm)), Nat.zero_add, List.length_cons]

theorem closeLines_eq_unlines_append {ls : List (List Char)} (h : ls ≠ []) :
    closeLines ls = unlines ls ++ ['\n'] := by
  induction ls with
  | nil => exact absurd rfl h
  | cons l ls ih =>
      rw [closeLines_cons]
      cases ls with
      | nil => rw [unlines, List.intercalate_singleton]; rfl
      | cons m ls =>
          rw [ih (List.cons_ne_nil m ls), unlines, unlines, List.intercalate_cons_cons,
            List.append_assoc, List.append_assoc, List.singleton_append]

def insertLine (n : Nat) (line cs : List Char) : List Char :=
  unlines ((lines cs).take n ++ line :: (lines cs).drop n)

end Worksheet.Chars
