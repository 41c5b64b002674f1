import Worksheet.Proofs.Text.Collapse
import Worksheet.Text.Pipes

namespace Worksheet

namespace Chars

variable {lead trail : List Char}

theorem mem_takeWhile {p : Char → Bool} {c : Char} {cs : List Char} (h : c ∈ cs.takeWhile p) :
    p c = true := List.all_eq_true.mp List.all_takeWhile c h

theorem exists_margins (cs : List Char) :
    ∃ lead trail, cs = lead ++ (trim cs ++ trail) ∧ (∀ c ∈ lead, isBlank c = true) ∧
      ∀ c ∈ trail, isBlank c = true := by
  refine ⟨cs.takeWhile isBlank, ((trimStart cs).reverse.takeWhile isBlank).reverse, ?_, ?_, ?_⟩
  · rw [trim, trimEnd, ← List.reverse_append, List.takeWhile_append_dropWhile, List.reverse_reverse,
      trimStart, List.takeWhile_append_dropWhile]
  · exact fun c hc => mem_takeWhile hc
  · exact fun c hc => mem_takeWhile (List.mem_reverse.mp hc)

theorem trimEnd_append {t : List Char} (h : trimEnd t ≠ []) (s : List Char) :
    trimEnd (s ++ t) = s ++ trimEnd t := by
  have hne : (t.reverse.dropWhile isBlank).isEmpty = false := by
    rw [List.isEmpty_eq_false_iff]
    intro hnil
    rw [trimEnd, hnil] at h
    exact h rfl
  rw [trimEnd, List.reverse_append, List.dropWhile_append, hne, if_neg (by simp),
    List.reverse_append, List.reverse_reverse, trimEnd]

theorem trimEnd_append_cons {c : Char} (hc : isBlank c = false) (s t : List Char) :
    trimEnd (s ++ c :: t) = s ++ c :: trimEnd t := by
  have hreverse : (s ++ c :: t).reverse = t.reverse ++ c :: s.reverse := by simp
  rw [trimEnd, hreverse, dropWhile_append_of_neg hc, List.reverse_append, List.reverse_cons,
    List.reverse_reverse, List.append_assoc, List.singleton_append, trimEnd]

theorem trim_append_cons {c : Char} (hc : isBlank c = false) (s t : List Char) :
    trim (s ++ c :: t) = trimStart s ++ c :: trimEnd t := by
  rw [trim, trimStart, dropWhile_append_of_neg hc, trimEnd_append_cons hc, trimStart]

theorem trim_append_of_blank_left (hl : ∀ c ∈ lead, isBlank c = true) (s : List Char) :
    trim (lead ++ s) = trim s := by
  rw [trim, trimStart, List.dropWhile_append_of_pos hl, trim, trimStart]

theorem trimEnd_append_of_blank (ht : ∀ c ∈ trail, isBlank c = true) (s : List Char) :
    trimEnd (s ++ trail) = trimEnd s := by
  rw [trimEnd, List.reverse_append,
    List.dropWhile_append_of_pos (fun c hc => ht c (List.mem_reverse.mp hc)), trimEnd]

theorem trim_append_of_blank_right (ht : ∀ c ∈ trail, isBlank c = true) (s : List Char) :
    trim (s ++ trail) = trim s := by
  rw [trim, trimStart, List.dropWhile_append, trim, trimStart]
  split
  · next hstart => rw [List.isEmpty_iff.mp hstart, dropWhile_of_forall ht]
  · rw [trimEnd_append_of_blank ht]

theorem trim_trim (cs : List Char) : trim (trim cs) = trim cs := by
  obtain ⟨lead, trail, hcs, hl, ht⟩ := exists_margins cs
  conv => rhs; rw [hcs, trim_append_of_blank_left hl, trim_append_of_blank_right ht]

theorem trim_eq_nil_iff {cs : List Char} : trim cs = [] ↔ ∀ c ∈ cs, isBlank c = true := by
  constructor
  · obtain ⟨lead, trail, hcs, hl, ht⟩ := exists_margins cs
    intro h c hc
    rw [hcs, h, List.nil_append, List.mem_append] at hc
    exact hc.elim (hl c) (ht c)
  · intro h
    rw [trim, trimStart, dropWhile_of_forall h]
    rfl

theorem trim_append_append (hl : ∀ c ∈ lead, isBlank c = true) (ht : ∀ c ∈ trail, isBlank c = true)
    {x y : Char} (hx : isBlank x = false) (hy : isBlank y = false) (mid : List Char) :
    trim (lead ++ x :: (mid ++ y :: trail)) = x :: (mid ++ [y]) := by
  have hstart : trimStart (x :: mid) = x :: mid := List.dropWhile_cons_of_neg (by simp [hx])
  have hend : trimEnd trail = [] := trimEnd_append_of_blank ht []
  rw [trim_append_of_blank_left hl, ← List.cons_append, trim_append_cons hy, hstart, hend,
    List.cons_append]

theorem splitPipes_append_pipe (s t : List Char) :
    splitPipes (s ++ '|' :: t) = splitPipes s ++ splitPipes t := by
  rw [splitPipes, pieces_append_of_pos (by rfl), List.map_append, List.filter_append]
  rfl

theorem splitPipes_of_not_mem {s : List Char} (h : '|' ∉ s) :
    splitPipes s = [String.ofList (collapse s)].filter (· ≠ "") := by
  have hpipe : ∀ c ∈ s, (c == '|') = false := by
    intro c hc
    exact beq_false_of_ne (fun heq => h (heq ▸ hc))
  rw [splitPipes, pieces_of_forall_not hpipe, List.map_singleton]

theorem splitPipes_append_of_blank_right (ht : ∀ c ∈ trail, isBlank c = true) (s : List Char) :
    splitPipes (s ++ trail) = splitPipes s := by
  induction s using induction_on_pieces '|' with
  | last l hl =>
      have happend : '|' ∉ l ++ trail := by
        rw [List.mem_append, not_or]
        exact ⟨hl, not_mem_of_forall ht (by decide)⟩
      rw [splitPipes_of_not_mem happend, splitPipes_of_not_mem hl, collapse,
        words_append_of_blank_right l ht, collapse]
  | cons l rest _ ih =>
      rw [List.append_assoc, List.cons_append, splitPipes_append_pipe, ih, splitPipes_append_pipe]

theorem splitPipes_append_of_blank_left (hl : ∀ c ∈ lead, isBlank c = true) (s : List Char) :
    splitPipes (lead ++ s) = splitPipes s := by
  have hfirst : ∀ l, '|' ∉ l → splitPipes (lead ++ l) = splitPipes l := by
    intro l h
    have happend : '|' ∉ lead ++ l := by
      rw [List.mem_append, not_or]
      exact ⟨not_mem_of_forall hl (by decide), h⟩
    rw [splitPipes_of_not_mem happend, splitPipes_of_not_mem h, collapse,
      words_append_of_blank_left hl, collapse]
  induction s using induction_on_pieces '|' with
  | last l h => exact hfirst l h
  | cons l rest h _ =>
      rw [← List.append_assoc, splitPipes_append_pipe, hfirst l h, splitPipes_append_pipe]

theorem splitPipes_trim (cs : List Char) : splitPipes (trim cs) = splitPipes cs := by
  obtain ⟨lead, trail, hcs, hl, ht⟩ := exists_margins cs
  conv => rhs; rw [hcs]
  rw [splitPipes_append_of_blank_left hl, splitPipes_append_of_blank_right ht]

theorem trimStart_and_trimEnd_of_trim_eq {cs : List Char} (h : trim cs = cs) :
    trimStart cs = cs ∧ trimEnd cs = cs := by
  have hsuffix : trimStart cs <:+ cs := List.dropWhile_suffix _
  have hlength : cs.length ≤ (trimStart cs).length := by
    have hdrop := (List.dropWhile_suffix isBlank (l := (trimStart cs).reverse)).length_le
    have htrim := congrArg List.length h
    rw [trim, trimEnd, List.length_reverse] at htrim
    rw [List.length_reverse] at hdrop
    omega
  have hstart := hsuffix.eq_of_length_le hlength
  refine ⟨hstart, ?_⟩
  rw [trim, hstart] at h
  exact h

theorem trim_eq_self {cs : List Char} (hhead : ∀ c, cs.head? = some c → isBlank c = false)
    (hlast : ∀ c, cs.getLast? = some c → isBlank c = false) : trim cs = cs := by
  have hdrop : ∀ l : List Char, (∀ c, l.head? = some c → isBlank c = false) →
      l.dropWhile isBlank = l := by
    intro l h
    cases l with
    | nil => rfl
    | cons c l => exact List.dropWhile_cons_of_neg (by simp [h c rfl])
  rw [trim, trimStart, hdrop cs hhead, trimEnd, hdrop, List.reverse_reverse]
  rwa [List.head?_reverse]

theorem exists_head_of_intercalate {sep : List Char} {ws : List (List Char)} {c : Char}
    (hne : ∀ w ∈ ws, w ≠ []) (hc : (sep.intercalate ws).head? = some c) :
    ∃ w ∈ ws, w.head? = some c := by
  cases ws with
  | nil => simp [List.intercalate] at hc
  | cons w ws =>
      obtain ⟨d, rest, rfl⟩ := List.exists_cons_of_ne_nil (hne w List.mem_cons_self)
      refine ⟨d :: rest, List.mem_cons_self, ?_⟩
      cases ws with
      | nil => rwa [List.intercalate_singleton] at hc
      | cons v ws => rwa [List.intercalate_cons_cons] at hc

theorem exists_getLast_of_intercalate {sep : List Char} {c : Char} :
    ∀ {ws : List (List Char)}, (∀ w ∈ ws, w ≠ []) → (sep.intercalate ws).getLast? = some c →
      ∃ w ∈ ws, w.getLast? = some c := by
  intro ws
  induction ws with
  | nil => intro _ hc; simp [List.intercalate] at hc
  | cons w ws ih =>
      intro hne hc
      cases ws with
      | nil =>
          rw [List.intercalate_singleton] at hc
          exact ⟨w, List.mem_cons_self, hc⟩
      | cons v ws =>
          have hrest : sep.intercalate (v :: ws) ≠ [] := by
            have hv := hne v (List.mem_cons_of_mem w List.mem_cons_self)
            cases ws with
            | nil => rwa [List.intercalate_singleton]
            | cons u ws => simp [List.intercalate_cons_cons, hv]
          obtain ⟨d, hd⟩ := Option.ne_none_iff_exists'.mp (mt List.getLast?_eq_none_iff.mp hrest)
          rw [List.intercalate_cons_cons, List.getLast?_append, hd, Option.some_or] at hc
          obtain ⟨u, hu, hlast⟩ := ih (fun x hx => hne x (List.mem_cons_of_mem w hx)) (hd.trans hc)
          exact ⟨u, List.mem_cons_of_mem w hu, hlast⟩

theorem not_isBlank_head_collapse {cs : List Char} {c : Char} (hc : (collapse cs).head? = some c) :
    isBlank c = false := by
  obtain ⟨w, hw, hhead⟩ := exists_head_of_intercalate (fun _ hw => (isWord_of_mem_words hw).1) hc
  exact (isWord_of_mem_words hw).2 c (List.mem_of_head? hhead)

theorem not_isBlank_last_collapse {cs : List Char} {c : Char}
    (hc : (collapse cs).getLast? = some c) : isBlank c = false := by
  obtain ⟨w, hw, hlast⟩ := exists_getLast_of_intercalate (fun _ hw => (isWord_of_mem_words hw).1) hc
  exact (isWord_of_mem_words hw).2 c (List.mem_of_getLast? hlast)

end Chars

namespace Text

theorem IsItem.exists_cons {s : String} (h : IsItem s) :
    ∃ c cs, s.toList = c :: cs ∧ Worksheet.isBlank c = false := by
  have hne : s.toList ≠ [] := mt String.toList_eq_nil_iff.mp h.1
  obtain ⟨c, cs, hcs⟩ := List.exists_cons_of_ne_nil hne
  have hhead : (Chars.collapse s.toList).head? = some c := by
    rw [toList_of_collapse_eq h.2, hcs]
    rfl
  exact ⟨c, cs, hcs, Chars.not_isBlank_head_collapse hhead⟩

theorem IsItem.not_isBlank_getLast {s : String} (h : IsItem s) {c : Char}
    (hc : s.toList.getLast? = some c) : Worksheet.isBlank c = false := by
  rw [← toList_of_collapse_eq h.2] at hc
  exact Chars.not_isBlank_last_collapse hc

end Text

end Worksheet
