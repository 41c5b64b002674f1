import Worksheet.Proofs.Markup.DistractorLine
import Worksheet.Proofs.Markup.LineEnd

namespace Worksheet.Markup

open Chars

def IsNoted (line : List Char) : Prop := startsComment ((line.dropWhile (· != ';')).drop 1) = true

instance (line : List Char) : Decidable (IsNoted line) := inferInstanceAs (Decidable (_ = _))

theorem drop_dropWhile_semicolon {front : List Char} (h : ';' ∉ front) (tail : List Char) :
    ((front ++ ';' :: tail).dropWhile (· != ';')).drop 1 = tail := by
  have hopen : ∀ c ∈ front, (c != ';') = true :=
    fun c hc => bne_iff_ne.mpr (fun heq => h (heq ▸ hc))
  rw [List.dropWhile_append_of_pos hopen, List.dropWhile_cons_of_neg (by decide)]
  rfl

theorem semicolon_not_mem_front {head body : List Char} (hhead : ∀ c ∈ head, isIndent c = true)
    (hbody : ';' ∉ body) : ';' ∉ head ++ '=' :: body := by
  intro h
  rcases List.mem_append.mp h with h | h
  · exact absurd (hhead _ h) (by decide)
  · rcases List.mem_cons.mp h with h | h
    · exact absurd h (by decide)
    · exact hbody h

theorem isNoted_append {head body : List Char} (hhead : ∀ c ∈ head, isIndent c = true)
    (hbody : ';' ∉ body) (tail : List Char) :
    IsNoted (head ++ '=' :: (body ++ ';' :: tail)) ↔ startsComment tail = true := by
  rw [IsNoted, ← List.cons_append, ← List.append_assoc,
    drop_dropWhile_semicolon (semicolon_not_mem_front hhead hbody)]

theorem distractorBody?_of_isNoted {line body : List Char} (h : distractorBody? line = some body)
    (hnoted : IsNoted line) : distractorBody? (line ++ ['\r']) = some body := by
  obtain ⟨head, tail, rfl, hhead, hbody, -⟩ := distractorBody?_eq_some h
  rw [isNoted_append hhead hbody] at hnoted
  rw [List.append_assoc, List.cons_append, List.append_assoc, List.cons_append]
  refine distractorBody?_append hhead hbody (.inr ?_)
  rw [startsComment_append_return, hnoted]

theorem of_distractorBody?_append_return {line body : List Char}
    (h : distractorBody? (line ++ ['\r']) = some body) :
    distractorBody? line = some body ∧ IsNoted line := by
  obtain ⟨head, tail, hline, hhead, hbody, htail⟩ := distractorBody?_eq_some h
  rcases List.eq_nil_or_concat tail with rfl | ⟨note, c, rfl⟩
  · have hlast : (line ++ ['\r']).getLast? = some ';' := by
      rw [hline, ← List.cons_append, ← List.append_assoc, List.getLast?_concat]
    rw [List.getLast?_concat] at hlast
    exact absurd hlast (by decide)
  · have hparts : line ++ ['\r'] = (head ++ '=' :: (body ++ ';' :: note)) ++ [c] := by
      rw [hline]
      simp
    obtain ⟨rfl, hc⟩ := List.append_inj' hparts rfl
    obtain rfl : '\r' = c := List.head_eq_of_cons_eq hc
    have hcomment : startsComment note = true := by
      rcases htail with hindent | hcomment
      · exact absurd (hindent '\r' (by simp)) (by decide)
      · rwa [List.concat_eq_append, startsComment_append_return] at hcomment
    exact ⟨distractorBody?_append hhead hbody (.inr hcomment),
      (isNoted_append hhead hbody note).mpr hcomment⟩

theorem distractorBody?_append_return (line : List Char) :
    distractorBody? (line ++ ['\r']) = if IsNoted line then distractorBody? line else none := by
  cases hreturn : distractorBody? (line ++ ['\r']) with
  | some body =>
      obtain ⟨hbody, hnoted⟩ := of_distractorBody?_append_return hreturn
      rw [if_pos hnoted, hbody]
  | none =>
      split
      · next hnoted =>
          cases hbody : distractorBody? line with
          | none => rfl
          | some body => exact hreturn.symm.trans (distractorBody?_of_isNoted hbody hnoted)
      · rfl

def returnedBodies : List (List Char) → List (Option (List Char))
  | [] => []
  | [l] => [distractorBody? l]
  | l :: m :: rest => (if IsNoted l then distractorBody? l else none) :: returnedBodies (m :: rest)

theorem map_distractorBody?_returned (ls : List (List Char)) :
    (returned ls).map distractorBody? = returnedBodies ls := by
  induction ls using returnedBodies.induct with
  | case1 => rfl
  | case2 l => rfl
  | case3 l m rest ih =>
      rw [returned, List.map_cons, ih, distractorBody?_append_return, returnedBodies]

def remaining (line : List Char) (body : Option (List Char)) : List Char :=
  if body.isSome then [] else line

def extractReturned (source : List Char) : Extraction :=
  let ls := lines source
  let bodies := returnedBodies ls
  ⟨distinct ((bodies.filterMap id).flatMap bodyItems),
    unlines (ls.zipWith remaining bodies)⟩

theorem sameLine_returned (ls : List (List Char)) : List.Forall₂ SameLine (returned ls) ls := by
  induction ls using returned.induct with
  | case1 => exact .nil
  | case2 l => exact .cons (.inl rfl) .nil
  | case3 l m rest ih => exact .cons (.inr rfl) ih

theorem sameLine_emptied {ms ls : List (List Char)} (h : List.Forall₂ SameLine ms ls) :
    List.Forall₂ SameLine (ms.map emptied)
      (ls.zipWith remaining (ms.map distractorBody?)) := by
  induction h with
  | nil => exact .nil
  | @cons m l ms ls hline _ ih =>
      refine .cons ?_ ih
      rw [emptied, remaining]
      split
      · exact .inl rfl
      · exact hline

theorem readDocument_extract_withReturns (rule : LabelRule) (source : List Char) :
    let found := extractDistractors (withReturns source)
    found.items = (extractReturned source).items ∧
      readDocument rule found.remainder = readDocument rule (extractReturned source).remainder := by
  intro found
  have hitems : (lines (withReturns source)).filterMap distractorBody? =
      (returnedBodies (lines source)).filterMap id := by
    rw [lines_withReturns, ← map_distractorBody?_returned, List.filterMap_map]
    rfl
  have hlines := sameLine_emptied (sameLine_returned (lines source))
  rw [map_distractorBody?_returned, ← lines_withReturns] at hlines
  refine ⟨?_, readDocument_unlines_congr rule hlines⟩
  change distinct _ = distinct _
  rw [hitems]

theorem returnedBodies_of_isNoted {ls : List (List Char)}
    (h : ∀ l ∈ ls.dropLast, (distractorBody? l).isSome = true → IsNoted l) :
    returnedBodies ls = ls.map distractorBody? := by
  induction ls using returnedBodies.induct with
  | case1 => rfl
  | case2 l => rfl
  | case3 l m rest ih =>
      rw [List.dropLast_cons_cons, List.forall_mem_cons] at h
      have hbody : (if IsNoted l then distractorBody? l else none) = distractorBody? l := by
        split
        · rfl
        · next hn => exact (Option.not_isSome_iff_eq_none.mp (mt h.1 hn)).symm
      rw [returnedBodies, hbody, ih h.2, List.map_cons, List.map_cons, List.map_cons]

theorem extractReturned_of_isNoted {source : List Char}
    (h : ∀ l ∈ (lines source).dropLast, (distractorBody? l).isSome = true → IsNoted l) :
    extractReturned source = extractDistractors source := by
  rw [extractReturned, returnedBodies_of_isNoted h, extractDistractors]
  simp [List.filterMap_map, List.zipWith_map_right, remaining]

theorem distractorBody?_of_sameLine {m l body : List Char} (h : SameLine m l)
    (hm : distractorBody? m = some body) : distractorBody? l = some body := by
  rcases h with rfl | rfl
  · exact hm
  · exact (of_distractorBody?_append_return hm).1

theorem extends_sameLine (rule : LabelRule) {above : List (List Char)} {m l : List Char}
    (hline : SameLine m l) (hn : '\n' ∉ l)
    (h : (distractorBody? l).isSome = true → Settled (scan (closeLines above)) ∧
      depthAfter 0 (scan (closeLines above ++ l.takeWhile (· != ';'))) = 0)
    (below : List (List Char)) :
    Document.Extends (((distractorBody? m).map bodyItems).getD [])
      (readDocument rule (closeLines (above ++ l :: below)))
      (readDocument rule (closeLines (above ++ emptied m :: below))) := by
  cases hm : distractorBody? m with
  | some body =>
      have hl := distractorBody?_of_sameLine hline hm
      have hextends := extends_emptied rule hn h below
      rw [emptied, hl] at hextends
      rw [emptied, hm]
      exact hextends
  | none =>
      have hsame : List.Forall₂ SameLine (m :: below) (l :: below) :=
        .cons hline (List.forall₂_same.mpr (fun _ _ => .inl rfl))
      rw [emptied, hm, closeLines_append, closeLines_append]
      simp only [Option.isSome_none, Bool.false_eq_true, if_false]
      rw [readDocument_closeLines rule hsame]
      exact .refl _

theorem readDocument_withReturns_apart (rule : LabelRule) {source : List Char}
    (h : DistractorsApart [] (lines source)) :
    let whole := readDocument rule source
    let found := extractDistractors (withReturns source)
    let rest := readDocument rule found.remainder
    whole.labelled = rest.labelled ∧
      ∀ item, item ∈ whole.unlabelled.flatMap (·.items) ↔
        item ∈ found.items ∨ item ∈ rest.unlabelled.flatMap (·.items) := by
  intro whole found rest
  have hextends := extends_lines (extends_sameLine rule) (sameLine_returned (lines source))
    (fun l hl => not_mem_of_mem_lines hl) h
  have hwhole : readDocument rule (closeLines ([] ++ lines source)) = whole := by
    rw [List.nil_append, ← readDocument_unlines, unlines_lines]
  have hrest : readDocument rule (closeLines ([] ++ (returned (lines source)).map emptied)) = rest := by
    rw [List.nil_append, ← readDocument_unlines, ← lines_withReturns]
    rfl
  rw [hwhole, hrest, ← lines_withReturns] at hextends
  refine ⟨hextends.labelled, fun item => ?_⟩
  rw [hextends.unlabelled]
  change _ ↔ item ∈ distinct _ ∨ _
  rw [mem_distinct]

end Worksheet.Markup
