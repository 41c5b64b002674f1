import Worksheet.Proofs.Grade
import Worksheet.Proofs.Sequence
import Worksheet.Proofs.Seriation.Validation
import Worksheet.Seriation.Grading

namespace Worksheet.Seriation

open Score

def placeVerdict (index : Nat) (place : Option Nat) : Verdict :=
  match place with
  | none => .wrong
  | some place =>
      if place = index then .correct
      else if place + 1 = index ∨ place = index + 1 then .missed
      else .wrong

def verdictsFrom (index : Nat) (userOrder : List String) : List String → List ItemVerdict
  | [] => []
  | item :: items =>
      ⟨item, none, placeVerdict index (userOrder.idxOf? item)⟩ ::
        verdictsFrom (index + 1) userOrder items

def credit : Verdict → Nat
  | .correct => exactCredit
  | .missed => adjacentCredit
  | .wrong => 0

def credits : List ItemVerdict → Nat
  | [] => 0
  | v :: verdicts => credit v.verdict + credits verdicts

section Tally

def PlaceTally.including (t : PlaceTally) (more : List ItemVerdict) : PlaceTally :=
  ⟨t.points + credits more, t.exact + countOf .correct more, t.verdicts ++ more.toArray⟩

theorem credits_append (verdicts more : List ItemVerdict) :
    credits (verdicts ++ more) = credits verdicts + credits more := by
  induction verdicts with
  | nil => simp [credits]
  | cons v verdicts ih => rw [List.cons_append, credits, credits, ih, Nat.add_assoc]

theorem countPlace_eq (userOrder : List String) (t : PlaceTally) (place : String × Nat) :
    countPlace userOrder t place =
      t.including [⟨place.1, none, placeVerdict place.2 (userOrder.idxOf? place.1)⟩] := by
  obtain ⟨item, index⟩ := place
  rw [countPlace]
  cases userOrder.idxOf? item with
  | none => simp [placeVerdict, PlaceTally.including, credits, credit, countOf]
  | some found =>
      rw [Option.map_some, placeVerdict]
      split_ifs with hexact hnear
      · subst hexact
        simp [PlaceTally.including, credits, credit, countOf]
      · have hone : found - index + (index - found) = 1 := by omega
        simp [PlaceTally.including, credits, credit, countOf, hone]
      · obtain ⟨more, hmore⟩ : ∃ more, found - index + (index - found) = more + 2 :=
          ⟨found - index + (index - found) - 2, by omega⟩
        simp [PlaceTally.including, credits, credit, countOf, hmore]

theorem flatMap_zipIdx (userOrder items : List String) (index : Nat) :
    (items.zipIdx index).flatMap (fun place =>
        [(⟨place.1, none, placeVerdict place.2 (userOrder.idxOf? place.1)⟩ : ItemVerdict)]) =
      verdictsFrom index userOrder items := by
  induction items generalizing index with
  | nil => rfl
  | cons item items ih => rw [List.zipIdx_cons, List.flatMap_cons, ih, verdictsFrom]; rfl

theorem grade_eq (correctOrder userOrder : List String) :
    grade correctOrder userOrder =
      let verdicts := verdictsFrom 0 userOrder correctOrder
      { score := if correctOrder.isEmpty then .zero
          else .quotient (.whole (credits verdicts)) (.whole correctOrder.length)
        correct := countOf .correct verdicts
        total := correctOrder.length
        key := .order correctOrder
        response := .order userOrder
        verdicts := verdicts } := by
  have hcounted : correctOrder.zipIdx.foldl (countPlace userOrder) ⟨0, 0, #[]⟩ =
      PlaceTally.including ⟨0, 0, #[]⟩ (verdictsFrom 0 userOrder correctOrder) := by
    rw [← flatMap_zipIdx]
    exact foldl_eq_of_step PlaceTally.including (fun _ => by simp [PlaceTally.including, credits, countOf])
      (fun _ _ _ => by
        simp [PlaceTally.including, credits_append, countOf_append, Nat.add_assoc])
      (countPlace_eq userOrder) _ _
  rw [grade, hcounted]
  simp [PlaceTally.including]

end Tally

theorem isTallied_grade {items userOrder : List String} : (grade items userOrder).IsTallied := by
  rw [Grade.IsTallied, grade_eq]

theorem placeVerdict_eq_correct {index : Nat} {place : Option Nat} :
    placeVerdict index place = .correct ↔ place = some index := by
  cases place with
  | none => simp [placeVerdict]
  | some place =>
      by_cases h : place = index
      · simp [placeVerdict, h]
      · simp only [placeVerdict, h, if_false, Option.some.injEq, iff_false]
        split <;> simp

theorem length_verdictsFrom (userOrder : List String) :
    ∀ (items : List String) (index : Nat),
      (verdictsFrom index userOrder items).length = items.length := by
  intro items
  induction items with
  | nil => intro _; rfl
  | cons item items ih => intro index; simp [verdictsFrom, ih]

theorem idxOf?_eq_length_iff {before userOrder : List String} {item : String}
    (hbefore : before <+: userOrder) (hitem : item ∉ before) :
    userOrder.idxOf? item = some before.length ↔ before ++ [item] <+: userOrder := by
  obtain ⟨after, rfl⟩ := hbefore
  have hnone : before.findIdx? (· == item) = none := List.idxOf?_eq_none_iff.mpr hitem
  rw [List.prefix_append_right_inj, List.idxOf?, List.findIdx?_append, hnone, Option.none_or]
  cases after with
  | nil => simp
  | cons a rest =>
      by_cases h : a = item
      · simp [List.findIdx?_cons, h]
      · simp only [List.findIdx?_cons, beq_false_of_ne h, Bool.false_eq_true, if_false,
          Option.map_map, Option.map_eq_some_iff, Function.comp_apply, List.cons_prefix_cons,
          Ne.symm h, false_and, iff_false, not_exists, not_and]
        intro place _
        omega

theorem all_correct_verdictsFrom_iff {userOrder : List String} :
    ∀ (items before : List String), (before ++ items).Nodup → before <+: userOrder →
      ((∀ v ∈ verdictsFrom before.length userOrder items, v.verdict = .correct) ↔
        before ++ items <+: userOrder) := by
  intro items
  induction items with
  | nil => intro before _ hbefore; simp [verdictsFrom, hbefore]
  | cons item items ih =>
      intro before hn hbefore
      have hsplit : before ++ item :: items = before ++ [item] ++ items := by simp
      have hitem : item ∉ before := by
        intro hm
        exact (List.nodup_append.mp hn).2.2 item hm item List.mem_cons_self rfl
      rw [hsplit] at hn ⊢
      simp only [verdictsFrom, List.forall_mem_cons, placeVerdict_eq_correct,
        idxOf?_eq_length_iff hbefore hitem]
      constructor
      · rintro ⟨hnext, hrest⟩
        exact (ih _ hn hnext).mp (by simpa using hrest)
      · intro hall
        have hnext : before ++ [item] <+: userOrder := (List.prefix_append _ _).trans hall
        exact ⟨hnext, by simpa using (ih _ hn hnext).mpr hall⟩

theorem correct_eq_total_iff {items userOrder : List String} (hn : items.Nodup) :
    (grade items userOrder).correct = (grade items userOrder).total ↔ items <+: userOrder := by
  rw [grade_eq]
  change countOf .correct (verdictsFrom 0 userOrder items) = items.length ↔ _
  rw [← length_verdictsFrom userOrder items 0, countOf_eq_length_iff]
  exact all_correct_verdictsFrom_iff items [] hn List.nil_prefix

theorem credits_le (verdicts : List ItemVerdict) : credits verdicts ≤ 100 * verdicts.length := by
  induction verdicts with
  | nil => simp [credits]
  | cons v verdicts ih =>
      have hv : credit v.verdict ≤ 100 := by cases v.verdict <;> decide
      rw [credits, List.length_cons]
      omega

theorem inRange_grade {items userOrder : List String} : (grade items userOrder).InRange := by
  have hle := credits_le (verdictsFrom 0 userOrder items)
  rw [length_verdictsFrom] at hle
  rw [grade_eq]
  change (if items.isEmpty then zero else _ : Score).InRange
  split
  · exact inRange_zero
  · exact inRange_quotient hle

theorem bounded_grade {items userOrder : List String} : (grade items userOrder).Bounded := by
  refine ⟨?_, inRange_grade⟩
  rw [grade_eq]
  change countOf .correct (verdictsFrom 0 userOrder items) ≤ items.length
  rw [← length_verdictsFrom userOrder items 0]
  exact countOf_le_length

theorem items_of_defects_eq_nil {s : Seriation} (h : s.defects = []) :
    0 < s.items.length ∧ s.items.Nodup := by
  simp only [defects, countDefects, List.append_eq_nil_iff, List.map_eq_nil_iff] at h
  obtain ⟨⟨hcount, -⟩, hrepeats⟩ := h
  refine ⟨?_, (repeats_eq_nil_iff.mp hrepeats).1⟩
  by_contra hpos
  have hlt : s.items.length < leastItems := by
    unfold leastItems
    omega
  rw [if_pos hlt] at hcount
  cases hcount

end Worksheet.Seriation
