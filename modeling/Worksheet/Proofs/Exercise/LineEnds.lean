import Worksheet.Proofs.Category
import Worksheet.Proofs.Markup.DistractorEnd
import Worksheet.Proofs.Seriation.LineEnd

namespace Worksheet

open Markup

theorem Recognition.countedLines_withReturns (source : List Char) :
    countedLines (Chars.withReturns source) = countedLines source := by
  have hcut : ∀ ls : List (List Char),
      (Chars.returned ls).map (fun line => cutComment (Chars.trim line)) =
        ls.map (fun line => cutComment (Chars.trim line)) := by
    intro ls
    induction ls using Chars.returned.induct with
    | case1 => rfl
    | case2 l => rfl
    | case3 l m rest ih =>
        rw [Chars.returned, List.map_cons, ih, Chars.trim_concat (by decide)]
        rfl
  rw [countedLines, Chars.lines_withReturns, hcut, countedLines]

theorem Recognition.quiz_withReturns (text : String) :
    read (Text.withReturns text) = read text := by
  rw [read, Text.withReturns, String.toList_ofList, countedLines_withReturns, read]

def definitionsOf (rule : LabelRule) (found : Extraction) :
    List (String × List String) × List String :=
  let document := readDocument rule found.remainder
  (document.labelled.map (fun d => (d.1, d.2.items)),
    distinct (found.items ++ document.unlabelled.flatMap (·.items)))

theorem definitions_eq (rule : LabelRule) (text : String) :
    definitions rule text = definitionsOf rule (extractDistractors text.toList) := rfl

section Definitions

variable {rule : LabelRule} {text : String}

theorem definitions_withReturns :
    definitions rule (Text.withReturns text) = definitionsOf rule (extractReturned text.toList) := by
  obtain ⟨hitems, hdocument⟩ := readDocument_extract_withReturns rule text.toList
  rw [definitions_eq, Text.withReturns, String.toList_ofList, definitionsOf, hitems, hdocument,
    definitionsOf]

theorem definitions_withReturns_of_isNoted
    (h : ∀ l ∈ (Chars.lines text.toList).dropLast, (distractorBody? l).isSome = true → IsNoted l) :
    definitions rule (Text.withReturns text) = definitions rule text := by
  rw [definitions_withReturns, extractReturned_of_isNoted h, definitions_eq]

theorem definitions_withReturns_of_apart (h : DistractorsApart [] (Chars.lines text.toList)) :
    (definitions rule (Text.withReturns text)).1 = (definitions rule text).1 ∧
      (definitions rule (Text.withReturns text)).2.Perm (definitions rule text).2 := by
  obtain ⟨hlabelled, hunlabelled⟩ := readDocument_extractDistractors rule h
  obtain ⟨hlabelled', hunlabelled'⟩ := readDocument_withReturns_apart rule h
  rw [definitions_eq, definitions_eq, Text.withReturns, String.toList_ofList]
  refine ⟨?_, (List.perm_ext_iff_of_nodup (nodup_distinct _) (nodup_distinct _)).mpr fun item => ?_⟩
  · exact congrArg (List.map _) (hlabelled'.symm.trans hlabelled)
  · rw [mem_distinct, mem_distinct, List.mem_append, List.mem_append, ← hunlabelled,
      ← hunlabelled']

end Definitions

namespace Exercise

def SameContent : Exercise → Exercise → Prop
  | classification c, classification d =>
      c.categories = d.categories ∧ c.distractors.Perm d.distractors
  | table t, table u =>
      t.cols = u.cols ∧ t.answerKey = u.answerKey ∧ t.rows.Perm u.rows ∧
        t.distractors.Perm u.distractors
  | association a, association b => a.pairs = b.pairs ∧ a.distractors.Perm b.distractors
  | e, e' => e = e'

theorem read_congr {f : Family} (hf : f ≠ .recognition) (hf' : f ≠ .seriation) {t u : String}
    (h : ∀ rule, definitions rule t = definitions rule u) : read f t = read f u := by
  cases f with
  | classification =>
      simp only [read_classification, Classification.read, readCategories_eq, h]
  | table => simp only [read_table, Table.read, readCategories_eq, h]
  | recognition => exact absurd rfl hf
  | seriation => exact absurd rfl hf'
  | association => simp only [read_association, Association.read, h]

theorem sameContent_read {f : Family} (hf : f ≠ .recognition) (hf' : f ≠ .seriation) {t u : String}
    (h : ∀ rule, (definitions rule t).1 = (definitions rule u).1)
    (h' : ∀ rule, (definitions rule t).2.Perm (definitions rule u).2) :
    (read f t).errors = (read f u).errors ∧ SameContent (read f t).exercise (read f u).exercise := by
  cases f with
  | classification =>
      simp only [read_classification, Classification.read, readCategories_eq, h, SameContent, true_and]
      exact h' _
  | table =>
      simp only [read_table, Table.read, readCategories_eq, h, SameContent, Table.ofCategoryList,
        true_and]
      refine ⟨(List.perm_ext_iff_of_nodup (nodup_distinct _) (nodup_distinct _)).mpr fun item => ?_,
        h' _⟩
      simp only [mem_distinct, List.mem_append, (h' .category).mem_iff]
  | recognition => exact absurd rfl hf
  | seriation => exact absurd rfl hf'
  | association =>
      simp only [read_association, Association.read, h, SameContent, true_and]
      exact h' _

theorem read_withReturns (text : String) :
    let returned := Text.withReturns text
    let source := text.toList
    read .recognition returned = read .recognition text ∧
      (read .seriation returned = read .seriation text ↔
        '|' ∈ Chars.trim source ∨
          ∀ l ∈ (Chars.lines (Chars.trim source)).dropLast, ¬ Seriation.IsBareMarker l) ∧
      (∀ rule, definitions rule returned = definitionsOf rule (extractReturned source)) ∧
      ((∀ l ∈ (Chars.lines source).dropLast, (distractorBody? l).isSome = true → IsNoted l) →
        ∀ f, f ≠ .seriation → read f returned = read f text) ∧
      (DistractorsApart [] (Chars.lines source) → ∀ f, f ≠ .seriation →
        (read f returned).errors = (read f text).errors ∧
          SameContent (read f returned).exercise (read f text).exercise) ∧
      ('\r' ∉ source → Chars.unifyNewlines returned.toList = source) := by
  intro returned source
  have hrecognition : read .recognition returned = read .recognition text := by
    rw [read_recognition, read_recognition, Recognition.quiz_withReturns]
  refine ⟨hrecognition, ?_, fun rule => definitions_withReturns, fun hnoted f hf => ?_,
    fun hapart f hf => ?_, fun hreturn => ?_⟩
  · rw [← Seriation.fst_read_withReturns_iff, read_seriation, read_seriation]
    constructor
    · intro heq
      exact Exercise.seriation.inj (congrArg Draft.exercise heq)
    · intro heq
      rw [(Seriation.read_withReturns_iff text).mpr heq]
  · by_cases hr : f = .recognition
    · exact hr ▸ hrecognition
    · exact read_congr hr hf (fun rule => definitions_withReturns_of_isNoted hnoted)
  · by_cases hr : f = .recognition
    · subst hr
      rw [hrecognition]
      exact ⟨rfl, rfl⟩
    · exact sameContent_read hr hf (fun rule => (definitions_withReturns_of_apart hapart).1)
        (fun rule => (definitions_withReturns_of_apart hapart).2)
  · change Chars.unifyNewlines (Text.withReturns text).toList = _
    rw [Text.withReturns, String.toList_ofList]
    exact Chars.unifyNewlines_withReturns hreturn

theorem read_withReturns_orchard :
    let text := String.ofList orchard
    (∀ l ∈ (Chars.lines text.toList).dropLast, (distractorBody? l).isSome = true → IsNoted l) ∧
      DistractorsApart [] (Chars.lines text.toList) ∧ '\r' ∉ text.toList ∧
      read .table (Text.withReturns text) = read .table text ∧
      SameContent (read .association (Text.withReturns text)).exercise
        (read .association text).exercise ∧
      Chars.unifyNewlines (Text.withReturns text).toList = text.toList := by
  intro text
  have htext : text.toList = orchard := String.toList_ofList
  have hnoted : ∀ l ∈ (Chars.lines text.toList).dropLast,
      (distractorBody? l).isSome = true → IsNoted l := by
    rw [htext]
    decide
  have hapart : DistractorsApart [] (Chars.lines text.toList) := htext ▸ distractorsApart_orchard
  have hreturn : '\r' ∉ text.toList := by
    rw [htext]
    decide
  obtain ⟨-, -, -, hsame, hcontent, hunify⟩ := read_withReturns text
  exact ⟨hnoted, hapart, hreturn, hsame hnoted .table (by decide),
    (hcontent hapart .association (by decide)).2, hunify hreturn⟩

theorem read_withReturns_lost :
    ('\r' ∉ "Fruit = fig |\n= oak;\nplum;".toList ∧
      read .classification (Text.withReturns "Fruit = fig |\n= oak;\nplum;") ≠
        read .classification "Fruit = fig |\n= oak;\nplum;") ∧
    ('\r' ∉ "a.\nb.".toList ∧
      read .seriation (Text.withReturns "a.\nb.") ≠ read .seriation "a.\nb.") := by
  decide +kernel

end Exercise

end Worksheet
