import Worksheet.Exercise.Basic
import Worksheet.Proofs.Definitions
import Worksheet.Proofs.ErrorMap

namespace Worksheet

open Chars Markup Text

namespace Pair

structure WellFormed (p : Pair) : Prop where
  isItem_left : IsItem p.left
  unmarked_left : ∀ c ∈ p.left.toList, c ∉ ['=', '|', ';', '[', ']']
  uncommented_left : ¬ ['/', '/'] <+: p.left.toList
  isPlain_right : IsPlain p.right

instance (p : Pair) : Decidable p.WellFormed :=
  decidable_of_iff
    (IsItem p.left ∧ p.left.toList.all (fun c => c ∉ ['=', '|', ';', '[', ']']) = true ∧
      ¬ ['/', '/'] <+: p.left.toList ∧ IsPlain p.right) <| by
    rw [List.all_eq_true]
    exact ⟨fun ⟨hl, hm, hc, hr⟩ => ⟨hl, fun c hmem => of_decide_eq_true (hm c hmem), hc, hr⟩,
      fun h => ⟨h.isItem_left, fun c hmem => decide_eq_true (h.unmarked_left c hmem),
        h.uncommented_left, h.isPlain_right⟩⟩

def line (p : Pair) : List Char := p.left.toList ++ " = ".toList ++ p.right.toList ++ [';']

def definition (p : Pair) : Definition := (p.left, [p.right])

theorem line_definition (p : Pair) : p.definition.line = p.line := by
  rw [definition, Definition.line, joinPipes, List.map_singleton, List.intercalate_singleton, line]

theorem WellFormed.legible {p : Pair} (h : p.WellFormed) : p.definition.Legible .any where
  admits := rfl
  isItem_label := h.isItem_left
  isText_label := by
    intro c hc
    rw [isText_iff]
    refine ⟨fun heq => newline_not_mem_of_collapse_eq h.isItem_left.2 (heq ▸ hc), ?_⟩
    cases hm : Mark.ofChar? c with
    | none => rfl
    | some m =>
        rw [← Mark.char_of_ofChar? hm] at hc
        have hmark := h.unmarked_left _ hc
        cases m <;> exact absurd hmark (by decide)
  uncommented_label := h.uncommented_left
  isPlain_items := fun _ hr => List.mem_singleton.mp hr ▸ h.isPlain_right

end Pair

namespace Association

def distractorLines (brackets : Bool) (items : List String) : List (List Char) :=
  if items = [] then [] else [if brackets then bracketedLine items else distractorLine items]

def pairText (front back : List Pair) (brackets : Bool) (distractors : List String) : String :=
  .ofList (unlines
    (front.map Pair.line ++ (distractorLines brackets distractors ++ back.map Pair.line)))

theorem enterPairs_of_nodup {ps : List Pair} :
    ∀ {seen : List String}, (∀ p ∈ ps, p.left ∉ seen) → (ps.map (·.left)).Nodup →
      enterPairs seen (ps.map Pair.definition) = (ps, []) := by
  induction ps with
  | nil => intro _ _ _; rfl
  | cons p ps ih =>
      intro seen hseen hnodup
      obtain ⟨hfresh, htail⟩ := List.nodup_cons.mp hnodup
      have hp : p.left ∉ seen := hseen p List.mem_cons_self
      have hrest : ∀ q ∈ ps, q.left ∉ p.left :: seen := by
        intro q hq hmem
        rcases List.mem_cons.mp hmem with heq | hmem
        · exact hfresh (List.mem_map.mpr ⟨q, hq, heq⟩)
        · exact hseen q (List.mem_cons_of_mem _ hq) hmem
      rw [List.map_cons, Pair.definition, enterPairs, if_neg hp, ih hrest htail]

section Text

variable {front back : List Pair} {distractors : List String}

theorem definitions_pairText (h : ∀ p ∈ front ++ back, p.WellFormed)
    (hd : ∀ item ∈ distractors, IsPlain item) (hnodup : distractors.Nodup) (brackets : Bool) :
    definitions .any (pairText front back brackets distractors) =
      ((front ++ back).map Pair.definition, distractors) := by
  have hlegible : ∀ d ∈ front.map Pair.definition ++ back.map Pair.definition, d.Legible .any := by
    intro d hmem
    rw [← List.map_append] at hmem
    obtain ⟨p, hp, rfl⟩ := List.mem_map.mp hmem
    exact (h p hp).legible
  have hlists : Lists (if brackets then bracketedLine distractors else distractorLine distractors)
      distractors := by
    cases brackets with
    | true => exact lists_bracketedLine hd
    | false => exact lists_distractorLine hd
  have hlines : ∀ ps : List Pair, (ps.map Pair.definition).map Definition.line = ps.map Pair.line := by
    intro ps
    rw [List.map_map]
    exact List.map_congr_left (fun p _ => p.line_definition)
  have hread := definitions_unlines hlegible hlists hnodup
  rw [hlines, hlines, ← List.map_append] at hread
  exact hread

theorem read_pairText (h : ∀ p ∈ front ++ back, p.WellFormed)
    (hlefts : ((front ++ back).map (·.left)).Nodup) (hd : ∀ item ∈ distractors, IsPlain item)
    (hnodup : distractors.Nodup) (brackets : Bool) :
    let draft := Exercise.read .association (pairText front back brackets distractors)
    draft.exercise = .association ⟨front ++ back, distractors⟩ ∧
      (draft.ok = true ↔ front ++ back ≠ []) := by
  intro draft
  have hread : read (pairText front back brackets distractors) =
      (⟨front ++ back, distractors⟩, if front ++ back = [] then [.noMatches] else []) := by
    rw [read, definitions_pairText h hd hnodup]
    simp only [enterPairs_of_nodup (fun _ _ => List.not_mem_nil) hlefts, List.isEmpty_map]
    cases front ++ back <;> rfl
  have hdraft : draft = ⟨.association ⟨front ++ back, distractors⟩,
      .ofProblems (if front ++ back = [] then [PairProblem.noMatches] else [])⟩ := by
    change Exercise.read .association _ = _
    rw [Exercise.read_association, hread]
  rw [hdraft]
  refine ⟨rfl, ErrorMap.isEmpty_ofProblems.trans ?_⟩
  by_cases hnil : front ++ back = [] <;> simp [hnil]

theorem read_pairText_moods :
    pairText [⟨"Be // or not?", "x = y"⟩] [⟨"/", "// z"⟩] true ["Oak", "= fig"] =
        "Be // or not? = x = y;\n= [Oak | = fig];\n/ = // z;" ∧
      (Exercise.read .association
        (pairText [⟨"Be // or not?", "x = y"⟩] [⟨"/", "// z"⟩] true ["Oak", "= fig"])).ok = true := by
  have h : ∀ p ∈ [⟨"Be // or not?", "x = y"⟩] ++ [⟨"/", "// z"⟩], Pair.WellFormed p := by
    decide
  have hlefts : (([⟨"Be // or not?", "x = y"⟩] ++ [⟨"/", "// z"⟩] : List Pair).map (·.left)).Nodup := by
    decide
  have hd : ∀ item ∈ ["Oak", "= fig"], IsPlain item := by decide +kernel
  have hread := read_pairText h hlefts hd (by decide) true
  exact ⟨by decide +kernel, hread.2.mpr (List.cons_ne_nil _ _)⟩

theorem not_ok_pairText_nil :
    (∀ item ∈ ["fig"], IsPlain item) ∧ pairText [] [] false ["fig"] = "= fig;" ∧
      (Exercise.read .association (pairText [] [] false ["fig"])).ok = false := by
  decide +kernel

end Text

end Association

end Worksheet
