import Worksheet.Proofs.ErrorMap
import Worksheet.Proofs.Markup.Statement
import Worksheet.Seriation.Basic

namespace Worksheet.Seriation

open Text ErrorMap

theorem isItem_of_mem_lineItems {source : List Char} {item : String}
    (h : item ∈ lineItems source) : IsItem item := by
  simp only [lineItems, List.mem_filter, List.mem_map, decide_eq_true_eq] at h
  obtain ⟨⟨line, -, rfl⟩, hne⟩ := h
  exact isItem_collapse hne

theorem isItem_of_mem_read {text item : String} (h : item ∈ (read text).1.items) : IsItem item := by
  unfold read at h
  dsimp only at h
  split at h
  · cases h
  · split at h
    · exact Chars.isItem_of_mem_splitPipes h
    · exact isItem_of_mem_lineItems h

def Defect.stem : Defect → String
  | .emptyInput => "parse.emptyInput"
  | .tooFewItems => "items.count"
  | .blankItem _ => "items.blank."
  | .duplicateItem _ => "items.duplicate."

theorem Defect.isUnder_stem (d : Defect) : IsUnder d.stem d.key := by
  cases d with
  | emptyInput => exact List.prefix_rfl
  | tooFewItems => exact List.prefix_rfl
  | blankItem position => exact isUnder_append _ (toString position)
  | duplicateItem item => exact isUnder_append _ item

theorem mem_defects {s : Seriation} {d : Defect} :
    d ∈ s.defects ↔
      (s.items.length < leastItems ∧ d = .tooFewItems) ∨
        (∃ position ∈ blankPositions 1 s.items, .blankItem position = d) ∨
        ∃ item ∈ repeats [] s.items, .duplicateItem item = d := by
  simp [defects, countDefects]

theorem not_isUnder_of_mem_defects {text : String} {d : Defect} (hd : d ∈ (read text).1.defects)
    {stem : String} (hs : stem ∈ readingStems) : ¬ IsUnder stem d.key := by
  intro hu
  have hcmp : ∃ s ∈ readingStems, IsUnder s d.stem ∨ IsUnder d.stem s :=
    ⟨stem, hs, hu.comparable d.isUnder_stem⟩
  have hblank : blankPositions 1 (read text).1.items = [] :=
    blankPositions_eq_nil (fun _ hi => isItem_of_mem_read hi)
  cases d with
  | blankItem position => simp [mem_defects, hblank] at hd
  | _ => exact absurd hcmp (by dsimp only [Defect.stem]; decide)

end Worksheet.Seriation
