import Worksheet.Proofs.ErrorMap
import Worksheet.Proofs.Table.Reading
import Worksheet.Table.Validation

namespace Worksheet.Table

open ErrorMap OrderedMap

def Defect.stem : Defect → String
  | .noCols => "cols.empty"
  | .noRows => "rows.empty"
  | .blankRow _ => "rows.blank."
  | .rowConflict _ => "cols.rowConflict."
  | .missingKey _ => "answerKey.missing."
  | .emptyCategory _ => "answerKey.emptyCategory."
  | .duplicateItem _ _ => "answerKey.duplicateItem."
  | .unknownItem _ _ => "answerKey.unknownItem."
  | .unassigned _ => "nary.unassigned."
  | .multiCategory _ _ => "nary.multiCategory."

theorem Defect.isUnder_stem (d : Defect) : IsUnder d.stem d.key := by
  cases d with
  | noCols => exact List.prefix_rfl
  | noRows => exact List.prefix_rfl
  | blankRow position => exact isUnder_append _ (toString position)
  | rowConflict col => exact isUnder_append _ col
  | missingKey col => exact isUnder_append _ col
  | emptyCategory col => exact isUnder_append _ col
  | duplicateItem col item => exact isUnder_append _ col
  | unknownItem col items => exact isUnder_append _ col
  | unassigned row => exact isUnder_append _ row
  | multiCategory row cols => exact isUnder_append _ row

theorem Defect.key_eq_noCols {d : Defect} : d.key = "cols.empty" ↔ d = .noCols := by
  constructor
  · intro h
    cases d with
    | noCols => rfl
    | _ => exact absurd h (ne_of_isUnder (isUnder_stem _) (by dsimp only [stem]; decide))
  · rintro rfl
    rfl

theorem Defect.key_eq_emptyCategory {d : Defect} {col : String} :
    d.key = s!"answerKey.emptyCategory.{col}" ↔ d = .emptyCategory col := by
  constructor
  · intro h
    have hu : IsUnder "answerKey.emptyCategory." d.key := h ▸ isUnder_append _ col
    have hcmp := hu.comparable d.isUnder_stem
    cases d with
    | emptyCategory l =>
        have hl : l = col := (String.append_right_inj _).mp h
        rw [hl]
    | _ => exact absurd hcmp (by dsimp only [stem]; decide)
  · rintro rfl
    rfl

section Parts

variable {t : Table} {d : Defect}

theorem mem_rowConflicts :
    d ∈ t.rowConflicts ↔
      ∃ col ∈ t.cols, normalizeLabel col ∈ t.rows.map normalizeLabel ∧ .rowConflict col = d := by
  simp [rowConflicts, and_assoc]

theorem keyDefect_eq_some {col : String} :
    t.keyDefect col = some d ↔
      (t.answerKey.find? col = none ∧ .missingKey col = d) ∨
        (t.answerKey.find? col = some [] ∧ .emptyCategory col = d) := by
  unfold keyDefect
  split
  · next h => simp [h]
  · next h => simp [h]
  · next items hne h =>
      have hitems : items ≠ [] := fun hnil => hne hnil
      simp [h, hitems]

theorem mem_entryDefects {entry : String × List String} :
    d ∈ t.entryDefects entry ↔
      (∃ item, (repeats [] entry.2).head? = some item ∧ .duplicateItem entry.1 item = d) ∨
        ((∃ item ∈ entry.2, item ∉ t.rows) ∧
          d = .unknownItem entry.1 (entry.2.filter (· ∉ t.rows))) := by
  simp [entryDefects]

theorem assignmentDefect_eq_some {row : String} :
    t.assignmentDefect row = some d ↔
      (t.mentions row = [] ∧ .unassigned row = d) ∨
        (2 ≤ (t.mentions row).length ∧ .multiCategory row (t.mentions row) = d) := by
  unfold assignmentDefect
  match h : t.mentions row with
  | [] => simp
  | [_] => simp
  | _ :: _ :: _ => simp

end Parts

theorem mem_defects {t : Table} {preset : TablePreset} {d : Defect} :
    d ∈ t.defects preset ↔
      (t.cols = [] ∧ d = .noCols) ∨ (t.rows = [] ∧ d = .noRows) ∨
        (∃ position ∈ Text.blankPositions 1 t.rows, .blankRow position = d) ∨
        (preset ≠ .adjacency ∧ ∃ col ∈ t.cols,
          normalizeLabel col ∈ t.rows.map normalizeLabel ∧ .rowConflict col = d) ∨
        (∃ col ∈ t.cols, (t.answerKey.find? col = none ∧ .missingKey col = d) ∨
          (t.answerKey.find? col = some [] ∧ .emptyCategory col = d)) ∨
        (∃ entry ∈ t.answerKey.entries,
          (∃ item, (repeats [] entry.2).head? = some item ∧ .duplicateItem entry.1 item = d) ∨
            ((∃ item ∈ entry.2, item ∉ t.rows) ∧
              d = .unknownItem entry.1 (entry.2.filter (· ∉ t.rows)))) ∨
        (preset = .nary ∧ ∃ row ∈ t.rows, (t.mentions row = [] ∧ .unassigned row = d) ∨
          (2 ≤ (t.mentions row).length ∧ .multiCategory row (t.mentions row) = d)) := by
  simp only [defects, List.mem_append, List.mem_map, List.mem_filterMap, List.mem_flatMap,
    List.mem_ite_nil_left, List.mem_ite_nil_right, List.mem_singleton, List.isEmpty_iff, or_assoc,
    mem_rowConflicts, keyDefect_eq_some, mem_entryDefects, assignmentDefect_eq_some, ne_eq]

theorem defects_eq_nil_congr_cols {t : Table} {cols : List String}
    (h : ∀ col, col ∈ cols ↔ col ∈ t.cols) (preset : TablePreset) :
    { t with cols := cols }.defects preset = [] ↔ t.defects preset = [] := by
  have hnil : cols = [] ↔ t.cols = [] := by
    simp only [List.eq_nil_iff_forall_not_mem, h]
  have hmem : ∀ d, d ∈ { t with cols := cols }.defects preset ↔ d ∈ t.defects preset := by
    intro d
    simp only [mem_defects, hnil, h]
    exact Iff.rfl
  simp only [List.eq_nil_iff_forall_not_mem, hmem]

section Members

variable {t : Table} {preset : TablePreset} {col : String}

theorem noCols_mem_defects : .noCols ∈ t.defects preset ↔ t.cols = [] := by
  simp [mem_defects]

theorem noRows_mem_defects : .noRows ∈ t.defects preset ↔ t.rows = [] := by
  simp [mem_defects]

theorem blankRow_mem_defects {position : Nat} :
    .blankRow position ∈ t.defects preset ↔ position ∈ Text.blankPositions 1 t.rows := by
  simp [mem_defects]

theorem rowConflict_mem_defects :
    .rowConflict col ∈ t.defects preset ↔
      preset ≠ .adjacency ∧ col ∈ t.cols ∧ normalizeLabel col ∈ t.rows.map normalizeLabel := by
  simp [mem_defects]

theorem missingKey_mem_defects :
    .missingKey col ∈ t.defects preset ↔ col ∈ t.cols ∧ t.answerKey.find? col = none := by
  simp [mem_defects]

theorem emptyCategory_mem_defects :
    .emptyCategory col ∈ t.defects preset ↔ col ∈ t.cols ∧ t.answerKey.find? col = some [] := by
  simp [mem_defects]

theorem duplicateItem_mem_defects {item : String} :
    .duplicateItem col item ∈ t.defects preset ↔
      ∃ listed, (col, listed) ∈ t.answerKey.entries ∧ (repeats [] listed).head? = some item := by
  simp [mem_defects]

theorem unknownItem_mem_defects {items : List String} :
    .unknownItem col items ∈ t.defects preset ↔
      ∃ listed, (col, listed) ∈ t.answerKey.entries ∧
        (∃ item ∈ listed, item ∉ t.rows) ∧ items = listed.filter (· ∉ t.rows) := by
  simp [mem_defects]

theorem unassigned_mem_defects {row : String} :
    .unassigned row ∈ t.defects preset ↔ preset = .nary ∧ row ∈ t.rows ∧ t.mentions row = [] := by
  simp [mem_defects]

theorem multiCategory_mem_defects {row : String} {cols : List String} :
    .multiCategory row cols ∈ t.defects preset ↔
      preset = .nary ∧ row ∈ t.rows ∧ 2 ≤ (t.mentions row).length ∧ t.mentions row = cols := by
  simp [mem_defects]

end Members

namespace WellKeyed

variable {t : Table} {preset : TablePreset}

theorem blankRow_not_mem_defects (h : t.WellKeyed) (position : Nat) :
    .blankRow position ∉ t.defects preset := by
  rw [blankRow_mem_defects, Text.blankPositions_eq_nil h.isItem_rows]
  exact List.not_mem_nil

theorem missingKey_not_mem_defects (h : t.WellKeyed) (col : String) :
    .missingKey col ∉ t.defects preset := by
  rw [missingKey_mem_defects, find?_eq_none_iff, h.keys_answerKey]
  rintro ⟨hc, hnone⟩
  exact hnone hc

theorem unknownItem_not_mem_defects (h : t.WellKeyed) (col : String) (items : List String) :
    .unknownItem col items ∉ t.defects preset := by
  rw [unknownItem_mem_defects]
  rintro ⟨listed, he, ⟨item, hi, hrow⟩, -⟩
  exact hrow (h.mem_rows _ he item hi)

theorem not_isUnder_of_mem_defects (h : t.WellKeyed) {d : Defect} (hd : d ∈ t.defects preset)
    {stem : String} (hs : stem ∈ readingStems) : ¬ IsUnder stem d.key := by
  intro hu
  have hcmp : ∃ s ∈ readingStems, IsUnder s d.stem ∨ IsUnder d.stem s :=
    ⟨stem, hs, hu.comparable d.isUnder_stem⟩
  cases d with
  | blankRow position => exact h.blankRow_not_mem_defects position hd
  | missingKey col => exact h.missingKey_not_mem_defects col hd
  | unknownItem col items => exact h.unknownItem_not_mem_defects col items hd
  | _ => exact absurd hcmp (by dsimp only [Defect.stem]; decide)

end WellKeyed

end Worksheet.Table
