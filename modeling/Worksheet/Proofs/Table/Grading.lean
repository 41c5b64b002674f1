import Worksheet.Proofs.Grade
import Worksheet.Proofs.Sequence
import Worksheet.Proofs.Table.Mentions
import Worksheet.Proofs.Table.Validation

namespace Worksheet.Table

section Checked

variable {t : Table} {preset : TablePreset}

theorem cols_ne_nil_of_defects_eq_nil (h : t.defects preset = []) : t.cols ≠ [] := by
  intro hc
  exact List.eq_nil_iff_forall_not_mem.mp h _ (noCols_mem_defects.mpr hc)

theorem rows_ne_nil_of_defects_eq_nil (h : t.defects preset = []) : t.rows ≠ [] := by
  intro hr
  exact List.eq_nil_iff_forall_not_mem.mp h _ (noRows_mem_defects.mpr hr)

theorem nodup_items_of_defects_eq_nil (h : t.defects preset = []) :
    ∀ entry ∈ t.answerKey.entries, entry.2.Nodup := by
  intro entry he
  by_contra hrepeated
  obtain ⟨item, hitem⟩ := exists_head?_repeats_iff.mpr hrepeated
  have hd : .duplicateItem entry.1 item ∈ t.defects preset :=
    duplicateItem_mem_defects.mpr ⟨entry.2, he, hitem⟩
  exact List.eq_nil_iff_forall_not_mem.mp h _ hd

theorem exists_columnsOf_eq_singleton (h : t.defects .nary = []) {row : String}
    (hr : row ∈ t.rows) : ∃ col, t.columnsOf row = [col] := by
  have honce : ∀ entry ∈ t.answerKey.entries, entry.2.count row ≤ 1 := fun entry he =>
    List.nodup_iff_count.mp (nodup_items_of_defects_eq_nil h entry he) row
  rw [← mentions_eq_columnsOf honce]
  match hm : t.mentions row with
  | [] =>
      have hd := unassigned_mem_defects.mpr ⟨rfl, hr, hm⟩
      exact absurd hd (List.eq_nil_iff_forall_not_mem.mp h _)
  | [col] => exact ⟨col, rfl⟩
  | a :: b :: cols =>
      have hd := multiCategory_mem_defects.mpr ⟨rfl, hr, by simp [hm], rfl⟩
      exact absurd hd (List.eq_nil_iff_forall_not_mem.mp h _)

end Checked

section Cells

variable {t : Table} {completion : Completion} {disabled : DisabledCells}

theorem inRange_gradeCells {answerKey : OrderedMap (List String)} {rows cols : List String} :
    (gradeCells answerKey completion rows cols disabled).InRange := by
  rw [gradeCells_eq]
  exact Grade.inRange_of_share rfl countOf_le_length

theorem bounded_gradeCells {answerKey : OrderedMap (List String)} {rows cols : List String} :
    (gradeCells answerKey completion rows cols disabled).Bounded := by
  refine ⟨?_, inRange_gradeCells⟩
  rw [gradeCells_eq]
  exact countOf_le_length

theorem isTallied_gradeCells {answerKey : OrderedMap (List String)} {rows cols : List String} :
    (gradeCells answerKey completion rows cols disabled).IsTallied := by
  rw [Grade.IsTallied, gradeCells_eq]

theorem total_gradeCells {answerKey : OrderedMap (List String)} {rows cols : List String} :
    (gradeCells answerKey completion rows cols disabled).total =
      (gradeCells answerKey completion rows cols disabled).verdicts.length := by
  rw [gradeCells_eq]

theorem mem_verdicts_gradeCells (ht : t.WellKeyed) {v : ItemVerdict} :
    v ∈ (gradeCells t.answerKey completion t.rows t.cols disabled).verdicts ↔
      ∃ row ∈ t.rows, ∃ col ∈ t.cols, disabled row col = false ∧
        ⟨row, some col, cellVerdict (col ∈ t.columnsOf row) (col ∈ selectedIn completion row)⟩ =
          v := by
  simp [gradeCells_eq, ht.cellVerdicts_eq, and_assoc]

theorem correct_eq_total_gradeCells_iff (ht : t.WellKeyed) :
    (gradeCells t.answerKey completion t.rows t.cols disabled).correct =
        (gradeCells t.answerKey completion t.rows t.cols disabled).total ↔
      ∀ row ∈ t.rows, ∀ col ∈ t.cols, disabled row col = false →
        (col ∈ selectedIn completion row ↔ col ∈ t.columnsOf row) := by
  rw [isTallied_gradeCells, total_gradeCells, countOf_eq_length_iff]
  constructor
  · intro h row hr col hc hd
    have hcell := h _ ((mem_verdicts_gradeCells ht).mpr ⟨row, hr, col, hc, hd, rfl⟩)
    rw [cellVerdict_eq_correct, decide_eq_decide] at hcell
    exact hcell.symm
  · intro h v hv
    obtain ⟨row, hr, col, hc, hd, rfl⟩ := (mem_verdicts_gradeCells ht).mp hv
    rw [cellVerdict_eq_correct, decide_eq_decide]
    exact (h row hr col hc hd).symm

theorem total_pos_gradeCells (ht : t.WellKeyed) {row col : String} (hr : row ∈ t.rows)
    (hc : col ∈ t.cols) (hd : disabled row col = false) :
    0 < (gradeCells t.answerKey completion t.rows t.cols disabled).total := by
  rw [total_gradeCells]
  exact List.length_pos_of_mem ((mem_verdicts_gradeCells ht).mpr ⟨row, hr, col, hc, hd, rfl⟩)

end Cells

section Rows

variable {answerKey : OrderedMap (List String)} {completion : Completion} {rows : List String}

theorem rowVerdict_eq_correct {selected : List String} {expected : Option String} :
    rowVerdict selected expected = .correct ↔
      ∃ col, expected = some col ∧ selected = [normalizeLabel col] := by
  cases expected with
  | none =>
      match selected with
      | [] => simp [rowVerdict]
      | [_] => simp [rowVerdict]
      | _ :: _ :: _ => simp [rowVerdict]
  | some col =>
      match selected with
      | [] => simp [rowVerdict]
      | [only] => by_cases h : only = normalizeLabel col <;> simp [rowVerdict, h]
      | _ :: _ :: _ => simp [rowVerdict]

theorem rowVerdict_eq_missed {selected : List String} {expected : Option String} :
    rowVerdict selected expected = .missed ↔ selected = [] := by
  match selected with
  | [] => simp [rowVerdict]
  | [only] =>
      cases expected with
      | none => simp [rowVerdict]
      | some col => by_cases h : only = normalizeLabel col <;> simp [rowVerdict, h]
  | _ :: _ :: _ => simp [rowVerdict]

theorem length_verdicts_gradeRows :
    (gradeRows answerKey completion rows).verdicts.length = rows.length := by
  rw [gradeRows_eq]
  exact List.length_map _

theorem isTallied_gradeRows : (gradeRows answerKey completion rows).IsTallied := by
  rw [Grade.IsTallied, gradeRows_eq]

theorem correct_le_total_gradeRows :
    (gradeRows answerKey completion rows).correct ≤ (gradeRows answerKey completion rows).total :=
  calc (gradeRows answerKey completion rows).correct
      = countOf .correct (gradeRows answerKey completion rows).verdicts := isTallied_gradeRows
    _ ≤ (gradeRows answerKey completion rows).verdicts.length := countOf_le_length
    _ = (gradeRows answerKey completion rows).total := length_verdicts_gradeRows

theorem inRange_gradeRows : (gradeRows answerKey completion rows).InRange :=
  Grade.inRange_of_share rfl correct_le_total_gradeRows

theorem bounded_gradeRows : (gradeRows answerKey completion rows).Bounded :=
  ⟨correct_le_total_gradeRows, inRange_gradeRows⟩

theorem correct_eq_total_gradeRows_iff :
    (gradeRows answerKey completion rows).correct =
        (gradeRows answerKey completion rows).total ↔
      ∀ row ∈ rows, ∃ col, columnFor answerKey row = some col ∧
        selectedIn completion row = [normalizeLabel col] := by
  change (gradeRows answerKey completion rows).correct = rows.length ↔ _
  rw [isTallied_gradeRows, ← length_verdicts_gradeRows, countOf_eq_length_iff]
  simp [gradeRows_eq, rowVerdict_eq_correct]

end Rows

theorem correct_eq_total_gradeRows_iff_of_defects_eq_nil {t : Table} {completion : Completion}
    (ht : t.WellKeyed) (h : t.defects .nary = []) :
    (gradeRows t.answerKey completion t.rows).correct =
        (gradeRows t.answerKey completion t.rows).total ↔
      ∀ row ∈ t.rows, selectedIn completion row = t.columnsOf row ∧
        (t.columnsOf row).length = 1 := by
  rw [correct_eq_total_gradeRows_iff]
  refine forall₂_congr (fun row hr => ?_)
  obtain ⟨col, hcol⟩ := exists_columnsOf_eq_singleton h hr
  have hmem : col ∈ t.cols := ht.mem_cols_of_mem_columnsOf (hcol ▸ List.mem_singleton_self col)
  rw [columnFor_eq_head?, hcol, List.head?_cons]
  simp [ht.normalizeLabel_col col hmem]

end Worksheet.Table
