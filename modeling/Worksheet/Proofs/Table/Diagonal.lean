import Mathlib.Data.Finset.Prod
import Worksheet.Proofs.Grade
import Worksheet.Proofs.Table.Grading
import Worksheet.Proofs.Table.Outcome

namespace Worksheet

namespace TableConfiguration

theorem mem_enabledCells {c : TableConfiguration} {row col : String} :
    (row, col) ∈ c.enabledCells ↔ row ∈ c.rows ∧ col ∈ c.cols ∧ c.isDisabled row col = false := by
  simp [enabledCells]

theorem nodup_enabledCells {c : TableConfiguration} (hrows : c.rows.Nodup) (hcols : c.cols.Nodup) :
    c.enabledCells.Nodup := by
  rw [enabledCells, List.nodup_flatMap]
  refine ⟨fun row _ => ?_, ?_⟩
  · exact (hcols.sublist List.filter_sublist).map (Prod.mk_right_injective row)
  · refine hrows.imp (fun hne => ?_)
    intro cell hcell hother
    obtain ⟨_, -, rfl⟩ := List.mem_map.mp hcell
    obtain ⟨_, -, heq⟩ := List.mem_map.mp hother
    exact hne (congrArg Prod.fst heq).symm

variable {t : Table}

theorem isDisabled_forPreset_adjacency (row col : String) :
    (forPreset t .adjacency).isDisabled row col = Table.onDiagonal row col := rfl

theorem mem_enabledCells_adjacency {row col : String} :
    (row, col) ∈ (forPreset t .adjacency).enabledCells ↔
      row ∈ t.rows ∧ col ∈ t.cols ∧ normalizeLabel row ≠ normalizeLabel col := by
  rw [mem_enabledCells, isDisabled_forPreset_adjacency, Table.onDiagonal, beq_eq_false_iff_ne]
  rfl

end TableConfiguration

namespace Table

open TableConfiguration

variable {t : Table} {completion other : Completion} {disabled : DisabledCells}

def SameOpenCells (t : Table) (disabled : DisabledCells) (completion other : Completion) : Prop :=
  ∀ row ∈ t.rows, ∀ col ∈ t.cols, disabled row col = false →
    (col ∈ selectedIn completion row ↔ col ∈ selectedIn other row)

theorem SameOpenCells.verdicts_eq (ht : t.WellKeyed)
    (h : t.SameOpenCells disabled completion other) :
    (gradeCells t.answerKey completion t.rows t.cols disabled).verdicts =
      (gradeCells t.answerKey other t.rows t.cols disabled).verdicts := by
  rw [gradeCells_eq, gradeCells_eq]
  refine List.flatMap_congr (fun row hr => ?_)
  rw [ht.cellVerdicts_eq, ht.cellVerdicts_eq]
  refine List.map_congr_left (fun col hcol => ?_)
  obtain ⟨hc, hopen⟩ := List.mem_filter.mp hcol
  rw [decide_eq_decide.mpr (h row hr col hc (by simpa using hopen))]

def offDiagonal (t : Table) : Finset (String × String) :=
  (t.rows.toFinset ×ˢ t.cols.toFinset).filter
    (fun cell => normalizeLabel cell.1 ≠ normalizeLabel cell.2)

theorem length_enabledCells_adjacency (ht : t.WellKeyed) :
    (forPreset t .adjacency).enabledCells.length = t.offDiagonal.card := by
  refine length_eq_card (nodup_enabledCells ht.nodup_rows ht.nodup_cols) (fun (row, col) => ?_)
  rw [mem_enabledCells_adjacency, offDiagonal, Finset.mem_filter, Finset.mem_product,
    List.mem_toFinset, List.mem_toFinset, and_assoc]

theorem total_gradeCells_onDiagonal (t : Table) (completion : Completion) :
    (gradeCells t.answerKey completion t.rows t.cols onDiagonal).total =
      (forPreset t .adjacency).enabledCells.length := by
  rw [gradeCells_eq]
  simp only [enabledCells, cellVerdicts, List.length_flatMap, List.length_map]
  rfl

theorem WellKeyed.onDiagonal_eq_false_iff (ht : t.WellKeyed) {row col : String}
    (hc : col ∈ t.cols) : onDiagonal row col = false ↔ col ≠ normalizeLabel row := by
  rw [onDiagonal, beq_eq_false_iff_ne, ht.normalizeLabel_col col hc, ne_comm]

theorem diagonal_unread (text : String) {completion other : Completion}
    (h : ∀ row ∈ (read text).1.rows, ∀ col ∈ (read text).1.cols, col ≠ normalizeLabel row →
      (col ∈ selectedIn completion row ↔ col ∈ selectedIn other row)) :
    ∃ g g', (read text).1.grade? completion .adjacency none = some g ∧
      (read text).1.grade? other .adjacency none = some g' ∧
      g.correct = g'.correct ∧ g.total = g'.total ∧ g.verdicts = g'.verdicts ∧
      g.total = (read text).1.offDiagonal.card := by
  have ht := wellKeyed_read text
  generalize (read text).1 = t at h ht ⊢
  have hsame : t.SameOpenCells onDiagonal completion other :=
    fun row hr col hc hopen => h row hr col hc ((ht.onDiagonal_eq_false_iff hc).mp hopen)
  have hverdicts := hsame.verdicts_eq ht
  have htotal := total_gradeCells_onDiagonal t completion
  have htotal' := total_gradeCells_onDiagonal t other
  rw [length_enabledCells_adjacency ht] at htotal htotal'
  have hcorrect : (gradeCells t.answerKey completion t.rows t.cols onDiagonal).correct =
      (gradeCells t.answerKey other t.rows t.cols onDiagonal).correct := by
    rw [isTallied_gradeCells, isTallied_gradeCells, hverdicts]
  exact ⟨_, _, rfl, rfl, hcorrect, htotal.trans htotal'.symm, hverdicts, htotal⟩

def paths : String := "A = B | a;\nB = A | b | C;"

def pathsLooped : Completion :=
  .ofList [("A", ⟨["a"], ∅⟩), ("B", ⟨["B"], ∅⟩), ("a", ⟨["A", "b"], ∅⟩)]

def pathsPlain : Completion := .ofList [("a", ⟨["b", "z"], ∅⟩), ("C", ⟨[], ∅⟩)]

theorem diagonal_unread_paths :
    (∀ row ∈ (read paths).1.rows, ∀ col ∈ (read paths).1.cols, col ≠ normalizeLabel row →
        (col ∈ selectedIn pathsLooped row ↔ col ∈ selectedIn pathsPlain row)) ∧
      ∃ g g', (read paths).1.grade? pathsLooped .adjacency none = some g ∧
        (read paths).1.grade? pathsPlain .adjacency none = some g' ∧
        g.verdicts = g'.verdicts ∧ g.total = 6 := by
  have h : ∀ row ∈ (read paths).1.rows, ∀ col ∈ (read paths).1.cols, col ≠ normalizeLabel row →
      (col ∈ selectedIn pathsLooped row ↔ col ∈ selectedIn pathsPlain row) := by
    decide +kernel
  obtain ⟨g, g', hg, hg', -, -, hverdicts, htotal⟩ := diagonal_unread paths h
  exact ⟨h, g, g', hg, hg', hverdicts, htotal.trans (by decide +kernel)⟩

end Table

end Worksheet
