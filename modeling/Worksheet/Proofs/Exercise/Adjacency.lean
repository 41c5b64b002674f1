import Worksheet.Proofs.Exercise.FullMarks
import Worksheet.Proofs.Exercise.ResponseShape
import Worksheet.Proofs.Table.Diagonal

namespace Worksheet

open Table

def Table.keyCompletion (t : Table) : Completion :=
  .ofList (t.rows.map (fun row => (row, ⟨t.columnsOf row, ∅⟩)))

def Table.keyGrade (t : Table) : Grade :=
  gradeCells t.answerKey t.keyCompletion t.rows t.cols onDiagonal

def Table.keyResponse (t : Table) : Value := Grade.responseValue (.completion t.keyCompletion)

theorem Score.exact_share_self {n : Nat} (h : 0 < n) : (Score.share n n).exact = 100 := by
  have hne : (n : Rat) ≠ 0 := Nat.cast_ne_zero.mpr h.ne'
  rw [Score.share, if_pos h, Score.exact_percent]
  change (n : Rat) / n * 100 = 100
  rw [div_self hne, one_mul]

namespace Table

open TableConfiguration

variable {t : Table}

theorem find?_keyCompletion {row : String} (hr : row ∈ t.rows) :
    t.keyCompletion.find? row = some ⟨t.columnsOf row, ∅⟩ := by
  have hfind := OrderedMap.find?_ofList_map
    (fun row => (⟨t.columnsOf row, ∅⟩ : RowValues)) t.rows row
  rwa [if_pos hr] at hfind

theorem selectedIn_keyCompletion (ht : t.WellKeyed) {row : String} (hr : row ∈ t.rows) :
    selectedIn t.keyCompletion row = t.columnsOf row := by
  rw [selectedIn, find?_keyCompletion hr]
  exact ht.map_normalizeLabel (fun _ hc => ht.mem_cols_of_mem_columnsOf hc)

theorem verdicts_keyGrade (ht : t.WellKeyed) :
    t.keyGrade.verdicts =
      (forPreset t .adjacency).enabledCells.map (fun cell => ⟨cell.1, some cell.2, .correct⟩) := by
  rw [keyGrade, gradeCells_eq, enabledCells, List.map_flatMap]
  refine List.flatMap_congr (fun row hr => ?_)
  rw [ht.cellVerdicts_eq, selectedIn_keyCompletion ht hr, List.map_map]
  refine List.map_congr_left (fun col _ => ?_)
  rw [cellVerdict_eq_correct.mpr rfl]
  rfl

theorem total_keyGrade (ht : t.WellKeyed) :
    t.keyGrade.total = (forPreset t .adjacency).enabledCells.length := by
  rw [keyGrade, total_gradeCells]
  change t.keyGrade.verdicts.length = _
  rw [verdicts_keyGrade ht, List.length_map]

theorem correct_keyGrade (ht : t.WellKeyed) : t.keyGrade.correct = t.keyGrade.total := by
  refine (correct_eq_total_gradeCells_iff ht).mpr (fun row hr col _ _ => ?_)
  rw [selectedIn_keyCompletion ht hr]

theorem exact_score_keyGrade (ht : t.WellKeyed) (hpos : 0 < t.keyGrade.total) :
    t.keyGrade.score.exact = 100 := by
  change (Score.share t.keyGrade.correct t.keyGrade.total).exact = 100
  rw [correct_keyGrade ht, Score.exact_share_self hpos]

theorem enabledCells_adjacency_eq_nil_iff (ht : t.WellKeyed) (hrows : t.rows ≠ [])
    (hcols : t.cols ≠ []) :
    (forPreset t .adjacency).enabledCells = [] ↔
      ∃ col, t.cols = [col] ∧ ∀ row ∈ t.rows, normalizeLabel row = normalizeLabel col := by
  have hcells : (forPreset t .adjacency).enabledCells = [] ↔
      ∀ row ∈ t.rows, ∀ col ∈ t.cols, normalizeLabel row = normalizeLabel col := by
    rw [List.eq_nil_iff_forall_not_mem, Prod.forall]
    simp only [mem_enabledCells_adjacency, not_and, not_not]
    exact forall_congr' (fun row => ⟨fun h hr col => h col hr, fun h col hr => h hr col⟩)
  rw [hcells]
  constructor
  · intro h
    obtain ⟨row, hr⟩ := List.exists_mem_of_ne_nil _ hrows
    obtain ⟨col, hc⟩ := List.exists_mem_of_ne_nil _ hcols
    -- Columns are normalized, so two of them cannot both be the name of one row.
    have hsame : ∀ a ∈ t.cols, ∀ b ∈ t.cols, a = b := by
      intro a ha b hb
      rw [← ht.normalizeLabel_col a ha, ← ht.normalizeLabel_col b hb, ← h row hr a ha, h row hr b hb]
    have hone := length_le_one_of_nodup ht.nodup_cols hsame
    refine ⟨col, ?_, fun row hr => h row hr col hc⟩
    match hlist : t.cols, hone with
    | [a], _ =>
        rw [hlist, List.mem_singleton] at hc
        rw [hc]
    | [], _ => exact absurd hlist hcols
  · rintro ⟨col, hlist, h⟩ row hr a ha
    rw [hlist, List.mem_singleton] at ha
    rw [ha]
    exact h row hr

theorem mem_enabledCells_of_lists (ht : t.WellKeyed) {row col : String} (h : t.Lists row col) :
    (row, col) ∈ (forPreset t .adjacency).enabledCells ↔
      normalizeLabel row ≠ normalizeLabel col := by
  have hcol := ht.mem_cols_of_mem_columnsOf (mem_columnsOf.mpr h)
  obtain ⟨items, hfind, hitem⟩ := h
  have hrow := ht.mem_rows (col, items) (OrderedMap.find?_eq_some_iff.mp hfind) row hitem
  rw [mem_enabledCells_adjacency, and_iff_right hrow, and_iff_right hcol]

end Table

namespace Exercise

open TableConfiguration

theorem gradeAs_keyResponse (t : Table) :
    (table t).gradeAs t.keyResponse (.str "adjacency") = .ok t.keyGrade :=
  gradeAs_eq_ok (Shape.answers_responseValue .table t.keyCompletion) rfl rfl inRange_gradeCells

theorem grade_keyResponse {text : String} (h : (check .table text .adjacency).ok = true) :
    let t := (Table.read text).1
    let cells := (forPreset t .adjacency).enabledCells
    ∃ g, (read .table text).exercise.gradeAs t.keyResponse (.str "adjacency") = .ok g ∧
      g.verdicts = cells.map (fun cell => ⟨cell.1, some cell.2, .correct⟩) ∧
      g.correct = g.total ∧ g.total = cells.length ∧
      (0 < g.total → g.score.exact = 100) ∧
      (g.total = 0 ↔
        ∃ col, t.cols = [col] ∧ ∀ row ∈ t.rows, normalizeLabel row = normalizeLabel col) ∧
      ∀ col item, t.Lists item col →
        ((item, col) ∈ cells ↔ normalizeLabel item ≠ normalizeLabel col) := by
  have hok := validate_ok_of_check_ok h
  simp only [read_table, validate, Validation.ok, ErrorMap.isEmpty_ofProblems] at hok
  rw [read_table]
  have ht := wellKeyed_read text
  revert hok ht
  generalize (Table.read text).1 = t
  intro hok ht
  refine ⟨t.keyGrade, gradeAs_keyResponse t, verdicts_keyGrade ht, correct_keyGrade ht,
    total_keyGrade ht, exact_score_keyGrade ht, ?_, fun col item => mem_enabledCells_of_lists ht⟩
  rw [total_keyGrade ht, List.length_eq_zero_iff]
  exact enabledCells_adjacency_eq_nil_iff ht (rows_ne_nil_of_defects_eq_nil hok)
    (cols_ne_nil_of_defects_eq_nil hok)

def bridges : String := "A = B | a;\nB = A | b | C;"

theorem grade_keyResponse_bridges :
    (check .table bridges .adjacency).ok = true ∧
      ∃ g, (read .table bridges).exercise.gradeAs (Table.read bridges).1.keyResponse
          (.str "adjacency") = .ok g ∧ g.correct = g.total ∧ g.total = 6 ∧ g.score.exact = 100 := by
  obtain ⟨hok, hcells⟩ : (check .table bridges .adjacency).ok = true ∧
      (forPreset (Table.read bridges).1 .adjacency).enabledCells.length = 6 := by
    decide +kernel
  obtain ⟨g, hgrade, -, hfull, htotal, hscore, -⟩ := grade_keyResponse hok
  have hsix : g.total = 6 := htotal.trans hcells
  exact ⟨hok, g, hgrade, hfull, hsix, hscore (by rw [hsix]; decide)⟩

theorem grade_keyResponse_loop :
    (check .table "A = A;" .adjacency).ok = true ∧
      (Table.read "A = A;").1.Lists "A" "a" ∧
      ∃ g, (read .table "A = A;").exercise.gradeAs (Table.read "A = A;").1.keyResponse
          (.str "adjacency") = .ok g ∧ g.total = 0 ∧ g.verdicts = [] := by
  refine ⟨by decide +kernel, ⟨["A"], by decide +kernel, by decide⟩, _, gradeAs_keyResponse _, ?_, ?_⟩
  · decide +kernel
  · decide +kernel

end Exercise

end Worksheet
