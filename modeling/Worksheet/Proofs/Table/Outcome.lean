import Worksheet.Proofs.Table.Completion
import Worksheet.Proofs.Table.Reading

namespace Worksheet

open Table

def Write.ofCell (cell : String × String × CellValue) : Write :=
  ⟨cell.1, cell.2.1, cell.2.2.toValue⟩

namespace TableConfiguration

def enabledCells (c : TableConfiguration) : List (String × String) :=
  c.rows.flatMap (fun row => (c.cols.filter (fun col => !c.isDisabled row col)).map (row, ·))

end TableConfiguration

namespace TableState

structure CellGraded (s : TableState) (t : Table) (cell : String × String) (v : ItemVerdict) :
    Prop where
  item : v.item = cell.1
  category : v.category = some cell.2
  correct : v.verdict = .correct ↔ (s.IsTicked cell.1 cell.2 ↔ t.Lists cell.1 cell.2)
  missed : v.verdict = .missed ↔ t.Lists cell.1 cell.2 ∧ ¬ s.IsTicked cell.1 cell.2
  wrong : v.verdict = .wrong ↔ ¬ t.Lists cell.1 cell.2 ∧ s.IsTicked cell.1 cell.2

structure RowGraded (s : TableState) (t : Table) (row : String) (v : ItemVerdict) : Prop where
  item : v.item = row
  category : v.category = (t.columnsOf row).head?
  correct : v.verdict = .correct ↔ ∃ col, (t.columnsOf row).head? = some col ∧ s.IsTicked row col
  missed : v.verdict = .missed ↔ ∀ col ∈ t.cols, ¬ s.IsTicked row col
  wrong : v.verdict = .wrong ↔ (∃ col ∈ t.cols, s.IsTicked row col) ∧
    ¬ ∃ col, (t.columnsOf row).head? = some col ∧ s.IsTicked row col

def Graded (s : TableState) (t : Table) (preset : TablePreset) (verdicts : List ItemVerdict) : Prop :=
  if preset = .nary then List.Forall₂ (s.RowGraded t) t.rows verdicts
  else List.Forall₂ (s.CellGraded t) s.configuration.enabledCells verdicts

theorem cellGraded {s : TableState} {t : Table} {row col : String} {selected : List String}
    (h : col ∈ selected ↔ s.IsTicked row col) :
    s.CellGraded t (row, col)
      ⟨row, some col, cellVerdict (col ∈ t.columnsOf row) (col ∈ selected)⟩ where
  item := rfl
  category := rfl
  correct := by
    rw [cellVerdict_eq_correct, decide_eq_decide, mem_columnsOf, h]
    exact Iff.comm
  missed := by
    rw [cellVerdict_eq_missed, decide_eq_true_eq, decide_eq_false_iff_not, mem_columnsOf, h]
  wrong := by
    rw [cellVerdict_eq_wrong, decide_eq_true_eq, decide_eq_false_iff_not, mem_columnsOf, h]

theorem rowVerdict_nil (expected : Option String) : rowVerdict [] expected = .missed := rfl

theorem rowVerdict_singleton (col : String) (expected : Option String) :
    rowVerdict [col] expected =
      if expected.map normalizeLabel = some col then .correct else .wrong := by
  cases expected with
  | none => rfl
  | some k => simp [rowVerdict, eq_comm]

theorem rowGraded {s : TableState} {t : Table} (ht : t.WellKeyed) {row : String}
    {selected : List String} (hsel : ∀ col, col ∈ selected ↔ col ∈ t.cols ∧ s.IsTicked row col)
    (hone : selected.length ≤ 1) :
    s.RowGraded t row ⟨row, columnFor t.answerKey row,
      rowVerdict selected (columnFor t.answerKey row)⟩ := by
  rw [columnFor_eq_head?]
  have hmem : ∀ col, (t.columnsOf row).head? = some col → col ∈ t.cols := fun col hc =>
    ht.mem_cols_of_mem_columnsOf (List.mem_of_head? hc)
  match selected, hone with
  | [], _ =>
      have hnone : ∀ col ∈ t.cols, ¬ s.IsTicked row col := fun col hc htick =>
        List.not_mem_nil ((hsel col).mpr ⟨hc, htick⟩)
      have hfirst : ¬ ∃ col, (t.columnsOf row).head? = some col ∧ s.IsTicked row col := by
        rintro ⟨col, hc, htick⟩
        exact hnone col (hmem col hc) htick
      have hsome : ¬ ∃ col ∈ t.cols, s.IsTicked row col := by
        rintro ⟨col, hc, htick⟩
        exact hnone col hc htick
      rw [rowVerdict_nil]
      exact ⟨rfl, rfl, by simpa using hfirst, by simpa using hnone, by simp [hsome]⟩
  | [only], _ =>
      obtain ⟨hcol, htick⟩ := (hsel only).mp List.mem_cons_self
      have hfirst : (∃ col, (t.columnsOf row).head? = some col ∧ s.IsTicked row col) ↔
          (t.columnsOf row).head?.map normalizeLabel = some only := by
        constructor
        · rintro ⟨col, hc, htick⟩
          have honly : col = only := by
            simpa using (hsel col).mpr ⟨hmem col hc, htick⟩
          rw [hc, Option.map_some, ht.normalizeLabel_col col (hmem col hc), honly]
        · intro h
          obtain ⟨col, hc, hnorm⟩ := Option.map_eq_some_iff.mp h
          rw [ht.normalizeLabel_col col (hmem col hc)] at hnorm
          exact ⟨col, hc, hnorm ▸ htick⟩
      have hsome : ∃ col ∈ t.cols, s.IsTicked row col := ⟨only, hcol, htick⟩
      have hnone : ¬ ∀ col ∈ t.cols, ¬ s.IsTicked row col := fun h => h only hcol htick
      rw [rowVerdict_singleton]
      by_cases h : (t.columnsOf row).head?.map normalizeLabel = some only
      · rw [if_pos h]
        exact ⟨rfl, rfl, by simpa using hfirst.mpr h, by simpa using hnone,
          by simpa [hsome] using hfirst.mpr h⟩
      · rw [if_neg h]
        exact ⟨rfl, rfl, by simpa using mt hfirst.mp h, by simpa using hnone,
          by simpa [hsome] using mt hfirst.mp h⟩

theorem length_selected_le_one {s : TableState} (hn : s.configuration.cols.Nodup)
    (hk : s.configuration.cellKind.toggles = true) (h : s.OneTickedPerRow) (row : String) :
    (s.selected row).length ≤ 1 := by
  refine length_le_one_of_nodup (hn.sublist List.filter_sublist) ?_
  intro a ha b hb
  obtain ⟨hac, hat⟩ := (mem_selected hk).mp ha
  obtain ⟨hbc, hbt⟩ := (mem_selected hk).mp hb
  exact h row a hac b hbc hat hbt

theorem graded_gradeCells {s : TableState} {t : Table} {completion : Completion}
    (ht : t.WellKeyed) {disabled : DisabledCells}
    (hrows : s.configuration.rows = t.rows) (hcols : s.configuration.cols = t.cols)
    (hdis : ∀ row col, s.configuration.isDisabled row col = disabled row col)
    (hsel : ∀ row ∈ t.rows, ∀ col ∈ t.cols, col ∈ selectedIn completion row ↔ s.IsTicked row col) :
    List.Forall₂ (s.CellGraded t) s.configuration.enabledCells
      (gradeCells t.answerKey completion t.rows t.cols disabled).verdicts := by
  have hrow : ∀ row ∈ t.rows, List.Forall₂ (s.CellGraded t)
      ((t.cols.filter (fun col => !s.configuration.isDisabled row col)).map (row, ·))
      (cellVerdicts t.answerKey completion disabled t.cols row) := by
    intro row hr
    rw [ht.cellVerdicts_eq, List.forall₂_map_left_iff, List.forall₂_map_right_iff]
    simp only [hdis]
    rw [List.forall₂_same]
    intro col hc
    exact cellGraded (hsel row hr col (List.mem_filter.mp hc).1)
  rw [TableConfiguration.enabledCells, hrows, hcols, gradeCells_eq]
  change List.Forall₂ _ _ (t.rows.flatMap (cellVerdicts t.answerKey completion disabled t.cols))
  rw [List.flatMap_def, List.flatMap_def]
  apply List.rel_flatten
  rw [List.forall₂_map_left_iff, List.forall₂_map_right_iff, List.forall₂_same]
  exact hrow

theorem graded_gradeRows {s : TableState} {t : Table} {completion : Completion}
    (ht : t.WellKeyed)
    (hsel : ∀ row ∈ t.rows, ∀ col, col ∈ selectedIn completion row ↔
      col ∈ t.cols ∧ s.IsTicked row col)
    (hone : ∀ row ∈ t.rows, (selectedIn completion row).length ≤ 1) :
    List.Forall₂ (s.RowGraded t) t.rows (gradeRows t.answerKey completion t.rows).verdicts := by
  rw [gradeRows_eq, List.forall₂_map_right_iff, List.forall₂_same]
  intro row hr
  exact rowGraded ht (hsel row hr) (hone row hr)

theorem toggles_cellKind {preset : TablePreset} (h : preset ≠ .lookup) :
    preset.cellKind.toggles = true := by
  cases preset with
  | lookup => exact absurd rfl h
  | nary => rfl
  | classification => rfl
  | adjacency => rfl

theorem exists_completion_run {t : Table} (ht : t.WellKeyed) (preset : TablePreset)
    (cells : List (String × String × CellValue)) :
    ∃ completion : Completion,
      ((start (.forPreset t preset)).run (cells.map Write.ofCell)).2.completion = .ok completion ∧
        ∀ row ∈ t.rows, selectedIn completion row =
          ((start (.forPreset t preset)).run (cells.map Write.ofCell)).2.selected row := by
  have hlegal : ((start (.forPreset t preset)).run (cells.map Write.ofCell)).2.Legal := by
    apply legal_run
    intro w hw
    obtain ⟨cell, -, rfl⟩ := List.mem_map.mp hw
    exact ⟨cell.2.2, rfl⟩
  obtain ⟨completion, hok, hsel⟩ := exists_completion hlegal
  refine ⟨completion, hok, ?_⟩
  intro row hr
  rw [hsel row (by rw [configuration_run]; exact hr)]
  apply ht.map_normalizeLabel
  intro col hc
  have hmem := (List.mem_filter.mp hc).1
  rwa [configuration_run] at hmem

theorem graded_of_run (text : String) (preset : TablePreset) (h : preset ≠ .lookup)
    (cells : List (String × String × CellValue)) :
    let t := (Table.read text).1
    let s := ((start (.forPreset t preset)).run (cells.map Write.ofCell)).2
    ∃ completion g, s.completion = .ok completion ∧ t.grade? completion preset none = some g ∧
      s.Graded t preset g.verdicts := by
  intro t s
  have ht : t.WellKeyed := wellKeyed_read text
  have hconf : s.configuration = .forPreset t preset := configuration_run _ _
  have htoggles : s.configuration.cellKind.toggles = true := by
    rw [hconf]
    exact toggles_cellKind h
  obtain ⟨completion, hok, hsel⟩ := exists_completion_run ht preset cells
  have hticked : ∀ row ∈ t.rows, ∀ col,
      col ∈ selectedIn completion row ↔ col ∈ t.cols ∧ s.IsTicked row col := by
    intro row hr col
    rw [hsel row hr, mem_selected htoggles, hconf]
    rfl
  have hcell : ∀ row ∈ t.rows, ∀ col ∈ t.cols,
      col ∈ selectedIn completion row ↔ s.IsTicked row col := by
    intro row hr col hc
    rw [hticked row hr, and_iff_right hc]
  cases preset with
  | lookup => exact absurd rfl h
  | classification =>
      refine ⟨completion, _, hok, rfl, ?_⟩
      exact graded_gradeCells ht (by rw [hconf]; rfl) (by rw [hconf]; rfl)
        (by rw [hconf]; exact fun _ _ => rfl) hcell
  | adjacency =>
      refine ⟨completion, _, hok, rfl, ?_⟩
      exact graded_gradeCells ht (by rw [hconf]; rfl) (by rw [hconf]; rfl)
        (by rw [hconf]; exact fun _ _ => rfl) hcell
  | nary =>
      refine ⟨completion, _, hok, rfl, ?_⟩
      have hone : s.OneTickedPerRow := oneTickedPerRow_run rfl _
      refine graded_gradeRows ht hticked (fun row hr => ?_)
      rw [hsel row hr]
      exact length_selected_le_one (by rw [hconf]; exact ht.nodup_cols) htoggles hone row

def orchard : String := "Fruit = fig | plum;\nTree = oak;"

def orchardCells : List (String × String × CellValue) :=
  [("fig", "tree", .bool true), ("fig", "fruit", .bool true), ("elm", "shrub", .text "?"),
    ("oak", "fruit", .bool true)]

theorem graded_of_run_orchard :
    TablePreset.nary ≠ .lookup ∧
      let t := (Table.read orchard).1
      let s := ((start (.forPreset t .nary)).run (orchardCells.map Write.ofCell)).2
      t.rows = ["fig", "plum", "oak"] ∧
        ∃ completion g, s.completion = .ok completion ∧ t.grade? completion .nary none = some g ∧
          s.Graded t .nary g.verdicts := by
  refine ⟨by decide, ?_⟩
  intro t s
  have hrows : t.rows = ["fig", "plum", "oak"] := by decide +kernel
  exact ⟨hrows, graded_of_run orchard .nary (by decide) orchardCells⟩

end TableState

end Worksheet
