import Worksheet.Proofs.Exercise.FullMarks

namespace Worksheet

def Grade.verdictsOn (g : Grade) (item : String) : List ItemVerdict :=
  g.verdicts.filter (·.item = item)

namespace Table

variable {t : Table} {completion : Completion} {disabled : DisabledCells} {row col : String}

structure SelectsOnce (t : Table) (completion : Completion) (row : String) : Prop where
  nodup : (selectedIn completion row).Nodup
  mem_cols : ∀ col ∈ selectedIn completion row, col ∈ t.cols

instance : Decidable (t.SelectsOnce completion row) :=
  decidable_of_iff ((selectedIn completion row).Nodup ∧ ∀ col ∈ selectedIn completion row, col ∈ t.cols)
    ⟨fun h => ⟨h.1, h.2⟩, fun h => ⟨h.nodup, h.mem_cols⟩⟩

structure RowAgrees (t : Table) (cells : List ItemVerdict) (v : ItemVerdict) : Prop where
  cols : cells.map (·.category) = t.cols.map some
  correct : v.verdict = .correct ↔ ∀ cell ∈ cells, cell.verdict = .correct
  missed : v.verdict = .missed ↔ countOf .missed cells = 1 ∧ countOf .wrong cells = 0

theorem item_of_mem_cellVerdicts {answerKey : OrderedMap (List String)} {cols : List String}
    {v : ItemVerdict} (h : v ∈ cellVerdicts answerKey completion disabled cols row) :
    v.item = row := by
  obtain ⟨col, -, rfl⟩ := List.mem_map.mp h
  rfl

theorem verdictsOn_gradeCells (ht : t.WellKeyed) (hr : row ∈ t.rows) :
    (gradeCells t.answerKey completion t.rows t.cols disabled).verdictsOn row =
      (t.cols.filter (fun col => !disabled row col)).map (fun col =>
        ⟨row, some col, cellVerdict (col ∈ t.columnsOf row) (col ∈ selectedIn completion row)⟩) := by
  have hn : (t.rows.map (fun row => row)).Nodup := by
    rw [List.map_id']
    exact ht.nodup_rows
  rw [gradeCells_eq, ← ht.cellVerdicts_eq]
  exact filter_flatMap_of_nodup (fun _ _ hv => item_of_mem_cellVerdicts hv) hn hr

section Selection

variable {cols selected : List String}

theorem eq_singleton_iff (hn : selected.Nodup) (hsub : ∀ c ∈ selected, c ∈ cols)
    (hcol : col ∈ cols) : selected = [col] ↔ ∀ c ∈ cols, (c = col ↔ c ∈ selected) := by
  constructor
  · rintro rfl
    exact fun _ _ => List.mem_singleton.symm
  · intro h
    have hmem : ∀ c, c ∈ selected ↔ c ∈ [col] := by
      intro c
      rw [List.mem_singleton]
      constructor
      · exact fun hc => (h c (hsub c hc)).mpr hc
      · rintro rfl
        exact (h c hcol).mp rfl
    exact List.perm_singleton.mp ((List.perm_ext_iff_of_nodup hn (List.nodup_singleton col)).mpr hmem)

theorem eq_nil_iff_one_missed (hn : cols.Nodup) (hsub : ∀ c ∈ selected, c ∈ cols)
    (hcol : col ∈ cols) :
    selected = [] ↔ cols.countP (fun c => c = col ∧ c ∉ selected) = 1 ∧
      cols.countP (fun c => c ≠ col ∧ c ∈ selected) = 0 := by
  constructor
  · rintro rfl
    have hone : cols.count col = 1 := List.count_eq_one_of_mem hn hcol
    simpa [List.count, beq_eq_decide] using hone
  · rintro ⟨hmissed, hwrong⟩
    have hpos : 0 < cols.countP (fun c => c = col ∧ c ∉ selected) := by omega
    obtain ⟨c, -, hc⟩ := List.countP_pos_iff.mp hpos
    obtain ⟨rfl, hout⟩ := of_decide_eq_true hc
    refine List.eq_nil_iff_forall_not_mem.mpr (fun d hd => ?_)
    have hright : d = c := by
      by_contra hne
      exact List.countP_eq_zero.mp hwrong d (hsub d hd) (decide_eq_true ⟨hne, hd⟩)
    exact hout (hright ▸ hd)

end Selection

theorem countOf_cells {cols : List String} (verdict : Verdict) (should was : String → Bool) :
    countOf verdict (cols.map (fun c => ⟨row, some c, cellVerdict (should c) (was c)⟩)) =
      cols.countP (fun c => cellVerdict (should c) (was c) = verdict) := by
  rw [countOf, List.countP_map]
  rfl

theorem rowAgrees (ht : t.WellKeyed) (hrow : t.columnsOf row = [col])
    (hselect : t.SelectsOnce completion row) :
    t.RowAgrees
      (t.cols.map (fun c =>
        ⟨row, some c, cellVerdict (c ∈ t.columnsOf row) (c ∈ selectedIn completion row)⟩))
      ⟨row, columnFor t.answerKey row,
        rowVerdict (selectedIn completion row) (columnFor t.answerKey row)⟩ := by
  have hcol : col ∈ t.cols :=
    ht.mem_cols_of_mem_columnsOf (hrow ▸ List.mem_singleton_self col)
  have hfirst : columnFor t.answerKey row = some col := by
    rw [columnFor_eq_head?, hrow, List.head?_cons]
  refine ⟨by simp, ?_, ?_⟩
  · rw [rowVerdict_eq_correct, hfirst, List.forall_mem_map]
    simp only [Option.some.injEq, exists_eq_left', ht.normalizeLabel_col col hcol, hrow,
      List.mem_singleton, cellVerdict_eq_correct, decide_eq_decide]
    exact eq_singleton_iff hselect.nodup hselect.mem_cols hcol
  · rw [rowVerdict_eq_missed, countOf_cells, countOf_cells]
    simp only [hrow, List.mem_singleton, cellVerdict_eq_missed, cellVerdict_eq_wrong,
      decide_eq_true_eq, decide_eq_false_iff_not]
    exact eq_nil_iff_one_missed ht.nodup_cols hselect.mem_cols hcol

def gradeAllCells (t : Table) (completion : Completion) : Grade :=
  gradeCells t.answerKey completion t.rows t.cols (fun _ _ => false)

section Checked

variable (ht : t.WellKeyed) (h : t.defects .nary = [])
  (hselect : ∀ row ∈ t.rows, t.SelectsOnce completion row)

include ht h hselect

theorem rowAgrees_of_mem (hr : row ∈ t.rows) :
    t.RowAgrees ((t.gradeAllCells completion).verdictsOn row)
      ⟨row, columnFor t.answerKey row,
        rowVerdict (selectedIn completion row) (columnFor t.answerKey row)⟩ := by
  obtain ⟨col, hcol⟩ := exists_columnsOf_eq_singleton h hr
  have hopen : t.cols.filter (fun _ => !false) = t.cols := List.filter_eq_self.mpr (fun _ _ => rfl)
  rw [gradeAllCells, verdictsOn_gradeCells ht hr, hopen]
  exact rowAgrees ht hcol (hselect row hr)

theorem forall₂_rowAgrees :
    List.Forall₂ (fun row v =>
        v.item = row ∧ t.RowAgrees ((t.gradeAllCells completion).verdictsOn row) v)
      t.rows (gradeRows t.answerKey completion t.rows).verdicts := by
  rw [gradeRows_eq, List.forall₂_map_right_iff, List.forall₂_same]
  exact fun row hr => ⟨rfl, rowAgrees_of_mem ht h hselect hr⟩

theorem correct_gradeRows_eq_countP :
    (gradeRows t.answerKey completion t.rows).correct = t.rows.countP (fun row =>
      ∀ cell ∈ (t.gradeAllCells completion).verdictsOn row, cell.verdict = .correct) := by
  rw [gradeRows_eq]
  change countOf .correct (t.rows.map _) = _
  rw [countOf, List.countP_map]
  refine List.countP_congr (fun row hr => ?_)
  rw [Function.comp_apply, decide_eq_true_eq, decide_eq_true_eq]
  exact (rowAgrees_of_mem ht h hselect hr).correct

end Checked

theorem rows_agree_with_cells {text : String} {completion : Completion}
    (hcheck : (Exercise.check .table text .nary).ok = true)
    (hselect : ∀ row ∈ (read text).1.rows, (read text).1.SelectsOnce completion row) :
    let t := (read text).1
    let byRow := gradeRows t.answerKey completion t.rows
    let byCell := t.gradeAllCells completion
    List.Forall₂ (fun row v => v.item = row ∧ t.RowAgrees (byCell.verdictsOn row) v)
        t.rows byRow.verdicts ∧
      byRow.correct =
        t.rows.countP (fun row => ∀ cell ∈ byCell.verdictsOn row, cell.verdict = .correct) := by
  have hdefects := Exercise.defects_eq_nil_of_check_ok hcheck
  exact ⟨forall₂_rowAgrees (wellKeyed_read text) hdefects hselect,
    correct_gradeRows_eq_countP (wellKeyed_read text) hdefects hselect⟩

def hedge : String := "Fruit = sloe | haw;\nTree = ash;"

def hedgeAnswers : Completion :=
  .ofList [("ash", ⟨["Fruit"], ∅⟩), ("sloe", ⟨[" FRUIT"], ∅⟩)]

theorem rows_agree_with_cells_hedge :
    (Exercise.check .table hedge .nary).ok = true ∧
      (∀ row ∈ (read hedge).1.rows, (read hedge).1.SelectsOnce hedgeAnswers row) ∧
      List.Forall₂ (fun row v => v.item = row ∧
          (read hedge).1.RowAgrees (((read hedge).1.gradeAllCells hedgeAnswers).verdictsOn row) v)
        (read hedge).1.rows
        [⟨"sloe", some "fruit", .correct⟩, ⟨"haw", some "fruit", .missed⟩,
          ⟨"ash", some "tree", .wrong⟩] ∧
      (read hedge).1.rows.countP (fun row =>
        ∀ cell ∈ ((read hedge).1.gradeAllCells hedgeAnswers).verdictsOn row,
          cell.verdict = .correct) = 1 := by
  obtain ⟨hcheck, hselect, hverdicts, hone⟩ :
      (Exercise.check .table hedge .nary).ok = true ∧
        (∀ row ∈ (read hedge).1.rows, (read hedge).1.SelectsOnce hedgeAnswers row) ∧
        (gradeRows (read hedge).1.answerKey hedgeAnswers (read hedge).1.rows).verdicts =
          [⟨"sloe", some "fruit", .correct⟩, ⟨"haw", some "fruit", .missed⟩,
            ⟨"ash", some "tree", .wrong⟩] ∧
        (gradeRows (read hedge).1.answerKey hedgeAnswers (read hedge).1.rows).correct = 1 := by
    decide +kernel
  obtain ⟨hrows, hcorrect⟩ := rows_agree_with_cells hcheck hselect
  exact ⟨hcheck, hselect, hverdicts ▸ hrows, hcorrect.symm.trans hone⟩

end Table

end Worksheet
