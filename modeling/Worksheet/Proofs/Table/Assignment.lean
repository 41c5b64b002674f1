import Worksheet.Proofs.Exercise.FullMarks

namespace Worksheet.Table

open OrderedMap

variable {t : Table} {row col : String}

def ticking (t : Table) (pick : String → String) : Completion :=
  .ofList (t.rows.map (fun row => (row, ⟨[pick row], ∅⟩)))

theorem selectedIn_ticking (pick : String → String) (hr : row ∈ t.rows) :
    selectedIn (t.ticking pick) row = [normalizeLabel (pick row)] := by
  have hfind := find?_ofList_map (fun row => (⟨[pick row], ∅⟩ : RowValues)) t.rows row
  rw [if_pos hr] at hfind
  rw [selectedIn, ticking, hfind]
  rfl

theorem correct_mem_verdicts_gradeRows {completion : Completion} (hr : row ∈ t.rows) :
    ⟨row, some col, .correct⟩ ∈ (gradeRows t.answerKey completion t.rows).verdicts ↔
      columnFor t.answerKey row = some col ∧ selectedIn completion row = [normalizeLabel col] := by
  rw [gradeRows_eq]
  constructor
  · intro h
    obtain ⟨other, -, heq⟩ := List.mem_map.mp h
    obtain ⟨rfl, hcol, hverdict⟩ := ItemVerdict.mk.inj heq
    rw [rowVerdict_eq_correct] at hverdict
    obtain ⟨expected, hexpected, hselected⟩ := hverdict
    obtain rfl : expected = col := Option.some.inj (hexpected.symm.trans hcol)
    exact ⟨hcol, hselected⟩
  · rintro ⟨hcol, hselected⟩
    have hverdict := rowVerdict_eq_correct.mpr ⟨col, hcol, hselected⟩
    refine List.mem_map.mpr ⟨row, hr, ?_⟩
    rw [ItemVerdict.mk.injEq]
    exact ⟨rfl, hcol, hverdict⟩

theorem mem_rows_of_lists {preset : TablePreset} (h : t.defects preset = [])
    (hl : t.Lists row col) : row ∈ t.rows := by
  obtain ⟨items, hfind, hrow⟩ := hl
  by_contra hunknown
  have hdefect : .unknownItem col (items.filter (· ∉ t.rows)) ∈ t.defects preset :=
    unknownItem_mem_defects.mpr ⟨items, find?_eq_some_iff.mp hfind, ⟨row, hrow, hunknown⟩, rfl⟩
  exact List.eq_nil_iff_forall_not_mem.mp h _ hdefect

section Checked

variable (h : t.defects .nary = [])

include h

theorem columnsOf_of_lists (hl : t.Lists row col) : t.columnsOf row = [col] := by
  obtain ⟨only, honly⟩ := exists_columnsOf_eq_singleton h (mem_rows_of_lists h hl)
  have hcol := mem_columnsOf.mpr hl
  rw [honly, List.mem_singleton] at hcol
  rw [honly, hcol]

theorem eq_of_lists {other : String} (hl : t.Lists row col) (hl' : t.Lists row other) :
    other = col := by
  have hother := mem_columnsOf.mpr hl'
  rwa [columnsOf_of_lists h hl, List.mem_singleton] at hother

theorem existsUnique_lists (hr : row ∈ t.rows) : ∃! col, t.Lists row col := by
  obtain ⟨col, hcol⟩ := exists_columnsOf_eq_singleton h hr
  have hl : t.Lists row col := mem_columnsOf.mp (hcol ▸ List.mem_singleton_self col)
  exact ⟨col, hl, fun _ hother => eq_of_lists h hl hother⟩

theorem forall_lists_of_lists {P : String → Prop} (hl : t.Lists row col) :
    (∀ other, t.Lists row other → P other) ↔ P col := by
  constructor
  · intro hall
    exact hall col hl
  · intro hcol other hother
    rwa [eq_of_lists h hl hother]

theorem columnFor_of_lists (hl : t.Lists row col) : columnFor t.answerKey row = some col := by
  rw [columnFor_eq_head?, columnsOf_of_lists h hl, List.head?_cons]

theorem existsUnique_col_iff (hl : t.Lists row col) :
    (∃! c, c ∈ t.cols ∧ t.Lists row c) ↔ col ∈ t.cols := by
  constructor
  · rintro ⟨c, ⟨hc, hlc⟩, -⟩
    rwa [eq_of_lists h hl hlc] at hc
  · intro hc
    exact ⟨col, ⟨hc, hl⟩, fun _ hother => eq_of_lists h hl hother.2⟩

theorem forall_lists_iff {P : String → Prop} :
    (∀ row ∈ t.rows, ∀ col, t.Lists row col → P col) ↔
      ∀ entry ∈ t.answerKey.entries, entry.2 ≠ [] → P entry.1 := by
  constructor
  · rintro hP ⟨col, items⟩ he hne
    obtain ⟨item, hi⟩ := List.exists_mem_of_ne_nil items hne
    have hl : t.Lists item col := ⟨items, find?_eq_some_iff.mpr he, hi⟩
    exact hP item (mem_rows_of_lists h hl) col hl
  · rintro hP row - col ⟨items, hfind, hi⟩
    exact hP (col, items) (find?_eq_some_iff.mp hfind) (List.ne_nil_of_mem hi)

theorem correct_ticking_iff (pick : String → String) :
    (gradeRows t.answerKey (t.ticking pick) t.rows).correct =
        (gradeRows t.answerKey (t.ticking pick) t.rows).total ↔
      ∀ row ∈ t.rows, ∀ col, t.Lists row col → normalizeLabel (pick row) = normalizeLabel col := by
  rw [correct_eq_total_gradeRows_iff]
  refine forall₂_congr (fun row hr => ?_)
  obtain ⟨col, hl, -⟩ := existsUnique_lists h hr
  rw [selectedIn_ticking pick hr, columnFor_of_lists h hl, forall_lists_of_lists h hl]
  simp only [Option.some.injEq, exists_eq_left', List.cons.injEq, and_true]

theorem exists_correct_ticking_iff :
    (∃ pick : String → String, (∀ row ∈ t.rows, pick row ∈ t.cols) ∧
        (gradeRows t.answerKey (t.ticking pick) t.rows).correct =
          (gradeRows t.answerKey (t.ticking pick) t.rows).total) ↔
      ∀ row ∈ t.rows, ∀ col, t.Lists row col →
        normalizeLabel col ∈ t.cols.map normalizeLabel := by
  simp only [correct_ticking_iff h]
  constructor
  · rintro ⟨pick, hcols, hpick⟩ row hr col hl
    rw [← hpick row hr col hl]
    exact List.mem_map_of_mem (hcols row hr)
  · intro hcols
    have hpick : ∀ row, ∃ picked, row ∈ t.rows →
        picked ∈ t.cols ∧ ∀ col, t.Lists row col → normalizeLabel picked = normalizeLabel col := by
      intro row
      by_cases hr : row ∈ t.rows
      · obtain ⟨col, hl, -⟩ := existsUnique_lists h hr
        obtain ⟨picked, hmem, hsame⟩ := List.mem_map.mp (hcols row hr col hl)
        exact ⟨picked, fun _ => ⟨hmem, (forall_lists_of_lists h hl).mpr hsame⟩⟩
      · exact ⟨"", fun hmem => absurd hmem hr⟩
    obtain ⟨pick, hpick⟩ := Classical.axiomOfChoice hpick
    exact ⟨pick, fun row hr => (hpick row hr).1, fun row hr => (hpick row hr).2⟩

end Checked

theorem existsUnique_col_of_check_ok {text : String}
    (h : (Exercise.check .table text .nary).ok = true) (hr : row ∈ (read text).1.rows) :
    ∃! col, col ∈ (read text).1.cols ∧ (read text).1.Lists row col := by
  have hdefects := Exercise.defects_eq_nil_of_check_ok h
  obtain ⟨col, hl, -⟩ := existsUnique_lists hdefects hr
  rw [existsUnique_col_iff hdefects hl]
  exact (wellKeyed_read text).mem_cols_of_mem_columnsOf (mem_columnsOf.mpr hl)

theorem rows_assigned {t : Table} (h : ((Exercise.table t).validate .nary).ok = true) :
    (∀ row ∈ t.rows, ∃! col, t.Lists row col) ∧
      (∀ row col, t.Lists row col →
        ((∃! c, c ∈ t.cols ∧ t.Lists row c) ↔ col ∈ t.cols) ∧
          ∀ completion,
            ⟨row, some col, .correct⟩ ∈ (gradeRows t.answerKey completion t.rows).verdicts ↔
              selectedIn completion row = [normalizeLabel col]) ∧
      ((∀ row ∈ t.rows, ∃! c, c ∈ t.cols ∧ t.Lists row c) ↔
        ∀ entry ∈ t.answerKey.entries, entry.2 ≠ [] → entry.1 ∈ t.cols) ∧
      ((∃ pick : String → String, (∀ row ∈ t.rows, pick row ∈ t.cols) ∧
          (gradeRows t.answerKey (t.ticking pick) t.rows).correct =
            (gradeRows t.answerKey (t.ticking pick) t.rows).total) ↔
        ∀ entry ∈ t.answerKey.entries, entry.2 ≠ [] →
          normalizeLabel entry.1 ∈ t.cols.map normalizeLabel) := by
  have hdefects : t.defects .nary = [] := ErrorMap.isEmpty_ofProblems.mp h
  refine ⟨fun row hr => existsUnique_lists hdefects hr, ?_, ?_, ?_⟩
  · intro row col hl
    refine ⟨existsUnique_col_iff hdefects hl, fun completion => ?_⟩
    rw [correct_mem_verdicts_gradeRows (mem_rows_of_lists hdefects hl),
      and_iff_right (columnFor_of_lists hdefects hl)]
  · rw [← forall_lists_iff hdefects]
    refine forall₂_congr (fun row hr => ?_)
    obtain ⟨col, hl, -⟩ := existsUnique_lists hdefects hr
    rw [existsUnique_col_iff hdefects hl, forall_lists_of_lists hdefects hl]
  · rw [exists_correct_ticking_iff hdefects,
      forall_lists_iff hdefects (P := fun col => normalizeLabel col ∈ t.cols.map normalizeLabel)]

def copse : Table where
  rows := ["sloe", "ash", "elm"]
  cols := ["fruit", "tree"]
  answerKey := .ofList [("fruit", ["sloe"]), ("tree", ["elm", "ash"])]
  distractors := []

theorem rows_assigned_copse :
    ((Exercise.table copse).validate .nary).ok = true ∧
      (∀ row ∈ copse.rows, ∃! c, c ∈ copse.cols ∧ copse.Lists row c) ∧
      (∃ pick : String → String, (∀ row ∈ copse.rows, pick row ∈ copse.cols) ∧
        (gradeRows copse.answerKey (copse.ticking pick) copse.rows).correct =
          (gradeRows copse.answerKey (copse.ticking pick) copse.rows).total) ∧
      (⟨"ash", some "tree", .correct⟩ ∈
        (gradeRows copse.answerKey (.ofList [("ash", ⟨[" TREE"], ∅⟩)]) copse.rows).verdicts) := by
  have hok : ((Exercise.table copse).validate .nary).ok = true := by decide
  have hkey : ∀ entry ∈ copse.answerKey.entries, entry.2 ≠ [] → entry.1 ∈ copse.cols := by decide
  obtain ⟨-, hrow, hcols, hticking⟩ := rows_assigned hok
  have hash := (hrow "ash" "tree" ⟨["elm", "ash"], rfl, by decide⟩).2
  exact ⟨hok, hcols.mpr hkey,
    hticking.mpr (fun entry he hne => List.mem_map_of_mem (hkey entry he hne)),
    (hash _).mpr (by decide)⟩

def strayEntry : Table where
  rows := ["fig", "oak"]
  cols := ["fruit"]
  answerKey := .ofList [("fruit", ["fig"]), ("tree", ["oak"])]
  distractors := []

theorem row_without_column :
    ((Exercise.table strayEntry).validate .nary).ok = true ∧ "oak" ∈ strayEntry.rows ∧
      ¬ ∃! col, col ∈ strayEntry.cols ∧ strayEntry.Lists "oak" col := by
  refine ⟨by decide, by decide, ?_⟩
  rintro ⟨col, ⟨hcol, hl⟩, -⟩
  have hlisted : strayEntry.columnsOf "oak" = ["tree"] := by decide
  have htree := mem_columnsOf.mpr hl
  rw [hlisted, List.mem_singleton] at htree
  rw [htree] at hcol
  exact absurd hcol (by decide)

end Worksheet.Table
