import Worksheet.Exercise.Basic
import Worksheet.Proofs.Table.Mentions
import Worksheet.Proofs.Table.Validation

namespace Worksheet.Table

open ErrorMap OrderedMap

def Defect.Arises (t : Table) (preset : TablePreset) : Defect → Prop
  | noCols => t.cols = []
  | noRows => t.rows = []
  | blankRow n => ∃ row, (row, n) ∈ t.rows.zipIdx 1 ∧ Text.isBlank row = true
  | rowConflict col =>
      preset ≠ .adjacency ∧ col ∈ t.cols ∧ ∃ row ∈ t.rows, normalizeLabel row = normalizeLabel col
  | missingKey col => col ∈ t.cols ∧ t.answerKey.find? col = none
  | emptyCategory col => col ∈ t.cols ∧ t.answerKey.find? col = some []
  | duplicateItem col _ => ∃ items, t.answerKey.find? col = some items ∧ ¬ items.Nodup
  | unknownItem col _ =>
      ∃ items, t.answerKey.find? col = some items ∧ ∃ item ∈ items, item ∉ t.rows
  | unassigned row => preset = .nary ∧ row ∈ t.rows ∧ t.listed.count row = 0
  | multiCategory row _ => preset = .nary ∧ row ∈ t.rows ∧ 2 ≤ t.listed.count row

variable {t : Table} {preset : TablePreset} {row : String}

theorem Defect.arises_of_key_eq {d e : Defect} (h : d.key = e.key) (hd : d.Arises t preset) :
    e.Arises t preset := by
  have hcmp := (h ▸ d.isUnder_stem).comparable e.isUnder_stem
  cases d with
  | noCols => rwa [key_eq_noCols.mp h.symm]
  | noRows =>
      cases e with
      | noRows => exact hd
      | _ => exact absurd hcmp (by dsimp only [stem]; decide)
  | blankRow n =>
      cases e with
      | blankRow m =>
          obtain rfl : n = m := append_toString_inj.mp h
          exact hd
      | _ => exact absurd hcmp (by dsimp only [stem]; decide)
  | rowConflict col =>
      cases e with
      | rowConflict other =>
          obtain rfl : col = other := (String.append_right_inj _).mp h
          exact hd
      | _ => exact absurd hcmp (by dsimp only [stem]; decide)
  | missingKey col =>
      cases e with
      | missingKey other =>
          obtain rfl : col = other := (String.append_right_inj _).mp h
          exact hd
      | _ => exact absurd hcmp (by dsimp only [stem]; decide)
  | emptyCategory col => rwa [key_eq_emptyCategory.mp h.symm]
  | duplicateItem col item =>
      cases e with
      | duplicateItem other item' =>
          obtain rfl : col = other := (String.append_right_inj _).mp h
          exact hd
      | _ => exact absurd hcmp (by dsimp only [stem]; decide)
  | unknownItem col items =>
      cases e with
      | unknownItem other items' =>
          obtain rfl : col = other := (String.append_right_inj _).mp h
          exact hd
      | _ => exact absurd hcmp (by dsimp only [stem]; decide)
  | unassigned row =>
      cases e with
      | unassigned other =>
          obtain rfl : row = other := (String.append_right_inj _).mp h
          exact hd
      | _ => exact absurd hcmp (by dsimp only [stem]; decide)
  | multiCategory row cols =>
      cases e with
      | multiCategory other cols' =>
          obtain rfl : row = other := (String.append_right_inj _).mp h
          exact hd
      | _ => exact absurd hcmp (by dsimp only [stem]; decide)

theorem arises_of_mem_defects {d : Defect} (hd : d ∈ t.defects preset) : d.Arises t preset := by
  cases d with
  | noCols => exact noCols_mem_defects.mp hd
  | noRows => exact noRows_mem_defects.mp hd
  | blankRow n => exact Text.mem_blankPositions.mp (blankRow_mem_defects.mp hd)
  | rowConflict col =>
      obtain ⟨hpreset, hcol, hrow⟩ := rowConflict_mem_defects.mp hd
      exact ⟨hpreset, hcol, List.mem_map.mp hrow⟩
  | missingKey col => exact missingKey_mem_defects.mp hd
  | emptyCategory col => exact emptyCategory_mem_defects.mp hd
  | duplicateItem col item =>
      obtain ⟨items, he, hitem⟩ := duplicateItem_mem_defects.mp hd
      exact ⟨items, find?_eq_some_iff.mpr he, exists_head?_repeats_iff.mp ⟨item, hitem⟩⟩
  | unknownItem col unknown =>
      obtain ⟨items, he, hitem, -⟩ := unknownItem_mem_defects.mp hd
      exact ⟨items, find?_eq_some_iff.mpr he, hitem⟩
  | unassigned row =>
      obtain ⟨hpreset, hr, hnone⟩ := unassigned_mem_defects.mp hd
      exact ⟨hpreset, hr, by rw [← length_mentions, hnone, List.length_nil]⟩
  | multiCategory row cols =>
      obtain ⟨hpreset, hr, hmany, -⟩ := multiCategory_mem_defects.mp hd
      exact ⟨hpreset, hr, by rwa [← length_mentions]⟩

theorem exists_mem_defects_of_arises {d : Defect} (hd : d.Arises t preset) :
    ∃ e ∈ t.defects preset, e.key = d.key := by
  cases d with
  | noCols => exact ⟨_, noCols_mem_defects.mpr hd, rfl⟩
  | noRows => exact ⟨_, noRows_mem_defects.mpr hd, rfl⟩
  | blankRow n => exact ⟨_, blankRow_mem_defects.mpr (Text.mem_blankPositions.mpr hd), rfl⟩
  | rowConflict col =>
      obtain ⟨hpreset, hcol, hrow⟩ := hd
      exact ⟨_, rowConflict_mem_defects.mpr ⟨hpreset, hcol, List.mem_map.mpr hrow⟩, rfl⟩
  | missingKey col => exact ⟨_, missingKey_mem_defects.mpr hd, rfl⟩
  | emptyCategory col => exact ⟨_, emptyCategory_mem_defects.mpr hd, rfl⟩
  | duplicateItem col item =>
      obtain ⟨items, hfind, hrepeated⟩ := hd
      obtain ⟨first, hfirst⟩ := exists_head?_repeats_iff.mpr hrepeated
      exact ⟨_, duplicateItem_mem_defects.mpr ⟨items, find?_eq_some_iff.mp hfind, hfirst⟩, rfl⟩
  | unknownItem col unknown =>
      obtain ⟨items, hfind, hitem⟩ := hd
      have he := find?_eq_some_iff.mp hfind
      exact ⟨_, unknownItem_mem_defects.mpr ⟨items, he, hitem, rfl⟩, rfl⟩
  | unassigned row =>
      obtain ⟨hpreset, hr, hnone⟩ := hd
      rw [← length_mentions, List.length_eq_zero_iff] at hnone
      exact ⟨_, unassigned_mem_defects.mpr ⟨hpreset, hr, hnone⟩, rfl⟩
  | multiCategory row cols =>
      obtain ⟨hpreset, hr, hmany⟩ := hd
      rw [← length_mentions] at hmany
      exact ⟨_, multiCategory_mem_defects.mpr ⟨hpreset, hr, hmany, rfl⟩, rfl⟩

theorem names_validate (t : Table) (preset : TablePreset) :
    ((Exercise.table t).validate preset).errors.Names (Defect.Arises t preset) :=
  names_ofProblems (fun _ => arises_of_mem_defects) (fun _ => exists_mem_defects_of_arises)
    (fun _ _ => Defect.arises_of_key_eq)

theorem Defect.isUnder_nary_iff {d : Defect} :
    IsUnder "nary." d.key ↔ (∃ row, d = .unassigned row) ∨ ∃ row cols, d = .multiCategory row cols := by
  constructor
  · intro h
    have hcmp := h.comparable d.isUnder_stem
    cases d with
    | unassigned row => exact Or.inl ⟨row, rfl⟩
    | multiCategory row cols => exact Or.inr ⟨row, cols, rfl⟩
    | _ => exact absurd hcmp (by dsimp only [stem]; decide)
  · rintro (⟨row, rfl⟩ | ⟨row, cols, rfl⟩)
    · exact (isUnder_append "nary." "unassigned.").append row
    · exact (isUnder_append "nary." "multiCategory.").append row

theorem not_hasStem_nary_iff :
    ¬ ((Exercise.table t).validate .nary).errors.HasStem "nary." ↔
      ∀ row ∈ t.rows, t.listed.count row = 1 := by
  have hstem : ((Exercise.table t).validate .nary).errors.HasStem "nary." ↔
      ∃ d : Defect, d.Arises t .nary ∧ IsUnder "nary." d.key :=
    (names_validate t .nary).hasStem_iff
  rw [hstem]
  constructor
  · intro h row hr
    have hsome : t.listed.count row ≠ 0 := fun hnone =>
      h ⟨.unassigned row, ⟨rfl, hr, hnone⟩, Defect.isUnder_nary_iff.mpr (Or.inl ⟨row, rfl⟩)⟩
    have hfew : ¬ 2 ≤ t.listed.count row := fun hmany =>
      h ⟨.multiCategory row [], ⟨rfl, hr, hmany⟩,
        Defect.isUnder_nary_iff.mpr (Or.inr ⟨row, [], rfl⟩)⟩
    omega
  · rintro h ⟨d, hd, hu⟩
    rcases Defect.isUnder_nary_iff.mp hu with ⟨row, rfl⟩ | ⟨row, cols, rfl⟩
    · obtain ⟨-, hr, hnone⟩ := hd
      rw [h row hr] at hnone
      cases hnone
    · obtain ⟨-, hr, hmany⟩ := hd
      rw [h row hr] at hmany
      exact absurd hmany (by decide)

theorem report_exact (t : Table) (preset : TablePreset) :
    ((Exercise.table t).validate preset).errors.Names (Defect.Arises t preset) ∧
      (¬ ((Exercise.table t).validate .nary).errors.HasStem "nary." ↔
        ∀ row ∈ t.rows, t.listed.count row = 1) :=
  ⟨names_validate t preset, not_hasStem_nary_iff⟩

section Assignment

theorem unassigned_mem_keys_iff (hr : row ∈ t.rows) :
    s!"nary.unassigned.{row}" ∈ ((Exercise.table t).validate .nary).errors.keys ↔
      t.columnsOf row = [] := by
  rw [columnsOf_eq_nil_iff]
  refine ((names_validate t .nary).key_mem_iff (.unassigned row)).trans ?_
  exact (and_iff_right rfl).trans (and_iff_right hr)

theorem multiCategory_mem_keys_iff (hr : row ∈ t.rows) :
    s!"nary.multiCategory.{row}" ∈ ((Exercise.table t).validate .nary).errors.keys ↔
      2 ≤ (t.columnsOf row).length ∨ ∃ col, t.columnsOf row = [col] ∧ t.ListsAgain row col := by
  rw [← two_le_count_listed_iff]
  refine ((names_validate t .nary).key_mem_iff (.multiCategory row [])).trans ?_
  exact (and_iff_right rfl).trans (and_iff_right hr)

theorem duplicateItem_mem_keys_of_listsAgain {col : String} (h : t.ListsAgain row col) :
    s!"answerKey.duplicateItem.{col}" ∈ ((Exercise.table t).validate preset).errors.keys := by
  obtain ⟨items, hfind, hcount⟩ := h
  refine ((names_validate t preset).key_mem_iff (.duplicateItem col row)).mpr
    ⟨items, hfind, fun hnodup => ?_⟩
  have hone := List.nodup_iff_count.mp hnodup row
  omega

end Assignment

theorem assignment_diagnosed (text : String) {row : String} (hr : row ∈ (read text).1.rows) :
    let t := (read text).1
    let report := ((Exercise.read .table text).exercise.validate .nary).errors
    (s!"nary.unassigned.{row}" ∈ report.keys ↔ t.columnsOf row = []) ∧
      (s!"nary.multiCategory.{row}" ∈ report.keys ↔
        2 ≤ (t.columnsOf row).length ∨ ∃ col, t.columnsOf row = [col] ∧ t.ListsAgain row col) ∧
      ∀ col, t.ListsAgain row col → s!"answerKey.duplicateItem.{col}" ∈ report.keys := by
  intro t report
  have hreport : report = ((Exercise.table t).validate .nary).errors := by
    dsimp only [report, t]
    rw [Exercise.read_table]
  rw [hreport]
  exact ⟨unassigned_mem_keys_iff hr, multiCategory_mem_keys_iff hr,
    fun col => duplicateItem_mem_keys_of_listsAgain⟩

def hedgerow : String := "Fruit = fig | sloe | fig;\nTree = sloe | oak;\n= rain;"

def hedgerowReport : ErrorMap :=
  ((Exercise.read .table hedgerow).exercise.validate .nary).errors

theorem assignment_diagnosed_hedgerow :
    (∀ row ∈ ["rain", "sloe", "oak", "fig"], row ∈ (read hedgerow).1.rows) ∧
      "nary.unassigned.rain" ∈ hedgerowReport.keys ∧
      "nary.multiCategory.sloe" ∈ hedgerowReport.keys ∧
      "nary.multiCategory.oak" ∉ hedgerowReport.keys ∧
      "nary.multiCategory.fig" ∈ hedgerowReport.keys ∧
      "answerKey.duplicateItem.fruit" ∈ hedgerowReport.keys := by
  obtain ⟨hrows, hfruitItems, hitems, hrainColumns, hsloeColumns, htree, hfigColumns⟩ :
      (∀ row ∈ ["rain", "sloe", "oak", "fig"], row ∈ (read hedgerow).1.rows) ∧
        (read hedgerow).1.answerKey.find? "fruit" = some ["fig", "sloe", "fig"] ∧
        (read hedgerow).1.answerKey.find? "tree" = some ["sloe", "oak"] ∧
        (read hedgerow).1.columnsOf "rain" = [] ∧
        2 ≤ ((read hedgerow).1.columnsOf "sloe").length ∧
        (read hedgerow).1.columnsOf "oak" = ["tree"] ∧
        (read hedgerow).1.columnsOf "fig" = ["fruit"] := by
    decide +kernel
  have hagain : (read hedgerow).1.ListsAgain "fig" "fruit" :=
    ⟨["fig", "sloe", "fig"], hfruitItems, by decide⟩
  obtain ⟨hrain, -, -⟩ := assignment_diagnosed hedgerow (hrows "rain" (by decide))
  obtain ⟨-, hsloe, -⟩ := assignment_diagnosed hedgerow (hrows "sloe" (by decide))
  obtain ⟨-, hoak, -⟩ := assignment_diagnosed hedgerow (hrows "oak" (by decide))
  obtain ⟨-, hfig, hfruit⟩ := assignment_diagnosed hedgerow (hrows "fig" (by decide))
  refine ⟨hrows, hrain.mpr hrainColumns, hsloe.mpr (Or.inl hsloeColumns), mt hoak.mp ?_,
    hfig.mpr (Or.inr ⟨"fruit", hfigColumns, hagain⟩), hfruit "fruit" hagain⟩
  rintro (hmany | ⟨col, hcol, items, hfind, hcount⟩)
  · rw [htree] at hmany
    exact absurd hmany (by decide)
  · obtain rfl : col = "tree" := List.singleton_inj.mp (hcol.symm.trans htree)
    obtain rfl : items = ["sloe", "oak"] := Option.some.inj (hfind.symm.trans hitems)
    exact absurd hcount (by decide)

theorem one_column_misreported :
    "x" ∈ (read "A = x | x;").1.rows ∧ (read "A = x | x;").1.columnsOf "x" = ["a"] ∧
      ¬ ("nary.multiCategory.x" ∈
          ((Exercise.read .table "A = x | x;").exercise.validate .nary).errors.keys ↔
        2 ≤ ((read "A = x | x;").1.columnsOf "x").length) := by
  decide +kernel

end Worksheet.Table
