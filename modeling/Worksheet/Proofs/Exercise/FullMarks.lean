import Worksheet.Exercise.Grading
import Worksheet.Proofs.Association.Grading
import Worksheet.Proofs.Classification.Grading
import Worksheet.Proofs.Classification.Validation
import Worksheet.Proofs.Recognition.Grading
import Worksheet.Proofs.Recognition.Validation
import Worksheet.Proofs.Seriation.Grading
import Worksheet.Proofs.Table.Grading

namespace Worksheet

open Table

def Table.RowRight (t : Table) (preset : TablePreset) (completion : Completion) (row : String) :
    Prop :=
  match preset with
  | .lookup => False
  | .nary => selectedIn completion row = t.columnsOf row ∧ (t.columnsOf row).length = 1
  | .classification =>
      ∀ col, (col ∈ selectedIn completion row ∧ col ∈ t.cols) ↔ col ∈ t.columnsOf row
  | .adjacency =>
      ∀ col ∈ t.cols, onDiagonal row col = false →
        (col ∈ selectedIn completion row ↔ col ∈ t.columnsOf row)

namespace Exercise

def Right : (e : Exercise) → TablePreset → e.family.Answers → Prop
  | classification c, _, labels =>
      ∀ category ∈ c.categories, ∀ item ∈ category.items, ∃ chosen,
        labels.find? item = some (some chosen) ∧ chosen ≠ "" ∧
          normalizeLabel chosen = category.label
  | table t, preset, completion => ∀ row ∈ t.rows, t.RowRight preset completion row
  | recognition r, _, options =>
      ∀ q ∈ r.questions, ∀ option,
        option ∈ (options.find? q.question).getD [] ↔ option ∈ q.correctOptions
  | seriation s, _, items => s.items <+: items
  | association a, _, rights => ∀ p ∈ a.pairs, rights.find? p.left = some p.right

def GradesExactly (e : Exercise) (preset : TablePreset) : Prop :=
  ∀ answers : e.family.Answers, ∃ g, e.grade answers preset = .ok g ∧ g.InRange ∧
    (preset ≠ .adjacency → 0 < g.total) ∧ (g.correct = g.total ↔ e.Right preset answers)

theorem validate_ok_of_check_ok {family : Family} {text : String} {preset : TablePreset}
    (h : (check family text preset).ok = true) :
    ((read family text).exercise.validate preset).ok = true := by
  rw [Validation.ok, OrderedMap.isEmpty_iff] at h ⊢
  intro key hk
  exact h key (OrderedMap.mem_keys_merge.mpr (Or.inl hk))

theorem defects_eq_nil_of_check_ok {text : String} {preset : TablePreset}
    (h : (check .table text preset).ok = true) : (Table.read text).1.defects preset = [] := by
  have hvalid := validate_ok_of_check_ok h
  simpa only [read_table, validate, Validation.ok, ErrorMap.isEmpty_ofProblems] using hvalid

theorem gradesExactly_classification {c : Classification} {preset : TablePreset}
    (h : c.defects = []) (hlabel : ∀ category ∈ c.categories,
      normalizeLabel category.label = category.label) :
    (classification c).GradesExactly preset := by
  intro (labels : OrderedMap (Option String))
  refine ⟨_, rfl, Classification.inRange_grade, fun _ => ?_, ?_⟩
  · have hne : c.categories ≠ [] := by
      intro hnil
      exact List.eq_nil_iff_forall_not_mem.mp h _
        (Classification.noCategories_mem_defects.mpr hnil)
    obtain ⟨category, hc⟩ := List.exists_mem_of_ne_nil _ hne
    apply Classification.total_pos hc
    intro hnil
    exact List.eq_nil_iff_forall_not_mem.mp h _
      (Classification.emptyCategory_mem_defects.mpr ⟨category, hc, rfl, hnil⟩)
  · rw [Classification.correct_eq_total_iff]
    refine forall₂_congr (fun category hc => ?_)
    rw [hlabel category hc]
    exact Iff.rfl

theorem rowRight_classification_iff {t : Table} (ht : t.WellKeyed) {completion : Completion}
    {row : String} :
    t.RowRight .classification completion row ↔
      ∀ col ∈ t.cols, (col ∈ selectedIn completion row ↔ col ∈ t.columnsOf row) := by
  constructor
  · intro h col hc
    rw [← h col, and_iff_left hc]
  · intro h col
    constructor
    · rintro ⟨hs, hc⟩
      exact (h col hc).mp hs
    · intro hk
      have hc := ht.mem_cols_of_mem_columnsOf hk
      exact ⟨(h col hc).mpr hk, hc⟩

theorem gradesExactly_table {t : Table} {preset : TablePreset} (ht : t.WellKeyed)
    (h : t.defects preset = []) (hpreset : preset ≠ .lookup) :
    (table t).GradesExactly preset := by
  intro (completion : Completion)
  obtain ⟨row, hr⟩ := List.exists_mem_of_ne_nil _ (rows_ne_nil_of_defects_eq_nil h)
  obtain ⟨col, hc⟩ := List.exists_mem_of_ne_nil _ (cols_ne_nil_of_defects_eq_nil h)
  cases preset with
  | lookup => exact absurd rfl hpreset
  | nary =>
      refine ⟨_, rfl, inRange_gradeRows, fun _ => List.length_pos_of_mem hr, ?_⟩
      exact correct_eq_total_gradeRows_iff_of_defects_eq_nil ht h
  | classification =>
      refine ⟨_, rfl, inRange_gradeCells, fun _ => total_pos_gradeCells ht hr hc rfl, ?_⟩
      refine (correct_eq_total_gradeCells_iff ht).trans ?_
      refine forall₂_congr (fun row _ => ?_)
      rw [rowRight_classification_iff ht]
      exact forall₂_congr (fun col _ => forall_prop_of_true rfl)
  | adjacency =>
      refine ⟨_, rfl, inRange_gradeCells, fun hne => absurd rfl hne, ?_⟩
      exact correct_eq_total_gradeCells_iff ht

theorem gradesExactly_recognition {r : Recognition} {preset : TablePreset} (h : r.defects = []) :
    (recognition r).GradesExactly preset := by
  intro (options : OrderedMap (List String))
  refine ⟨_, rfl, Recognition.inRange_grade, fun _ => ?_, Recognition.correct_eq_total_iff⟩
  have hne : r.questions ≠ [] := by
    intro hnil
    simp [Recognition.defects, hnil] at h
  exact List.length_pos_of_ne_nil hne

theorem gradesExactly_seriation {s : Seriation} {preset : TablePreset} (h : s.defects = []) :
    (seriation s).GradesExactly preset := by
  intro (items : List String)
  obtain ⟨hpos, hnodup⟩ := Seriation.items_of_defects_eq_nil h
  exact ⟨_, rfl, Seriation.inRange_grade, fun _ => hpos, Seriation.correct_eq_total_iff hnodup⟩

theorem gradesExactly_association {a : Association} {preset : TablePreset} (ha : a.Sound)
    (h : a.defects = []) : (association a).GradesExactly preset := by
  intro (rights : OrderedMap String)
  refine ⟨_, rfl, Association.inRange_grade, fun _ => ?_,
    Association.correct_eq_total_iff ha.nodup_lefts⟩
  have hne : a.pairs ≠ [] := by
    intro hnil
    simp [Association.defects, hnil] at h
  exact List.length_pos_of_ne_nil hne

theorem gradesExactly_read {family : Family} {text : String} {preset : TablePreset}
    (hcheck : (check family text preset).ok = true) (hpreset : preset ≠ .lookup) :
    (read family text).exercise.GradesExactly preset := by
  have h := validate_ok_of_check_ok hcheck
  cases family with
  | classification =>
      simp only [read_classification, validate, Validation.ok, ErrorMap.isEmpty_ofProblems] at h
      rw [read_classification]
      exact gradesExactly_classification h (sound_readCategories text).normalizeLabel_label
  | table =>
      simp only [read_table, validate, Validation.ok, ErrorMap.isEmpty_ofProblems] at h
      rw [read_table]
      exact gradesExactly_table (wellKeyed_read text) h hpreset
  | recognition =>
      simp only [read_recognition, validate, Validation.ok, ErrorMap.isEmpty_ofProblems] at h
      rw [read_recognition]
      exact gradesExactly_recognition h
  | seriation =>
      simp only [read_seriation, validate, Validation.ok, ErrorMap.isEmpty_ofProblems] at h
      rw [read_seriation]
      exact gradesExactly_seriation h
  | association =>
      simp only [read_association, validate, Validation.ok, ErrorMap.isEmpty_ofProblems] at h
      rw [read_association]
      exact gradesExactly_association (Association.sound_read text) h

theorem gradeAs_eq_ok {e : Exercise} {response given : Value} {preset : TablePreset}
    {answers : e.family.Answers} {g : Grade}
    (hanswers : Shape.answers e.family response = .ok answers)
    (hpreset : presetFor e.family given = .ok preset) (hgrade : e.grade answers preset = .ok g)
    (hrange : g.InRange) : e.gradeAs response given = .ok g := by
  rw [gradeAs, hanswers, hpreset]
  change (e.grade answers preset >>= inRange) = .ok g
  rw [hgrade]
  change inRange g = .ok g
  rw [inRange, if_pos hrange]

theorem full_marks_iff_right {family : Family} {text : String} {response given : Value}
    {preset : TablePreset} {verdict : Validation}
    {answers : (read family text).exercise.family.Answers}
    (hpreset : presetFor family given = .ok preset)
    (hcheck : checkAs family text given = .ok verdict) (hok : verdict.ok = true)
    (hanswers : Shape.answers (read family text).exercise.family response = .ok answers)
    (hgraded : preset ≠ .lookup) :
    ∃ g, (read family text).exercise.gradeAs response given = .ok g ∧
      (preset ≠ .adjacency → 0 < g.total) ∧
      (g.correct = g.total ↔ (read family text).exercise.Right preset answers) := by
  have hverdict : check family text preset = verdict := by
    rw [checkAs, hpreset] at hcheck
    exact Except.ok.inj hcheck
  rw [← hverdict] at hok
  obtain ⟨g, hgrade, hrange, hpos, hright⟩ := gradesExactly_read hok hgraded answers
  refine ⟨g, ?_, hpos, hright⟩
  rw [← family_read family text] at hpreset
  exact gradeAs_eq_ok hanswers hpreset hgrade hrange

def grove : String := "Fruit = fig | plum;\nTree = oak;"

def groveRow (col : String) : Value := .map [("selected_cols", .list [.str col])]

def groveResponse : Value :=
  .map [("fig", groveRow "Fruit"), ("plum", groveRow "fruit"), ("oak", groveRow "tree")]

def groveAnswers : Completion :=
  .ofList [("fig", ⟨["Fruit"], ∅⟩), ("plum", ⟨["fruit"], ∅⟩), ("oak", ⟨["tree"], ∅⟩)]

theorem full_marks_iff_right_grove :
    checkAs .table grove (.str "n-ary") = .ok (check .table grove .nary) ∧
      (check .table grove .nary).ok = true ∧
      (read .table grove).exercise.Right .nary groveAnswers ∧
      ∃ g, (read .table grove).exercise.gradeAs groveResponse (.str "n-ary") = .ok g ∧
        0 < g.total ∧ g.correct = g.total := by
  have hpreset : presetFor .table (.str "n-ary") = .ok .nary := rfl
  have hcheck : checkAs .table grove (.str "n-ary") = .ok (check .table grove .nary) := rfl
  obtain ⟨hok, hright⟩ : (check .table grove .nary).ok = true ∧
      ∀ row ∈ (Table.read grove).1.rows,
        selectedIn groveAnswers row = (Table.read grove).1.columnsOf row ∧
          ((Table.read grove).1.columnsOf row).length = 1 := by
    decide +kernel
  have hanswers : Shape.answers (read .table grove).exercise.family groveResponse =
      .ok groveAnswers := rfl
  obtain ⟨g, hgrade, hpos, hiff⟩ := full_marks_iff_right hpreset hcheck hok hanswers (by decide)
  exact ⟨hcheck, hok, hright, g, hgrade, hpos (by decide), hiff.mpr hright⟩

end Exercise

end Worksheet
