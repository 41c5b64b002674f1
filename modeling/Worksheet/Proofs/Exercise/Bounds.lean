import Worksheet.Exercise.Grading
import Worksheet.Proofs.Association.Grading
import Worksheet.Proofs.Classification.Grading
import Worksheet.Proofs.Recognition.Grading
import Worksheet.Proofs.Seriation.Grading
import Worksheet.Proofs.Table.Grading

namespace Worksheet.Exercise

theorem inRange_eq_ok {g : Grade} (h : g.InRange) : inRange g = .ok g := if_pos h

theorem bounded_of_grade? {t : Table} {completion : Completion} {preset : TablePreset}
    {disabled : Option Table.DisabledCells} {g : Grade}
    (h : t.grade? completion preset disabled = some g) : g.Bounded := by
  cases preset with
  | lookup => cases h
  | nary => exact Option.some.inj h ▸ Table.bounded_gradeRows
  | classification => exact Option.some.inj h ▸ Table.bounded_gradeCells
  | adjacency => exact Option.some.inj h ▸ Table.bounded_gradeCells

theorem bounded_of_grade_eq_ok :
    ∀ {e : Exercise} {answers : e.family.Answers} {preset : TablePreset} {g : Grade},
      e.grade answers preset = .ok g → g.Bounded := by
  intro e answers preset g h
  cases e with
  | classification c => exact Except.ok.inj h ▸ Classification.bounded_grade
  | table t =>
      rw [grade] at h
      split at h
      · next hg => exact Except.ok.inj h ▸ bounded_of_grade? hg
      · cases h
  | recognition r => exact Except.ok.inj h ▸ Recognition.bounded_grade
  | seriation s => exact Except.ok.inj h ▸ Seriation.bounded_grade
  | association a => exact Except.ok.inj h ▸ Association.bounded_grade

theorem grade_bind_inRange (e : Exercise) (answers : e.family.Answers) (preset : TablePreset) :
    (e.grade answers preset >>= inRange) = e.grade answers preset := by
  cases h : e.grade answers preset with
  | error r => rfl
  | ok g => exact inRange_eq_ok (bounded_of_grade_eq_ok h).inRange

theorem grades_bounded :
    (∀ categories response distractors,
      let g := Classification.grade categories response distractors
      g.Bounded ∧ g.IsTallied) ∧
    (∀ answerKey completion rows cols disabled,
      let g := Table.gradeCells answerKey completion rows cols disabled
      g.Bounded ∧ g.IsTallied) ∧
    (∀ answerKey completion rows,
      let g := Table.gradeRows answerKey completion rows
      g.Bounded ∧ g.IsTallied) ∧
    (∀ (r : Recognition) response, (r.grade response).Bounded) ∧
    (∀ correctOrder userOrder,
      let g := Seriation.grade correctOrder userOrder
      g.Bounded ∧ g.IsTallied) ∧
    (∀ pairs response,
      let g := Association.grade pairs response
      g.Bounded ∧ g.IsTallied) ∧
    ∀ (e : Exercise) (answers : e.family.Answers) (preset : TablePreset),
      (e.grade answers preset >>= inRange) = e.grade answers preset := by
  refine ⟨fun _ _ _ => ⟨Classification.bounded_grade, Classification.isTallied_grade⟩,
    fun _ _ _ _ _ => ⟨Table.bounded_gradeCells, Table.isTallied_gradeCells⟩,
    fun _ _ _ => ⟨Table.bounded_gradeRows, Table.isTallied_gradeRows⟩,
    fun _ _ => Recognition.bounded_grade,
    fun _ _ => ⟨Seriation.bounded_grade, Seriation.isTallied_grade⟩,
    fun _ _ => ⟨Association.bounded_grade, Association.isTallied_grade⟩,
    grade_bind_inRange⟩

end Worksheet.Exercise
