import Worksheet.Exercise.Basic
import Worksheet.Proofs.Recognition.Validation

namespace Worksheet.Recognition

open ErrorMap

def Defect.Arises (r : Recognition) : Defect → Prop
  | noQuestions => r.questions = []
  | emptyQuestion n => ∃ q, (q, n) ∈ r.questions.zipIdx 1 ∧ Text.isBlank q.question = true
  | duplicateQuestion n _ =>
      ∃ q, (q, n) ∈ r.questions.zipIdx 1 ∧ Text.isBlank q.question = false ∧
        ∃ p, (∃ m < n, (p, m) ∈ r.questions.zipIdx 1) ∧ p.question = q.question
  | noCorrectOptions n => ∃ q, (q, n) ∈ r.questions.zipIdx 1 ∧ q.correctOptions = []
  | insufficientOptions n => ∃ q, (q, n) ∈ r.questions.zipIdx 1 ∧ q.options.length < 2
  | emptyOption n m =>
      ∃ q, (q, n) ∈ r.questions.zipIdx 1 ∧
        ∃ option, (option, m) ∈ q.options.zipIdx 1 ∧ Text.isBlank option = true
  | missingCorrectOption n _ =>
      ∃ q, (q, n) ∈ r.questions.zipIdx 1 ∧ ∃ option ∈ q.correctOptions, option ∉ q.options
  | duplicateOption n _ => ∃ q, (q, n) ∈ r.questions.zipIdx 1 ∧ ¬ q.options.Nodup

theorem Defect.emptyOption_inj {n m option other : Nat}
    (h : (emptyOption n option).key = (emptyOption m other).key) : n = m ∧ option = other := by
  have hkey : "validation.emptyOption.q" ++ toString n ++ ".opt" ++ toString option =
      "validation.emptyOption.q" ++ toString m ++ ".opt" ++ toString other := h
  have hopt : ".opt" = "." ++ "opt" := by decide
  simp only [String.append_assoc, String.append_right_inj, hopt] at hkey
  obtain ⟨hn, hoption⟩ := append_dot_inj hkey
  exact ⟨hn, append_toString_inj.mp hoption⟩

theorem Defect.arises_of_key_eq {r : Recognition} {d e : Defect} (h : d.key = e.key)
    (hd : d.Arises r) : e.Arises r := by
  have hcmp := (h ▸ d.isUnder_stem).comparable e.isUnder_stem
  cases d with
  | noQuestions =>
      cases e with
      | noQuestions => exact hd
      | _ => exact absurd hcmp (by dsimp only [stem]; decide)
  | emptyQuestion n =>
      cases e with
      | emptyQuestion m =>
          obtain rfl : n = m := append_toString_inj.mp h
          exact hd
      | _ => exact absurd hcmp (by dsimp only [stem]; decide)
  | duplicateQuestion n text =>
      cases e with
      | duplicateQuestion m other =>
          obtain rfl : n = m := append_toString_inj.mp h
          exact hd
      | _ => exact absurd hcmp (by dsimp only [stem]; decide)
  | noCorrectOptions n =>
      cases e with
      | noCorrectOptions m =>
          obtain rfl : n = m := append_toString_inj.mp h
          exact hd
      | _ => exact absurd hcmp (by dsimp only [stem]; decide)
  | insufficientOptions n =>
      cases e with
      | insufficientOptions m =>
          obtain rfl : n = m := append_toString_inj.mp h
          exact hd
      | _ => exact absurd hcmp (by dsimp only [stem]; decide)
  | emptyOption n option =>
      cases e with
      | emptyOption m other =>
          obtain ⟨rfl, rfl⟩ : n = m ∧ option = other := emptyOption_inj h
          exact hd
      | _ => exact absurd hcmp (by dsimp only [stem]; decide)
  | missingCorrectOption n option =>
      cases e with
      | missingCorrectOption m other =>
          obtain rfl : n = m := append_toString_inj.mp h
          exact hd
      | _ => exact absurd hcmp (by dsimp only [stem]; decide)
  | duplicateOption n option =>
      cases e with
      | duplicateOption m other =>
          obtain rfl : n = m := append_toString_inj.mp h
          exact hd
      | _ => exact absurd hcmp (by dsimp only [stem]; decide)

section Report

variable {r : Recognition}

theorem arises_of_mem_defects {d : Defect} (hd : d ∈ r.defects) : d.Arises r := by
  cases d with
  | noQuestions => exact noQuestions_mem_defects.mp hd
  | emptyQuestion n => exact emptyQuestion_mem_defects.mp hd
  | duplicateQuestion n text =>
      obtain ⟨q, hq, hblank, hsame, -⟩ := duplicateQuestion_mem_defects.mp hd
      exact ⟨q, hq, hblank, hsame⟩
  | noCorrectOptions n => exact noCorrectOptions_mem_defects.mp hd
  | insufficientOptions n => exact insufficientOptions_mem_defects.mp hd
  | emptyOption n m =>
      obtain ⟨q, hq, hm⟩ := emptyOption_mem_defects.mp hd
      exact ⟨q, hq, Text.mem_blankPositions.mp hm⟩
  | missingCorrectOption n option =>
      obtain ⟨q, hq, hcorrect, hmissing⟩ := missingCorrectOption_mem_defects.mp hd
      exact ⟨q, hq, option, hcorrect, hmissing⟩
  | duplicateOption n option =>
      obtain ⟨q, hq, hrepeated⟩ := duplicateOption_mem_defects.mp hd
      exact ⟨q, hq, exists_mem_repeats_iff.mp ⟨option, hrepeated⟩⟩

theorem exists_mem_defects_of_arises {d : Defect} (hd : d.Arises r) :
    ∃ e ∈ r.defects, e.key = d.key := by
  cases d with
  | noQuestions => exact ⟨_, noQuestions_mem_defects.mpr hd, rfl⟩
  | emptyQuestion n => exact ⟨_, emptyQuestion_mem_defects.mpr hd, rfl⟩
  | duplicateQuestion n text =>
      obtain ⟨q, hq, hblank, hsame⟩ := hd
      exact ⟨_, duplicateQuestion_mem_defects.mpr ⟨q, hq, hblank, hsame, rfl⟩, rfl⟩
  | noCorrectOptions n => exact ⟨_, noCorrectOptions_mem_defects.mpr hd, rfl⟩
  | insufficientOptions n => exact ⟨_, insufficientOptions_mem_defects.mpr hd, rfl⟩
  | emptyOption n m =>
      obtain ⟨q, hq, hm⟩ := hd
      exact ⟨_, emptyOption_mem_defects.mpr ⟨q, hq, Text.mem_blankPositions.mpr hm⟩, rfl⟩
  | missingCorrectOption n option =>
      obtain ⟨q, hq, missing, hcorrect, hmissing⟩ := hd
      exact ⟨_, missingCorrectOption_mem_defects.mpr ⟨q, hq, hcorrect, hmissing⟩, rfl⟩
  | duplicateOption n option =>
      obtain ⟨q, hq, hnodup⟩ := hd
      obtain ⟨repeated, hrepeated⟩ := exists_mem_repeats_iff.mpr hnodup
      exact ⟨_, duplicateOption_mem_defects.mpr ⟨q, hq, hrepeated⟩, rfl⟩

end Report

theorem report_of_quiz (r : Recognition) (preset : TablePreset) :
    (((Exercise.recognition r).validate preset).ok = true ↔ r.WellFormed) ∧
      ((Exercise.recognition r).validate preset).errors.Names (Defect.Arises r) := by
  constructor
  · exact isEmpty_ofProblems.trans defects_eq_nil_iff
  · exact names_ofProblems (fun _ => arises_of_mem_defects) (fun _ => exists_mem_defects_of_arises)
      (fun _ _ => Defect.arises_of_key_eq)

end Worksheet.Recognition
