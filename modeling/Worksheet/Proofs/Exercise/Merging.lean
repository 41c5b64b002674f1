import Worksheet.Exercise.Basic
import Worksheet.Proofs.Association.Validation
import Worksheet.Proofs.Classification.Validation
import Worksheet.Proofs.Recognition.Validation
import Worksheet.Proofs.Seriation.Validation
import Worksheet.Proofs.Table.Validation

namespace Worksheet

open ErrorMap

theorem CategoryProblem.isUnder_parse (p : CategoryProblem) : IsUnder "parse." p.key := by
  cases p with
  | noMatches => decide
  | duplicateCategory label => exact (isUnder_append "parse." "duplicateCategory.").append label
  | emptyCategory label => exact (isUnder_append "parse." "emptyCategory.").append label

theorem Classification.Defect.not_isUnder_parse (d : Classification.Defect) :
    ¬ IsUnder "parse." d.key :=
  d.isUnder_stem.not_isUnder (by cases d <;> dsimp only [stem] <;> decide)

theorem Table.Defect.not_isUnder_parse (d : Table.Defect) : ¬ IsUnder "parse." d.key :=
  d.isUnder_stem.not_isUnder (by cases d <;> dsimp only [stem] <;> decide)

theorem Association.PairProblem.isUnder_parse (p : Association.PairProblem) :
    IsUnder "parse." p.key := by
  cases p with
  | noMatches => decide
  | duplicateLeft left => exact (isUnder_append "parse." "duplicateLeft.").append left
  | emptyRight left => exact (isUnder_append "parse." "emptyRight.").append left
  | multipleRight left rights => exact (isUnder_append "parse." "multipleRight.").append left

theorem Association.Defect.not_isUnder_parse (d : Association.Defect) : ¬ IsUnder "parse." d.key :=
  d.isUnder_stem.not_isUnder (by cases d <;> dsimp only [stem] <;> decide)

theorem Recognition.LineProblem.isUnder_parse (p : Recognition.LineProblem) :
    IsUnder "parse." p.key := by
  cases p with
  | danglingQuestion position question =>
      exact (isUnder_append "parse." "danglingQuestion.q").append (toString position)
  | missingSemicolon line =>
      exact (isUnder_append "parse." "missingSemicolon.line").append (toString line)
  | noQuestion line => exact (isUnder_append "parse." "noQuestion.line").append (toString line)
  | brackets line fault => exact (isUnder_append "parse." "brackets.line").append (toString line)
  | duplicateOption position option =>
      exact (isUnder_append "parse." "duplicate.q").append (toString position)
  | danglingAtEnd question => exact isUnder_append "parse." "danglingQuestion"

theorem Recognition.Defect.not_isUnder_parse (d : Recognition.Defect) : ¬ IsUnder "parse." d.key :=
  d.isUnder_stem.not_isUnder (by cases d <;> dsimp only [stem] <;> decide)

namespace Seriation

theorem eq_tooFewItems_of_mem_countDefects {items : List String} {d : Defect}
    (h : d ∈ countDefects items) : d = .tooFewItems := by
  unfold countDefects at h
  split at h
  · exact List.mem_singleton.mp h
  · cases h

theorem mem_problems_read {text : String} {p : Defect} (h : p ∈ (read text).2) :
    p = .emptyInput ∨ p = .tooFewItems := by
  unfold read at h
  dsimp only at h
  split at h
  · exact .inl (List.mem_singleton.mp h)
  · exact .inr (eq_tooFewItems_of_mem_countDefects h)

theorem eq_of_key_eq {p d : Defect} (hp : p = .emptyInput ∨ p = .tooFewItems) (h : p.key = d.key) :
    p = d := by
  have hcmp := d.isUnder_stem.comparable (h ▸ p.isUnder_stem)
  rcases hp with rfl | rfl
  · cases d with
    | emptyInput => rfl
    | _ => exact absurd hcmp (by dsimp only [Defect.stem]; decide)
  · cases d with
    | tooFewItems => rfl
    | _ => exact absurd hcmp (by dsimp only [Defect.stem]; decide)

end Seriation

namespace Exercise

theorem agree_read_validate (f : Family) (text : String) (preset : TablePreset) :
    (read f text).errors.Agree ((read f text).exercise.validate preset).errors := by
  cases f with
  | classification =>
      simp only [read_classification, validate]
      exact agree_of_stem (fun p _ => p.isUnder_parse) (fun d _ => d.not_isUnder_parse)
  | table =>
      simp only [read_table, validate]
      exact agree_of_stem (fun p _ => p.isUnder_parse) (fun d _ => d.not_isUnder_parse)
  | recognition =>
      simp only [read_recognition, validate]
      exact agree_of_stem (fun p _ => p.isUnder_parse) (fun d _ => d.not_isUnder_parse)
  | seriation =>
      simp only [read_seriation, validate]
      refine agree_ofProblems (fun p hp d _ hkey => ?_)
      have heq : p = d := Seriation.eq_of_key_eq (Seriation.mem_problems_read hp) hkey
      exact congrArg Problem.message heq
  | association =>
      simp only [read_association, validate]
      exact agree_of_stem (fun p _ => p.isUnder_parse) (fun d _ => d.not_isUnder_parse)

theorem mem_errors_check {f : Family} {text : String} {preset : TablePreset} {key message : String} :
    (key, message) ∈ (check f text preset).errors.entries ↔
      (key, message) ∈ (read f text).errors.entries ∨
        (key, message) ∈ ((read f text).exercise.validate preset).errors.entries :=
  OrderedMap.mem_entries_merge (agree_read_validate f text preset)

theorem ok_check_iff {f : Family} {text : String} {preset : TablePreset} :
    (check f text preset).ok = true ↔
      (read f text).ok = true ∧ ((read f text).exercise.validate preset).ok = true :=
  OrderedMap.isEmpty_merge

end Exercise

end Worksheet
