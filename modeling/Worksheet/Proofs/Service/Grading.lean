import Worksheet.Proofs.Exercise.Bounds
import Worksheet.Proofs.Exercise.ResponseShape
import Worksheet.Service.Content

namespace Worksheet

open Service (presetValue)

theorem presetOr_presetValue (default : TablePreset) (given : Option TablePreset) :
    presetOr default (presetValue given) = .ok (given.getD default) := by
  cases given with
  | none => rfl
  | some preset => cases preset <;> rfl

namespace Exercise

theorem presetFor_presetValue (f : Family) (given : Option TablePreset) :
    presetFor f (presetValue given) =
      .ok (if f = .table then given.getD .classification else .classification) := by
  rw [presetFor, presetOr_presetValue]
  split <;> rfl

section

variable {e : Exercise} {f : Family} {response : Value}

theorem gradeAs_of_answers (e : Exercise) {answers : e.family.Answers}
    (h : Shape.answers e.family response = .ok answers) (given : Option TablePreset) :
    e.gradeAs response (presetValue given) =
      e.grade answers (if e.family = .table then given.getD .classification else .classification) := by
  rw [gradeAs, h, presetFor_presetValue]
  -- What is left after the grade is the look at its range, which it always passes.
  exact grade_bind_inRange e answers _

theorem gradeAs_responseValue {answers : f.Answers} (hf : e.family = f)
    (h : Shape.answers f response = .ok answers) (preset : Value) :
    e.gradeAs (Grade.responseValue (f.response answers)) preset = e.gradeAs response preset := by
  subst hf
  rw [gradeAs, gradeAs, h, Shape.answers_responseValue]

theorem gradeAs_cases {answers : f.Answers} (hf : e.family = f)
    (h : Shape.answers f response = .ok answers) (given : Option TablePreset) :
    (∃ g, e.gradeAs response (presetValue given) = .ok g) ∨
      ∃ preset, e.gradeAs response (presetValue given) = .error (.ungradable preset) := by
  subst hf
  rw [gradeAs_of_answers e h]
  cases e with
  | table t =>
      rw [grade]
      split
      · next g _ => exact Or.inl ⟨g, rfl⟩
      · exact Or.inr ⟨_, rfl⟩
  | _ => exact Or.inl ⟨_, rfl⟩

end

end Exercise

namespace Service

open Exercise

theorem findFamily_of_ofName? {name : String} {f : Family} (h : Family.ofName? name = some f) :
    findFamily (.str name) = .ok f := by
  rw [findFamily, familyNamed, h]
  rfl

section Checked

variable {f : Family} {text : String} {response : Value} {preset : Option TablePreset}

theorem gradeChecked_of_malformed {faults : List Shape.Fault}
    (h : Shape.answers f response = .error faults) :
    (gradeChecked f text response preset).result =
      .error (.failure (.responseFormat (.str f.name)
        (.list (faults.map Shape.Fault.toValue)))) := by
  rw [gradeChecked, h]

theorem gradeChecked_of_gradeAs {answers : f.Answers} {g : Grade}
    (h : Shape.answers f response = .ok answers)
    (hg : (read f text).exercise.gradeAs response (presetValue preset) = .ok g) :
    (gradeChecked f text response preset).result = .ok g := by
  rw [← gradeAs_responseValue (family_read f text) h] at hg
  simp only [gradeChecked, h, hg]

theorem gradeChecked_ne_grading (f : Family) (text : String) (response : Value)
    (preset : Option TablePreset) (family reason : Value) :
    (gradeChecked f text response preset).result ≠ .error (.failure (.grading family reason)) := by
  cases h : Shape.answers f response with
  | error faults =>
      rw [gradeChecked_of_malformed h]
      exact fun heq => nomatch heq
  | ok answers =>
      rcases gradeAs_cases (family_read f text) h preset with ⟨g, hg⟩ | ⟨p, hp⟩
      · rw [gradeChecked_of_gradeAs h hg]
        exact fun heq => nomatch heq
      · rw [← gradeAs_responseValue (family_read f text) h] at hp
        simp only [gradeChecked, h, hp]
        exact fun heq => nomatch heq

end Checked

namespace ContentService

def presetOf (s : ContentService) (f : Family) (given : Option TablePreset) : Option TablePreset :=
  if f = .table then some (given.getD s.defaultPreset) else none

variable {s : ContentService} {name text : String} {f : Family}

theorem presetFor_presetValue (s : ContentService) (f : Family) (given : Option TablePreset) :
    s.presetFor f (presetValue given) = .ok (s.presetOf f given) := by
  rw [presetFor, presetOf, presetOr_presetValue]
  split <;> rfl

theorem resolve_of_ofName? (h : Family.ofName? name = some f) (given : Option TablePreset) :
    s.resolve (.str name) (presetValue given) = .ok (f, s.presetOf f given) := by
  simp only [resolve, findFamily_of_ofName? h, presetFor_presetValue]
  rfl

theorem resolve_of_unknown (h : Family.ofName? name = none) (given : Value) :
    s.resolve (.str name) given = .error (.failure (.familyNotFound (.str name))) := by
  rw [resolve, findFamily, familyNamed, h]
  rfl

theorem result_grade_of_unknown (h : Family.ofName? name = none) (response given : Value) :
    (s.grade (.str name) text response given).result =
      .error (.failure (.familyNotFound (.str name))) := by
  rw [grade, resolve_of_unknown h]
  rfl

theorem result_grade_of_ofName? (h : Family.ofName? name = some f) (response : Value)
    (given : Option TablePreset) :
    (s.grade (.str name) text response (presetValue given)).result =
      let preset := s.presetOf f given
      let validation := Exercise.check f text (preset.getD .classification)
      if validation.ok then (gradeChecked f text response preset).result
      else .error (.failure (.invalidContent (.str f.name) (problemValues validation.errors))) := by
  rw [grade, resolve_of_ofName? h]
  exact apply_ite Log.Logged.result _ _ _

end ContentService

end Service

end Worksheet
