import Worksheet.Proofs.CommandLine.Report
import Worksheet.Proofs.Exercise.Merging
import Worksheet.Proofs.Service.Grading

namespace Worksheet

open Service CommandLine

namespace Exercise

variable {f : Family} {text : String} {preset : Option TablePreset}

def effective (f : Family) (preset : Option TablePreset) : TablePreset :=
  if f = .table then preset.getD .classification else .classification

theorem check_effective :
    check f text (effective f preset) = check f text (preset.getD .classification) := by
  cases f <;> rfl

theorem checkAs_presetValue :
    checkAs f text (presetValue preset) = .ok (check f text (effective f preset)) := by
  rw [checkAs, presetFor_presetValue]
  rfl

theorem validateAs_presetValue :
    (read f text).exercise.validateAs (presetValue preset) =
      .ok ((read f text).exercise.validate (effective f preset)) := by
  rw [validateAs, family_read, presetFor_presetValue]
  rfl

end Exercise

theorem Service.ContentService.validate_presetValue {f : Family} {text : String}
    {preset : Option TablePreset} :
    ((⟨.classification⟩ : ContentService).validate (.str f.name) text (presetValue preset)).result =
      .ok (Exercise.check f text (Exercise.effective f preset)) := by
  have hpreset : (presetOf ⟨.classification⟩ f preset).getD .classification =
      Exercise.effective f preset := by
    cases f <;> rfl
  rw [validate, resolve_of_ofName? (Family.ofName?_name f), ← hpreset]
  rfl

theorem entry_points_agree (f : Family) (text : String) (preset : Option TablePreset) :
    let draft := Exercise.read f text
    ∃ report checked : Validation,
      ((⟨.classification⟩ : ContentService).validate (.str f.name) text
        (presetValue preset)).result = .ok report ∧
      Exercise.checkAs f text (presetValue preset) = .ok report ∧
      draft.exercise.validateAs (presetValue preset) = .ok checked ∧
      (∀ key message, (key, message) ∈ report.errors.entries ↔
        (key, message) ∈ draft.errors.entries ∨ (key, message) ∈ checked.errors.entries) ∧
      (report.ok = true ↔ draft.ok = true ∧ checked.ok = true) ∧
      ('\r' ∉ text.toList →
        (∀ (folder : Folder) (a : Arguments), a.family = f → a.preset = preset →
          a.Opens folder text → ExitsWith folder a (if report.ok then 0 else 1)) ∧
        ∀ (folder : Folder) (source : String), IsName source →
          (Path.ofText source).hasNull = false →
          folder.openPath (Path.ofText source) = .ok text.toUTF8.data.toList →
          ∃ a, arguments (f.name :: source :: presetWords preset) = .ok a ∧
            ExitsWith folder a (if report.ok then 0 else 1)) := by
  intro draft
  have hrun : '\r' ∉ text.toList → ∀ (folder : Folder) (a : Arguments), a.family = f →
      a.preset = preset → a.Opens folder text →
      ExitsWith folder a
        (if (Exercise.check f text (Exercise.effective f preset)).ok then 0 else 1) := by
    rintro hreturn folder a rfl rfl hopens
    rw [Exercise.check_effective]
    exact exitsWith_of_opens hopens hreturn
  refine ⟨_, _, ContentService.validate_presetValue, Exercise.checkAs_presetValue,
    Exercise.validateAs_presetValue, fun key message => Exercise.mem_errors_check,
    Exercise.ok_check_iff, fun hreturn => ⟨hrun hreturn, ?_⟩⟩
  intro folder source hname hnull hbytes
  exact ⟨_, arguments_words f hname preset,
    hrun hreturn folder _ rfl rfl (opens_toUTF8 hnull hbytes)⟩

theorem entry_points_agree_shared :
    let folder : Folder := [("sets.txt", "A = x;\nB = x;".toUTF8.data.toList)]
    '\r' ∉ "A = x;\nB = x;".toList ∧ IsName "sets.txt" ∧
      (Path.ofText "sets.txt").hasNull = false ∧
      folder.openPath (Path.ofText "sets.txt") = .ok "A = x;\nB = x;".toUTF8.data.toList ∧
      ∃ a, arguments ["table", "sets.txt", "--preset", "n-ary"] = .ok a ∧ ExitsWith folder a 1 := by
  intro folder
  have hreturn : '\r' ∉ "A = x;\nB = x;".toList := by decide
  have hname : IsName "sets.txt" := by decide
  have hnull : (Path.ofText "sets.txt").hasNull = false := by decide
  have hbytes : folder.openPath (Path.ofText "sets.txt") =
      .ok "A = x;\nB = x;".toUTF8.data.toList := by
    rfl
  obtain ⟨report, checked, -, hcheck, -, -, -, hrun⟩ :=
    entry_points_agree .table "A = x;\nB = x;" (some .nary)
  rw [Exercise.checkAs_presetValue, Except.ok.injEq] at hcheck
  have hok : report.ok = false := by
    rw [← hcheck]
    decide +kernel
  obtain ⟨a, ha, hexit⟩ := (hrun hreturn).2 folder "sets.txt" hname hnull hbytes
  rw [hok] at hexit
  exact ⟨hreturn, hname, hnull, hbytes, a, ha, hexit⟩

end Worksheet
