import Worksheet.Exercise.Grading
import Worksheet.Grade.Record
import Worksheet.Service.Failure

namespace Worksheet.Service

open Log (Entry Logged)

structure ContentService where
  defaultPreset : TablePreset
  deriving DecidableEq, Repr

inductive CallError where
  | failure (f : Failure)
  | refusal (r : Refusal)
  deriving Repr

abbrev Call (α : Type) := Logged (Except CallError α)

structure FamilyInfo where
  family : Family
  presets : List TablePreset
  deriving DecidableEq, Repr

namespace FamilyInfo

def of (family : Family) : FamilyInfo := ⟨family, if family = .table then TablePreset.all else []⟩

def endpoint (i : FamilyInfo) (action : String) : String × String :=
  (action, "/families/" ++ i.family.name ++ "/" ++ action)

def endpoints (i : FamilyInfo) : List (String × String) :=
  ["parse", "validate", "grade"].map i.endpoint

end FamilyInfo

def families : List FamilyInfo := Family.all.map FamilyInfo.of

def findFamily (given : Value) : Except CallError Family :=
  (familyNamed given).mapError (fun _ => .failure (.familyNotFound given))

def ContentService.presetFor (s : ContentService) (family : Family) (given : Value) :
    Except CallError (Option TablePreset) :=
  if family = .table then ((presetOr s.defaultPreset given).map some).mapError .refusal
  else .ok none

def presetValue (preset : Option TablePreset) : Value :=
  match preset with
  | some p => .str p.name
  | none => .null

def sortedKeys (m : ErrorMap) : List String := m.keys.mergeSort (fun a b => decide (a ≤ b))

def checkedEntry (family : Family) (preset : Option TablePreset) (v : Validation) : Entry :=
  ⟨.info, "Content validated",
    [("family", .str family.name), ("preset", presetValue preset), ("ok", .bool v.ok),
      ("error_keys", .list ((sortedKeys v.errors).map .str))]⟩

def check (family : Family) (text : String) (preset : Option TablePreset) : Logged Validation :=
  let v := Exercise.check family text (preset.getD .classification)
  ⟨[checkedEntry family preset v], v⟩

def problemValues (m : ErrorMap) : List (String × Value) :=
  m.entries.map (fun (key, message) => (key, .str message))

def gradedEntry (family : Family) (preset : Option TablePreset) (g : Grade) : Entry :=
  ⟨.info, "Response graded",
    [("family", .str family.name), ("preset", presetValue preset),
      ("score", .float g.score.toFloat), ("correct", .int g.correct), ("total", .int g.total)]⟩

def gradeChecked (family : Family) (text : String) (response : Value)
    (preset : Option TablePreset) : Call Grade :=
  let name := Value.str family.name
  match Shape.answers family response with
  | .error faults =>
      ⟨[⟨.warning, "Malformed learner response", [("family", name)]⟩],
        .error (.failure (.responseFormat name (.list (faults.map Shape.Fault.toValue))))⟩
  | .ok answers =>
      -- The grader takes any value, so it reads what has just been read once more.
      let coerced := Grade.responseValue (family.response answers)
      match (Exercise.read family text).exercise.gradeAs coerced (presetValue preset) with
      | .ok g => ⟨[gradedEntry family preset g], .ok g⟩
      | .error (.ungradable p) =>
          .of (.error (.failure (.invalidContent name
            [("preset.unsupported", .str (Refusal.ungradable p).message)])))
      | .error r =>
          ⟨[⟨.error, "Failed to grade response", [("family", name), ("error", .str r.message)]⟩],
            .error (.failure (.grading name (.str r.message)))⟩

namespace ContentService

def start (settings : TablePreset) (given : Value) : Except Refusal (Logged ContentService) :=
  (presetOr settings given).map (fun preset =>
    ⟨[⟨.info, "ContentService initialized", [("default_preset", .str preset.name)]⟩], ⟨preset⟩⟩)

def parse (_ : ContentService) (family : Value) (text : String) : Call Draft :=
  match findFamily family with
  | .error e => .of (.error e)
  | .ok f =>
      let draft := Exercise.read f text
      ⟨[⟨.debug, "Content parsed",
          [("family", .str f.name), ("ok", .bool draft.ok),
            ("num_errors", .int draft.errors.size)]⟩], .ok draft⟩

def resolve (s : ContentService) (family preset : Value) :
    Except CallError (Family × Option TablePreset) := do
  let f ← findFamily family
  return (f, ← s.presetFor f preset)

def validate (s : ContentService) (family : Value) (text : String) (preset : Value) :
    Call Validation :=
  match s.resolve family preset with
  | .error e => .of (.error e)
  | .ok (f, p) =>
      let checked := check f text p
      ⟨checked.entries, .ok checked.result⟩

def grade (s : ContentService) (family : Value) (text : String) (response preset : Value) :
    Call Grade :=
  match s.resolve family preset with
  | .error e => .of (.error e)
  | .ok (f, p) =>
      let checked := check f text p
      let graded : Call Grade :=
        if checked.result.ok then gradeChecked f text response p
        else .of (.error (.failure (.invalidContent (.str f.name)
          (problemValues checked.result.errors))))
      graded.after checked.entries

end ContentService

end Worksheet.Service
