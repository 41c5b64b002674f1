import Worksheet.Association.Grading
import Worksheet.Classification.Grading
import Worksheet.Exercise.Basic
import Worksheet.Exercise.ResponseShape
import Worksheet.Recognition.Grading
import Worksheet.Seriation.Grading
import Worksheet.Table.Grading

namespace Worksheet

inductive Refusal where
  | unknownFamily (given : Value)
  | unknownPreset (given : Value)
  | unsupportedData (given : Value)
  | malformed (faults : List Shape.Fault)
  | ungradable (preset : TablePreset)
  | scoreOutOfRange (score : Score)
  | lacksPart (family : Family) (part : String)
  | givenTwice (name : String)
  deriving Repr

def dataName : Family → String
  | .classification => "ClassificationData"
  | .table => "BaseTableData"
  | .recognition => "RecognitionData"
  | .seriation => "SeriationData"
  | .association => "AssociationData"

def Refusal.message : Refusal → String
  | unknownFamily given =>
      let given := given.literal
      s!"{given} is not a valid ExerciseFamily"
  | unknownPreset given =>
      let given := given.literal
      s!"{given} is not a valid TablePreset"
  | unsupportedData given =>
      let kind := given.kindName
      s!"Unsupported exercise data: {kind}"
  | malformed _ => "The value does not have the expected shape"
  | ungradable preset => Table.unsupportedMessage preset
  | scoreOutOfRange _ => "The score lies outside the range from 0 to 100"
  | lacksPart family part =>
      let kind := dataName family
      s!"'{kind}' object has no attribute '{part}'"
  | givenTwice name =>
      s!"TableConfiguration.for_preset() got multiple values for argument '{name}'"

def familyNamed (given : Value) : Except Refusal Family :=
  match given with
  | .str name =>
      match Family.ofName? name with
      | some f => .ok f
      | none => .error (.unknownFamily given)
  | _ => .error (.unknownFamily given)

def presetNamed (given : Value) : Except Refusal TablePreset :=
  match given with
  | .str name =>
      match TablePreset.ofName? name with
      | some p => .ok p
      | none => .error (.unknownPreset given)
  | _ => .error (.unknownPreset given)

def presetOr (default : TablePreset) (given : Value) : Except Refusal TablePreset :=
  if given.isGiven then presetNamed given else .ok default

namespace Exercise

def presetFor (family : Family) (given : Value) : Except Refusal TablePreset :=
  if family = .table then presetOr .classification given else .ok .classification

def validateAs (e : Exercise) (preset : Value) : Except Refusal Validation :=
  (presetFor e.family preset).map e.validate

def checkAs (family : Family) (text : String) (preset : Value) : Except Refusal Validation :=
  (presetFor family preset).map (check family text)

def grade : (e : Exercise) → e.family.Answers → TablePreset → Except Refusal Grade
  | classification c, labels, _ => .ok (Classification.grade c.categories labels c.distractors)
  | table t, rows, preset =>
      match t.grade? rows preset none with
      | some g => .ok g
      | none => .error (.ungradable preset)
  | recognition r, options, _ => .ok (r.grade options)
  | seriation s, items, _ => .ok (Seriation.grade s.items items)
  | association a, rights, _ => .ok (Association.grade a.pairs rights)

def inRange (g : Grade) : Except Refusal Grade :=
  if g.InRange then .ok g else .error (.scoreOutOfRange g.score)

def gradeAs (e : Exercise) (response preset : Value) : Except Refusal Grade := do
  let answers ← (Shape.answers e.family response).mapError .malformed
  let preset ← presetFor e.family preset
  let g ← e.grade answers preset
  inRange g

end Exercise

end Worksheet
