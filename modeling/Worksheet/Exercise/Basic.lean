import Worksheet.Association.Validation
import Worksheet.Classification.Validation
import Worksheet.Family
import Worksheet.Recognition.Validation
import Worksheet.Seriation.Basic
import Worksheet.Table.Validation

namespace Worksheet

inductive Exercise where
  | classification (c : Classification)
  | table (t : Table)
  | recognition (r : Recognition)
  | seriation (s : Seriation)
  | association (a : Association)
  deriving DecidableEq, Repr

structure Draft where
  exercise : Exercise
  errors : ErrorMap
  deriving DecidableEq, Repr

def Draft.ok (d : Draft) : Bool := d.errors.isEmpty

namespace Exercise

def family : Exercise → Family
  | classification _ => .classification
  | table _ => .table
  | recognition _ => .recognition
  | seriation _ => .seriation
  | association _ => .association

def read (family : Family) (text : String) : Draft :=
  match family with
  | .classification =>
      let (c, problems) := Classification.read text
      ⟨.classification c, .ofProblems problems⟩
  | .table =>
      let (t, problems) := Table.read text
      ⟨.table t, .ofProblems problems⟩
  | .recognition =>
      let (r, problems) := Recognition.read text
      ⟨.recognition r, .ofProblems problems⟩
  | .seriation =>
      let (s, problems) := Seriation.read text
      ⟨.seriation s, .ofProblems problems⟩
  | .association =>
      let (a, problems) := Association.read text
      ⟨.association a, .ofProblems problems⟩

theorem family_read (f : Family) (text : String) : (read f text).exercise.family = f := by
  cases f <;> rfl

theorem read_classification (text : String) :
    read .classification text =
      ⟨.classification (Classification.read text).1, .ofProblems (Classification.read text).2⟩ := by
  simp only [read]

theorem read_table (text : String) :
    read .table text = ⟨.table (Table.read text).1, .ofProblems (Table.read text).2⟩ := by
  simp only [read]

theorem read_recognition (text : String) :
    read .recognition text =
      ⟨.recognition (Recognition.read text).1, .ofProblems (Recognition.read text).2⟩ := by
  simp only [read]

theorem read_seriation (text : String) :
    read .seriation text =
      ⟨.seriation (Seriation.read text).1, .ofProblems (Seriation.read text).2⟩ := by
  simp only [read]

theorem read_association (text : String) :
    read .association text =
      ⟨.association (Association.read text).1, .ofProblems (Association.read text).2⟩ := by
  simp only [read]

def validate (e : Exercise) (preset : TablePreset) : Validation :=
  match e with
  | classification c => ⟨.ofProblems c.defects⟩
  | table t => ⟨.ofProblems (t.defects preset)⟩
  | recognition r => ⟨.ofProblems r.defects⟩
  | seriation s => ⟨.ofProblems s.defects⟩
  | association a => ⟨.ofProblems a.defects⟩

def check (family : Family) (text : String) (preset : TablePreset) : Validation :=
  let draft := read family text
  ⟨draft.errors.merge (draft.exercise.validate preset).errors⟩

end Exercise

end Worksheet
