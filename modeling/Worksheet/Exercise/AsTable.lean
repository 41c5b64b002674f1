import Worksheet.Exercise.Grading

namespace Worksheet

inductive TablePart where
  | rows
  | cols
  | answerKey
  deriving DecidableEq, Repr

def TablePart.name : TablePart → String
  | rows => "rows"
  | cols => "cols"
  | answerKey => "answer_key"

def Family.has (f : Family) (part : TablePart) : Bool :=
  match f, part with
  | .table, _ => true
  | .classification, .cols => false
  | .classification, _ => true
  | _, _ => false

namespace Exercise

def tableView : Exercise → Table
  | table t => t
  | classification c => ⟨c.rows, [], c.answerKey, c.distractors⟩
  | _ => ⟨[], [], ∅, []⟩

def asTable (e : Exercise) (needed : List TablePart) : Except Refusal Table :=
  match needed.find? (fun part => !e.family.has part) with
  | some part => .error (.lacksPart e.family part.name)
  | none => .ok e.tableView

def validateTable (e : Exercise) (preset : TablePreset) : Except Refusal Validation :=
  (e.asTable [.answerKey, .cols, .rows]).map (fun t => (table t).validate preset)

def partsGraded : TablePreset → List TablePart
  | .lookup => []
  | .nary => [.answerKey, .rows]
  | .classification | .adjacency => [.answerKey, .rows, .cols]

def gradeTable (e : Exercise) (completion : Completion) (preset : TablePreset)
    (disabled : Option Table.DisabledCells) : Except Refusal Grade := do
  let t ← e.asTable (partsGraded preset)
  match t.grade? completion preset disabled with
  | some g => .ok g
  | none => .error (.ungradable preset)

end Exercise

end Worksheet
