import Worksheet.OrderedMap
import Worksheet.Score
import Worksheet.Value

namespace Worksheet

inductive Verdict where
  | correct
  | wrong
  | missed
  deriving DecidableEq, Repr

def Verdict.name : Verdict → String
  | correct => "correct"
  | wrong => "wrong"
  | missed => "missed"

def Verdict.all : List Verdict := [.correct, .wrong, .missed]

def Verdict.ofName? (name : String) : Option Verdict := Verdict.all.find? (·.name == name)

structure ItemVerdict where
  item : String
  category : Option String
  verdict : Verdict
  deriving DecidableEq, Repr

def itemsWith (verdict : Verdict) (verdicts : List ItemVerdict) : List String :=
  (verdicts.filter (·.verdict = verdict)).map (·.item)

def countOf (verdict : Verdict) (verdicts : List ItemVerdict) : Nat :=
  verdicts.countP (·.verdict = verdict)

structure Tally where
  correct : Nat
  verdicts : Array ItemVerdict
  deriving DecidableEq, Repr

structure UnitTally where
  correct : Nat
  total : Nat
  verdicts : Array ItemVerdict
  deriving DecidableEq, Repr

inductive CellValue where
  | blank
  | bool (b : Bool)
  | int (n : Int)
  | float (x : Float)
  | text (s : String)
  deriving DecidableEq, Repr

def CellValue.toValue : CellValue → Value
  | blank => .null
  | bool b => .bool b
  | int n => .int n
  | float x => .float x
  | text s => .str s

structure RowValues where
  selected : List String
  values : OrderedMap CellValue
  deriving DecidableEq, Repr

abbrev Completion := OrderedMap RowValues

inductive Response where
  | placements (labels : OrderedMap (Option String))
  | completion (rows : Completion)
  | selections (options : OrderedMap (List String))
  | order (items : List String)
  | partners (rights : OrderedMap String)
  deriving DecidableEq, Repr

inductive KeyEcho where
  | members (items : OrderedMap (List String))
  | order (items : List String)
  | partners (rights : OrderedMap String)
  deriving DecidableEq, Repr

structure Grade where
  score : Score
  correct : Nat
  total : Nat
  key : KeyEcho
  response : Response
  verdicts : List ItemVerdict
  deriving DecidableEq, Repr

def Grade.InRange (g : Grade) : Prop := 0 ≤ g.score.exact ∧ g.score.exact ≤ 100

instance (g : Grade) : Decidable g.InRange := inferInstanceAs (Decidable (_ ∧ _))

end Worksheet
