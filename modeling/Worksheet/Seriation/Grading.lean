import Worksheet.Seriation.Basic
import Worksheet.Grade

namespace Worksheet.Seriation

def exactCredit : Nat := 100

def adjacentCredit : Nat := 50

structure PlaceTally where
  points : Nat
  exact : Nat
  verdicts : Array ItemVerdict
  deriving DecidableEq, Repr

def countPlace (userOrder : List String) (t : PlaceTally) (place : String × Nat) : PlaceTally :=
  let noted (verdict : Verdict) : PlaceTally :=
    { t with verdicts := t.verdicts.push ⟨place.1, none, verdict⟩ }
  let distance := (userOrder.idxOf? place.1).map (fun index => (index - place.2) + (place.2 - index))
  match distance with
  | some 0 => { noted .correct with points := t.points + exactCredit, exact := t.exact + 1 }
  | some 1 => { noted .missed with points := t.points + adjacentCredit }
  | _ => noted .wrong

def grade (correctOrder userOrder : List String) : Grade :=
  let counted := correctOrder.zipIdx.foldl (countPlace userOrder) ⟨0, 0, #[]⟩
  { score := if correctOrder.isEmpty then .zero
      else .quotient (.whole counted.points) (.whole correctOrder.length)
    correct := counted.exact
    total := correctOrder.length
    key := .order correctOrder
    response := .order userOrder
    verdicts := counted.verdicts.toList }

end Worksheet.Seriation
