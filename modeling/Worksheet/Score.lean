import Worksheet.Decimal.Whole
import Worksheet.Quantity

namespace Worksheet

inductive Score where
  | whole (n : Int)
  | sum (a b : Score)
  | product (a b : Score)
  | quotient (a b : Score)
  | atLeastZero (a : Score)
  | rounded (a : Score)
  deriving DecidableEq, Repr

namespace Score

def exact : Score → Rat
  | whole n => n
  | sum a b => a.exact + b.exact
  | product a b => a.exact * b.exact
  | quotient a b => a.exact / b.exact
  | atLeastZero a => if 0 < a.exact then a.exact else 0
  | rounded a => (a.exact + 1 / 2).floor

def toFloat : Score → Float
  | whole n => Float.ofInt n
  | sum a b => a.toFloat + b.toFloat
  | product a b => a.toFloat * b.toFloat
  | quotient a b => a.toFloat / b.toFloat
  | atLeastZero a => if 0.0 < a.toFloat then a.toFloat else 0.0
  | rounded a => Float.ofInt (Decimal.floor (a.toFloat + 0.5))

def zero : Score := whole 0

def percent (a : Score) (b : Int) : Score := product (quotient a (whole b)) (whole 100)

def share (correct total : Nat) : Score :=
  if 0 < total then percent (whole correct) total else zero

def total (scores : List Score) : Score := scores.foldl sum zero

theorem exact_foldl (scores : List Score) :
    ∀ start : Score, (scores.foldl sum start).exact = scores.foldl (· + ·.exact) start.exact := by
  induction scores with
  | nil => intro start; rfl
  | cons s scores ih => intro start; exact ih (sum start s)

theorem exact_total (scores : List Score) :
    (total scores).exact = scores.foldl (· + ·.exact) 0 :=
  exact_foldl scores zero

end Score

inductive Percentage where
  | share (x : Float)
  | indefinite
  deriving DecidableEq, Repr

def percentage (correct total : Quantity) : Except Quantity.Overflow Percentage :=
  if total.isPositive then
    (correct.dividedBy total).map (fun x =>
      if x.isNaN && !correct.isNaN then .indefinite else .share (x * 100.0))
  else .ok (.share 0.0)

end Worksheet
