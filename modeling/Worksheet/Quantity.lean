import Worksheet.Decimal.Ratio

namespace Worksheet

inductive Quantity where
  | whole (n : Int)
  | real (x : Float)
  deriving DecidableEq, Repr

namespace Quantity

inductive Overflow where
  | ofQuotient
  | ofWhole
  deriving DecidableEq, Repr

def Overflow.message : Overflow → String
  | ofQuotient => "integer division result too large for a float"
  | ofWhole => "int too large to convert to float"

def isPositive : Quantity → Bool
  | whole n => decide (0 < n)
  | real x => x > 0.0

def isNaN : Quantity → Bool
  | whole _ => false
  | real x => x.isNaN

def finite (fault : Overflow) (x : Float) : Except Overflow Float :=
  if x.isInf then .error fault else .ok x

def toFloat : Quantity → Except Overflow Float
  | whole n => finite .ofWhole (Decimal.ofInt n)
  | real x => .ok x

def dividedBy (a b : Quantity) : Except Overflow Float :=
  match a, b with
  | whole a, whole b =>
      finite .ofQuotient (Decimal.quotient (if b < 0 then -a else a) b.natAbs)
  | a, b => do return (← a.toFloat) / (← b.toFloat)

end Quantity

end Worksheet
