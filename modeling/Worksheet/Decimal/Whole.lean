import Worksheet.Decimal.Shortest

namespace Worksheet.Decimal

def isWhole (x : Float) : Bool := x.floor == x

def wholePart (x : Float) : Int :=
  let b := Binary.ofFloat x
  let size : Nat := if 0 ≤ b.exponent then b.mantissa * Nat.pow 2 b.exponent.toNat
    else b.mantissa / Nat.pow 2 (-b.exponent).toNat
  if x < 0.0 then -(size : Int) else size

def floor (x : Float) : Int :=
  let b := Binary.ofFloat x
  let size : Int := b.mantissa * Nat.pow 2 b.exponent.toNat
  (if x < 0.0 then -size else size) / Nat.pow 2 (-b.exponent).toNat

def roundEven (x : Float) : Int :=
  let below := floor x
  let rest := x - Float.ofInt below
  if rest < 0.5 then below
  else if rest > 0.5 then below + 1
  else if below % 2 = 0 then below else below + 1

end Worksheet.Decimal
