namespace Worksheet.Decimal

def nearestWhole (a b : Nat) : Nat :=
  let below := a / b
  let rest := 2 * (a % b)
  if rest < b ∨ (rest = b ∧ below % 2 = 0) then below else below + 1

def magnitude (a b : Nat) : Int :=
  let k : Int := Int.ofNat a.log2 - Int.ofNat b.log2
  if b * Nat.pow 2 k.toNat ≤ a * Nat.pow 2 (-k).toNat then k else k - 1

def lastPlace (a b : Nat) : Int := max (magnitude a b - 52) (-1074)

def ratio (a b : Nat) : Float :=
  if a = 0 then 0.0
  else
    let place := lastPlace a b
    let digits := nearestWhole (a * Nat.pow 2 (-place).toNat) (b * Nat.pow 2 place.toNat)
    let bits := (place + 1074).toNat * Nat.pow 2 52 + digits
    Float.ofBits (UInt64.ofNat (min bits 0x7FF0000000000000))

def quotient (a : Int) (b : Nat) : Float := if a < 0 then -ratio a.natAbs b else ratio a.natAbs b

def ofInt (n : Int) : Float := quotient n 1

end Worksheet.Decimal
