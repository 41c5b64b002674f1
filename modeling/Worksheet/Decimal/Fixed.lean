import Worksheet.Decimal.Ratio
import Worksheet.Decimal.Shortest

namespace Worksheet.Decimal

inductive Style where
  | positional
  | scientific
  | general
  deriving DecidableEq, Repr

def Binary.units (b : Binary) (places : Int) : Nat :=
  nearestWhole (b.mantissa * Nat.pow 2 b.exponent.toNat * Nat.pow 10 places.toNat)
    (Nat.pow 2 (-b.exponent).toNat * Nat.pow 10 (-places).toNat)

def digitLimit : Nat := 1100

def padZeros (count : Nat) (ds : List Char) : List Char :=
  ds ++ List.replicate (count - digitLimit) '0'

def Binary.leading (b : Binary) (count : Nat) : List Char × Int :=
  let shown := min count digitLimit
  if b.mantissa = 0 then (padZeros count (List.replicate shown '0'), 0)
  else
    let first := b.scaled.place - 1
    let ds := Nat.toDigits 10 (b.units (Int.ofNat shown - 1 - first))
    (padZeros count (ds.take shown), if shown < ds.length then first + 1 else first)

def withPoint (keepPoint : Bool) (whole fraction : List Char) : List Char :=
  whole ++ if fraction.isEmpty && !keepPoint then [] else '.' :: fraction

def positional (keepPoint : Bool) (places : Nat) (b : Binary) : List Char :=
  let shown := min places digitLimit
  let ds := padLeft (shown + 1) (Nat.toDigits 10 (b.units shown))
  withPoint keepPoint (ds.take (ds.length - shown)) (padZeros places (ds.drop (ds.length - shown)))

def exponentText (e : Int) : List Char :=
  'e' :: (if e < 0 then '-' else '+') :: padLeft 2 (Nat.toDigits 10 e.natAbs)

def scientific (keepPoint : Bool) (places : Nat) (b : Binary) : List Char :=
  let (ds, e) := b.leading (places + 1)
  withPoint keepPoint (ds.take 1) (ds.drop 1) ++ exponentText e

def dropZeros (ds : List Char) : List Char := (ds.reverse.dropWhile (· == '0')).reverse

def general (keepPoint : Bool) (count : Nat) (b : Binary) : List Char :=
  let (ds, e) := b.leading (if keepPoint then count else min count digitLimit)
  let fraction (ds : List Char) := if keepPoint then ds else dropZeros ds
  if e < -4 ∨ Int.ofNat count ≤ e then
    withPoint keepPoint (ds.take 1) (fraction (ds.drop 1)) ++ exponentText e
  else if e < 0 then
    withPoint keepPoint ['0'] (fraction (List.replicate (-e - 1).toNat '0' ++ ds))
  else withPoint keepPoint (ds.take (e.toNat + 1)) (fraction (ds.drop (e.toNat + 1)))

def sizeText (style : Style) (keepPoint : Bool) (precision : Nat) (x : Float) : List Char :=
  if x.isNaN then "nan".toList
  else if x.isInf then "inf".toList
  else
    let b := Binary.ofFloat x
    match style with
    | .positional => positional keepPoint precision b
    | .scientific => scientific keepPoint precision b
    | .general => general keepPoint (max 1 precision) b

def isNegative (x : Float) : Bool := !x.isNaN && decide (Nat.pow 2 63 ≤ x.toBits.toNat)

end Worksheet.Decimal
