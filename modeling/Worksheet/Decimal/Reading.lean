import Worksheet.Decimal.Ratio

namespace Worksheet.Decimal

def isDigit (c : Char) : Bool := '0' ≤ c && c ≤ '9'

def digitValue (c : Char) : Nat := c.toNat - '0'.toNat

def natural (ds : List Char) : Nat := ds.foldl (fun n c => 10 * n + digitValue c) 0

def spanDigits (cs : List Char) : List Char × List Char := (cs.takeWhile isDigit, cs.dropWhile isDigit)

def integer? (cs : List Char) : Option Int :=
  let (negative, ds) := match cs with
    | '-' :: rest => (true, rest)
    | '+' :: rest => (false, rest)
    | _ => (false, cs)
  if ds.isEmpty || !ds.all isDigit then none
  else some (if negative then -(natural ds : Int) else natural ds)

def nearest (coefficient : Nat) (exponent : Int) : Float :=
  let place := (Nat.toDigits 10 coefficient).length + exponent
  if coefficient = 0 ∨ place < -400 then 0.0
  else if place > 400 then 1.0 / 0.0
  else ratio (coefficient * Nat.pow 10 exponent.toNat) (Nat.pow 10 (-exponent).toNat)

def unsigned? (cs : List Char) : Option Float :=
  let (whole, rest) := spanDigits cs
  let (fraction, rest) := match rest with
    | '.' :: rest => spanDigits rest
    | _ => ([], rest)
  if whole.isEmpty && fraction.isEmpty then none
  else
    let exponent? := match rest with
      | [] => some 0
      | c :: rest => if c == 'e' || c == 'E' then integer? rest else none
    exponent?.map (fun e => nearest (natural (whole ++ fraction)) (e - fraction.length))

def read? (cs : List Char) : Option Float :=
  let (negative, rest) := match cs with
    | '-' :: rest => (true, rest)
    | '+' :: rest => (false, rest)
    | _ => (false, cs)
  let word := rest.map Char.toLower
  let value? := if word = "nan".toList then some (0.0 / 0.0)
    else if word = "inf".toList || word = "infinity".toList then some (1.0 / 0.0)
    else unsigned? rest
  value?.map (fun x => if negative then -x else x)

end Worksheet.Decimal
