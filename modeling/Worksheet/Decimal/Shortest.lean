namespace Worksheet.Decimal

structure Binary where
  mantissa : Nat
  exponent : Int
  -- The next number below is only half as far as the next one above.
  narrow : Bool
  deriving DecidableEq, Repr

def Binary.ofFloat (x : Float) : Binary :=
  let bits := x.toBits.toNat % Nat.pow 2 63
  let field : Nat := bits / Nat.pow 2 52
  let fraction : Nat := bits % Nat.pow 2 52
  if field = 0 then ⟨fraction, -1074, false⟩
  else ⟨Nat.pow 2 52 + fraction, Int.ofNat field - 1075, fraction == 0 && field != 1⟩

structure Digits where
  coefficient : Nat
  exponent : Int
  deriving DecidableEq, Repr

structure Scaled where
  low : Nat
  value : Nat
  high : Nat
  den : Nat
  closed : Bool
  deriving DecidableEq, Repr

def Binary.scaled (b : Binary) : Scaled :=
  let unit := Nat.pow 2 b.exponent.toNat
  let value := 4 * b.mantissa * unit
  ⟨value - (if b.narrow then unit else 2 * unit), value, value + 2 * unit,
    4 * Nat.pow 2 (-b.exponent).toNat, b.mantissa % 2 == 0⟩

def Scaled.inUnits (s : Scaled) (e : Int) : Scaled :=
  let up := Nat.pow 10 (-e).toNat
  ⟨s.low * up, s.value * up, s.high * up, s.den * Nat.pow 10 e.toNat, s.closed⟩

def Scaled.holds (s : Scaled) (n : Nat) : Bool :=
  if s.closed then s.low ≤ n * s.den && n * s.den ≤ s.high
  else s.low < n * s.den && n * s.den < s.high

def Scaled.nearest? (s : Scaled) : Option Nat :=
  let below := s.value / s.den
  match s.holds below, s.holds (below + 1) with
  | false, false => none
  | true, false => some below
  | false, true => some (below + 1)
  | true, true =>
      let down := s.value - below * s.den
      let up := (below + 1) * s.den - s.value
      if down < up ∨ (down = up ∧ below % 2 = 0) then some below else some (below + 1)

def Scaled.place (s : Scaled) : Int :=
  (Nat.toDigits 10 (s.value * Nat.pow 10 400 / s.den)).length - 400

def shortest (b : Binary) : Digits :=
  let s := b.scaled
  let place := s.place
  let grids := (List.range 17).map (fun n => place - 1 - Int.ofNat n)
  (grids.findSome? (fun e => (s.inUnits e).nearest?.map (⟨·, e⟩))).getD ⟨b.mantissa, 0⟩

structure Layout where
  lowest : Int
  highest : Int
  mark : Char
  exponentWidth : Nat

def layout : Layout := ⟨-3, 16, 'e', 2⟩

def padLeft (width : Nat) (cs : List Char) : List Char :=
  List.replicate (width - cs.length) '0' ++ cs

def Digits.significant (d : Digits) : List Char × Int :=
  let all := Nat.toDigits 10 d.coefficient
  ((all.reverse.dropWhile (· == '0')).reverse, all.length + d.exponent)

def Digits.write (l : Layout) (d : Digits) : List Char :=
  let (ds, point) := d.significant
  if l.lowest ≤ point ∧ point ≤ l.highest then
    if point ≤ 0 then '0' :: '.' :: List.replicate (-point).toNat '0' ++ ds
    else
      let whole := ds.take point.toNat
      let rest := ds.drop point.toNat
      whole ++ List.replicate (point.toNat - whole.length) '0' ++
        '.' :: (if rest.isEmpty then ['0'] else rest)
  else
    let exponent := point - 1
    ds.take 1 ++ (if ds.length ≤ 1 then [] else '.' :: ds.drop 1) ++
      l.mark :: (if exponent < 0 then '-' else '+') ::
        padLeft l.exponentWidth (Nat.toDigits 10 exponent.natAbs)

def text (x : Float) : String :=
  if x.isNaN then "nan"
  else
    let sign := if Nat.pow 2 63 ≤ x.toBits.toNat then ['-'] else []
    if x.isInf then String.ofList (sign ++ "inf".toList)
    else
      let b := Binary.ofFloat x
      String.ofList (sign ++
        (if b.mantissa = 0 then "0.0".toList else (shortest b).write layout))

end Worksheet.Decimal
