import Worksheet.Decimal.Whole
import Worksheet.Quantity

namespace Worksheet

structure Moment where
  second : Int
  micros : Nat
  deriving DecidableEq, Repr

structure Day where
  year : Int
  month : Nat
  day : Nat
  deriving DecidableEq, Repr

def Day.ofCount (count : Int) : Day :=
  let shifted := count + 719468
  let era := shifted / 146097
  let ofEra := (shifted % 146097).toNat
  let year := (ofEra - ofEra / 1460 + ofEra / 36524 - ofEra / 146096) / 365
  let ofYear := ofEra - (365 * year + year / 4 - year / 100)
  let month := (5 * ofYear + 2) / 153
  let day := ofYear - (153 * month + 2) / 5 + 1
  let begun : Int := year + 400 * era
  if month < 10 then ⟨begun, month + 3, day⟩ else ⟨begun + 1, month - 9, day⟩

namespace Calendar

inductive Fault where
  | notNumber
  | beyondSeconds
  | beyondYears
  | unwritableYear (year : Int)
  | yearTooGreat
  deriving DecidableEq, Repr

def Fault.message : Fault → String
  | notNumber => "Invalid value NaN (not a number)"
  | beyondSeconds => "timestamp out of range for platform time_t"
  | beyondYears => "[Errno 75] Value too large for defined data type"
  | unwritableYear year => s!"year {year} is out of range"
  | yearTooGreat => "signed integer is greater than maximum"

def counted (n : Int) : Except Fault Int :=
  if -Int.pow 2 63 ≤ n ∧ n < Int.pow 2 63 then .ok n else .error .beyondSeconds

def withWhole (x : Float) (whole : Float → Int) : Except Fault Int :=
  if x.isNaN then .error .notNumber
  else if x.isInf then .error .beyondSeconds
  else counted (whole x)

def second : Quantity → Except Fault Int
  | .whole n => counted n
  | .real x => withWhole x Decimal.floor

def moment : Quantity → Except Fault Moment
  | .whole n => (counted n).map (⟨·, 0⟩)
  | .real x => do
      let n ← withWhole x Decimal.wholePart
      let micros := Decimal.roundEven ((x - Float.ofInt n) * 1000000.0)
      let second ← counted (n + micros / 1000000)
      return ⟨second, (micros % 1000000).toNat⟩

def dayOf (second : Int) : Except Fault Day :=
  let day := Day.ofCount (second / 86400)
  let years := day.year - 1900
  if -Int.pow 2 31 ≤ years ∧ years < Int.pow 2 31 then .ok day else .error .beyondYears

def digits (width : Nat) (n : Int) : String :=
  let cs := Nat.toDigits 10 n.toNat
  String.ofList (List.replicate (width - cs.length) '0' ++ cs)

def afterYear (between : String) (day : Day) (second : Int) : String :=
  let ofDay := second % 86400
  "-" ++ digits 2 day.month ++ "-" ++ digits 2 day.day ++ between ++
    digits 2 (ofDay / 3600) ++ ":" ++ digits 2 (ofDay / 60 % 60) ++ ":" ++ digits 2 (ofDay % 60)

def plain (second : Int) : Except Fault String := do
  let day ← dayOf second
  if Int.pow 2 31 ≤ day.year then .error .yearTooGreat
  else return toString day.year ++ afterYear " " day second

def stamp (m : Moment) : Except Fault String := do
  let day ← dayOf m.second
  let year := Int.bmod day.year (Nat.pow 2 32)
  if 1 ≤ year ∧ year ≤ 9999 then
    return digits 4 year ++ afterYear "T" day m.second ++
      (if m.micros = 0 then "" else "." ++ digits 6 m.micros) ++ "+00:00"
  else .error (.unwritableYear year)

end Calendar

end Worksheet
