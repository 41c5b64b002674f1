import Worksheet.Decimal.Reading
import Worksheet.Decimal.Whole
import Worksheet.Shape
import Worksheet.Text.Blank

namespace Worksheet.Shape

def trueWords : List String := ["1", "on", "t", "true", "y", "yes"]

def falseWords : List String := ["0", "off", "f", "false", "n", "no"]

def truthOfWord (word : String) : Result Bool :=
  let word := String.ofList (word.toList.map Char.toLower)
  if word ∈ trueWords then .ok true
  else if word ∈ falseWords then .ok false
  else fail .notBooleanText

def isWord (n : Int) : Bool := decide (-Int.pow 2 63 ≤ n ∧ n < Int.pow 2 63)

def truthOfNumber (n : Int) : Result Bool :=
  if n = 1 then .ok true
  else if n = 0 then .ok false
  else if isWord n then fail .notBooleanText
  else fail .notBoolean

def boolean : Reader Bool
  | .bool b => .ok b
  | .int n => truthOfNumber n
  | .str s => truthOfWord s
  | .float x =>
      if x.isFinite && Decimal.isWhole x then truthOfNumber (Decimal.wholePart x)
      else fail .notBoolean
  | _ => fail .notBoolean

def isMargin (c : Char) : Bool := isBlank c && !('\x1c' ≤ c && c ≤ '\x1f')

def dropMargin (cs : List Char) : List Char :=
  ((cs.dropWhile isMargin).reverse.dropWhile isMargin).reverse

def dropUnderscores? (cs : List Char) : Option (List Char) :=
  let groups := pieces (· == '_') cs
  if groups.any List.isEmpty then none else some groups.flatten

def dropLeadingZeros? (cs : List Char) : Option (List Char) :=
  match cs with
  | '-' :: _ => some cs
  | '0' :: _ =>
      match cs.dropWhile (fun c => c == '0' || c == '_') with
      | [] => cs.getLast?.map ([·])
      | '.' :: rest => (cs.takeWhile (· != '.')).getLast?.map (· :: '.' :: rest)
      | c :: rest => if Decimal.isDigit c then some (c :: rest) else none
  | c :: _ => if Decimal.isDigit c then some cs else none
  | [] => none

def dropZeroFraction (cs : List Char) : List Char :=
  match cs.dropWhile (· != '.') with
  | _ :: zeros => if zeros.all (· == '0') then cs.takeWhile (· != '.') else cs
  | [] => cs

def dropPlus? : List Char → Option (List Char)
  | '+' :: '-' :: _ => none
  | '+' :: rest => some rest
  | cs => some cs

def integerOfText? (cs : List Char) : Option Int :=
  let cs := dropMargin cs
  (Decimal.integer? cs).or do
    let digits := dropZeroFraction (← dropLeadingZeros? (← dropPlus? cs))
    Decimal.integer? ((dropUnderscores? digits).getD digits)

def longestInteger : Nat := 4300

def integer : Reader Int
  | .int n => .ok n
  | .bool b => .ok (if b then 1 else 0)
  | .float x =>
      if !x.isFinite then fail .notFinite
      else if !Decimal.isWhole x then fail .notWhole
      else if isWord (Decimal.wholePart x) && Decimal.wholePart x != -Int.pow 2 63 then
        .ok (Decimal.wholePart x)
      else fail .integerTooLong
  | .str s =>
      match integerOfText? s.toList with
      | some n => if longestInteger < (dropMargin s.toList).length then fail .integerTooLong else .ok n
      | none => fail .notIntegerText
  | _ => fail .notInteger

def numberOfText? (cs : List Char) : Option Float :=
  (Decimal.read? (dropMargin cs)).or ((dropUnderscores? cs).bind Decimal.read?)

def number : Reader Float
  | .float x => .ok x
  | .int n => if (Decimal.ofInt n).isInf then fail .notNumber else .ok (Decimal.ofInt n)
  | .bool b => .ok (if b then 1.0 else 0.0)
  | .str s =>
      match numberOfText? s.toList with
      | some x => .ok x
      | none => fail .notNumberText
  | _ => fail .notNumber

def percent : Reader Float := fun v => do
  let x ← number v
  if x ≤ 100.0 then (if 0.0 ≤ x then .ok x else fail .tooSmall) else fail .tooLarge

def count : Reader Nat := fun v => do
  let n ← integer v
  if n < 0 then fail .tooSmall else .ok n.toNat

def positive : Reader Int := fun v => do
  let n ← integer v
  if n ≤ 0 then fail .notAbove else .ok n

end Worksheet.Shape
