import Worksheet.Decimal.Reading

namespace Worksheet.Log

inductive Count where
  | given (n : Nat)
  | next
  deriving DecidableEq, Repr

structure Flags where
  left : Bool
  plus : Bool
  blank : Bool
  marked : Bool
  zeros : Bool
  deriving DecidableEq, Repr

structure Slot where
  flags : Flags
  width : Option Count
  precision : Option Count
  conversion : Option (Char × Nat)
  deriving DecidableEq, Repr

inductive Part where
  | plain (c : Char)
  | slot (s : Slot)
  | named
  deriving DecidableEq, Repr

def flagChars : List Char := ['-', '+', ' ', '#', '0']

def Flags.ofChars (cs : List Char) : Flags :=
  ⟨cs.contains '-', cs.contains '+', cs.contains ' ', cs.contains '#', cs.contains '0'⟩

def countOf : List Char → Option Count × Nat
  | '*' :: _ => (some .next, 1)
  | cs =>
      let ds := cs.takeWhile Decimal.isDigit
      (if ds.isEmpty then none else some (.given (Decimal.natural ds)), ds.length)

def precisionOf : List Char → Option Count × Nat
  | '.' :: cs =>
      let (count, n) := countOf cs
      (some (count.getD (.given 0)), n + 1)
  | _ => (none, 0)

def sizeLetterOf : List Char → Nat
  | c :: _ => if c = 'h' ∨ c = 'l' ∨ c = 'L' then 1 else 0
  | [] => 0

def slotAt (offset : Nat) (cs : List Char) : Slot × Nat :=
  let flags := cs.takeWhile (· ∈ flagChars)
  let atWidth := flags.length
  let (width, n) := countOf (cs.drop atWidth)
  let atPrecision := atWidth + n
  let (precision, n) := precisionOf (cs.drop atPrecision)
  let atLetter := atPrecision + n
  let atConversion := atLetter + sizeLetterOf (cs.drop atLetter)
  (⟨Flags.ofChars flags, width, precision,
    cs[atConversion]?.map (fun c => (c, offset + atConversion))⟩, atConversion + 1)

def partsFrom (offset : Nat) : List Char → List Part
  | '%' :: '%' :: rest => .plain '%' :: partsFrom (offset + 2) rest
  | '%' :: '(' :: _ => [.named]
  | '%' :: rest =>
      let (slot, n) := slotAt (offset + 1) rest
      .slot slot :: partsFrom (offset + 1 + n) (rest.drop n)
  | c :: rest => .plain c :: partsFrom (offset + 1) rest
  | [] => []
termination_by cs => cs.length

def parts (template : String) : List Part := partsFrom 0 template.toList

end Worksheet.Log
