import Worksheet.Decimal.Reading
import Worksheet.Text.Hex
import Worksheet.Value

namespace Worksheet.Json

inductive Fault where
  | unexpected (offset : Nat)
  | tooManyDigits
  | tooDeep
  | undecodable
  deriving DecidableEq, Repr

inductive Lexeme where
  | openList
  | closeList
  | openMap
  | closeMap
  | colon
  | comma
  | text (s : String) (whole : Bool)
  | scalar (v : Value)
  | brokenText (offset : Nat)
  | longNumber
  | stray

structure Cut where
  lexeme : Lexeme
  length : Nat

def isSpace (c : Char) : Bool := c == ' ' || c == '\t' || c == '\n' || c == '\r'

def simpleEscape? (c : Char) : Option Char :=
  if c = '"' ∨ c = '\\' ∨ c = '/' then some c
  else if c = 'b' then some '\x08'
  else if c = 'f' then some '\x0c'
  else if c = 'n' then some '\n'
  else if c = 'r' then some '\r'
  else if c = 't' then some '\t'
  else none

def unit? : List Char → Option Nat
  | [a, b, c, d] => do
      return 4096 * (← Chars.hexValue? a) + 256 * (← Chars.hexValue? b) +
        16 * (← Chars.hexValue? c) + (← Chars.hexValue? d)
  | _ => none

def isHigh (unit : Nat) : Bool := 0xD800 ≤ unit && unit ≤ 0xDBFF

def isLow (unit : Nat) : Bool := 0xDC00 ≤ unit && unit ≤ 0xDFFF

def joined (high low : Nat) : Nat := 0x10000 + 0x400 * (high - 0xD800) + (low - 0xDC00)

def isHalf (point : Nat) : Bool := isHigh point || isLow point

def shown (point : Nat) : Char := if isHalf point then '\uFFFD' else Char.ofNat point

def pairWith (high : Nat) (rest : List Char) : Except Nat (Nat × Nat) :=
  match isHigh high, rest with
  | true, '\\' :: 'u' :: a :: b :: c :: d :: _ :: _ =>
      match unit? [a, b, c, d] with
      | none => .error 1
      | some low => .ok (if isLow low then (joined high low, 6) else (high, 0))
  | _, _ => .ok (high, 0)

def readText (halves : List Nat) (opening offset skip : Nat) (done : List Char) (whole : Bool) :
    List Char → Cut
  | [] => ⟨.brokenText opening, 0⟩
  | c :: rest =>
      if 0 < skip then readText halves opening (offset + 1) (skip - 1) done whole rest
      else if c = '"' then ⟨.text (.ofList done.reverse) whole, offset + 1 - opening⟩
      else if c < ' ' then ⟨.brokenText offset, 0⟩
      else if c ≠ '\\' then
        readText halves opening (offset + 1) 0 (c :: done) (whole && offset ∉ halves) rest
      else match rest with
        | [] => ⟨.brokenText opening, 0⟩
        | 'u' :: digits =>
            match unit? (digits.take 4), digits.drop 4 with
            | none, _ | some _, [] => ⟨.brokenText (offset + 1), 0⟩
            | some unit, after =>
                match pairWith unit after with
                | .error n => ⟨.brokenText (offset + 6 + n), 0⟩
                | .ok (point, n) =>
                    readText halves opening (offset + 1) (5 + n) (shown point :: done)
                      (whole && !isHalf point) rest
        | e :: _ =>
            match simpleEscape? e with
            | none => ⟨.brokenText offset, 0⟩
            | some read => readText halves opening (offset + 1) 1 (read :: done) whole rest

def mostDigits : Nat := 4300

def markedDigits (isMark : Char → Bool) (signed : Bool) (cs : List Char) : List Char :=
  match cs with
  | c :: rest =>
      let sign := if signed then (rest.head?.filter (fun s => s == '+' || s == '-')).toList else []
      let digits := (rest.drop sign.length).takeWhile Decimal.isDigit
      if isMark c && !digits.isEmpty then c :: sign ++ digits else []
  | [] => []

def number? (cs : List Char) : Option Cut :=
  let sign := (cs.head?.filter (· == '-')).toList
  let unsigned := cs.drop sign.length
  let whole := if unsigned.head? = some '0' then ['0'] else unsigned.takeWhile Decimal.isDigit
  let fraction := markedDigits (· == '.') false (unsigned.drop whole.length)
  let exponent := markedDigits (fun c => c == 'e' || c == 'E') true
    (unsigned.drop (whole.length + fraction.length))
  let written := sign ++ whole ++ fraction ++ exponent
  if whole.isEmpty then none
  else if fraction.isEmpty && exponent.isEmpty then
    let n : Int := Decimal.natural whole
    some ⟨if mostDigits < whole.length then .longNumber
      else .scalar (.int (if sign.isEmpty then n else -n)), written.length⟩
  else some ⟨.scalar (.float ((Decimal.read? written).getD 0.0)), written.length⟩

def words : List (String × Value) :=
  [("null", .null), ("true", .bool true), ("false", .bool false), ("NaN", .float (0.0 / 0.0)),
    ("Infinity", .float (1.0 / 0.0)), ("-Infinity", .float (-1.0 / 0.0))]

def word? (cs : List Char) : Option Cut :=
  (words.find? (fun word => word.1.toList.isPrefixOf cs)).map
    (fun word => ⟨.scalar word.2, word.1.length⟩)

def lexemeAt (halves : List Nat) (offset : Nat) (c : Char) (rest : List Char) : Cut :=
  if c = '[' then ⟨.openList, 1⟩
  else if c = ']' then ⟨.closeList, 1⟩
  else if c = '\x7b' then ⟨.openMap, 1⟩
  else if c = '\x7d' then ⟨.closeMap, 1⟩
  else if c = ':' then ⟨.colon, 1⟩
  else if c = ',' then ⟨.comma, 1⟩
  else if c = '"' then readText halves offset (offset + 1) 0 [] true rest
  else ((word? (c :: rest)).or (number? (c :: rest))).getD ⟨.stray, 1⟩

end Worksheet.Json
