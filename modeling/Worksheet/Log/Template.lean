import Worksheet.Decimal.Fixed
import Worksheet.Decimal.Whole
import Worksheet.Log.Slot
import Worksheet.Text.Hex
import Worksheet.Value

namespace Worksheet.Log

inductive TemplateFault where
  | tooFew
  | tooMany
  | nameless
  | incomplete
  | unknownConversion (c : Char) (offset : Nat)
  | notReal (c : Char) (given : Value)
  | notWhole (c : Char) (given : Value)
  | notFloating (given : Value)
  | notANumber
  | infinite
  | tooGreat
  | notCharacter
  | noCharacter
  | notCount
  | tooWide
  | tooPrecise
  | wideCount
  | preciseCount
  | manyDigits
  | tooLong
  deriving Repr

def TemplateFault.message : TemplateFault → String
  | tooFew => "not enough arguments for format string"
  | tooMany => "not all arguments converted during string formatting"
  | nameless => "format requires a mapping"
  | incomplete => "incomplete format"
  | unknownConversion c offset =>
      let shown := if '\x1f' ≤ c ∧ c ≤ '~' then c else '?'
      let code := String.ofList (Nat.toDigits 16 c.toNat)
      s!"unsupported format character '{shown}' (0x{code}) at index {offset}"
  | notReal c given =>
      let kind := given.kindName
      s!"%{c} format: a real number is required, not {kind}"
  | notWhole c given =>
      let kind := given.kindName
      s!"%{c} format: an integer is required, not {kind}"
  | notFloating given =>
      let kind := given.kindName
      s!"must be real number, not {kind}"
  | notANumber => "cannot convert float NaN to integer"
  | infinite => "cannot convert float infinity to integer"
  | tooGreat => "int too large to convert to float"
  | notCharacter => "%c requires int or char"
  | noCharacter => "%c arg not in range(0x110000)"
  | notCount => "* wants int"
  | tooWide => "width too big"
  | tooPrecise => "precision too big"
  | wideCount => "Python int too large to convert to C ssize_t"
  | preciseCount => "Python int too large to convert to C int"
  | manyDigits => "precision too large"
  | tooLong => ""

def textLimit : Nat := Nat.pow 2 30

structure Filling where
  numeric : Bool
  sign : List Char
  mark : List Char
  body : List Char
  deriving DecidableEq, Repr

def plainFilling (body : List Char) : Filling := ⟨false, [], [], body⟩

def signOf (flags : Flags) (negative : Bool) : List Char :=
  if negative then ['-'] else if flags.plus then ['+'] else if flags.blank then [' '] else []

def wholeValue? : Value → Option Int
  | .int n => some n
  | .bool b => some (if b then 1 else 0)
  | _ => none

def truncated (c : Char) : Value → Except TemplateFault Int
  | .float x =>
      if x.isNaN then .error .notANumber
      else if x.isInf then .error .infinite
      else .ok (Decimal.wholePart x)
  | v =>
      match wholeValue? v with
      | some n => .ok n
      | none => .error (.notReal c v)

def floating : Value → Except TemplateFault Float
  | .float x => .ok x
  | v =>
      match wholeValue? v with
      | some n => if (Decimal.ofInt n).isInf then .error .tooGreat else .ok (Decimal.ofInt n)
      | none => .error (.notFloating v)

def wholeFilling (flags : Flags) (precision : Option Nat) (mark digits : List Char) (n : Int) :
    Except TemplateFault Filling :=
  let least := precision.getD 0
  if Nat.pow 2 31 - 4 < least then .error .manyDigits
  else if textLimit ≤ least then .error .tooLong
  else .ok ⟨true, signOf flags (n < 0), if flags.marked then mark else [],
    Decimal.padLeft least digits⟩

def capitals (cs : List Char) : List Char := cs.map Char.toUpper

def floatFilling (flags : Flags) (precision : Option Nat) (style : Decimal.Style) (x : Float) :
    Except TemplateFault Filling :=
  let short := !x.isFinite || (style == .general && !flags.marked)
  if textLimit ≤ precision.getD 6 && !short then .error .tooLong
  else .ok ⟨true, signOf flags (Decimal.isNegative x), [],
    Decimal.sizeText style flags.marked (precision.getD 6) x⟩

def characterOf : Value → Except TemplateFault Char
  | .str s =>
      match s.toList with
      | [c] => .ok c
      | _ => .error .notCharacter
  | v =>
      match wholeValue? v with
      | some n =>
          if 0 ≤ n ∧ n < 0x110000 then .ok (Char.ofNat n.toNat) else .error .noCharacter
      | none => .error .notCharacter

def basicOnly (cs : List Char) : List Char :=
  cs.flatMap (fun c => if c.toNat < 0x80 then [c] else Chars.codeEscape c)

def cutTo (precision : Option Nat) (cs : List Char) : List Char :=
  match precision with
  | some n => cs.take n
  | none => cs

def fillingFor (flags : Flags) (precision : Option Nat) (c : Char) (offset : Nat) (v : Value) :
    Except TemplateFault Filling :=
  let text (s : String) := plainFilling (cutTo precision s.toList)
  let inBase (base : Nat) (mark : List Char) : Except TemplateFault Filling :=
    match wholeValue? v with
    | some n => wholeFilling flags precision mark (Nat.toDigits base n.natAbs) n
    | none => .error (.notWhole c v)
  let real (style : Decimal.Style) := floating v >>= floatFilling flags precision style
  let capital (r : Except TemplateFault Filling) :=
    r.map (fun f => { f with mark := capitals f.mark, body := capitals f.body })
  match c with
  | 's' => .ok (text v.text)
  | 'r' => .ok (text v.literal)
  | 'a' => .ok (plainFilling (cutTo precision (basicOnly v.literal.toList)))
  | 'd' | 'i' | 'u' => truncated c v >>= fun n =>
      wholeFilling flags precision [] (Nat.toDigits 10 n.natAbs) n
  | 'o' => inBase 8 ['0', 'o']
  | 'x' => inBase 16 ['0', 'x']
  | 'X' => capital (inBase 16 ['0', 'x'])
  | 'f' => real .positional
  | 'F' => capital (real .positional)
  | 'e' => real .scientific
  | 'E' => capital (real .scientific)
  | 'g' => real .general
  | 'G' => capital (real .general)
  | 'c' => (characterOf v).map (fun c => plainFilling [c])
  | _ => .error (.unknownConversion c offset)

def Filling.written (f : Filling) (left zeros : Bool) (width : Nat) : List Char :=
  let gap (c : Char) := List.replicate (width - (f.sign ++ f.mark ++ f.body).length) c
  if left then f.sign ++ f.mark ++ f.body ++ gap ' '
  else if zeros && f.numeric then f.sign ++ f.mark ++ gap '0' ++ f.body
  else gap ' ' ++ f.sign ++ f.mark ++ f.body

def countValue (bits : Nat) (ofGiven ofNext : TemplateFault) (values : List Value) :
    Option Count → Except TemplateFault (Option Int × List Value)
  | none => .ok (none, values)
  | some (.given n) => if Nat.pow 2 bits ≤ n then .error ofGiven else .ok (some n, values)
  | some .next =>
      match values with
      | [] => .error .tooFew
      | v :: values =>
          match wholeValue? v with
          | some n =>
              if n < -Int.pow 2 bits ∨ Int.pow 2 bits ≤ n then .error ofNext else .ok (some n, values)
          | none => .error .notCount

def fillSlot (s : Slot) (values : List Value) :
    Except TemplateFault (List Char × List Value) := do
  let (width, values) ← countValue 63 .tooWide .wideCount values s.width
  let (precision, values) ← countValue 31 .tooPrecise .preciseCount values s.precision
  match s.conversion, values with
  | none, _ => .error .incomplete
  | some _, [] => .error .tooFew
  | some (c, offset), v :: values =>
      let filling ← fillingFor s.flags (precision.map Int.toNat) c offset v
      let width := width.getD 0
      if textLimit ≤ width.natAbs then .error .tooLong
      else return (filling.written (s.flags.left || width < 0) s.flags.zeros width.natAbs, values)

def fillParts (values : List Value) : List Part → Except TemplateFault (List Char × List Value)
  | [] => .ok ([], values)
  | .plain c :: rest => (fillParts values rest).map (fun (cs, left) => (c :: cs, left))
  | .named :: _ => .error .nameless
  | .slot s :: rest => do
      let (shown, values) ← fillSlot s values
      let (cs, left) ← fillParts values rest
      return (shown ++ cs, left)

def fill (template : String) (values : List Value) : Except TemplateFault String :=
  if values.isEmpty then .ok template
  else do
    let (cs, left) ← fillParts values (parts template)
    if left.isEmpty then return String.ofList cs else .error .tooMany

end Worksheet.Log
