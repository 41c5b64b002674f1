import Worksheet.Text.Hash
import Worksheet.Text.Hex
import Worksheet.Value

namespace Worksheet.Json

inductive Layout where
  | compact
  | indented
  deriving DecidableEq, Repr

def Layout.gap : Layout → Nat → String
  | compact, _ => ""
  | indented, depth => "\n" ++ String.ofList (List.replicate (2 * depth) ' ')

def Layout.separator : Layout → Nat → String
  | compact, _ => ", "
  | indented, depth => "," ++ gap .indented depth

def unitEscape (unit : UInt32) : List Char := '\\' :: 'u' :: Chars.hex 4 unit.toNat

def escaped (c : Char) : List Char :=
  if c = '"' ∨ c = '\\' then ['\\', c]
  else if c = '\n' then ['\\', 'n']
  else if c = '\r' then ['\\', 'r']
  else if c = '\t' then ['\\', 't']
  else if c = '\x08' then ['\\', 'b']
  else if c = '\x0c' then ['\\', 'f']
  else if ' ' ≤ c ∧ c ≤ '~' then [c]
  else (Chars.units c).flatMap unitEscape

def quoted (s : String) : String := .ofList ('"' :: s.toList.flatMap escaped ++ ['"'])

def number (x : Float) : String :=
  if x.isNaN then "NaN"
  else if x.isInf then (if x < 0.0 then "-Infinity" else "Infinity")
  else Decimal.text x

def Layout.enclose (layout : Layout) (depth : Nat) (opening closing : String)
    (members : List String) : String :=
  if members.isEmpty then opening ++ closing
  else opening ++ layout.gap (depth + 1) ++
    (layout.separator (depth + 1)).intercalate members ++ layout.gap depth ++ closing

mutual

def writeAt (layout : Layout) (depth : Nat) : Value → String
  | .null => "null"
  | .bool true => "true"
  | .bool false => "false"
  | .int n => toString n
  | .float x => number x
  | .str s | .torn s => quoted s
  | .list items => layout.enclose depth "[" "]" (writeItems layout (depth + 1) items)
  | .map entries =>
      layout.enclose depth "\x7b" "\x7d" (writeEntries layout (depth + 1) entries)

def writeItems (layout : Layout) (depth : Nat) : List Value → List String
  | [] => []
  | v :: items => writeAt layout depth v :: writeItems layout depth items

def writeEntries (layout : Layout) (depth : Nat) : List (String × Value) → List String
  | [] => []
  | (key, v) :: entries =>
      (quoted key ++ ": " ++ writeAt layout depth v) :: writeEntries layout depth entries

end

def write (layout : Layout) (v : Value) : String := writeAt layout 0 v

end Worksheet.Json
