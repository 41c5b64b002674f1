import Worksheet.Sequence

namespace Worksheet

def isBlank (c : Char) : Bool :=
  let n := c.toNat
  (0x09 ≤ n && n ≤ 0x0D) || (0x1C ≤ n && n ≤ 0x20) || n == 0x85 || n == 0xA0 || n == 0x1680 ||
    (0x2000 ≤ n && n ≤ 0x200A) || n == 0x2028 || n == 0x2029 || n == 0x202F || n == 0x205F ||
    n == 0x3000

def isIndent (c : Char) : Bool := c == ' ' || c == '\t'

namespace Chars

def trimStart (cs : List Char) : List Char := cs.dropWhile isBlank

def trimEnd (cs : List Char) : List Char := (cs.reverse.dropWhile isBlank).reverse

def trim (cs : List Char) : List Char := trimEnd (trimStart cs)

def words (cs : List Char) : List (List Char) := (pieces isBlank cs).filter (· ≠ [])

def collapse (cs : List Char) : List Char := [' '].intercalate (words cs)

def lines (cs : List Char) : List (List Char) := pieces (· == '\n') cs

def unlines (ls : List (List Char)) : List Char := ['\n'].intercalate ls

end Chars

namespace Text

def trim (s : String) : String := .ofList (Chars.trim s.toList)

def collapse (s : String) : String := .ofList (Chars.collapse s.toList)

def isBlank (s : String) : Bool := s.toList.all Worksheet.isBlank

def blankPositions (position : Nat) : List String → List Nat
  | [] => []
  | s :: rest =>
      if isBlank s then position :: blankPositions (position + 1) rest
      else blankPositions (position + 1) rest

end Text

end Worksheet
