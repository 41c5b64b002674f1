import Worksheet.Text.Blank

namespace Worksheet

def depthAfter (depth : Nat) (c : Char) : Nat :=
  if c = '(' ∨ c = '[' ∨ c = '\x7b' then depth + 1
  else if c = ')' ∨ c = ']' ∨ c = '\x7d' then depth - 1
  else depth

namespace Chars

def withDepth (depth : Nat) : List Char → List (Char × Nat)
  | [] => []
  | c :: cs => (c, depthAfter depth c) :: withDepth (depthAfter depth c) cs

def splitBlocks (isSeparator : Char → Bool) (cs : List Char) : List String :=
  ((pieces (fun e => isSeparator e.1 && e.2 == 0) (withDepth 0 cs)).map
    (fun piece => String.ofList (trim (piece.map Prod.fst)))).filter (· ≠ "")

end Chars

namespace Text

def splitBlocks (source : String) (separator : String) : List String :=
  Chars.splitBlocks (fun c => separator.toList == [c]) source.toList

end Text

end Worksheet
