import Worksheet.Text.CaseTable

namespace Worksheet

namespace Chars

def lowerChar (c : Char) : Char :=
  match Unicode.lowerRuns.find? (·.covers c.toNat) with
  | some run => Char.ofNat (c.toNat + run.shift).toNat
  | none => c

-- The dotted capital I keeps its dot as a combining mark.
def lowerForm (c : Char) : List Char :=
  if c = 'İ' then ['i', '\u0307'] else [lowerChar c]

def meetsCased (cs : List Char) : Bool :=
  match cs.dropWhile (Unicode.within Unicode.caseIgnorable) with
  | [] => false
  | c :: _ => Unicode.within Unicode.cased c

def lowerAfter (before : List Char) : List Char → List Char
  | [] => []
  | c :: rest =>
      if c = 'Σ' then
        (if meetsCased before && !meetsCased rest then 'ς' else 'σ') :: lowerAfter (c :: before) rest
      else lowerForm c ++ lowerAfter (c :: before) rest

def lower (cs : List Char) : List Char := lowerAfter [] cs

end Chars

namespace Text

def lower (s : String) : String := .ofList (Chars.lower s.toList)

end Text

end Worksheet
