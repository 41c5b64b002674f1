import Worksheet.ErrorMap
import Worksheet.Text.Digit
import Worksheet.Text.Pipes

namespace Worksheet

structure Seriation where
  items : List String
  deriving DecidableEq, Repr

namespace Seriation

def leastItems : Nat := 2

inductive Defect where
  | emptyInput
  | tooFewItems
  | blankItem (position : Nat)
  | duplicateItem (item : String)
  deriving DecidableEq, Repr

def Defect.key : Defect → String
  | emptyInput => "parse.emptyInput"
  | tooFewItems => "items.count"
  | blankItem position => s!"items.blank.{position}"
  | duplicateItem item => s!"items.duplicate.{item}"

def Defect.message : Defect → String
  | emptyInput => "Input cannot be empty."
  | tooFewItems => s!"At least {leastItems} items are required for seriation."
  | blankItem position => s!"Item {position} is empty."
  | duplicateItem item => s!"Item \"{item}\" appears more than once. All items must be unique."

instance : Problem Defect := ⟨Defect.key, Defect.message⟩

def closesMarker (c : Char) : Bool := c == '.' || c == ')'

-- Removes an ordinal marker from the start of a line: a number with a point or a parenthesis, or a
-- letter with one of them and white space.
def dropMarker (line : List Char) : List Char :=
  let body := line.dropWhile isBlank
  match body.takeWhile isDecimalDigit, body.dropWhile isDecimalDigit with
  | _ :: _, c :: rest => if closesMarker c then rest.dropWhile isBlank else line
  | [], letter :: c :: blank :: rest =>
      if letter.isAlpha && closesMarker c && isBlank blank then rest.dropWhile isBlank else line
  | _, _ => line

def countDefects (items : List String) : List Defect :=
  if items.length < leastItems then [.tooFewItems] else []

def lineItems (source : List Char) : List String :=
  ((Chars.lines source).map
    (fun line => String.ofList (Chars.collapse (dropMarker line)))).filter (· ≠ "")

def read (text : String) : Seriation × List Defect :=
  let source := Chars.trim text.toList
  if source.isEmpty then (⟨[]⟩, [.emptyInput])
  else
    let items := if source.contains '|' then Chars.splitPipes source else lineItems source
    (⟨items⟩, countDefects items)

def defects (s : Seriation) : List Defect :=
  countDefects s.items ++ (Text.blankPositions 1 s.items).map .blankItem ++
  (repeats [] s.items).map .duplicateItem

end Seriation

end Worksheet
