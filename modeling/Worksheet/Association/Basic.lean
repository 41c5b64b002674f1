import Worksheet.Category

namespace Worksheet

structure Pair where
  left : String
  right : String
  deriving DecidableEq, Repr

structure Association where
  pairs : List Pair
  distractors : List String
  deriving DecidableEq, Repr

namespace Association

def leftPool (a : Association) : List String := a.pairs.map (·.left)

def rightPool (a : Association) : List String :=
  distinct (a.pairs.map (·.right) ++ a.distractors)

def partnerOf (a : Association) (left : String) : Option String :=
  (a.pairs.find? (·.left = left)).map (·.right)

inductive PairProblem where
  | noMatches
  | duplicateLeft (left : String)
  | emptyRight (left : String)
  | multipleRight (left : String) (rights : List String)
  deriving DecidableEq, Repr

namespace PairProblem

def key : PairProblem → String
  | noMatches => "parse.noMatches"
  | duplicateLeft left => s!"parse.duplicateLeft.{left}"
  | emptyRight left => s!"parse.emptyRight.{left}"
  | multipleRight left _ => s!"parse.multipleRight.{left}"

def message : PairProblem → String
  | noMatches => "No valid pairs found. Expected lines like: left = right;"
  | duplicateLeft left => s!"\"{left}\" is paired more than once. Keep a single pair per item."
  | emptyRight left => s!"\"{left}\" has no partner after \"=\"."
  | multipleRight left rights =>
      let listed := " | ".intercalate rights
      s!"\"{left}\" has several partners ({listed}). Each item takes exactly one partner."

instance : Problem PairProblem := ⟨key, message⟩

end PairProblem

def enterPairs (seen : List String) :
    List (String × List String) → List Pair × List PairProblem
  | [] => ([], [])
  | (left, items) :: rest =>
      if left ∈ seen then
        let (pairs, problems) := enterPairs seen rest
        (pairs, .duplicateLeft left :: problems)
      else
        let (pairs, problems) := enterPairs (left :: seen) rest
        match items with
        | [] => (pairs, .emptyRight left :: problems)
        | [right] => (⟨left, right⟩ :: pairs, problems)
        | right :: _ => (⟨left, right⟩ :: pairs, .multipleRight left items :: problems)

def read (text : String) : Association × List PairProblem :=
  let (defined, distractors) := definitions .any text
  let (pairs, problems) := enterPairs [] defined
  (⟨pairs, distractors⟩, if defined.isEmpty then .noMatches :: problems else problems)

end Association

end Worksheet
