import Worksheet.Association.Basic

namespace Worksheet.Association

inductive Defect where
  | noPairs
  | blankPair (position : Nat)
  | duplicateLeft (left : String)
  | distractorConflict (item : String)
  deriving DecidableEq, Repr

def Defect.key : Defect → String
  | noPairs => "pairs.empty"
  | blankPair position => s!"pairs.blank.{position}"
  | duplicateLeft left => s!"pairs.duplicateLeft.{left}"
  | distractorConflict item => s!"distractors.conflict.{item}"

def Defect.message : Defect → String
  | noPairs => "No pairs were found. Expected at least one left = right; entry."
  | blankPair position => s!"Pair {position} has an empty side."
  | duplicateLeft left => s!"\"{left}\" is paired more than once."
  | distractorConflict item => s!"Distractor \"{item}\" is also the partner of an item."

instance : Problem Defect := ⟨Defect.key, Defect.message⟩

def pairsDefects (position : Nat) (seen : List String) : List Pair → List Defect
  | [] => []
  | p :: rest =>
      (if Text.isBlank p.left || Text.isBlank p.right then [.blankPair position] else []) ++
      (if p.left ∈ seen then [.duplicateLeft p.left] else []) ++
      pairsDefects (position + 1) (p.left :: seen) rest

def defects (a : Association) : List Defect :=
  (if a.pairs.isEmpty then [.noPairs] else []) ++
  pairsDefects 1 [] a.pairs ++
  (a.distractors.filter (· ∈ a.pairs.map (·.right))).map .distractorConflict

end Worksheet.Association
