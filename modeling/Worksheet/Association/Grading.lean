import Worksheet.Association.Basic
import Worksheet.Grade

namespace Worksheet.Association

def key (pairs : List Pair) : OrderedMap String :=
  .ofListFirst (pairs.map (fun p => (p.left, p.right)))

def countSubmitted (key : OrderedMap String) (t : Tally) (entry : String × String) : Tally :=
  if key.find? entry.1 = some entry.2 then
    ⟨t.correct + 1, t.verdicts.push ⟨entry.1, some entry.2, .correct⟩⟩
  else { t with verdicts := t.verdicts.push ⟨entry.1, some entry.2, .wrong⟩ }

def noteMissed (response : OrderedMap String) (verdicts : Array ItemVerdict)
    (entry : String × String) : Array ItemVerdict :=
  if response.contains entry.1 then verdicts
  else verdicts.push ⟨entry.1, some entry.2, .missed⟩

def grade (pairs : List Pair) (response : OrderedMap String) : Grade :=
  let key := key pairs
  let counted := response.entries.foldl (countSubmitted key) ⟨0, #[]⟩
  { score := .share counted.correct pairs.length
    correct := counted.correct
    total := pairs.length
    key := .partners (.ofList (pairs.map (fun p => (p.left, p.right))))
    response := .partners response
    verdicts := (key.entries.foldl (noteMissed response) counted.verdicts).toList }

end Worksheet.Association
