import Worksheet.Recognition.Basic
import Worksheet.Grade

namespace Worksheet.Recognition

def selectedFor (response : OrderedMap (List String)) (q : Question) : List String :=
  distinct ((response.find? q.question).getD [])

def questionVerdicts (q : Question) (selected : List String) : List ItemVerdict :=
  selected.map (fun option =>
    ⟨option, some q.question, if option ∈ q.correctOptions then .correct else .wrong⟩) ++
  (q.correctOptions.filter (· ∉ selected)).map (fun option => ⟨option, some q.question, .missed⟩)

def questionScore (q : Question) (selected : List String) : Score :=
  let verdicts := questionVerdicts q selected
  let raw : Int := countOf .correct verdicts - countOf .wrong verdicts - countOf .missed verdicts
  let correct := (distinct q.correctOptions).length
  if correct = 0 then .zero else .atLeastZero (.percent (.whole raw) correct)

def isFullyCorrect (q : Question) (selected : List String) : Bool :=
  selected.all (· ∈ q.correctOptions) && q.correctOptions.all (· ∈ selected)

def meanScore (scores : List Score) : Score :=
  if scores.isEmpty then .zero
  else .rounded (.quotient (.total scores) (.whole scores.length))

def grade (r : Recognition) (response : OrderedMap (List String)) : Grade where
  score := meanScore (r.questions.map (fun q => questionScore q (selectedFor response q)))
  correct := r.questions.countP (fun q => isFullyCorrect q (selectedFor response q))
  total := r.questions.length
  key := .members (.ofList (r.questions.map (fun q => (q.question, q.correctOptions))))
  response := .selections response
  verdicts := r.questions.flatMap (fun q => questionVerdicts q (selectedFor response q))

end Worksheet.Recognition
