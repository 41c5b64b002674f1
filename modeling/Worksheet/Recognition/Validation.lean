import Worksheet.Recognition.Basic

namespace Worksheet.Recognition

inductive Defect where
  | noQuestions
  | emptyQuestion (position : Nat)
  | duplicateQuestion (position : Nat) (question : String)
  | noCorrectOptions (position : Nat)
  | insufficientOptions (position : Nat)
  | emptyOption (position option : Nat)
  | missingCorrectOption (position : Nat) (option : String)
  | duplicateOption (position : Nat) (option : String)
  deriving DecidableEq, Repr

def Defect.key : Defect → String
  | noQuestions => "validation.noQuestions"
  | emptyQuestion position => s!"validation.emptyQuestion.q{position}"
  | duplicateQuestion position _ => s!"validation.duplicateQuestion.q{position}"
  | noCorrectOptions position => s!"validation.noCorrectOptions.q{position}"
  | insufficientOptions position => s!"validation.insufficientOptions.q{position}"
  | emptyOption position option => s!"validation.emptyOption.q{position}.opt{option}"
  | missingCorrectOption position _ => s!"validation.missingCorrectOption.q{position}"
  | duplicateOption position _ => s!"validation.duplicateOption.q{position}"

def Defect.message : Defect → String
  | noQuestions =>
      "No questions found. Expected at least one question with format: # question\\n[correct] | incorrect;"
  | emptyQuestion position => s!"Question {position}: Question text cannot be empty."
  | duplicateQuestion position question =>
      s!"Question {position}: Question text \"{question}\" is used more than once."
  | noCorrectOptions position =>
      s!"Question {position}: Must have at least one correct answer. Use [correct] syntax."
  | insufficientOptions position =>
      s!"Question {position}: Must have at least 2 options (correct and incorrect)."
  | emptyOption position option =>
      s!"Question {position}, Option {option}: Option text cannot be empty."
  | missingCorrectOption position option =>
      s!"Question {position}: Correct option \"{option}\" not found in options array."
  | duplicateOption position option => s!"Question {position}: Duplicate option \"{option}\" found."

instance : Problem Defect := ⟨Defect.key, Defect.message⟩

def questionDefects (position : Nat) (seen : List String) (q : Question) : List Defect :=
  (if Text.isBlank q.question then [.emptyQuestion position]
    else if q.question ∈ seen then [.duplicateQuestion position q.question] else []) ++
  (if q.correctOptions.isEmpty then [.noCorrectOptions position] else []) ++
  (if q.options.length < 2 then [.insufficientOptions position] else []) ++
  (Text.blankPositions 1 q.options).map (.emptyOption position) ++
  (q.correctOptions.filter (· ∉ q.options)).map (.missingCorrectOption position) ++
  (repeats [] q.options).map (.duplicateOption position)

def questionsDefects (position : Nat) (seen : List String) : List Question → List Defect
  | [] => []
  | q :: rest =>
      questionDefects position seen q ++ questionsDefects (position + 1) (q.question :: seen) rest

def defects (r : Recognition) : List Defect :=
  if r.questions.isEmpty then [.noQuestions] else questionsDefects 1 [] r.questions

end Worksheet.Recognition
