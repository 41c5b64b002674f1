import Worksheet.ErrorMap
import Worksheet.Markup.OptionLine
import Worksheet.Sequence

namespace Worksheet

structure Question where
  question : String
  correctOptions : List String
  options : List String
  deriving DecidableEq, Repr

structure Recognition where
  questions : List Question
  deriving DecidableEq, Repr

namespace Recognition

inductive LineProblem where
  | danglingQuestion (position : Nat) (question : String)
  | missingSemicolon (line : Nat)
  | noQuestion (line : Nat)
  | brackets (line : Nat) (fault : Markup.BracketFault)
  | duplicateOption (position : Nat) (option : String)
  | danglingAtEnd (question : String)
  deriving DecidableEq, Repr

namespace LineProblem

def key : LineProblem → String
  | danglingQuestion position _ => s!"parse.danglingQuestion.q{position}"
  | missingSemicolon line => s!"parse.missingSemicolon.line{line}"
  | noQuestion line => s!"parse.noQuestion.line{line}"
  | brackets line _ => s!"parse.brackets.line{line}"
  | duplicateOption position _ => s!"parse.duplicate.q{position}"
  | danglingAtEnd _ => "parse.danglingQuestion"

def message : LineProblem → String
  | danglingQuestion _ question | danglingAtEnd question =>
      s!"Question \"{question}\" has no options defined."
  | missingSemicolon line => s!"Line {line}: Options line must end with ';'."
  | noQuestion line =>
      s!"Line {line}: Found options without a preceding question (# question)."
  | brackets line fault =>
      let message := fault.message
      s!"Line {line}: {message}."
  | duplicateOption position option => s!"Question {position}: Duplicate option \"{option}\" found."

instance : Problem LineProblem := ⟨key, message⟩

end LineProblem

def cutComment : List Char → List Char
  | [] => []
  | c :: cs => if c == ';' && Markup.startsComment cs then [';'] else c :: cutComment cs

def isCommentLine (line : List Char) : Bool := ['/', '/'].isPrefixOf line

def countedLines (source : List Char) : List (List Char) :=
  ((Chars.lines source).map (fun line => cutComment (Chars.trim line))).filter
    (fun line => line ≠ [] && !isCommentLine line)

def readLines (line position : Nat) (pending : Option String) :
    List (List Char) → List Question × List LineProblem
  | [] => ([], (pending.map .danglingAtEnd).toList)
  | cs :: rest =>
      if cs.head? = some '#' then
        let (questions, problems) :=
          readLines (line + 1) (position + 1) (some (.ofList (Chars.trim (cs.drop 1)))) rest
        (questions, (pending.map (.danglingQuestion position)).toList ++ problems)
      else if cs.getLast? ≠ some ';' then
        let (questions, problems) := readLines (line + 1) position pending rest
        (questions, .missingSemicolon line :: problems)
      else match pending with
        | none =>
            let (questions, problems) := readLines (line + 1) position none rest
            (questions, .noQuestion line :: problems)
        | some question =>
            let (questions, problems) := readLines (line + 1) position none rest
            match Markup.readOptionLine cs with
            | .error fault => (questions, .brackets line fault :: problems)
            | .ok options =>
                (⟨question, options.correct, options.options⟩ :: questions,
                  ((repeats [] options.options).head?.map (.duplicateOption position)).toList ++
                    problems)

def read (text : String) : Recognition × List LineProblem :=
  let (questions, problems) := readLines 1 0 none (countedLines text.toList)
  (⟨questions⟩, problems)

end Recognition

end Worksheet
