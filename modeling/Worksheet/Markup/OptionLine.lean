import Worksheet.Markup.Token

namespace Worksheet.Markup

structure OptionLine where
  correct : List String
  incorrect : List String
  deriving DecidableEq, Repr

def OptionLine.options (o : OptionLine) : List String := o.correct ++ o.incorrect

def OptionLine.add (inBrackets : Bool) (item : String) (o : OptionLine) : OptionLine :=
  if item = "" then o
  else if inBrackets then { o with correct := item :: o.correct }
  else { o with incorrect := item :: o.incorrect }

inductive BracketFault where
  | unclosed (opening : Token)
  | nested (bracket : Token)
  | unexpected (bracket : Token)
  deriving DecidableEq, Repr

def BracketFault.token : BracketFault → Token
  | unclosed t | nested t | unexpected t => t

def BracketFault.message : BracketFault → String
  | unclosed _ => "Unclosed '['"
  | nested _ => "Nested '['"
  | unexpected _ => "Unexpected ']'"

def BracketFault.report (f : BracketFault) : String :=
  let message := f.message
  let line := f.token.line
  s!"{message} at line {line}"

def OptionLine.addItem (inBrackets : Bool) (source : List Char) (pending : List Token) :
    OptionLine → OptionLine :=
  OptionLine.add inBrackets (sliceText source pending.reverse)

def readOptions (source : List Char) (opening : Option Token) (pending : List Token) :
    List Token → Except BracketFault OptionLine
  | [] =>
      match opening with
      | some bracket => .error (.unclosed bracket)
      | none => .ok (OptionLine.addItem false source pending ⟨[], []⟩)
  | t :: ts =>
      match t.kind, opening with
      | .mark .pipe, _ =>
          (readOptions source opening [] ts).map (OptionLine.addItem opening.isSome source pending)
      | .mark .openBracket, none =>
          (readOptions source (some t) [] ts).map (OptionLine.addItem false source pending)
      | .mark .openBracket, some _ => .error (.nested t)
      | .mark .closeBracket, some _ =>
          (readOptions source none [] ts).map (OptionLine.addItem true source pending)
      | .mark .closeBracket, none => .error (.unexpected t)
      | _, _ => readOptions source opening (t :: pending) ts

def dropTerminator (tokens : List Token) : List Token :=
  if (tokens.getLast?.map (·.kind)) = some (.mark .semicolon) then tokens.dropLast else tokens

def readOptionLine (source : List Char) : Except BracketFault OptionLine :=
  readOptions source none [] (dropTerminator ((scan source).filter (·.kind ≠ .newline)))

end Worksheet.Markup
