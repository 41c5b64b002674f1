import Worksheet.Text.Pipes

namespace Worksheet.Markup

def distractorBody? (line : List Char) : Option (List Char) :=
  match line.dropWhile isIndent with
  | '=' :: rest =>
      match rest.dropWhile (· != ';') with
      | ';' :: tail =>
          match tail.dropWhile isIndent with
          | [] | '/' :: '/' :: _ => some (rest.takeWhile (· != ';'))
          | _ => none
      | _ => none
  | _ => none

def unbracket (cs : List Char) : List Char :=
  if cs.head? = some '[' ∧ cs.getLast? = some ']' then (cs.drop 1).dropLast else cs

def bodyItems (body : List Char) : List String :=
  Chars.splitPipes (unbracket (Chars.trim body))

structure Extraction where
  items : List String
  remainder : List Char
  deriving DecidableEq, Repr

def extractDistractors (source : List Char) : Extraction :=
  let lines := Chars.lines source
  ⟨distinct ((lines.filterMap distractorBody?).flatMap bodyItems),
    Chars.unlines (lines.map (fun line => if (distractorBody? line).isSome then [] else line))⟩

end Worksheet.Markup
