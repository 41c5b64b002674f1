import Worksheet.Text.Digit

namespace Worksheet.CommandLine

inductive Flag where
  | help
  | preset
  | json
  | encoding
  | quiet
  deriving DecidableEq, Repr

def Flag.takesValue : Flag → Bool
  | preset | encoding => true
  | _ => false

def spellings : List (String × Flag) :=
  [("-h", .help), ("--help", .help), ("--preset", .preset), ("--json", .json),
    ("--encoding", .encoding), ("-q", .quiet), ("--quiet", .quiet)]

inductive Word where
  | plain (s : String)
  | divider
  | long (flag : Flag) (attached : Option String)
  | letters (cs : List Char)
  | unknown
  deriving DecidableEq, Repr

def cutAtEquals (cs : List Char) : List Char × Option (List Char) :=
  match cs.dropWhile (· != '=') with
  | [] => (cs, none)
  | _ :: rest => (cs.takeWhile (· != '='), some rest)

def isNegativeNumber : List Char → Bool
  | '-' :: cs =>
      let cs := if cs.getLast? = some '\n' then cs.dropLast else cs
      let (whole, rest) := (cs.takeWhile isDecimalDigit, cs.dropWhile isDecimalDigit)
      match rest with
      | [] => !whole.isEmpty
      | '.' :: fraction => !fraction.isEmpty && fraction.all isDecimalDigit
      | _ => false
  | _ => false

def candidates (cs : List Char) : List Flag :=
  (spellings.filter (fun e => cs.isPrefixOf e.1.toList)).map (·.2)

def wordOf? (s : String) : Option Word :=
  match s.toList with
  | '-' :: '-' :: rest =>
      let (name, attached) := cutAtEquals ('-' :: '-' :: rest)
      let attached := attached.map String.ofList
      match spellings.lookup (String.ofList name), candidates name with
      | some flag, _ | none, [flag] => some (.long flag attached)
      | none, [] => some (if s.toList.contains ' ' then .plain s else .unknown)
      | none, _ => none
  | '-' :: c :: rest =>
      if c = 'h' ∨ c = 'q' then some (.letters (c :: rest))
      else if isNegativeNumber s.toList || s.toList.contains ' ' then some (.plain s)
      else some .unknown
  | _ => some (.plain s)

def wordsOf? : List String → Option (List Word)
  | [] => some []
  | s :: rest =>
      if s = "--" then some (.divider :: rest.map .plain)
      else do
        let word ← wordOf? s
        let words ← wordsOf? rest
        return word :: words

end Worksheet.CommandLine
