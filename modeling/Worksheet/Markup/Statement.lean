import Worksheet.Markup.Token
import Worksheet.Text.Label

namespace Worksheet.Markup

structure Statement where
  label : Option String
  items : List String
  line : Nat
  bracketed : Bool
  deriving DecidableEq, Repr

structure Document where
  statements : List Statement
  skipped : List Nat
  deriving DecidableEq, Repr

def Document.labelled (d : Document) : List (String × Statement) :=
  d.statements.filterMap (fun s => s.label.map (·, s))

def Document.unlabelled (d : Document) : List Statement :=
  d.statements.filter (·.label.isNone)

structure LabelRule where
  admits : String → Bool

namespace LabelRule

def category : LabelRule := ⟨isCategoryLabel⟩

def any : LabelRule := ⟨fun _ => true⟩

end LabelRule

def bracketDepth (depth : Nat) (t : Token) : Nat :=
  if t.kind = .mark .openBracket then depth + 1
  else if t.kind = .mark .closeBracket then depth - 1
  else depth

def groups (depth : Nat) : List Token → List (List Token) × List Token
  | [] => ([], [])
  | t :: ts =>
      let depth := bracketDepth depth t
      if t.kind = .mark .semicolon ∧ depth = 0 then
        let (closed, left) := groups depth ts
        ([] :: closed, left)
      else
        match groups depth ts with
        | ([], left) => ([], t :: left)
        | (group :: closed, left) => ((t :: group) :: closed, left)

def tokenLines (ts : List Token) : List (List Token) :=
  (pieces (·.kind = .newline) ts).filter (· ≠ [])

def lineNumber (line : List Token) : Nat := (line.head?.map (·.line)).getD 0

def isHeader : List Token → Bool
  | [] => false
  | t :: rest =>
      t.kind = .mark .equals ||
        (t.kind = .text && (rest.head?.map (·.kind)) = some (.mark .equals))

def headerLabel (header : List Token) : Option String :=
  (header.head?.filter (·.kind = .text)).map (·.value)

def isBracketed (body : List Token) : Bool :=
  2 ≤ body.length && (body.head?.map (·.kind)) = some (.mark .openBracket) &&
    (body.getLast?.map (·.kind)) = some (.mark .closeBracket)

def itemTexts (source : List Char) (body : List Token) : List String :=
  let inner := if isBracketed body then (body.drop 1).dropLast else body
  ((pieces (·.kind = .mark .pipe) inner).map (sliceText source)).filter (· ≠ "")

def readGroup (rule : LabelRule) (source : List Char) (group : List Token) : Document :=
  let lines := tokenLines group
  match splitAtLast isHeader lines with
  | none => ⟨[], lines.map lineNumber⟩
  | some (before, header, after) =>
      let label := headerLabel header
      if label.all rule.admits then
        let body := header.drop (if label.isSome then 2 else 1) ++ after.flatten
        ⟨[⟨label, itemTexts source body, lineNumber header, isBracketed body⟩], before.map lineNumber⟩
      else ⟨[], lines.map lineNumber⟩

def readDocument (rule : LabelRule) (source : List Char) : Document :=
  let (closed, left) := groups 0 (scan source)
  let read := closed.map (readGroup rule source)
  ⟨read.flatMap (·.statements), read.flatMap (·.skipped) ++ (tokenLines left).map lineNumber⟩

end Worksheet.Markup
