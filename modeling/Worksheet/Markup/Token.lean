import Worksheet.Text.Blank

namespace Worksheet.Markup

inductive Mark where
  | equals
  | pipe
  | semicolon
  | openBracket
  | closeBracket
  deriving DecidableEq, Repr

def Mark.char : Mark → Char
  | equals => '='
  | pipe => '|'
  | semicolon => ';'
  | openBracket => '['
  | closeBracket => ']'

def Mark.ofChar? (c : Char) : Option Mark :=
  if c = '=' then some .equals
  else if c = '|' then some .pipe
  else if c = ';' then some .semicolon
  else if c = '[' then some .openBracket
  else if c = ']' then some .closeBracket
  else none

theorem Mark.ofChar?_char (m : Mark) : Mark.ofChar? m.char = some m := by
  cases m <;> rfl

theorem Mark.char_of_ofChar? {c : Char} {m : Mark} (h : Mark.ofChar? c = some m) : m.char = c := by
  unfold Mark.ofChar? at h
  repeat' split at h
  all_goals first | (cases h; next hc => simp [Mark.char, hc]) | cases h

inductive Segment where
  | comment (cs : List Char)
  | newline
  | mark (m : Mark)
  | text (cs : List Char)
  deriving DecidableEq, Repr

def Segment.chars : Segment → List Char
  | comment cs => cs
  | newline => ['\n']
  | mark m => [m.char]
  | text cs => cs

def startsComment (cs : List Char) : Bool :=
  match cs.dropWhile isIndent with
  | '/' :: '/' :: _ => true
  | _ => false

def isText (c : Char) : Bool := c != '\n' && (Mark.ofChar? c).isNone

-- Cuts a text into segments. A comment may begin only where `free` holds: at the start of a line
-- and right after a semicolon, as long as nothing but white space has followed.
def segments (free : Bool) : List Char → List Segment
  | [] => []
  | c :: cs =>
      if c = '\n' then .newline :: segments true cs
      else match Mark.ofChar? c with
        | some m => .mark m :: segments (m == .semicolon) cs
        | none =>
            if free && startsComment (c :: cs) then
              .comment (c :: cs.takeWhile (· != '\n')) :: segments free (cs.dropWhile (· != '\n'))
            else
              let run := c :: cs.takeWhile isText
              .text run :: segments (free && run.all isBlank) (cs.dropWhile isText)
termination_by cs => cs.length
decreasing_by
  all_goals simp only [List.length_cons]
  · omega
  · omega
  · have := (List.dropWhile_suffix (· != '\n') (l := cs)).length_le; omega
  · have := (List.dropWhile_suffix isText (l := cs)).length_le; omega

inductive TokenKind where
  | text
  | mark (m : Mark)
  | newline
  | finish
  deriving DecidableEq, Repr

def TokenKind.name : TokenKind → String
  | text => "TEXT"
  | mark .equals => "EQUALS"
  | mark .pipe => "PIPE"
  | mark .semicolon => "SEMICOLON"
  | mark .openBracket => "LBRACKET"
  | mark .closeBracket => "RBRACKET"
  | newline => "NEWLINE"
  | finish => "EOF"

structure Token where
  kind : TokenKind
  value : String
  line : Nat
  start : Nat
  stop : Nat
  deriving DecidableEq, Repr

def Token.describe (t : Token) : String :=
  let kind := t.kind.name
  let value := t.value
  let line := t.line
  s!"Token({kind}, '{value}', line={line})"

def tokensFrom (line start : Nat) : List Segment → List Token
  | [] => []
  | .comment cs :: rest => tokensFrom line (start + cs.length) rest
  | .newline :: rest => ⟨.newline, "\n", line, start, start + 1⟩ :: tokensFrom (line + 1) (start + 1) rest
  | .mark m :: rest =>
      ⟨.mark m, m.char.toString, line, start, start + 1⟩ :: tokensFrom line (start + 1) rest
  | .text cs :: rest =>
      let value := Chars.collapse cs
      let stop := start + cs.length
      if value = [] then tokensFrom line stop rest
      else ⟨.text, .ofList value, line, start, stop⟩ :: tokensFrom line stop rest

def scan (source : List Char) : List Token := tokensFrom 1 0 (segments true source)

def finishToken (source : List Char) : Token :=
  ⟨.finish, "", 1 + source.count '\n', source.length, source.length⟩

def tokenize (source : List Char) : List Token := scan source ++ [finishToken source]

def sliceText (source : List Char) (tokens : List Token) : String :=
  match tokens.head?, tokens.getLast? with
  | some first, some last => .ofList (Chars.collapse (source.extract first.start last.stop))
  | _, _ => ""

end Worksheet.Markup
