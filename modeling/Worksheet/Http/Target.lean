import Worksheet.Encoding.Utf8
import Worksheet.Sequence
import Worksheet.Text.Quoted

namespace Worksheet.Http

inductive TargetFault where
  | tooLong
  | unprintable (c : Char) (offset : Nat)
  | twoSlashes
  | colon
  deriving DecidableEq, Repr

def TargetFault.message : TargetFault → String
  | tooLong => "URL too long"
  | unprintable c offset =>
      let shown := Text.quoted (String.ofList [c])
      s!"Invalid non-printable ASCII character in URL, {shown} at position {offset}."
  | twoSlashes => "Relative URLs cannot have a path starting with '//'"
  | colon => "Relative URLs cannot have a path starting with ':'"

def isControl (c : Char) : Bool := c < ' ' || c == '\x7f'

def checkCharacters (cs : List Char) : Except TargetFault Unit :=
  if 65536 < cs.length then .error .tooLong
  else match cs.zipIdx.find? (fun e => isControl e.1) with
    | some (c, offset) => .error (.unprintable c offset)
    | none => .ok ()

def octets (c : Char) : List UInt8 := (String.ofList [c]).toUTF8.toList

def unescape : List Char → List UInt8
  | '%' :: a :: b :: rest =>
      match Chars.hexValue? a, Chars.hexValue? b with
      | some high, some low => UInt8.ofNat (16 * high + low) :: unescape rest
      | _, _ => octets '%' ++ unescape (a :: b :: rest)
  | c :: rest => octets c ++ unescape rest
  | [] => []

def unescapeText (cs : List Char) : List Char := Encoding.Utf8.decodeLossyFrom [] none (unescape cs)

def beforeQuery (cs : List Char) : List Char := cs.takeWhile (fun c => c != '?' && c != '#')

structure Address where
  scheme : List Char
  authority : List Char
  path : List Char
  deriving DecidableEq, Repr

def isSchemeChar (c : Char) : Bool := c.isAlphanum || c == '+' || c == '.' || c == '-'

def cutScheme (cs : List Char) : List Char × List Char :=
  let name := cs.takeWhile isSchemeChar
  match cs.drop name.length with
  | ':' :: rest => if name.head?.all Char.isAlpha then (name, rest) else ([], cs)
  | _ => ([], cs)

def cutAuthority : List Char → List Char × List Char
  | '/' :: '/' :: rest => (rest.takeWhile (· != '/'), rest.dropWhile (· != '/'))
  | cs => ([], cs)

namespace Address

def ofText (cs : List Char) : Address :=
  let (scheme, rest) := cutScheme (beforeQuery cs)
  let (authority, path) := cutAuthority rest
  ⟨scheme, authority, path⟩

def host (a : Address) : List Char :=
  let name := if a.authority.contains '@' then (a.authority.dropWhile (· != '@')).drop 1
    else a.authority
  name.takeWhile (fun c => c != ':' && c != '@')

def isWhole (a : Address) : Bool := !a.scheme.isEmpty && !a.host.isEmpty

def isBare (a : Address) : Bool := a.scheme.isEmpty && a.authority.isEmpty

def check (a : Address) : Except TargetFault Unit :=
  match a.isBare, a.path with
  | true, '/' :: '/' :: _ => .error .twoSlashes
  | true, ':' :: _ => .error .colon
  | _, _ => .ok ()

end Address

def climb (steps : List (List Char)) (step : List Char) : List (List Char) :=
  if step = ['.'] then steps
  else if step = ['.', '.'] then (if steps = [] ∨ steps = [[]] then steps else steps.drop 1)
  else step :: steps

def withoutDots (path : List Char) : List Char :=
  ['/'].intercalate ((pieces (· == '/') path).foldl climb []).reverse

def orRoot (path : List Char) : List Char := if path.isEmpty then ['/'] else path

def Address.served (a : Address) : List Char :=
  let path := if a.isBare then a.path else withoutDots a.path
  orRoot (if a.isWhole then path else withoutDots ('/' :: path.dropWhile (· == '/')))

def resolved (path : List Char) : List Char := unescapeText (unescapeText path)

def pathOf (target : String) : Except TargetFault (List Char) := do
  checkCharacters target.toList
  let address := Address.ofText target.toList
  address.check
  return resolved address.served

def shownPath (path : List Char) : String :=
  .ofList (beforeQuery (path.filter (fun c => c != '\t' && c != '\n' && c != '\r')))

end Worksheet.Http
