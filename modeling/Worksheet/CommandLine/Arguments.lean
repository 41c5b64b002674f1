import Worksheet.CommandLine.Flag
import Worksheet.Family
import Worksheet.Table.Basic

namespace Worksheet.CommandLine

structure Arguments where
  family : Family
  source : String
  preset : Option TablePreset
  json : Bool
  encoding : String
  quiet : Bool
  deriving DecidableEq, Repr

inductive Stop where
  | help
  | usage
  | noSource
  deriving DecidableEq, Repr

structure Reading where
  family : Option Family
  source : Option String
  preset : Option TablePreset
  json : Bool
  encoding : String
  quiet : Bool
  surplus : Bool
  placed : Bool
  attached : Bool
  emptied : Bool
  deriving DecidableEq, Repr

namespace Reading

def start : Reading := ⟨none, none, none, false, "utf-8", false, false, false, false, false⟩

def isComplete (r : Reading) : Bool := r.family.isSome && r.source.isSome

def place (r : Reading) (s : String) : Except Stop Reading :=
  let next := { r with placed := true, attached := false }
  if r.isComplete then .ok { r with surplus := true, placed := false, attached := false }
  else match r.family with
    | none =>
        match Family.ofName? s with
        | some f => .ok { next with family := some f }
        | none => .error .usage
    | some _ => .ok { next with source := some s, emptied := s = "--" && !r.attached }

def divide (r : Reading) (rest : List Word) : Reading :=
  match rest with
  | .plain _ :: _ =>
      { r with
        surplus := r.surplus || (!r.placed && r.isComplete)
        placed := false
        attached := !r.placed }
  | _ => { r with surplus := r.surplus || !r.placed, placed := false }

def raise (r : Reading) (flag : Flag) : Except Stop Reading :=
  match flag with
  | .help => .error .help
  | .json => .ok { r with json := true, placed := false }
  | .quiet => .ok { r with quiet := true, placed := false }
  | .preset | .encoding => .error .usage

def raiseWith (r : Reading) (flag : Flag) (value : String) : Except Stop Reading :=
  match flag with
  | .encoding => .ok { r with encoding := value, placed := false }
  | .preset =>
      match TablePreset.ofName? value with
      | some p => .ok { r with preset := some p, placed := false }
      | none => .error .usage
  | _ => .error .usage

def letterFlag? (c : Char) : Option Flag := spellings.lookup (String.ofList ['-', c])

def letterFlags : List Char → Except Stop (List Flag × Bool)
  | [] => .ok ([], false)
  | c :: rest =>
      match letterFlag? c, rest with
      | none, _ => .ok ([], true)
      | some _, '=' :: _ | some _, '-' :: _ => .error .usage
      | some flag, rest => (letterFlags rest).map (fun (flags, more) => (flag :: flags, more))

def raiseLetters (r : Reading) (cs : List Char) : Except Stop Reading := do
  let (flags, more) ← letterFlags cs
  let r ← flags.foldlM raise r
  return { r with surplus := r.surplus || more }

def read (r : Reading) : List Word → Except Stop Reading
  | [] => .ok r
  | .plain s :: rest => do read (← r.place s) rest
  | .divider :: rest => read (r.divide rest) rest
  | .unknown :: rest => read { r with surplus := true, placed := false } rest
  | .letters cs :: rest => do read (← r.raiseLetters cs) rest
  | .long flag (some value) :: rest => do read (← r.raiseWith flag value) rest
  | .long flag none :: rest =>
      if flag.takesValue then
        match rest with
        | .plain value :: rest => do read (← r.raiseWith flag value) rest
        | _ => .error .usage
      else do read (← r.raise flag) rest

def finish (r : Reading) : Except Stop Arguments :=
  match r.family, r.source, r.surplus with
  | some family, some source, false =>
      if r.emptied then .error .noSource
      else .ok ⟨family, source, r.preset, r.json, r.encoding, r.quiet⟩
  | _, _, _ => .error .usage

end Reading

def arguments (words : List String) : Except Stop Arguments :=
  match wordsOf? words with
  | none => .error .usage
  | some words => do (← Reading.start.read words).finish

end Worksheet.CommandLine
