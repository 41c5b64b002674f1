namespace Worksheet

structure Path where
  root : String
  steps : List String
  deriving DecidableEq, Repr

namespace Path

def rootOf (cs : List Char) : String :=
  match (cs.takeWhile (· == '/')).length with
  | 0 => ""
  | 2 => "//"
  | _ => "/"

def ofText (s : String) : Path :=
  let steps := (s.toList.splitBy (fun a b => (a == '/') == (b == '/'))).map String.ofList
  ⟨rootOf s.toList, steps.filter (fun step => step.toList.head? != some '/' && step != ".")⟩

def text (p : Path) : String :=
  if p.root = "" ∧ p.steps = [] then "." else p.root ++ "/".intercalate p.steps

def systemFolders : List String :=
  ["bin", "boot", "dev", "etc", "home", "lib", "media", "mnt", "opt", "proc", "root", "run", "sbin",
    "srv", "sys", "tmp", "usr", "var"]

def namesFolder (p : Path) : Bool :=
  match p.steps.getLast? with
  | none => true
  | some step => step == ".." || (p.root != "" && p.steps.length == 1 && step ∈ systemFolders)

def hasNull (p : Path) : Bool := p.steps.any (fun step => step.toList.contains '\x00')

def isLongName (step : String) : Bool := 255 < step.utf8ByteSize

def isTooLong (p : Path) : Bool := 4096 ≤ p.text.utf8ByteSize || p.steps.any isLongName

end Path

end Worksheet
