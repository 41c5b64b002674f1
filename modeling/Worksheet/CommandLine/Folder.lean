import Worksheet.Path
import Worksheet.Text.Quoted

namespace Worksheet.CommandLine

structure OpenFault where
  number : Nat
  description : String
  deriving DecidableEq, Repr

namespace OpenFault

def notFound : OpenFault := ⟨2, "No such file or directory"⟩

def denied : OpenFault := ⟨13, "Permission denied"⟩

def notFolder : OpenFault := ⟨20, "Not a directory"⟩

def isFolder : OpenFault := ⟨21, "Is a directory"⟩

def longName : OpenFault := ⟨36, "File name too long"⟩

def message (f : OpenFault) (path : Path) : String :=
  let number := f.number
  let description := f.description
  let shown := Text.quoted path.text
  s!"[Errno {number}] {description}: {shown}"

end OpenFault

abbrev Folder := List (String × List UInt8)

namespace Folder

def follow (folder : Folder) : List String → Except OpenFault (List UInt8)
  | [] => .error .isFolder
  | step :: rest =>
      if step = ".." then (if rest.all (· = "..") then .error .isFolder else .error .notFound)
      else if Path.isLongName step then .error .longName
      else match folder.lookup step, rest with
        | none, _ => .error .notFound
        | some bytes, [] => .ok bytes
        | some _, _ => .error .notFolder

def followFromRoot : List String → Except OpenFault (List UInt8)
  | [] => .error .isFolder
  | ["dev", "null"] => .ok []
  | [step] => if step = ".." ∨ step ∈ Path.systemFolders then .error .isFolder
      else if Path.isLongName step then .error .longName
      else .error .notFound
  | step :: _ => if Path.isLongName step then .error .longName else .error .notFound

def openPath (folder : Folder) (path : Path) : Except OpenFault (List UInt8) :=
  if 4096 ≤ path.text.utf8ByteSize then .error .longName
  else if path.root = "" then folder.follow path.steps
  else followFromRoot path.steps

end Folder

end Worksheet.CommandLine
