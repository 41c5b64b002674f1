import Worksheet.CommandLine.Report

namespace Worksheet.CommandLine

def usage : String :=
  "usage: worksheet [-h] [--preset NAME] [--json] [--encoding NAME] [-q] family source\n"

def openFaultOf : IO.Error → OpenFault
  | .inappropriateType _ code _ => if code = 20 then .notFolder else .isFolder
  | .permissionDenied .. => .denied
  | _ => .notFound

def openFile (path : Path) : IO (Except OpenFault (List UInt8)) := do
  try
    return .ok (← IO.FS.readBinFile path.text).toList
  catch e => return .error (openFaultOf e)

def finish (outcome : Outcome) : IO UInt32 := do
  IO.print outcome.output
  IO.eprint outcome.errors
  return UInt32.ofNat outcome.status

def start (words : List String) : IO UInt32 := do
  match arguments words with
  | .error .help => finish ⟨0, usage, ""⟩
  | .error _ => finish ⟨2, "", usage⟩
  | .ok a =>
      let opened ← openFile (Path.ofText a.source)
      match (refusal? a).elim (report a opened) .error with
      | .ok outcome => finish outcome
      | .error abort => finish ⟨1, "", abort.message ++ "\n"⟩

end Worksheet.CommandLine

def main (words : List String) : IO UInt32 := Worksheet.CommandLine.start words
