import Worksheet.CommandLine.Arguments
import Worksheet.CommandLine.Folder
import Worksheet.Encoding
import Worksheet.Exercise.Basic
import Worksheet.Json.Writing
import Worksheet.Text.Newline

namespace Worksheet.CommandLine

structure Outcome where
  status : Nat
  output : String
  errors : String
  deriving DecidableEq, Repr

inductive Abort where
  | unknownEncoding (name : String)
  | notText (name : String)
  | noByteOrder
  | nullInPath
  | nullInEncoding
  deriving DecidableEq, Repr

def Abort.message : Abort → String
  | unknownEncoding name => s!"unknown encoding: {name}"
  | notText name =>
      let name := Text.quoted name
      s!"{name} is not a text encoding; use codecs.open() to handle arbitrary codecs"
  | noByteOrder => Encoding.Failure.noByteOrder.message
  | nullInPath => "embedded null byte"
  | nullInEncoding => "embedded null character"

def validationRecord (v : Validation) : Value :=
  .map [("ok", .bool v.ok),
    ("errors", .map (v.errors.entries.map (fun (key, message) => (key, .str message))))]

def problemLine (source : String) (problem : String × String) : String :=
  let (key, message) := problem
  s!"{source}: {key}: {message}\n"

def render (a : Arguments) (v : Validation) : String :=
  let source := (Path.ofText a.source).text
  if a.quiet then ""
  else if a.json then Json.write .indented (validationRecord v) ++ "\n"
  else if v.ok then s!"{source}: ok\n"
  else String.join (v.errors.entries.map (problemLine source))

def checkText (a : Arguments) (text : String) : Outcome :=
  let v := Exercise.check a.family text (a.preset.getD .classification)
  ⟨if v.ok then 0 else 1, render a v, ""⟩

def failed (message : String) : Outcome := ⟨2, "", s!"Error: {message}\n"⟩

def checkBytes (a : Arguments) (bytes : List UInt8) : Except Abort Outcome :=
  match Encoding.ofName? a.encoding with
  | none => .error (if Encoding.isOtherCodec a.encoding then .notText a.encoding
      else .unknownEncoding a.encoding)
  | some encoding =>
      match encoding.decode bytes with
      | .ok cs => .ok (checkText a (.ofList (Chars.unifyNewlines cs)))
      | .error (.undecodable fault) => .ok (failed fault.message)
      | .error .noByteOrder => .error .noByteOrder

def report (a : Arguments) (opened : Except OpenFault (List UInt8)) : Except Abort Outcome :=
  match opened with
  | .error fault => .ok (failed (fault.message (Path.ofText a.source)))
  | .ok bytes => checkBytes a bytes

def refusal? (a : Arguments) : Option Abort :=
  if a.encoding.toList.contains '\x00' then some .nullInEncoding
  else if (Path.ofText a.source).hasNull then some .nullInPath
  else none

def checkIn (folder : Folder) (a : Arguments) : Except Abort Outcome :=
  match refusal? a with
  | some abort => .error abort
  | none => report a (folder.openPath (Path.ofText a.source))

end Worksheet.CommandLine
