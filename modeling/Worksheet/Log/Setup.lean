import Worksheet.Log.Basic
import Worksheet.Path
import Worksheet.Text.Quoted

namespace Worksheet.Log

inductive Layout where
  | json
  | text
  deriving DecidableEq, Repr

def Layout.name : Layout → String
  | json => "json"
  | text => "text"

def Layout.ofName? (name : String) : Option Layout := [json, text].find? (·.name == name)

def capital (c : Char) : Char :=
  if c = 'ı' then 'I' else if c = 'ſ' then 'S' else c.toUpper

def levelNumbers : List (String × Nat) :=
  [("CRITICAL", 50), ("FATAL", 50), ("ERROR", 40), ("WARNING", 30), ("WARN", 30), ("INFO", 20),
    ("DEBUG", 10), ("NOTSET", 0)]

def layoutName : String × String := ("BASIC_FORMAT", "%(levelname)s:%(name)s:%(message)s")

def stylesName : String := "_STYLES"

def stylesText : String :=
  "\x7b'%': (<class 'logging.PercentStyle'>, '%(levelname)s:%(name)s:%(message)s'), " ++
  "'\x7b': (<class 'logging.StrFormatStyle'>, '\x7blevelname\x7d:\x7bname\x7d:\x7bmessage\x7d'), " ++
  "'$': (<class 'logging.StringTemplateStyle'>, " ++
  "'$\x7blevelname\x7d:$\x7bname\x7d:$\x7bmessage\x7d')\x7d"

def levelNumber (capitals : String) : Nat :=
  (levelNumbers.lookup capitals).getD Level.info.number

def levelTitle (name : String) : String :=
  match levelNumbers.lookup name with
  | some n => (levelNumbers.find? (·.2 = n)).elim name (·.1)
  | none => name

inductive Sink where
  | console
  | file
  deriving DecidableEq, Repr

structure Setup where
  level : Nat
  layout : Layout
  sinks : List Sink
  deriving DecidableEq, Repr

def quietLoggers : List String := ["uvicorn.access", "uvicorn.error"]

def orDefault (default : String) (given : Option String) : String :=
  match given with
  | none | some "" => default
  | some s => s

inductive SetupFault where
  | folder
  | longName
  | nullByte
  | noLevel (given : String)
  | noNumber (given : String)
  deriving DecidableEq, Repr

def SetupFault.message : SetupFault → String
  | folder => "Is a directory"
  | longName => "File name too long"
  | nullByte => "embedded null byte"
  | noLevel given =>
      let given := Text.quoted given
      s!"Unknown level: {given}"
  | noNumber given => s!"Level not an integer or a valid string: {given}"

def checkFile (path : Path) : Except SetupFault Sink :=
  if path.hasNull then .error .nullByte
  else if path.isTooLong then .error .longName
  else if path.namesFolder then .error .folder
  else .ok .file

def setup (level layout : String) (file : Option String) : Except SetupFault Setup := do
  let sinks ← ((file.filter (· ≠ "")).map Path.ofText).toList.mapM checkFile
  let level := String.ofList (level.toList.map capital)
  if level = layoutName.1 then .error (.noLevel layoutName.2)
  else if level = stylesName then .error (.noNumber stylesText)
  else return ⟨levelNumber level, (Layout.ofName? layout).getD .text, .console :: sinks⟩

end Worksheet.Log
