import Worksheet.Calendar
import Worksheet.Json.Writing
import Worksheet.Log.Template
import Worksheet.OrderedMap

namespace Worksheet.Log

structure Place where
  module : String
  function : String
  line : Int
  deriving DecidableEq, Repr

structure Cause where
  kind : String
  text : String
  deriving DecidableEq, Repr

def Cause.describe (c : Cause) : String := if c.text = "" then c.kind else c.kind ++ ": " ++ c.text

structure Record where
  created : Quantity
  level : String
  logger : String
  template : String
  values : List Value
  place : Place
  fields : OrderedMap Value
  cause : Option Cause
  deriving Repr

inductive LineFault where
  | template (f : TemplateFault)
  | time (f : Calendar.Fault)
  deriving Repr

def LineFault.message : LineFault → String
  | template f => f.message
  | time f => f.message

def fieldsOver? (always fields : OrderedMap Value) : Option (OrderedMap Value) :=
  if always.contains "name" then none else some (always.merge fields)

namespace Record

def location (r : Record) : String :=
  r.place.module ++ ":" ++ r.place.function ++ ":" ++ toString r.place.line

def message (r : Record) : Except LineFault String :=
  (fill r.template r.values).mapError .template

def jsonEntries (r : Record) : Except LineFault (OrderedMap Value) := do
  let moment ← (Calendar.moment r.created).mapError .time
  let stamp ← (Calendar.stamp moment).mapError .time
  let message ← r.message
  let standard : OrderedMap Value := .ofList
    [("timestamp", .str stamp), ("level", .str r.level), ("logger", .str r.logger),
      ("message", .str message), ("location", .str r.location)]
  let merged := standard.merge r.fields
  return match r.cause with
    | some cause => merged.put "exception" (.str cause.describe)
    | none => merged

def jsonLine (r : Record) : Except LineFault String :=
  r.jsonEntries.map (fun entries => Json.write .compact (.map entries.entries))

def padRight (width : Nat) (s : String) : String :=
  s ++ String.ofList (List.replicate (width - s.length) ' ')

def withCause (cause : Option Cause) (message : String) : String :=
  match cause with
  | none => message
  | some cause =>
      message ++ (if message.toList.getLast? = some '\n' then "" else "\n") ++ cause.describe

def textLine (r : Record) : Except LineFault String := do
  let message ← r.message
  let second ← (Calendar.second r.created).mapError .time
  let time ← (Calendar.plain second).mapError .time
  let line := time ++ " " ++ padRight 8 r.level ++ " " ++ r.logger ++ ": " ++
    withCause r.cause message
  return if r.fields.isEmpty then line
    else line ++ " | " ++
      " ".intercalate (r.fields.entries.map (fun (key, v) => key ++ "=" ++ v.text))

end Record

end Worksheet.Log
