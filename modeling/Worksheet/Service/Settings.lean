import Worksheet.Json.Reading
import Worksheet.Log.Setup
import Worksheet.Shape.Scalars
import Worksheet.Table.Basic

namespace Worksheet.Service

structure Settings where
  name : String
  version : String
  debug : Bool
  environment : String
  host : String
  port : Int
  origins : List String
  allowCredentials : Bool
  allowMethods : List String
  allowHeaders : List String
  logLevel : String
  logLayout : Log.Layout
  logFile : Option String
  longest : Int
  defaultPreset : TablePreset
  deriving DecidableEq, Repr

namespace Settings

def default : Settings where
  name := "Edu Content API"
  version := "0.1.0"
  debug := false
  environment := "development"
  host := "0.0.0.0"
  port := 8000
  origins := ["http://localhost:3000", "http://localhost:5173"]
  allowCredentials := true
  allowMethods := ["*"]
  allowHeaders := ["*"]
  logLevel := "INFO"
  logLayout := .json
  logFile := none
  longest := 100000
  defaultPreset := .classification

inductive Fault where
  | notJson (name : String)
  | malformed (faults : List Shape.Fault)
  deriving Repr

def listNames : List String := ["CORS_ORIGINS", "CORS_ALLOW_METHODS", "CORS_ALLOW_HEADERS"]

def givenLists (texts : List (String × String)) :
    List String → Except Fault (List (String × Value))
  | [] => .ok []
  | name :: names =>
      match texts.lookup name with
      | none => givenLists texts names
      | some text =>
          match Json.read text.toList with
          | .error _ => .error (.notJson name)
          | .ok .null => givenLists texts names
          | .ok v => (givenLists texts names).map ((name, v) :: ·)

def given (texts : List (String × String)) : Except Fault (List (String × Value)) := do
  let lists ← givenLists texts listNames
  let others := texts.filter (·.1 ∉ listNames)
  return lists ++ others.map (fun (name, text) => (name, .str text))

def shape (es : List (String × Value)) : Shape.Result Settings :=
  let d := default
  let names := Shape.listOf Shape.string
  (Shape.both (Shape.field es "APP_NAME" (some d.name) Shape.string)
  (Shape.both (Shape.field es "APP_VERSION" (some d.version) Shape.string)
  (Shape.both (Shape.field es "DEBUG" (some d.debug) Shape.boolean)
  (Shape.both (Shape.field es "ENVIRONMENT" (some d.environment) Shape.string)
  (Shape.both (Shape.field es "API_HOST" (some d.host) Shape.string)
  (Shape.both (Shape.field es "API_PORT" (some d.port) Shape.integer)
  (Shape.both (Shape.field es "CORS_ORIGINS" (some d.origins) names)
  (Shape.both (Shape.field es "CORS_ALLOW_CREDENTIALS" (some d.allowCredentials) Shape.boolean)
  (Shape.both (Shape.field es "CORS_ALLOW_METHODS" (some d.allowMethods) names)
  (Shape.both (Shape.field es "CORS_ALLOW_HEADERS" (some d.allowHeaders) names)
  (Shape.both (Shape.field es "LOG_LEVEL" (some d.logLevel) Shape.string)
  (Shape.both (Shape.field es "LOG_FORMAT" (some d.logLayout) (Shape.literal Log.Layout.ofName?))
  (Shape.both (Shape.field es "LOG_FILE" (some d.logFile) (Shape.optional Shape.string))
  (Shape.both (Shape.field es "MAX_CONTENT_LENGTH" (some d.longest) Shape.positive)
  (Shape.field es "DEFAULT_TABLE_PRESET" (some d.defaultPreset)
    (Shape.literal TablePreset.ofName?)))))))))))))))).map
    (fun (name, version, debug, environment, host, port, origins, allowCredentials, allowMethods,
        allowHeaders, logLevel, logLayout, logFile, longest, defaultPreset) =>
      ⟨name, version, debug, environment, host, port, origins, allowCredentials, allowMethods,
        allowHeaders, logLevel, logLayout, logFile, longest, defaultPreset⟩)

def ofTexts (texts : List (String × String)) : Except Fault Settings := do
  (shape (← given texts)).mapError .malformed

end Settings

end Worksheet.Service
