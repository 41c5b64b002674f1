import Worksheet.Http.Target

namespace Worksheet.Http

inductive Action where
  | parse
  | validate
  | grade
  deriving DecidableEq, Repr

def Action.name : Action → String
  | parse => "parse"
  | validate => "validate"
  | grade => "grade"

def Action.ofName? (name : String) : Option Action :=
  [Action.parse, .validate, .grade].find? (·.name == name)

inductive Page where
  | schema
  | explorer
  | explorerReturn
  | reference
  deriving DecidableEq, Repr

inductive Route where
  | page (p : Page)
  | root
  | health
  | families
  | action (family : String) (action : Action)
  deriving DecidableEq, Repr

namespace Route

def methods : Route → List String
  | page _ => ["GET", "HEAD"]
  | action _ _ => ["POST"]
  | _ => ["GET"]

def dropFinalNewline (path : List Char) : List Char :=
  if path.getLast? = some '\n' then path.dropLast else path

def ofPath? (path : List Char) : Option Route :=
  match (pieces (· == '/') (dropFinalNewline path)).map String.ofList with
  | ["", "openapi.json"] => some (page .schema)
  | ["", "docs"] => some (page .explorer)
  | ["", "docs", "oauth2-redirect"] => some (page .explorerReturn)
  | ["", "redoc"] => some (page .reference)
  | ["", ""] => some root
  | ["", "health"] => some health
  | ["", "families"] => some families
  | ["", "families", family, name] =>
      if family = "" then none else (Action.ofName? name).map (action family)
  | _ => none

def dropFinalSlashes (path : List Char) : List Char := (path.reverse.dropWhile (· == '/')).reverse

-- The path that is answered, with its route. A path that leads nowhere but would without the
-- slashes at its end is asked for once more, without them.
def find? (path : List Char) : Option (List Char × Route) :=
  let shorter := dropFinalSlashes path
  match ofPath? path, ofPath? shorter with
  | some route, _ => some (path, route)
  | none, some _ =>
      let again := resolved (orRoot (withoutDots (beforeQuery shorter)))
      (ofPath? again).map (again, ·)
  | none, none => none

def answeredPath (path : List Char) : List Char := ((find? path).map (·.1)).getD path

end Route

end Worksheet.Http
