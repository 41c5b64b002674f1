import Worksheet.Exercise.Shape
import Worksheet.Grade.Record
import Worksheet.Http.Handler
import Worksheet.Http.Preflight
import Worksheet.Service.Content

namespace Worksheet.Http

open Log (Entry Logged)
open Service (Settings)

def describe (s : Settings) : Value :=
  .map [("name", .str s.name), ("version", .str s.version), ("environment", .str s.environment),
    ("endpoints", .map [("families", .str "/families"),
      ("parse", .str "/families/\x7bfamily\x7d/parse"),
      ("validate", .str "/families/\x7bfamily\x7d/validate"),
      ("grade", .str "/families/\x7bfamily\x7d/grade"), ("health", .str "/health")])]

def healthRecord (s : Settings) : Value :=
  .map [("status", .str "healthy"), ("version", .str s.version)]

def familyRecord (i : Service.FamilyInfo) : Value :=
  .map [("name", .str i.family.name), ("presets", .list (i.presets.map (fun p => .str p.name))),
    ("endpoints", .map (i.endpoints.map (fun (action, path) => (action, .str path))))]

def draftRecord (d : Draft) : Value :=
  .map [("ok", .bool d.ok), ("data", d.exercise.toValue),
    ("errors", .map (Service.problemValues d.errors))]

def validationRecord (v : Validation) : Value :=
  .map [("ok", .bool v.ok), ("errors", .map (Service.problemValues v.errors))]

-- The entries that the service itself writes go to a log of its own.
def answerCall (show_ : α → Value) (call : Service.Call α) : Except Raised Answer :=
  match call.result with
  | .ok x => .ok ⟨200, .json (show_ x).madeFinite⟩
  | .error (.failure f) => .error (.failure f)
  | .error (.refusal r) => .error (.unforeseen r.message)

def perform (s : Settings) (family : String) (action : Action) (p : Payload) :
    Except Raised Answer :=
  let service : Service.ContentService := ⟨s.defaultPreset⟩
  let preset := Service.presetValue p.preset
  match action with
  | .parse => answerCall draftRecord (service.parse (.str family) p.text)
  | .validate => answerCall validationRecord (service.validate (.str family) p.text preset)
  | .grade =>
      answerCall (fun g => g.record.toValue)
        (service.grade (.str family) p.text p.response preset)

def answerRoute (w : Framework) (s : Settings) (r : Request) : Route → Except Raised Answer
  | .page p => .ok ⟨200, w.page p⟩
  | .root => .ok ⟨200, .json (describe s)⟩
  | .health => .ok ⟨200, .json (healthRecord s)⟩
  | .families => .ok ⟨200, .json (.list (Service.families.map familyRecord))⟩
  | .action family action =>
      match readBody w s.longest action r with
      | .ok p => perform s family action p
      | .error fault => .error fault.raised

def respond (w : Framework) (s : Settings) (r : Request) (path : List Char) :
    Except Raised Answer :=
  match Route.find? path with
  | none => .error (.ofStatus 404)
  | some (_, route) =>
      if r.verb ∈ route.methods then answerRoute w s r route else .error (.ofStatus 405)

def caught (w : Framework) (debug : Bool) (path : String) :
    Except Raised Answer → Logged (Except Raised Answer)
  | .ok a => .of (.ok a)
  | .error raised =>
      match handlerFor? raised.kind with
      | some handler => handler.run w debug path raised
      | none => .of (.error raised)

def asksForPage (r : Request) : Bool :=
  let accepted := ((r.header? "accept").getD "").toList
  (List.range accepted.length).any (fun i => "text/html".toList.isPrefixOf (accepted.drop i))

def traced (w : Framework) (r : Request) (raised : Raised) : Answer :=
  ⟨500, if asksForPage r then .html (w.tracePage raised.text) else .text (w.trace raised.text)⟩

def unhandled : Answer := ⟨500, .text "Internal Server Error"⟩

def escaped (w : Framework) (debug : Bool) (r : Request) (path : String) (raised : Raised) :
    Logged Answer :=
  if debug then .of (traced w r raised)
  else match registered.lookup .any with
    | none => .of unhandled
    | some handler =>
        let answered := handler.run w debug path raised
        match answered.result with
        | .ok a => ⟨answered.entries, a⟩
        | .error _ => ⟨answered.entries, unhandled⟩

def handled (w : Framework) (s : Settings) (r : Request) (path : List Char) :
    Logged (Except Raised Answer) :=
  caught w s.debug (shownPath (Route.answeredPath path)) (respond w s r path)

def answerAt (w : Framework) (s : Settings) (r : Request) (path : List Char) : Logged Answer :=
  match r.preflight? with
  | some p => .of (p.answer s)
  | none =>
      let reached := handled w s r path
      match reached.result with
      | .ok a => ⟨reached.entries, a⟩
      | .error raised =>
          (escaped w s.debug r (shownPath (Route.answeredPath path)) raised).after reached.entries

def answer (w : Framework) (s : Settings) (r : Request) : Except TargetFault (Logged Answer) :=
  (pathOf r.target).map (answerAt w s r)

def startEntry (s : Settings) : Entry :=
  ⟨.info, "Content API starting",
    [("environment", .str s.environment), ("default_table_preset", .str s.defaultPreset.name)]⟩

def stopEntry : Entry := ⟨.info, "Content API stopped", []⟩

end Worksheet.Http
