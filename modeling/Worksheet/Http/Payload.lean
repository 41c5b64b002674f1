import Worksheet.Http.Answer
import Worksheet.Http.Request
import Worksheet.Json.Octets
import Worksheet.Shape
import Worksheet.Table.Basic

namespace Worksheet.Http

structure Payload where
  text : String
  preset : Option TablePreset
  response : Value
  deriving Repr

inductive Body where
  | value (v : Value)
  | octets (bytes : List UInt8)
  deriving Repr

inductive BodyFault where
  | malformed (faults : List Shape.Fault) (body : Body)
  | unreadable
  deriving Repr

def limitedText (longest : Int) : Shape.Reader String := fun v => do
  let s ← Shape.string v
  if longest < s.length then
    Shape.fail (.refused s!"Content too long (max {longest} characters)")
  else return s

def payload (longest : Int) (action : Action) : Shape.Reader Payload
  | .map es =>
      (Shape.both (Shape.field es "text" none (limitedText longest))
        (Shape.both
          (if action = .parse then .ok none
            else Shape.field es "preset" (some none)
              (Shape.optional (Shape.choice TablePreset.ofName?)))
          (if action = .grade then Shape.field es "response" none Shape.anything
            else .ok .null))).map
        (fun (text, preset, response) => ⟨text, preset, response⟩)
  | _ => Shape.fail .notObject

def readsJson (w : Framework) (r : Request) : Bool :=
  match r.header? "content-type" with
  | none | some "" => w.readsUntyped
  | some contentType => namesJson contentType

def readBody (w : Framework) (longest : Int) (action : Action) (r : Request) :
    Except BodyFault Payload :=
  let inBody (found : Shape.Result Payload) (body : Body) :=
    (Shape.below (.key "body") found).mapError (BodyFault.malformed · body)
  if r.body.isEmpty then inBody (Shape.fail .missing) (.value .null)
  else if readsJson w r then
    match Json.readOctets r.body with
    | .ok v => inBody (payload longest action v) (.value v)
    | .error (.unexpected offset) =>
        inBody (Shape.below (.index offset) (Shape.fail .malformedJson)) (.value .null)
    | .error _ => .error .unreadable
  else inBody (Shape.fail .notObject) (.octets r.body)

def subjectOf (body : Value) (f : Shape.Fault) : Value :=
  match f.kind, f.place with
  | .missing, _ => body
  | _, [_, .key name] => (body.find? name).getD .null
  | _, _ => body

def subjects (w : Framework) (faults : List Shape.Fault) : Body → Except String (List Value)
  | .value v =>
      let about := faults.map (subjectOf v)
      match w.tooDeep about with
      | some text => .error text
      | none => .ok about
  | .octets bytes =>
      match Encoding.Utf8.decode bytes with
      | .ok cs => .ok (faults.map (fun _ => .str (.ofList cs)))
      | .error fault => .error fault.message

end Worksheet.Http
