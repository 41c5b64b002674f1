import Worksheet.Http.Payload
import Worksheet.Http.Status
import Worksheet.Service.Failure

namespace Worksheet.Http

open Log (Entry Logged)

inductive Raised where
  | failure (f : Service.Failure)
  | refusal (status : Int) (detail : Value)
  | status (status : Int) (detail : Value)
  | invalidRequest (faults : List Shape.Fault) (body : Body)
  | unforeseen (text : String)
  deriving Repr

inductive Kind where
  | familyNotFound
  | invalidContent
  | responseFormat
  | grading
  | general
  | refusal
  | status
  | invalidRequest
  | validation
  | unforeseen
  | any
  deriving DecidableEq, Repr

def Kind.lineage : Kind → List Kind
  | familyNotFound => [familyNotFound, general, any]
  | invalidContent => [invalidContent, general, any]
  | responseFormat => [responseFormat, general, any]
  | grading => [grading, general, any]
  | general => [general, any]
  | refusal => [refusal, status, any]
  | status => [status, any]
  | invalidRequest => [invalidRequest, validation, any]
  | validation => [validation, any]
  | unforeseen => [unforeseen, any]
  | any => [any]

namespace Raised

def kind : Raised → Kind
  | failure (.familyNotFound _) => .familyNotFound
  | failure (.invalidContent _ _) => .invalidContent
  | failure (.responseFormat _ _) => .responseFormat
  | failure (.grading _ _) => .grading
  | failure (.general _ _ _) => .general
  | refusal _ _ => .refusal
  | status _ _ => .status
  | invalidRequest _ _ => .invalidRequest
  | unforeseen _ => .unforeseen

def text : Raised → String
  | failure f => f.message.text
  | refusal code detail | status code detail =>
      let detail := detail.text
      s!"{code}: {detail}"
  | invalidRequest faults _ => (Value.list (faults.map Shape.Fault.toValue)).text
  | unforeseen text => text

def ofStatus (code : Int) : Raised := status code (.str ((phrase? code).getD ""))

def refusal? (code : Int) (detail : Value) : Option Raised :=
  match detail with
  | .null => (phrase? code).map (fun phrase => refusal code (.str phrase))
  | detail => some (refusal code detail)

end Raised

def BodyFault.raised : BodyFault → Raised
  | malformed faults body => .invalidRequest faults body
  | unreadable => .status 400 (.str "There was an error parsing the body")

inductive Handler where
  | failure
  | refusal
  | faults
  | unforeseen
  | detail
  | detailedFaults
  deriving DecidableEq, Repr

def ownHandlers : List (Kind × Handler) :=
  [(.general, .failure), (.refusal, .refusal), (.invalidRequest, .faults), (.any, .unforeseen)]

def standardHandlers : List (Kind × Handler) :=
  [(.status, .detail), (.invalidRequest, .detailedFaults)]

def registered : List (Kind × Handler) := ownHandlers ++ standardHandlers

-- The handler for whatever is raised stands apart, in the outermost layer.
def handlerFor? (kind : Kind) : Option Handler :=
  kind.lineage.findSome? (fun k => if k = .any then none else registered.lookup k)

def sent (reply : Service.Reply) : Except Raised Answer :=
  match Service.unsendable? reply.body with
  | some text => .error (.unforeseen text)
  | none => .ok ⟨reply.status, .json reply.body⟩

-- The faults are told with what they are about, which decides whether they can be sent.
def sentFaults (subjects : List Value) (reply : Service.Reply) : Except Raised Answer :=
  match Service.unsendable? (.list subjects) with
  | some text => .error (.unforeseen text)
  | none => sent reply

def faultList (faults : List Shape.Fault) : Value := .list (faults.map Shape.Fault.toValue)

def faultsEntry (faults : List Shape.Fault) (path : String) : Entry :=
  ⟨.warning, "Request validation failed", [("path", .str path), ("errors", faultList faults)]⟩

def faultsReply (faults : List Shape.Fault) : Service.Reply :=
  ⟨422, Service.failureBody (.str "ValidationError") (.str "Request validation failed")
    (faultList faults)⟩

def answerFaults (w : Framework) (faults : List Shape.Fault) (body : Body) (path : String) :
    Logged (Except Raised Answer) :=
  match subjects w faults body with
  | .error text => .of (.error (.unforeseen text))
  | .ok subjects => ⟨[faultsEntry faults path], sentFaults subjects (faultsReply faults)⟩

namespace Handler

def run (w : Framework) (debug : Bool) (path : String) :
    Handler → Raised → Logged (Except Raised Answer)
  | failure, .failure f =>
      let answered := f.answer path
      ⟨answered.entries, sent answered.result⟩
  | refusal, .refusal code reason | refusal, .status code reason =>
      .of (sent ⟨code, Service.failureBody (.str "HTTPException") reason .null⟩)
  | faults, .invalidRequest found body => answerFaults w found body path
  | detail, .refusal code reason | detail, .status code reason =>
      .of (sent ⟨code, .map [("detail", reason)]⟩)
  | detailedFaults, .invalidRequest found body =>
      match subjects w found body with
      | .error text => .of (.error (.unforeseen text))
      | .ok subjects => .of (sentFaults subjects ⟨422, .map [("detail", faultList found)]⟩)
  | unforeseen, raised =>
      let answered := Service.answerUnforeseen raised.text debug path
      ⟨answered.entries, sent answered.result⟩
  | _, _ => .of (.error (.unforeseen "object has no attribute"))

end Handler

end Worksheet.Http
