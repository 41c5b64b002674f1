import Worksheet.Log.Basic
import Worksheet.Value.Finite

namespace Worksheet.Service

open Log (Entry Level)

structure Reply where
  status : Int
  body : Value
  deriving Repr

def unwritable : String := "Out of range float values are not JSON compliant"

def untransmittable : String := "surrogates not allowed"

-- Numbers are looked at first, where the body is written; its texts where it is encoded.
def unsendable? (body : Value) : Option String :=
  if !body.isFinite then some unwritable
  else if !body.isWhole then some untransmittable
  else none

def failureBody (kind message details : Value) : Value :=
  .map [("error", .map ([("type", kind), ("message", message)] ++
    (if details.isGiven then [("details", details)] else [])))]

inductive Failure where
  | familyNotFound (family : Value)
  | invalidContent (family : Value) (errors : List (String × Value))
  | responseFormat (family reason : Value)
  | grading (family reason : Value)
  | general (message : Value) (status : Int) (details : Value)
  deriving Repr

namespace Failure

def kind : Failure → String
  | familyNotFound _ => "FamilyNotFoundError"
  | invalidContent _ _ => "ContentValidationError"
  | responseFormat _ _ => "ResponseFormatError"
  | grading _ _ => "GradingError"
  | general _ _ _ => "EduApiError"

def message : Failure → Value
  | familyNotFound family =>
      let family := family.text
      .str s!"Exercise family '{family}' not found"
  | invalidContent family errors =>
      let family := family.text
      let count := errors.length
      .str s!"Content for '{family}' has {count} error(s)"
  | responseFormat family _ =>
      let family := family.text
      .str s!"Learner response does not match the '{family}' response format"
  | grading family reason =>
      let family := family.text
      let reason := reason.text
      .str s!"Grading '{family}' failed: {reason}"
  | general message _ _ => message

def status : Failure → Int
  | familyNotFound _ => 404
  | invalidContent _ _ => 422
  | responseFormat _ _ => 422
  | grading _ _ => 500
  | general _ status _ => status

def details : Failure → Value
  | familyNotFound family => .map [("family", family)]
  | invalidContent family errors => .map [("family", family), ("errors", .map errors)]
  | responseFormat family reason | grading family reason =>
      .map [("family", family), ("reason", reason)]
  | general _ _ details => details

def body (f : Failure) : Value := failureBody (.str f.kind) f.message f.details

def level (f : Failure) : Level := if 500 ≤ f.status then .error else .warning

def entry (f : Failure) (path : String) : Entry :=
  ⟨f.level, f.message.text,
    [("path", .str path), ("error_type", .str f.kind), ("status_code", .int f.status)]⟩

def answer (f : Failure) (path : String) : Log.Logged Reply :=
  ⟨[f.entry path], ⟨f.status, f.body⟩⟩

end Failure

def answerUnforeseen (text : String) (debug : Bool) (path : String) : Log.Logged Reply :=
  ⟨[⟨.error, "Unhandled error", [("path", .str path)]⟩],
    ⟨500, failureBody (.str "InternalServerError")
      (.str (if debug then text else "An internal error occurred")) .null⟩⟩

end Worksheet.Service
