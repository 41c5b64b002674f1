import Worksheet.Http.Answer
import Worksheet.Http.Request
import Worksheet.Service.Settings

namespace Worksheet.Http

open Service (Settings)

structure Preflight where
  origin : String
  method : String
  headers : Option String
  deriving DecidableEq, Repr

def Request.preflight? (r : Request) : Option Preflight :=
  match r.header? "origin", r.header? "access-control-request-method" with
  | some origin, some method =>
      if r.verb = "OPTIONS" then
        some ⟨origin, method, r.header? "access-control-request-headers"⟩
      else none
  | _, _ => none

def everyMethod : List String := ["DELETE", "GET", "HEAD", "OPTIONS", "PATCH", "POST", "PUT"]

def safeHeaders : List String := ["Accept", "Accept-Language", "Content-Language", "Content-Type"]

namespace Preflight

def admitsOrigin (s : Settings) (p : Preflight) : Bool := "*" ∈ s.origins || p.origin ∈ s.origins

def admitsMethod (s : Settings) (p : Preflight) : Bool :=
  p.method ∈ (if "*" ∈ s.allowMethods then everyMethod else s.allowMethods)

def admitsHeaders (s : Settings) (p : Preflight) : Bool :=
  let admitted := (safeHeaders ++ s.allowHeaders).map (fun name => Chars.lower name.toList)
  let asked := pieces (· == ',') (p.headers.getD "").toList
  "*" ∈ s.allowHeaders || p.headers.isNone ||
    asked.all (fun name => Chars.trim (Chars.lower name) ∈ admitted)

def refusals (s : Settings) (p : Preflight) : List String :=
  (if p.admitsOrigin s then [] else ["origin"]) ++
    (if p.admitsMethod s then [] else ["method"]) ++
    (if p.admitsHeaders s then [] else ["headers"])

def answer (s : Settings) (p : Preflight) : Answer :=
  if p.refusals s = [] then ⟨200, .text "OK"⟩
  else ⟨400, .text ("Disallowed CORS " ++ ", ".intercalate (p.refusals s))⟩

end Preflight

end Worksheet.Http
