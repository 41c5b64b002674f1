import Worksheet.Http.Application
import Worksheet.Proofs.Service.Sending

namespace Worksheet.Http

open Log (Logged)
open Service (Settings Answerable)

def errorBody (kind : String) (message : Value) (details : Option Value) : Value :=
  .map [("error", .map ([("type", .str kind), ("message", message)] ++
    details.toList.map (("details", ·))))]

def IsErrorBody (content : Content) : Prop :=
  ∃ kind message details, content = .json (errorBody kind message details)

theorem isErrorBody_failureBody (kind : String) (message details : Value) :
    IsErrorBody (.json (Service.failureBody (.str kind) message details)) := by
  refine ⟨kind, message, if details.isGiven then some details else none, ?_⟩
  rw [Service.failureBody, errorBody]
  split <;> rfl

section Handlers

theorem handlerFor?_failure (f : Service.Failure) :
    handlerFor? (Raised.failure f).kind = some .failure := by
  cases f <;> rfl

theorem sent_of_isSendable {reply : Service.Reply} (h : reply.body.IsSendable) :
    sent reply = .ok ⟨reply.status, .json reply.body⟩ := by
  rw [sent, Service.unsendable?_eq_none_iff.mpr h]

variable (w : Framework) (debug : Bool) (path : String)

theorem result_caught_failure {f : Service.Failure} (h : f.body.IsSendable) :
    (caught w debug path (.error (.failure f))).result = .ok ⟨f.status, .json f.body⟩ := by
  rw [caught]
  simp only [handlerFor?_failure]
  exact sent_of_isSendable h

theorem result_caught_status (code : Int) (detail : String) :
    (caught w debug path (.error (.status code (.str detail)))).result =
      .ok ⟨code, .json (.map [("detail", .str detail)])⟩ := by
  change sent ⟨code, .map [("detail", .str detail)]⟩ = _
  exact sent_of_isSendable (Value.isSendable_map_str [("detail", detail)])

-- Why faults cannot be told: the body is no text or nested too deeply, or what they are about
-- cannot be sent.
def Untellable (w : Framework) (faults : List Shape.Fault) (body : Body) (text : String) : Prop :=
  subjects w faults body = .error text ∨
    ∃ about, subjects w faults body = .ok about ∧ Service.unsendable? (.list about) = some text

theorem result_caught_of_untellable {faults : List Shape.Fault} {body : Body} {text : String}
    (h : Untellable w faults body text) :
    (caught w debug path (.error (.invalidRequest faults body))).result =
      .error (.unforeseen text) := by
  change (answerFaults w faults body path).result = _
  rcases h with hsubjects | ⟨about, hsubjects, htext⟩
  · rw [answerFaults, hsubjects]
    rfl
  · simp only [answerFaults, hsubjects, sentFaults, htext]

theorem isSendable_body_faultsReply (faults : List Shape.Fault) :
    (faultsReply faults).body.IsSendable :=
  Service.isSendable_failureBody (Value.isSendable_str _) (Value.isSendable_str _)
    (Shape.isSendable_faults faults)

theorem result_caught_of_tellable {faults : List Shape.Fault} {body : Body}
    (h : ∀ text, ¬ Untellable w faults body text) :
    (caught w debug path (.error (.invalidRequest faults body))).result =
      .ok ⟨422, .json (faultsReply faults).body⟩ := by
  obtain ⟨about, hsubjects⟩ : ∃ about, subjects w faults body = .ok about := by
    cases hsubjects : subjects w faults body with
    | error text => exact absurd (Or.inl hsubjects) (h text)
    | ok about => exact ⟨about, rfl⟩
  have habout : Service.unsendable? (.list about) = none := by
    rw [Option.eq_none_iff_forall_ne_some]
    exact fun text htext => h text (Or.inr ⟨about, hsubjects, htext⟩)
  change (answerFaults w faults body path).result = _
  simp only [answerFaults, hsubjects, sentFaults, habout]
  exact sent_of_isSendable (isSendable_body_faultsReply faults)

end Handlers

section Routing

variable (w : Framework) (s : Settings) {r : Request} {path : List Char}

def Request.Routed (r : Request) (path : List Char) : Prop :=
  ∃ found, Route.find? path = some found ∧ r.verb ∈ found.2.methods

def Request.Faulty (w : Framework) (s : Settings) (r : Request) (path : List Char)
    (fault : BodyFault) : Prop :=
  ∃ shown family action, Route.find? path = some (shown, .action family action) ∧
    r.verb = "POST" ∧ readBody w s.longest action r = .error fault

theorem mapError_ne_unreadable (found : Shape.Result Payload) (body : Body) :
    found.mapError (BodyFault.malformed · body) ≠ .error .unreadable := by
  cases found <;> exact fun h => nomatch h

theorem readBody_eq_unreadable_iff {longest : Int} {action : Action} :
    readBody w longest action r = .error .unreadable ↔
      r.body ≠ [] ∧ readsJson w r = true ∧
        ∃ fault, Json.readOctets r.body = .error fault ∧ ∀ offset, fault ≠ .unexpected offset := by
  rw [readBody]
  cases hempty : r.body.isEmpty with
  | true => simp [mapError_ne_unreadable, List.isEmpty_iff.mp hempty]
  | false =>
      have hne : r.body ≠ [] := by simpa using hempty
      cases hjson : readsJson w r with
      | false => simp [mapError_ne_unreadable]
      | true =>
          cases hread : Json.readOctets r.body with
          | ok v => simp [mapError_ne_unreadable]
          | error fault => cases fault <;> simp [mapError_ne_unreadable, hne]

theorem respond_of_not_routed (h : ¬ r.Routed path) :
    respond w s r path =
      .error (.ofStatus (if (Route.find? path).isSome then 405 else 404)) := by
  rw [respond]
  cases hfind : Route.find? path with
  | none => rfl
  | some found =>
      have hmethod : ¬ r.verb ∈ found.2.methods := fun hmem => h ⟨found, hfind, hmem⟩
      exact if_neg hmethod

theorem respond_of_found {found : List Char × Route} (hfind : Route.find? path = some found)
    (hmethod : r.verb ∈ found.2.methods) : respond w s r path = answerRoute w s r found.2 := by
  rw [respond, hfind]
  exact if_pos hmethod

theorem respond_of_faulty {fault : BodyFault} (h : r.Faulty w s path fault) :
    respond w s r path = .error fault.raised := by
  obtain ⟨shown, family, action, hfind, hmethod, hbody⟩ := h
  rw [respond_of_found w s hfind (by rw [hmethod]; exact List.mem_singleton_self _), answerRoute,
    hbody]

def Settled : Except Raised Answer → Prop
  | .ok a => a.status = 200
  | .error raised => ∃ f, raised = .failure f ∧ f.body.IsSendable

theorem settled_answerCall {show_ : α → Value} {call : Service.Call α}
    (h : ∀ e, call.result = .error e → Answerable e) : Settled (answerCall show_ call) := by
  rw [answerCall]
  match hresult : call.result with
  | .ok x => exact rfl
  | .error (.failure f) =>
      obtain ⟨g, hg, hbody⟩ := h _ hresult
      cases hg
      exact ⟨_, rfl, hbody⟩
  | .error (.refusal refused) =>
      obtain ⟨g, hg, -⟩ := h _ hresult
      cases hg

theorem settled_perform (family : String) (action : Action) (p : Payload) :
    Settled (perform s family action p) := by
  cases action with
  | parse => exact settled_answerCall (fun _ h => Service.ContentService.answerable_parse h)
  | validate => exact settled_answerCall (fun _ h => Service.ContentService.answerable_validate h)
  | grade => exact settled_answerCall (fun _ h => Service.ContentService.answerable_grade h)

theorem respond_cases (h : r.Routed path) :
    (∃ fault, r.Faulty w s path fault) ∨ Settled (respond w s r path) := by
  obtain ⟨⟨shown, route⟩, hfind, hmethod⟩ := h
  have hrespond := respond_of_found w s hfind hmethod
  cases route with
  | page p => exact Or.inr (hrespond ▸ rfl)
  | root => exact Or.inr (hrespond ▸ rfl)
  | health => exact Or.inr (hrespond ▸ rfl)
  | families => exact Or.inr (hrespond ▸ rfl)
  | action family action =>
      cases hbody : readBody w s.longest action r with
      | error fault =>
          exact Or.inl ⟨fault, shown, family, action, hfind, List.mem_singleton.mp hmethod, hbody⟩
      | ok p =>
          rw [answerRoute, hbody] at hrespond
          exact Or.inr (hrespond ▸ settled_perform s family action p)

end Routing

section Layers

variable {w : Framework} {s : Settings} {r : Request} {path : List Char}

theorem result_answerAt_of_handled (hp : r.preflight? = none) {a : Answer}
    (h : (handled w s r path).result = .ok a) : (answerAt w s r path).result = a := by
  simp only [answerAt, hp, h]

theorem result_answerAt_of_escaped (hp : r.preflight? = none) {raised : Raised}
    (h : (handled w s r path).result = .error raised) :
    (answerAt w s r path).result =
      (escaped w s.debug r (shownPath (Route.answeredPath path)) raised).result := by
  simp only [answerAt, hp, h]
  rfl

theorem result_escaped (path : String) (raised : Raised) :
    (escaped w false r path raised).result =
      ⟨500, .json (Service.failureBody (.str "InternalServerError")
        (.str "An internal error occurred") .null)⟩ := rfl

theorem result_answerAt_of_traced (hp : r.preflight? = none) (hdebug : s.debug = true)
    {text : String} (h : (handled w s r path).result = .error (.unforeseen text)) :
    (answerAt w s r path).result = traced w r (.unforeseen text) := by
  rw [result_answerAt_of_escaped hp h, hdebug]
  rfl

theorem isErrorBody_answerAt_of_unforeseen (hp : r.preflight? = none) (hdebug : s.debug = false)
    {raised : Raised} (h : (handled w s r path).result = .error raised) :
    IsErrorBody (answerAt w s r path).result.content := by
  rw [result_answerAt_of_escaped hp h, hdebug, result_escaped]
  exact isErrorBody_failureBody _ _ _

end Layers

inductive Unshaped (w : Framework) (s : Settings) (r : Request) (path : List Char) : Answer → Prop
  | refused {p : Preflight} (hp : r.preflight? = some p) (hrefusals : p.refusals s ≠ []) :
      Unshaped w s r path ⟨400, .text ("Disallowed CORS " ++ ", ".intercalate (p.refusals s))⟩
  | unrouted (hp : r.preflight? = none) (hroute : Route.find? path = none) :
      Unshaped w s r path ⟨404, .json (.map [("detail", .str "Not Found")])⟩
  | otherMethod (hp : r.preflight? = none) {found : List Char × Route}
      (hroute : Route.find? path = some found) (hmethod : r.verb ∉ found.2.methods) :
      Unshaped w s r path ⟨405, .json (.map [("detail", .str "Method Not Allowed")])⟩
  | unreadable (hp : r.preflight? = none) (hbody : r.Faulty w s path .unreadable) :
      Unshaped w s r path ⟨400, .json (.map [("detail", .str "There was an error parsing the body")])⟩
  | traced (hp : r.preflight? = none) (hdebug : s.debug = true) {faults : List Shape.Fault}
      {body : Body} {text : String} (hbody : r.Faulty w s path (.malformed faults body))
      (htext : Untellable w faults body text) :
      Unshaped w s r path
        ⟨500, if asksForPage r then .html (w.tracePage text) else .text (w.trace text)⟩

section Shapes

variable {w : Framework} {s : Settings} {r : Request} {path : List Char}

theorem result_answerAt_of_not_routed (hp : r.preflight? = none) (h : ¬ r.Routed path) :
    (answerAt w s r path).result =
      if (Route.find? path).isSome then ⟨405, .json (.map [("detail", .str "Method Not Allowed")])⟩
      else ⟨404, .json (.map [("detail", .str "Not Found")])⟩ := by
  apply result_answerAt_of_handled hp
  rw [handled, respond_of_not_routed w s h]
  split
  · exact result_caught_status _ _ _ 405 "Method Not Allowed"
  · exact result_caught_status _ _ _ 404 "Not Found"

theorem result_answerAt_of_unshaped {a : Answer} (h : Unshaped w s r path a) :
    (answerAt w s r path).result = a := by
  cases h with
  | refused hp hrefusals =>
      rw [answerAt, hp]
      exact if_neg hrefusals
  | unrouted hp hroute =>
      have hnot : ¬ r.Routed path := by
        rintro ⟨found, hfind, -⟩
        exact absurd (hroute.symm.trans hfind) nofun
      rw [result_answerAt_of_not_routed hp hnot, hroute]
      rfl
  | otherMethod hp hroute hmethod =>
      have hnot : ¬ r.Routed path := by
        rintro ⟨found, hfind, hmem⟩
        cases hroute.symm.trans hfind
        exact hmethod hmem
      rw [result_answerAt_of_not_routed hp hnot, hroute]
      rfl
  | unreadable hp hbody =>
      apply result_answerAt_of_handled hp
      rw [handled, respond_of_faulty w s hbody]
      exact result_caught_status _ _ _ 400 "There was an error parsing the body"
  | traced hp hdebug hbody htext =>
      apply result_answerAt_of_traced hp hdebug
      rw [handled, respond_of_faulty w s hbody]
      exact result_caught_of_untellable _ _ _ htext

theorem unshaped_of_not_routed (hp : r.preflight? = none) (h : ¬ r.Routed path) :
    Unshaped w s r path (answerAt w s r path).result := by
  rw [result_answerAt_of_not_routed hp h]
  cases hfind : Route.find? path with
  | none => exact .unrouted hp hfind
  | some found => exact .otherMethod hp hfind (fun hmem => h ⟨found, hfind, hmem⟩)

theorem shaped_of_malformed (hp : r.preflight? = none) {faults : List Shape.Fault} {body : Body}
    (h : r.Faulty w s path (.malformed faults body)) :
    IsErrorBody (answerAt w s r path).result.content ∨
      Unshaped w s r path (answerAt w s r path).result := by
  have hhandled := congrArg (caught w s.debug (shownPath (Route.answeredPath path)))
    (respond_of_faulty w s h)
  by_cases htell : ∃ text, Untellable w faults body text
  · obtain ⟨text, htext⟩ := htell
    have hraised := (congrArg Logged.result hhandled).trans (result_caught_of_untellable _ _ _ htext)
    cases hdebug : s.debug with
    | false => exact Or.inl (isErrorBody_answerAt_of_unforeseen hp hdebug hraised)
    | true =>
        rw [result_answerAt_of_traced hp hdebug hraised]
        exact Or.inr (.traced hp hdebug h htext)
  · have hanswered := (congrArg Logged.result hhandled).trans
      (result_caught_of_tellable _ _ _ (not_exists.mp htell))
    rw [result_answerAt_of_handled hp hanswered]
    exact Or.inl (isErrorBody_failureBody _ _ _)

theorem shaped_of_settled (hp : r.preflight? = none) (h : Settled (respond w s r path)) :
    (answerAt w s r path).result.status = 200 ∨
      IsErrorBody (answerAt w s r path).result.content := by
  cases hrespond : respond w s r path with
  | ok a =>
      rw [hrespond] at h
      rw [result_answerAt_of_handled hp (a := a) (by rw [handled, hrespond]; rfl)]
      exact Or.inl h
  | error raised =>
      rw [hrespond] at h
      obtain ⟨f, rfl, hsent⟩ := h
      rw [result_answerAt_of_handled hp
        (by rw [handled, hrespond]; exact result_caught_failure _ _ _ hsent)]
      exact Or.inr (isErrorBody_failureBody _ _ _)

theorem shaped_of_preflight {p : Preflight} (hp : r.preflight? = some p) :
    (answerAt w s r path).result.status = 200 ∨
      Unshaped w s r path (answerAt w s r path).result := by
  by_cases hrefusals : p.refusals s = []
  · left
    rw [answerAt, hp]
    exact congrArg Answer.status (if_pos hrefusals)
  · right
    have hrefused : Unshaped w s r path _ := .refused hp hrefusals
    rw [result_answerAt_of_unshaped hrefused]
    exact hrefused

theorem shaped (w : Framework) (s : Settings) (r : Request) (path : List Char) :
    (answerAt w s r path).result.status = 200 ∨
      IsErrorBody (answerAt w s r path).result.content ∨
      Unshaped w s r path (answerAt w s r path).result := by
  cases hp : r.preflight? with
  | some p => exact (shaped_of_preflight hp).imp_right Or.inr
  | none =>
      by_cases hrouted : r.Routed path
      · obtain ⟨fault, hfault⟩ | hsettled := respond_cases w s hrouted
        · cases fault with
          | malformed faults body => exact Or.inr (shaped_of_malformed hp hfault)
          | unreadable =>
              have hunshaped : Unshaped w s r path _ := .unreadable hp hfault
              rw [result_answerAt_of_unshaped hunshaped]
              exact Or.inr (Or.inr hunshaped)
        · exact (shaped_of_settled hp hsettled).imp_right Or.inl
      · exact Or.inr (Or.inr (unshaped_of_not_routed hp hrouted))

end Shapes

end Worksheet.Http
