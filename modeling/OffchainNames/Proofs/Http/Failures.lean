import OffchainNames.Proofs.Dispatch.Failure
import OffchainNames.Proofs.Http.Server
import OffchainNames.Proofs.Json.Strings
import OffchainNames.Store.Memory

/-!
# Failures are told by messages

A body carries data on success and a message on failure. Dispatch keeps to this whatever functions do
(`Plan.showsFailure_of_answered`), and so does a gateway whose stages keep to it
(`Gateway.showsFailure_of_answered`). The server wraps what the gateway answers, its own rejections,
breakdowns and timeouts in the same way, so that a failure leaves it as an object with a message unless the
gateway itself answers the call with data under the status of a failure (`Http.Server.failure_told`). A stage
that does not keep to it can make it do so (`Http.DataUnderFailure.data_told`).
-/

namespace OffchainNames

/-- A status that tells of a failure, of the sender or of the server. -/
def IsFailure (status : Nat) : Prop := 400 ≤ status ∧ status ≤ 599

instance (status : Nat) : Decidable (IsFailure status) :=
  inferInstanceAs (Decidable (400 ≤ status ∧ status ≤ 599))

theorem not_isFailure_ok : ¬ IsFailure 200 := by decide

/-- A response with a status of failure carries a message. -/
def Response.ShowsFailure (response : Response) : Prop :=
  IsFailure (Http.Reply.ofResponse response).status → ∃ text, response.body = .message text

/-- A stage may fail in any way, and what it hands on carries a message if its status is one of failure,
as long as this is so of what it is given. -/
def Stage.ShowsFailures (σ : Type) [Store σ] (stage : Stage) : Prop :=
  ∀ (call : Call) (response handedOn : Response) (w : World σ), response.ShowsFailure →
    ((stage.process call response).run w).1 = .answered (.ok handedOn) → handedOn.ShowsFailure

namespace Response

theorem showsFailure_ofError (e : Error) : (ofError e).ShowsFailure := fun _ => ⟨e.message, rfl⟩

theorem showsFailure_of_isSuccess {response : Response} (h : response.isSuccess = true) :
    response.ShowsFailure := by
  intro failure
  rw [Http.Reply.status_ofResponse, isSuccess_iff.mp h] at failure
  exact absurd failure not_isFailure_ok

end Response

/-- Whatever a function does, the response to its call carries a message if it failed. -/
theorem Outcome.showsFailure_of_ending {signature : Abi.Signature} {outcome : Outcome}
    {response : Response} (h : outcome.ending signature = .answered response) :
    response.ShowsFailure := by
  cases outcome with
  | reply returned =>
    rw [ending] at h
    split at h
    · cases h
      exact Response.showsFailure_of_isSuccess rfl
    · cases h
      exact Response.showsFailure_ofError _
  | failure e =>
    cases h
    exact Response.showsFailure_ofError e
  | crash text =>
    cases h
    exact Response.showsFailure_ofError _
  | never => cases h

section Run

variable {σ : Type} [Store σ] {response : Response} {w : World σ}

theorem Plan.showsFailure_of_answered {plan : Plan}
    (h : (plan.course.run w).1 = .answered response) : response.ShowsFailure := by
  cases plan with
  | refused ctx cause =>
    rw [run_course_refused] at h
    cases h
    exact Response.showsFailure_ofError cause
  | invoke ctx signature handler args =>
    rw [run_course_invoke] at h
    exact Outcome.showsFailure_of_ending h
  | batch ctx signature slots =>
    rw [run_course_batch] at h
    exact Outcome.showsFailure_of_ending h

/-- A gateway tells of failures by messages, as long as its stages do. -/
theorem Gateway.showsFailure_of_answered {g : Gateway} {call : Call}
    (stages : ∀ stage ∈ g.stages, stage.ShowsFailures σ)
    (h : ((g.handle call).run w).1 = .answered response) : response.ShowsFailure := by
  rw [handle, Table.dispatch, Course.run_bind] at h
  split at h
  · rename_i dispatched answered
    exact Stage.answered_of_processAll stages Response.showsFailure_ofError
      (Plan.showsFailure_of_answered answered) h
  · cases h
  · cases h

end Run

section Supplied

variable (σ : Type) [Store σ]

theorem Integrity.showsFailures_stage (i : Integrity) : i.stage.ShowsFailures σ := by
  intro call response handedOn w given h
  rw [run_stage] at h
  cases success : response.isSuccess with
  | true =>
    rcases i.run_process_of_success call w success with ⟨next, _, still, run⟩ | ⟨_, _, run⟩
    · rw [run] at h
      cases h
      exact Response.showsFailure_of_isSuccess still
    · rw [run] at h
      cases h
  | false =>
    rw [i.run_process_of_not_success call w success] at h
    cases h
    exact given

theorem Signer.showsFailures_stage (signer : Signer) (time : Option UInt64) :
    (signer.stage time).ShowsFailures σ := by
  intro call response handedOn w given h
  rw [run_process] at h
  injection h with h
  injection h with h
  subst h
  cases success : response.isSuccess with
  | true =>
    obtain ⟨content, expires, signed⟩ := signer.processAt_of_success (time.getD w.now) call success
    rw [signed]
    exact Response.showsFailure_of_isSuccess rfl
  | false =>
    rw [signer.processAt_of_not_success _ call success]
    exact given

end Supplied

namespace Http

/-- The values of a header of an answer. -/
def Answer.values (a : Answer) (name : String) : List String :=
  (a.headers.filter fun h => h.1 == name).map Prod.snd

/-- The body of an answer is an object that holds a message alone. -/
def Answer.TellsMessage (a : Answer) : Prop :=
  ∃ text, Json.parse (Bytes.ofString a.body) = .ok (.object [("message", .string text)])

namespace Server

theorem values_dress (s : Server) (r : Request) (a : Answer) {name : String} (other : name ≠ "allow") :
    (s.dress r a).values name = a.values name := by
  unfold dress
  split
  · rfl
  · split
    · split <;> rfl
    · simp [Answer.values, Ne.symm other]

@[simp] theorem values_finish (ending : Ending Reply) :
    (finish ending).values "content-type" = ["application/json"] := by
  cases ending <;> rfl

theorem message_of_mapError {x : Except Error Call} {reply : Reply}
    (h : x.mapError Reply.ofError = .error reply) : ∃ text, reply.body = .message text := by
  cases x with
  | error e =>
    cases h
    exact ⟨e.message, rfl⟩
  | ok call => cases h

theorem message_of_bare (status : Nat) : ∃ text, (Reply.bare status).body = .message text :=
  ⟨Reply.reason status, rfl⟩

theorem message_of_readAt_error {s : Server} {r : Request} {found : List (List Char)} {e : Endpoint}
    {reply : Reply} (h : s.readAt r found e = .error reply) : ∃ text, reply.body = .message text := by
  cases e with
  | submit => exact message_of_mapError h
  | fetch =>
    rw [readAt] at h
    generalize (found.mapM fun text => Utf8.decode? (resolvePercent text)) = texts at h
    split at h
    · cases h
      exact message_of_bare 400
    · exact message_of_mapError h
    · cases h
      exact message_of_bare 500

/-- The reply to a request that makes no call carries a message. -/
theorem message_of_callOf_error {s : Server} {r : Request} {reply : Reply}
    (h : s.callOf r = .error reply) : ∃ text, reply.body = .message text := by
  unfold callOf at h
  split at h
  · cases h
    exact message_of_bare 413
  · split at h
    · cases h
      exact message_of_bare 404
    · split at h
      · exact message_of_readAt_error h
      · cases h
        exact message_of_bare 405

/-- What ends with no data is answered with an object that holds a message. -/
theorem message_of_finish {ending : Ending Reply}
    (silent : ∀ reply content ttl, ending = .answered reply → reply.body ≠ .data content ttl) :
    ∃ text, (finish ending).body = (Json.Value.object [("message", .string text)]).text := by
  cases ending with
  | answered reply =>
    rw [finish_answered, answerOf]
    cases body : reply.body with
    | data content ttl => exact absurd body (silent reply content ttl rfl)
    | message text => exact ⟨text, rfl⟩
  | crashed => exact ⟨_, rfl⟩
  | never => exact ⟨_, rfl⟩

/-- A request by which a page asks what it may send makes no call and is answered with success. -/
theorem preflight_told {s : Server} {r : Request} (preflight : r.method = "OPTIONS") :
    (∃ headers body, s.answer r = .done ⟨200, headers, body⟩) ∧ ∀ call, s.callOf r ≠ .ok call := by
  have refused : ∀ e : Endpoint, e.methods.contains r.method = false := by
    rw [preflight]
    intro e
    cases e <;> rfl
  constructor
  · unfold answer
    split
    · rw [guarded, if_pos preflight]
      exact ⟨_, _, rfl⟩
    · simp only [refused, guarded, if_pos preflight]
      exact ⟨_, _, rfl⟩
  · intro call h
    unfold callOf at h
    split at h
    · cases h
    · split at h
      · cases h
      · rw [refused] at h
        cases h

section Answers

variable {s : Server} {r : Request} (notHead : r.method ≠ "HEAD") {ending : Ending Reply}
include notHead

theorem tellsMessage_of_silent
    (silent : ∀ reply content ttl, ending = .answered reply → reply.body ≠ .data content ttl) :
    (s.dress r (finish ending)).TellsMessage := by
  obtain ⟨text, body⟩ := message_of_finish silent
  exact ⟨text, by rw [dress_body notHead, body, Json.parse_text_singleton]⟩

/-- The answer to a request that makes a call tells a message, or it is the data that the gateway answers
with. -/
theorem told_of_call (answer : Ending Response) :
    (s.dress r (finish (Reply.ofEnding answer))).TellsMessage ∨ ∃ response content ttl,
      answer = .answered response ∧ response.body = .data content ttl ∧
      (s.dress r (finish (Reply.ofEnding answer))).body = (bodyValue (.data content ttl)).text := by
  by_cases data : ∃ response content ttl, answer = .answered response ∧ response.body = .data content ttl
  · obtain ⟨response, content, ttl, rfl, body⟩ := data
    refine .inr ⟨response, content, ttl, rfl, body, ?_⟩
    rw [dress_body notHead, ← body]
    rfl
  · refine .inl (tellsMessage_of_silent notHead fun reply content ttl same body => data ?_)
    cases answer with
    | answered response =>
      cases same
      exact ⟨response, content, ttl, rfl, body⟩
    | crashed => cases same
    | never => cases same

end Answers

/-- A failure leaves the server as an object with a message, whatever the request, what the functions of
the gateway do, and how its stages fail, unless the gateway answers the call with data under that status: then
it leaves as that data. Where all stages hand on messages with a status of failure it is always a message. A
call is answered with the status of its response if that is one that an answer may have, and with 500 if
not. -/
theorem failure_told {σ : Type} [Store σ] (s : Server) (r : Request) (w : World σ)
    (notHead : r.method ≠ "HEAD") :
    (IsFailure ((s.answer r).run w).1.status →
      ((s.answer r).run w).1.values "content-type" = ["application/json"] ∧
      (((s.answer r).run w).1.TellsMessage ∨ ∃ call response content ttl, s.callOf r = .ok call ∧
        ((s.gateway.handle call).run w).1 = .answered response ∧ response.body = .data content ttl ∧
        ((s.answer r).run w).1.body = (bodyValue (.data content ttl)).text) ∧
      ((∀ stage ∈ s.gateway.stages, stage.ShowsFailures σ) → ((s.answer r).run w).1.TellsMessage)) ∧
    ∀ call response, s.callOf r = .ok call →
      ((s.gateway.handle call).run w).1 = .answered response →
      ((s.answer r).run w).1.status =
        if 100 ≤ response.status.toNat ∧ response.status.toNat ≤ 999 then response.status.toNat
        else 500 := by
  by_cases preflight : r.method = "OPTIONS"
  · obtain ⟨⟨headers, body, answered⟩, silent⟩ := preflight_told (s := s) preflight
    refine ⟨fun failure => ?_, fun call _ h => absurd h (silent call)⟩
    rw [answered] at failure
    exact absurd failure not_isFailure_ok
  -- Whatever the server replies on its own is a message, so that only what the gateway answers can be data.
  cases asked : s.callOf r with
  | error reply =>
    have answered : ((s.answer r).run w).1 = s.dress r (finish (.answered reply)) := by
      rw [answer_of_error preflight asked, Course.run_done]
    have message : ((s.answer r).run w).1.TellsMessage := by
      rw [answered]
      refine tellsMessage_of_silent notHead fun reply' content ttl same body => ?_
      cases same
      obtain ⟨text, told⟩ := message_of_callOf_error asked
      cases told.symm.trans body
    refine ⟨fun _ => ⟨?_, .inl message, fun _ => message⟩, fun call _ h => by cases h⟩
    rw [answered, values_dress _ _ _ (by decide), values_finish]
  | ok call =>
    have answered : ((s.answer r).run w).1 =
        s.dress r (finish (Reply.ofEnding ((s.gateway.handle call).run w).1)) := by
      rw [run_answer_of_ok preflight asked]
    have status : ∀ response, ((s.gateway.handle call).run w).1 = .answered response →
        ((s.answer r).run w).1.status = (Reply.ofResponse response).status := by
      intro response ended
      rw [answered, ended, dress_status, Reply.ofEnding, finish_answered, answerOf_status]
    have told := told_of_call (s := s) notHead ((s.gateway.handle call).run w).1
    rw [← answered] at told
    refine ⟨fun failure => ⟨?_, ?_, fun stages => ?_⟩, ?_⟩
    · rw [answered, values_dress _ _ _ (by decide), values_finish]
    · rcases told with message | ⟨response, content, ttl, ended, body, data⟩
      · exact .inl message
      · exact .inr ⟨call, response, content, ttl, rfl, ended, body, data⟩
    · rcases told with message | ⟨response, content, ttl, ended, body, data⟩
      · exact message
      · rw [status response ended] at failure
        obtain ⟨text, message⟩ := Gateway.showsFailure_of_answered stages ended failure
        cases message.symm.trans body
    · intro call' response same ended
      cases same
      rw [status response ended, Reply.status_ofResponse]

end Server

namespace SignedServer

/-- A server whose gateway marks and signs, and has no function but that for batches. -/
def server : Server :=
  ⟨⟨.standard, [Integrity.stage {}, DeclaredSuccess.signer.stage none]⟩, "", 1024⟩

/-- A request for a call without calldata. -/
def request : Request := ⟨"GET", "/0x0000000000000000000000000000000000000000/0x", [], []⟩

/-- The call. -/
def call : Call := ⟨0, [], none⟩

theorem callOf_request : server.callOf request = .ok call := by
  decide +kernel

/-- The error of a call whose calldata has no selector. -/
def error : Error := .malformedRequest "calldata must be at least 4 bytes, got 0"

theorem run_plan {σ : Type} [Store σ] (w : World σ) :
    (Table.standard.plan (.ofCall call)).course.run w = (.answered (.ofError error), w) := by
  have short : splitSelector (Context.ofCall call).data = .error error := by decide
  rw [Table.plan, Table.planAt.eq_def]
  simp only [short]
  exact Plan.run_course_refused _ _ w

theorem run_handle {σ : Type} [Store σ] (w : World σ) :
    ((server.gateway.handle call).run w).1 = .answered (.ofError error) := by
  have dispatched : (server.gateway.table.plan (.ofCall call)).course.run w =
      (.answered (.ofError error), w) := run_plan w
  rw [Gateway.run_handle_of_answered dispatched, server, run_processAll_of_not_success _ _ _ _ _ rfl]

theorem showsFailures_of_mem (σ : Type) [Store σ] :
    ∀ stage ∈ server.gateway.stages, stage.ShowsFailures σ := by
  intro stage member
  simp only [server, List.mem_cons, List.not_mem_nil, or_false] at member
  rcases member with rfl | rfl
  · exact Integrity.showsFailures_stage σ _
  · exact Signer.showsFailures_stage σ _ none

end SignedServer

/-- The failure of that call leaves the server with its status, as an object with a message. -/
theorem SignedServer.request_failed :
    SignedServer.request.method ≠ "HEAD" ∧
    ((SignedServer.server.answer SignedServer.request).run
      { store := Memory.empty, now := 0 }).1.status = 400 ∧
    ((SignedServer.server.answer SignedServer.request).run
      { store := Memory.empty, now := 0 }).1.TellsMessage := by
  have notHead : SignedServer.request.method ≠ "HEAD" := by decide
  obtain ⟨message, status⟩ := Server.failure_told SignedServer.server SignedServer.request
    { store := Memory.empty, now := 0 } notHead
  have failed := status SignedServer.call (.ofError SignedServer.error) SignedServer.callOf_request
    (SignedServer.run_handle _)
  refine ⟨notHead, failed, (message ?_).2.2 (SignedServer.showsFailures_of_mem Memory)⟩
  rw [failed]
  decide

namespace DataUnderFailure

/-- A stage that answers every call with data under the status of a failure. -/
def stage : Stage := ⟨"data", fun _ _ => .done (.answered (.ok ⟨500, .data [0x01] none⟩))⟩

/-- A server whose gateway has that stage. -/
def server : Server := ⟨⟨.standard, [stage]⟩, "", 1024⟩

theorem callOf_request : server.callOf SignedServer.request = .ok SignedServer.call :=
  SignedServer.callOf_request

theorem run_handle {σ : Type} [Store σ] (w : World σ) :
    ((server.gateway.handle SignedServer.call).run w).1 = .answered ⟨500, .data [0x01] none⟩ := by
  have dispatched : (server.gateway.table.plan (.ofCall SignedServer.call)).course.run w =
      (.answered (.ofError SignedServer.error), w) := SignedServer.run_plan w
  rw [Gateway.run_handle_of_answered dispatched]
  rfl

/-- The answer has the status of a failure and carries the data, not a message. -/
theorem data_told : SignedServer.request.method ≠ "HEAD" ∧
    IsFailure ((server.answer SignedServer.request).run { store := Memory.empty, now := 0 }).1.status ∧
    ((server.answer SignedServer.request).run { store := Memory.empty, now := 0 }).1.body =
      "\x7b\"data\":\"0x01\"\x7d" ∧
    ¬ ((server.answer SignedServer.request).run { store := Memory.empty, now := 0 }).1.TellsMessage := by
  have notPreflight : SignedServer.request.method ≠ "OPTIONS" := by decide
  have notHead : SignedServer.request.method ≠ "HEAD" := by decide
  have written : (bodyValue (.data [0x01] none)).text = "\x7b\"data\":\"0x01\"\x7d" := rfl
  rw [Server.run_answer_of_ok notPreflight callOf_request, run_handle, Reply.ofEnding,
    Server.finish_answered, Server.dress_status, Answer.TellsMessage, Server.dress_body notHead]
  refine ⟨notHead, by decide, written, ?_⟩
  rintro ⟨text, told⟩
  have data := Json.parse_text_singleton "data" (Hex.encode [0x01])
  have members := Json.Value.object.inj (Except.ok.inj (data.symm.trans told))
  have key : "data" = "message" := (Prod.mk.inj (List.cons.inj members).1).1
  exact absurd key (by decide)

end DataUnderFailure

end Http

end OffchainNames
