import OffchainNames.Proofs.Http.Server
import OffchainNames.Store.Memory

/-!
# The limit on bodies

A body that is longer than the limit never gets as far as the gateway. How the sender is told depends on
whether the length is declared: a declared length is rejected before the body is read, with a status of
its own, while a body whose length shows in reading it makes the request malformed
(`Http.Server.answer_beyond_limit`). A body within the limit is never rejected for its length: every
fault in reading it is answered with another status.
-/

namespace OffchainNames

/-- Where something does not read, the request is malformed. -/
def FailsMalformed {α : Type} (x : Except Error α) : Prop :=
  ∀ e, x = .error e → ∃ detail, e = .malformedRequest detail

section Reading

variable {α β : Type}

theorem failsMalformed_ok (a : α) : FailsMalformed (.ok a) := by
  intro e h
  cases h

theorem failsMalformed_error (detail : String) :
    FailsMalformed (α := α) (.error (.malformedRequest detail)) := by
  intro e h
  cases h
  exact ⟨detail, rfl⟩

theorem failsMalformed_ite {p : Prop} [Decidable p] (detail : String) (a : α) :
    FailsMalformed (if p then .error (.malformedRequest detail) else .ok a) := by
  split
  · exact failsMalformed_error detail
  · exact failsMalformed_ok a

theorem FailsMalformed.bind {x : Except Error α} {f : α → Except Error β} (hx : FailsMalformed x)
    (hf : ∀ a, FailsMalformed (f a)) : FailsMalformed (x >>= f) := by
  cases x with
  | error e =>
    obtain ⟨detail, rfl⟩ := hx e rfl
    exact failsMalformed_error detail
  | ok a => exact hf a

theorem failsMalformed_readSender (text : String) : FailsMalformed (readSender text) := by
  unfold readSender
  split
  · exact failsMalformed_ok _
  · exact failsMalformed_error _

theorem failsMalformed_readData (text : String) : FailsMalformed (readData text) := by
  unfold readData
  split
  · exact failsMalformed_ok _
  · exact failsMalformed_error _

theorem failsMalformed_readExpiration (value : Json.Value) : FailsMalformed (readExpiration value) := by
  unfold readExpiration
  split
  · exact failsMalformed_ok _
  · exact failsMalformed_error _

theorem AuthorizationText.failsMalformed_read (text : AuthorizationText) :
    FailsMalformed text.read := by
  refine (failsMalformed_readData _).bind fun signature => ?_
  refine (failsMalformed_readData _).bind fun callData => ?_
  refine (failsMalformed_readSender _).bind fun sender => ?_
  exact (failsMalformed_readExpiration _).bind fun expiration => failsMalformed_ok _

theorem CallText.failsMalformed_read (text : CallText) : FailsMalformed text.read := by
  refine (failsMalformed_readSender _).bind fun recipient => ?_
  refine (failsMalformed_readData _).bind fun data => ?_
  cases text.authorization with
  | none => exact failsMalformed_ok _
  | some authorization =>
    exact (AuthorizationText.failsMalformed_read _).bind fun authorization => failsMalformed_ok _

end Reading

namespace Http

namespace Request

theorem failsMalformed_takeBody (r : Request) (limit : Nat) : FailsMalformed (r.takeBody limit) :=
  failsMalformed_ite _ _

theorem failsMalformed_readCallText (r : Request) (limit : Nat) :
    FailsMalformed (r.readCallText limit) := by
  unfold readCallText
  split
  · exact failsMalformed_error _
  · split
    · rename_i e fault
      intro e' same
      cases same
      exact r.failsMalformed_takeBody limit e fault
    · split
      · exact failsMalformed_ok _
      · exact failsMalformed_error _
      · exact failsMalformed_error _

theorem failsMalformed_readCall (r : Request) (limit : Nat) : FailsMalformed (r.readCall limit) := by
  unfold readCall
  split
  · rename_i e fault
    intro e' same
    cases same
    exact r.failsMalformed_readCallText limit e fault
  · exact CallText.failsMalformed_read _

end Request

namespace Server

/-- A rejection with a message. -/
def rejection (status : Nat) (text : String) : Answer :=
  ⟨status, jsonHeader :: originHeaders, (Json.Value.object [("message", .string text)]).text⟩

section Limit

variable {s : Server} {r : Request} {found : List (List Char)}

/-- A submitted call that cannot be read is answered with the status 400. -/
theorem status_of_callOf_error (short : s.declaresTooMuch r = false)
    (place : s.endpoint? (pathOf r.target) = some (.submit, found)) (method : r.method = "POST")
    {reply : Reply} (h : s.callOf r = .error reply) : reply.status = 400 := by
  rw [callOf_of_submit short place method] at h
  cases read : r.readCall s.maxBody with
  | error e =>
    obtain ⟨detail, rfl⟩ := r.failsMalformed_readCall s.maxBody e read
    rw [read] at h
    cases h
    rfl
  | ok call =>
    rw [read] at h
    cases h

/-- A status that a reply has because a call ended with it is the status of the response to the call. -/
theorem answered_of_status {ending : Ending Response} {status : Nat}
    (h : (finish (Reply.ofEnding ending)).status = status) (timeout : status ≠ 408)
    (failed : status ≠ 500) : ∃ response, ending = .answered response ∧
      response.status.toNat = status := by
  -- Calls that do not end have 408, and both breakdowns and statuses that no answer may have lead to 500.
  cases ending with
  | answered response =>
    refine ⟨response, rfl, ?_⟩
    rw [Reply.ofEnding, finish_answered, answerOf_status, Reply.status_ofResponse] at h
    split at h
    · exact h
    · exact absurd h.symm failed
  | crashed => exact absurd h.symm failed
  | never => exact absurd h.symm timeout

section Place

variable (place : s.endpoint? (pathOf r.target) = some (.submit, found)) (method : r.method = "POST")

include place method

theorem answer_of_submit : s.answer r =
    (s.settle (s.callOf r)).bind fun ending => .done (finish ending) := by
  have allowed : r.method ∈ Endpoint.submit.methods := by
    rw [method]
    exact List.mem_singleton_self _
  have notHead : r.method ≠ "HEAD" := by
    rw [method]
    decide
  exact answer_of_served place allowed notHead

theorem answer_of_submit_error {reply : Reply} (h : s.callOf r = .error reply) :
    s.answer r = .done (answerOf reply originHeaders) := by
  rw [answer_of_submit place method, h]
  rfl

/-- Too long a body is rejected before it is read if its length is declared. -/
theorem answer_of_declared (declared : r.declaredLength? = some r.body.length)
    (long : s.maxBody < r.body.length) :
    s.answer r = .done (rejection 413 "payload too large") := by
  have early : s.declaresTooMuch r = true := by
    rw [declaresTooMuch, declared]
    exact decide_eq_true long
  have none : s.callOf r = .error (.bare 413) := by
    rw [callOf, if_pos early]
  rw [answer_of_submit_error place method none]
  rfl

/-- Too long a body whose length is not declared makes the request malformed. -/
theorem answer_of_undeclared (json : r.declaresJson = true) (undeclared : r.declaredLength? = none)
    (long : s.maxBody < r.body.length) : s.answer r = .done (rejection 400
      "malformed request: Failed to buffer the request body: length limit exceeded") := by
  have short : s.declaresTooMuch r = false := by
    rw [declaresTooMuch, undeclared]
  have fault : r.readCall s.maxBody = .error
      (.malformedRequest "Failed to buffer the request body: length limit exceeded") := by
    simp [Request.readCall, Request.readCallText, Request.takeBody, json, undeclared, long]
  have none : s.callOf r = .error (.ofError
      (.malformedRequest "Failed to buffer the request body: length limit exceeded")) := by
    rw [callOf_of_submit short place method, fault]
    rfl
  rw [answer_of_submit_error place method none]
  rfl

/-- The status 413 that answers a body within the limit is that of the response to the call. -/
theorem responded_of_status {σ : Type} [Store σ] (short : s.declaresTooMuch r = false) {w : World σ}
    (status : ((s.answer r).run w).1.status = 413) : ∃ call response, s.callOf r = .ok call ∧
      ((s.gateway.handle call).run w).1 = .answered response ∧ response.status = 413 := by
  cases read : s.callOf r with
  | error reply =>
    rw [answer_of_submit_error place method read, Course.run_done, answerOf_status,
      status_of_callOf_error short place method read] at status
    cases status
  | ok call =>
    rw [answer_of_submit place method, read, settle, call_ok] at status
    simp only [Course.run_bind, Course.run_done] at status
    obtain ⟨response, ended, same⟩ := answered_of_status status (by decide) (by decide)
    exact ⟨call, response, rfl, ended, UInt16.toNat.inj same⟩

/-- What becomes of a body in JSON whose length is declared as it is, or not at all. If it is longer than
the limit, the request is answered with a message and without any operation: with the status 413 exactly
if the length is declared. If it is not, then the status 413 is that of the response to the call. -/
theorem answer_beyond_limit {σ : Type} [Store σ] (json : r.declaresJson = true)
    (sound : r.declaredLength? = none ∨ r.declaredLength? = some r.body.length) :
    (s.maxBody < r.body.length → s.answer r = .done
      (if r.declaredLength?.isSome then rejection 413 "payload too large"
        else rejection 400
          "malformed request: Failed to buffer the request body: length limit exceeded")) ∧
    (r.body.length ≤ s.maxBody → ∀ w : World σ, ((s.answer r).run w).1.status = 413 →
      ∃ call response, s.callOf r = .ok call ∧
        ((s.gateway.handle call).run w).1 = .answered response ∧ response.status = 413) := by
  constructor
  · intro long
    rcases sound with undeclared | declared
    · rw [answer_of_undeclared place method json undeclared long, undeclared]
      rfl
    · rw [answer_of_declared place method declared long, declared]
      rfl
  · intro fits w status
    exact responded_of_status place method (declaresTooMuch_of_fits sound fits) status

end Place

end Limit

end Server

namespace ShortLimit

/-- A server that takes in bodies of one byte at most. -/
def server : Server := ⟨⟨.standard, []⟩, "", 1⟩

/-- A request with a body of two bytes, and further headers. -/
def request (headers : List (String × String)) : Request :=
  ⟨"POST", "/", ("content-type", "application/json") :: headers, [0x7b, 0x7d]⟩

theorem request_told :
    ((request [("content-length", "2")]).declaresJson = true ∧
      (request [("content-length", "2")]).declaredLength? = some 2) ∧
    (request []).declaresJson = true ∧ (request []).declaredLength? = none := by
  decide +kernel

end ShortLimit

/-- The two bytes are declared where one is the limit. -/
theorem ShortLimit.declared_rejected :
    (ShortLimit.request [("content-length", "2")]).declaredLength? = some 2 ∧
    ShortLimit.server.answer (ShortLimit.request [("content-length", "2")]) =
      .done (Server.rejection 413 "payload too large") := by
  obtain ⟨⟨json, declared⟩, -⟩ := ShortLimit.request_told
  have answered := (@Server.answer_beyond_limit ShortLimit.server
    (ShortLimit.request [("content-length", "2")]) [] (by rfl) rfl Memory _ json
    (.inr declared)).1 (by decide)
  rw [declared] at answered
  exact ⟨declared, answered⟩

/-- The two bytes are not declared: they are beyond the limit all the same, and yet the answer has not the
status 413. -/
theorem ShortLimit.undeclared_malformed :
    ShortLimit.server.endpoint? (pathOf (ShortLimit.request []).target) = some (.submit, []) ∧
    (ShortLimit.request []).method = "POST" ∧
    (ShortLimit.request []).declaresJson = true ∧
    (ShortLimit.request []).declaredLength? = none ∧
    ShortLimit.server.maxBody < (ShortLimit.request []).body.length ∧
    ∀ w : World Memory, ((ShortLimit.server.answer (ShortLimit.request [])).run w).1.status ≠ 413 := by
  obtain ⟨-, json, undeclared⟩ := ShortLimit.request_told
  have place : ShortLimit.server.endpoint? (pathOf (ShortLimit.request []).target) =
      some (.submit, []) := rfl
  have long : ShortLimit.server.maxBody < (ShortLimit.request []).body.length := by decide
  refine ⟨place, rfl, json, undeclared, long, fun w => ?_⟩
  rw [Server.answer_of_undeclared place rfl json undeclared long, Course.run_done]
  exact Nat.ne_of_beq_eq_false rfl

end Http

end OffchainNames
