import OffchainNames.Http.Server

/-!
# From a request to the answer

A request makes a call or it makes none, which path, method, headers and body tell without the gateway
(`Http.Server.callOf`). Only in the first case does anything happen to the world; what the call ends
with, or the reply to a request without a call, is then written into the answer
(`Http.Server.answer_eq`).
-/

namespace OffchainNames

theorem Course.bind_assoc {ρ τ υ : Type} (c : Course ρ) (f : ρ → Course τ) (g : τ → Course υ) :
    (c.bind f).bind g = c.bind fun answer => (f answer).bind g := by
  induction c with
  | done answer => rfl
  | domain node next ih => exact congrArg (domain node) (funext ih)
  | change c next ih => exact congrArg (change c) (funext ih)
  | ask contract data next ih => exact congrArg (ask contract data) (funext ih)
  | clock next ih => exact congrArg clock (funext ih)

namespace Http

/-- The reply to the request that made a call which ends in a given way. -/
def Reply.ofEnding : Ending Response → Ending Reply
  | .answered response => .answered (ofResponse response)
  | .crashed => .crashed
  | .never => .never

/-- A status that no reply may have becomes 500. -/
theorem Reply.status_ofResponse (response : Response) : (ofResponse response).status =
    if 100 ≤ response.status.toNat ∧ response.status.toNat ≤ 999 then response.status.toNat else 500 :=
  rfl

namespace Server

/-- Whether a request declares a body that is longer than what is taken in. -/
def declaresTooMuch (s : Server) (r : Request) : Bool :=
  match r.declaredLength? with
  | some n => decide (s.maxBody < n)
  | none => false

/-- The call that a request makes at an endpoint, or the reply to a request that makes none. -/
def readAt (s : Server) (r : Request) (found : List (List Char)) : Endpoint → Except Reply Call
  | .submit => (r.readCall s.maxBody).mapError .ofError
  | .fetch =>
    match found.mapM fun text => Utf8.decode? (resolvePercent text) with
    | none => .error (.bare 400)
    | some [sender, data] => (readParts sender data).mapError .ofError
    | some _ => .error (.bare 500)

/-- The call that a request makes, or the reply to a request that makes none. -/
def callOf (s : Server) (r : Request) : Except Reply Call :=
  if s.declaresTooMuch r then .error (.bare 413)
  else
    match s.endpoint? (pathOf r.target) with
    | none => .error (.bare 404)
    | some (e, found) =>
      if e.methods.contains r.method then s.readAt r found e else .error (.bare 405)

/-- Replies to what a request asks for. -/
def settle (s : Server) : Except Reply Call → Course (Ending Reply)
  | .error reply => .done (.answered reply)
  | .ok c => s.call (.ok c)

/-- What the path and the method of a request make of the answer to it. -/
def dress (s : Server) (r : Request) (a : Answer) : Answer :=
  match s.endpoint? (pathOf r.target) with
  | none => a
  | some (e, _) =>
    if e.methods.contains r.method then if r.method = "HEAD" then { a with body := "" } else a
    else { a with headers := ("allow", String.intercalate "," e.methods) :: a.headers }

@[simp] theorem settle_error (s : Server) (reply : Reply) :
    s.settle (.error reply) = .done (.answered reply) := rfl

theorem settle_mapError (s : Server) (x : Except Error Call) :
    s.settle (x.mapError .ofError) = s.call x := by
  cases x <;> rfl

theorem settle_readAt (s : Server) (r : Request) (found : List (List Char)) (e : Endpoint) :
    s.settle (s.readAt r found e) = s.serve r found e := by
  cases e with
  | submit => exact s.settle_mapError _
  | fetch =>
    simp only [readAt, serve]
    generalize (found.mapM fun text => Utf8.decode? (resolvePercent text)) = texts
    rcases texts with _ | _ | ⟨sender, _ | ⟨data, _ | _⟩⟩
    · rfl
    · rfl
    · rfl
    · exact s.settle_mapError _
    · rfl

theorem guarded_eq {s : Server} {r : Request} (notPreflight : r.method ≠ "OPTIONS")
    (inner : Course (Ending Reply)) : s.guarded r inner =
      (if s.declaresTooMuch r then .done (.answered (.bare 413)) else inner).bind
        fun ending => .done (finish ending) := by
  rw [guarded, if_neg notPreflight, declaresTooMuch]
  cases r.declaredLength? with
  | none => rfl
  | some n => by_cases long : s.maxBody < n <;> simp [long, Course.bind]

/-- A request other than that of a page which asks what it may send is settled and then answered. -/
theorem answer_eq {s : Server} {r : Request} (notPreflight : r.method ≠ "OPTIONS") :
    s.answer r = (s.settle (s.callOf r)).bind fun ending => .done (s.dress r (finish ending)) := by
  unfold answer callOf dress
  cases s.endpoint? (pathOf r.target) with
  | none =>
    simp only [guarded_eq notPreflight]
    by_cases long : s.declaresTooMuch r = true <;> simp [long, Course.bind]
  | some place =>
    -- The limit is looked at behind the method in the answer, but in front of it in the call.
    simp only [guarded_eq notPreflight, Course.bind_assoc]
    by_cases long : s.declaresTooMuch r = true <;> by_cases allowed : r.method ∈ place.1.methods <;>
      simp [long, allowed, settle_readAt, Course.bind]

theorem callOf_of_submit {s : Server} {r : Request} {found : List (List Char)}
    (short : s.declaresTooMuch r = false)
    (place : s.endpoint? (pathOf r.target) = some (.submit, found)) (method : r.method = "POST") :
    s.callOf r = (r.readCall s.maxBody).mapError .ofError := by
  simp [callOf, short, place, method, Endpoint.methods, readAt]

theorem declaresTooMuch_of_fits {s : Server} {r : Request}
    (sound : r.declaredLength? = none ∨ r.declaredLength? = some r.body.length)
    (fits : r.body.length ≤ s.maxBody) : s.declaresTooMuch r = false := by
  rcases sound with undeclared | declared
  · rw [declaresTooMuch, undeclared]
  · rw [declaresTooMuch, declared]
    exact decide_eq_false (Nat.not_lt.mpr fits)

theorem answer_of_error {s : Server} {r : Request} {reply : Reply}
    (notPreflight : r.method ≠ "OPTIONS") (h : s.callOf r = .error reply) :
    s.answer r = .done (s.dress r (finish (.answered reply))) := by
  rw [answer_eq notPreflight, h]
  rfl

theorem call_ok (s : Server) (call : Call) : s.call (.ok call) =
    (s.gateway.handle call).bind fun ending => .done (Reply.ofEnding ending) := by
  refine congrArg (Course.bind _) (funext fun ending => ?_)
  cases ending <;> rfl

/-- The answer to a request that makes a call says how the gateway ends the call, and the world is left
as the gateway leaves it. -/
theorem run_answer_of_ok {σ : Type} [Store σ] {s : Server} {r : Request} {call : Call}
    (notPreflight : r.method ≠ "OPTIONS") (h : s.callOf r = .ok call) (w : World σ) :
    (s.answer r).run w =
      (s.dress r (finish (Reply.ofEnding ((s.gateway.handle call).run w).1)),
        ((s.gateway.handle call).run w).2) := by
  rw [answer_eq notPreflight, h, settle, call_ok]
  simp only [Course.run_bind, Course.run_done]

section Dress

variable {s : Server} {r : Request}

@[simp] theorem dress_status (a : Answer) : (s.dress r a).status = a.status := by
  unfold dress
  split
  · rfl
  · split
    · split <;> rfl
    · rfl

theorem dress_body (notHead : r.method ≠ "HEAD") (a : Answer) : (s.dress r a).body = a.body := by
  unfold dress
  rw [if_neg notHead]
  split
  · rfl
  · split <;> rfl

/-- The answer at an endpoint is not changed, unless only its head is asked for. -/
theorem dress_of_served {e : Endpoint} {found : List (List Char)}
    (place : s.endpoint? (pathOf r.target) = some (e, found)) (allowed : r.method ∈ e.methods)
    (notHead : r.method ≠ "HEAD") (a : Answer) : s.dress r a = a := by
  simp [dress, place, allowed, notHead]

end Dress

theorem not_preflight_of_allowed {r : Request} {e : Endpoint} (allowed : r.method ∈ e.methods) :
    r.method ≠ "OPTIONS" := by
  intro preflight
  rw [preflight] at allowed
  cases e <;> exact absurd allowed (by decide)

/-- A request at an endpoint is settled, and the ending is the answer. -/
theorem answer_of_served {s : Server} {r : Request} {e : Endpoint} {found : List (List Char)}
    (place : s.endpoint? (pathOf r.target) = some (e, found)) (allowed : r.method ∈ e.methods)
    (notHead : r.method ≠ "HEAD") :
    s.answer r = (s.settle (s.callOf r)).bind fun ending => .done (finish ending) := by
  rw [answer_eq (not_preflight_of_allowed allowed)]
  simp only [dress_of_served place allowed notHead]

@[simp] theorem finish_answered (reply : Reply) :
    finish (.answered reply) = answerOf reply originHeaders := rfl

@[simp] theorem answerOf_status (reply : Reply) (headers : List (String × String)) :
    (answerOf reply headers).status = reply.status := rfl

end Server

end Http

end OffchainNames
