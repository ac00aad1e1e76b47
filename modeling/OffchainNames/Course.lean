import OffchainNames.Store.Basic

/-!
# Courses of operations

What a function does to the world is a course: it ends with an answer, or it does one operation and
goes on with what that returned. The operations are those of a store, each of them atomic, calls to a
remote chain, and a look at the clock. Running a course takes its operations one after the other, with nothing
in between (`Course.run_bind`). Where courses run at the same time each takes one operation after the other
(`Course.step`), and others may take theirs in between: whatever a function waits for holds it up before its
next operation.
-/

namespace OffchainNames

/-- Why a call to a remote chain has no result. -/
inductive RemoteError where
  | response (code : Int) (detail : String)
  | unreachable (detail : String)
  deriving DecidableEq, Repr

/-- The wording of an error. -/
def RemoteError.message : RemoteError → String
  | response code detail =>
    "server returned an error response: error code " ++ toString code ++ ": " ++ detail
  | unreachable detail => detail

/-- A course of operations that ends with an answer. -/
inductive Course (ρ : Type) : Type where
  | done (answer : ρ)
  | domain (node : Word) (next : Except StoreError (Option Record) → Course ρ)
  | change (change : Change) (next : Except StoreError Unit → Course ρ)
  | ask (contract : Address) (data : Bytes) (next : Except RemoteError Bytes → Course ρ)
  | clock (next : UInt64 → Course ρ)

/-- A store, the time, and what the remote chain answers from now on. -/
structure World (σ : Type) where
  store : σ
  /-- The time in seconds. -/
  now : UInt64
  /-- The answers of the remote chain in the order of the calls. -/
  replies : List (Except RemoteError Bytes) := []

namespace World

variable {σ : Type} [Store σ]

/-- Makes a change in the store. -/
def apply (change : Change) (w : World σ) : Except StoreError Unit × World σ :=
  let (answer, store) := Store.apply change w.store
  (answer, { w with store })

/-- Takes the next answer of the remote chain. -/
def ask (w : World σ) : Except RemoteError Bytes × World σ :=
  match w.replies with
  | [] => (.error (.unreachable "no reply"), w)
  | reply :: replies => (reply, { w with replies })

end World

namespace Course

variable {σ ρ τ : Type}

/-- Goes on with another course after the answer. -/
def bind : Course ρ → (ρ → Course τ) → Course τ
  | done answer, f => f answer
  | domain node next, f => domain node fun r => (next r).bind f
  | change c next, f => change c fun r => (next r).bind f
  | ask contract data next, f => ask contract data fun r => (next r).bind f
  | clock next, f => clock fun now => (next now).bind f

instance : Monad Course where
  pure := done
  bind := bind

/-- Runs a course. -/
def run [Store σ] : Course ρ → World σ → ρ × World σ
  | done answer, w => (answer, w)
  | domain node next, w => (next (Store.domain w.store node)).run w
  | change c next, w =>
    let (answer, w) := w.apply c
    (next answer).run w
  | ask _ _ next, w =>
    let (answer, w) := w.ask
    (next answer).run w
  | clock next, w => (next w.now).run w

/-- Takes the next operation of a course. -/
def step [Store σ] : Course ρ → World σ → Course ρ × World σ
  | done answer, w => (done answer, w)
  | domain node next, w => (next (Store.domain w.store node), w)
  | change c next, w => (next (w.apply c).1, (w.apply c).2)
  | ask _ _ next, w => (next w.ask.1, w.ask.2)
  | clock next, w => (next w.now, w)

@[simp] theorem pure_eq_done (answer : ρ) : (pure answer : Course ρ) = done answer := rfl

@[simp] theorem bind_eq_bind (c : Course ρ) (f : ρ → Course τ) : (c >>= f) = c.bind f := rfl

@[simp] theorem run_done [Store σ] (answer : ρ) (w : World σ) : (done answer).run w = (answer, w) :=
  rfl

/-- Running one course after another is running the second in the world that the first one leaves. -/
@[simp] theorem run_bind [Store σ] (c : Course ρ) (f : ρ → Course τ) (w : World σ) :
    (c.bind f).run w = (f (c.run w).1).run (c.run w).2 := by
  induction c generalizing w with
  | done answer => rfl
  | domain node next ih => exact ih _ w
  | change c next ih => exact ih _ _
  | ask contract data next ih => exact ih _ _
  | clock next ih => exact ih _ w

/-- A course goes on from a step as it runs. -/
@[simp] theorem run_step [Store σ] (c : Course ρ) (w : World σ) :
    (c.step w).1.run (c.step w).2 = c.run w := by
  cases c <;> rfl

end Course

end OffchainNames
