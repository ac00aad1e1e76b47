import OffchainNames.Response
import OffchainNames.Table

/-!
# Dispatch of calls

A call is dispatched in two steps. What it asks for depends on its calldata and the table alone: the
plan of a call (`Table.plan`) says which function is invoked with which arguments, or why none is, and
for a batch the plans of its slots. The plan is then carried out, and whatever a function does ends up in a
response.

The slots of a batch run at the same time. A slot that is not held up takes all its operations before the next
one takes its first, so that where none is, a plan is carried out slot after slot (`Plan.course`). That slots
which wait let others act in between is the subject of calls in flight (`Table.flight`).

A slot of a batch holds the data of a response, or the message of one that is no success in the form in
which contracts report errors.
-/

namespace OffchainNames

/-- How work on a call ends. -/
inductive Ending (α : Type) where
  | answered (answer : α)
  | crashed
  | never
  deriving Repr

/-- What a call asks for. -/
inductive Plan where
  | refused (ctx : Context) (cause : Error)
  | invoke (ctx : Context) (signature : Abi.Signature) (handler : Handler) (args : Arguments)
  | batch (ctx : Context) (signature : Abi.Signature) (slots : List Plan)

namespace Plan

/-- The context of the call that a plan is for. -/
def context : Plan → Context
  | refused ctx _ => ctx
  | invoke ctx _ _ _ => ctx
  | batch ctx _ _ => ctx

mutual

/-- The contexts of a call and of all calls inside it, in the order in which they are made. -/
def contexts : Plan → List Context
  | refused ctx _ => [ctx]
  | invoke ctx _ _ _ => [ctx]
  | batch ctx _ slots => ctx :: contextsOf slots

/-- The contexts of the calls of a batch and of all calls inside them. -/
def contextsOf : List Plan → List Context
  | [] => []
  | plan :: rest => contexts plan ++ contextsOf rest

end

end Plan

/-- The number of batches that may be inside each other. -/
def maxBatches : Nat := 8

namespace Table

/-- The plan of a call around which the given number of batches may still be opened. -/
def planAt (t : Table) : (levels : Nat) → Context → Plan
  | levels, ctx =>
    match splitSelector ctx.data with
    | .error e => .refused ctx e
    | .ok (selector, payload) =>
      match t.get? selector with
      | none => .refused ctx (.notImplemented selector)
      | some ⟨signature, kind⟩ =>
        match signature.decodeInput payload with
        | .error e => .refused ctx e
        | .ok args =>
          match kind with
          | .function handler => .invoke ctx signature handler args
          | .batch =>
            match levels with
            | 0 => .refused ctx (.malformedRequest "multicall nested too deeply")
            | levels + 1 =>
              match Arguments.bytesArray args 0 with
              | .error e => .refused ctx e
              | .ok calls =>
                .batch ctx signature (calls.map fun data => planAt t levels (ctx.nested data))

/-- The plan of a call. -/
def plan (t : Table) (ctx : Context) : Plan := t.planAt (maxBatches - ctx.depth) ctx

end Table

/-- The selector under which contracts report an error with a text. -/
def errorSelector : Bytes := [0x08, 0xc3, 0x79, 0xa0]

/-- The data that reports an error with a text. -/
def errorPayload (message : String) : Bytes := errorSelector ++ Abi.encode [.string message]

/-- The text of the error that data reports, if it does. -/
def decodeErrorPayload? (data : Bytes) : Option String :=
  if data.take 4 = errorSelector then
    match Abi.decode [.string] (data.drop 4) with
    | .ok [.string message] => some message
    | _ => none
  else none

/-- What a response leaves in the slot of a batch. -/
def Response.slot (response : Response) : Bytes :=
  if response.isSuccess then response.data
  else errorPayload (response.message?.getD "call failed")

/-- The data of results, empty if there are none. -/
def Abi.Signature.pack (signature : Abi.Signature) (values : List Abi.Value) : Except Error Bytes :=
  if signature.outputs.isEmpty || values.isEmpty then .ok [] else signature.encodeOutput values

/-- The wording of a breakdown. -/
def Outcome.crashMessage (text : Option String) : String := text.getD "handler panicked"

/-- The response that an outcome leads to. -/
def Outcome.ending (signature : Abi.Signature) : Outcome → Ending Response
  | .reply returned =>
    match signature.pack returned.values with
    | .ok data => .answered (.ok data returned.ttl)
    | .error e => .answered (.ofError e)
  | .failure e => .answered (.ofError e)
  | .crash text => .answered (.ofError (.refusal (crashMessage text)))
  | .never => .never

/-- What the ending of a call leaves in the slot of a batch, if the call is answered. -/
def Ending.slot? : Ending Response → Option Bytes
  | .answered response => some response.slot
  | _ => none

/-- The outcome of a batch whose slots ended in the given ways. -/
def Outcome.ofSlots (endings : List (Ending Response)) : Outcome :=
  match endings.mapM Ending.slot? with
  | some slots => .reply { values := [.array (slots.map .bytes)] }
  | none => .never

namespace Plan

mutual

/-- Carries a plan out, no slot being held up. -/
def course : Plan → Course (Ending Response)
  | refused _ e => .done (.answered (.ofError e))
  | invoke ctx signature handler args =>
    (handler ctx args).bind fun outcome => .done (outcome.ending signature)
  | batch _ signature slots =>
    (courses slots).bind fun endings => .done ((Outcome.ofSlots endings).ending signature)

/-- Carries the plans of slots out, none of which is held up. -/
def courses : List Plan → Course (List (Ending Response))
  | [] => .done []
  | plan :: rest =>
    plan.course.bind fun ending =>
      (courses rest).bind fun endings => .done (ending :: endings)

end

end Plan

/-- Dispatches a call in a context, no slot of a batch being held up. -/
def Table.dispatch (t : Table) (ctx : Context) : Course (Ending Response) := (t.plan ctx).course

end OffchainNames
