import OffchainNames.Proofs.Dispatch.Flight
import OffchainNames.Store.Memory

/-!
# A batch folds the dispatcher over its calls

The calldata of a batch is read back as its calls (`Abi.Signature.decodeInput_multicall`), so that a
batch below the bound is answered with one slot for each call, in the place of the call, in whatever order the
slots take their turns: a slot neither moves another one nor makes the batch fail. Where no slot is held up, it
holds what its call is answered with when it is dispatched in the nested context, in the world that the calls
before it leave (`Table.flight_multicall`). A slot that waits lets those after it act first
(`touched_at_once`).
-/

namespace OffchainNames

/-! ## Lists of byte strings as arguments -/

namespace Abi.Signature

theorem encodeCall_multicall (calls : List Bytes) :
    multicall.encodeCall [.array (calls.map .bytes)] =
      .ok (Bytes.ofBits multicall.selector ++ encode [.array (calls.map .bytes)]) :=
  encodeCall_of_admitsAll (readable_bytesArray "data").resolved (admitsAll_bytesArray calls)

theorem decodeInput_multicall {calls : List Bytes}
    (short : (encode [.array (calls.map .bytes)]).length < UInt64.size) :
    multicall.decodeInput (encode [.array (calls.map .bytes)]) = .ok [.array (calls.map .bytes)] :=
  decodeInput_encode (readable_bytesArray "data") (admitsAll_bytesArray calls) short

theorem decodeOutput_multicall {slots : List Bytes}
    (short : (encode [.array (slots.map .bytes)]).length < UInt64.size) :
    multicall.decodeOutput (encode [.array (slots.map .bytes)]) = .ok [.array (slots.map .bytes)] :=
  decodeOutput_encode (readable_bytesArray "results") (admitsAll_bytesArray slots) short

end Abi.Signature

theorem Arguments.bytesArray_map (items : List Bytes) :
    bytesArray [.array (items.map .bytes)] 0 = .ok items :=
  elements_map 0 items

/-- The calldata of a context is that of a batch of calls. -/
def Context.Batches (ctx : Context) (calls : List Bytes) : Prop :=
  ∃ payload args, splitSelector ctx.data = .ok (Abi.Signature.multicall.selector, payload) ∧
    Abi.Signature.multicall.decodeInput payload = .ok args ∧ Arguments.bytesArray args 0 = .ok calls

/-! ## Answers -/

namespace Response

/-- A slot holds the data of a success, and otherwise reports the message. -/
def Fills (response : Response) (slot : Bytes) : Prop :=
  (response.status = 200 → slot = response.data) ∧
    (response.status ≠ 200 → ∃ text, response.message? = some text ∧ slot = errorPayload text)

/-- A success holds one slot for each of the responses. -/
def Gathers (answer : Response) (responses : List Response) : Prop :=
  ∃ (content : Bytes) (slots : List Bytes), answer = .ok content none ∧
    (content.length < UInt64.size →
      Abi.Signature.multicall.decodeOutput content = .ok [.array (slots.map .bytes)]) ∧
    List.Forall₂ Fills responses slots

theorem Regular.fills {response : Response} (regular : response.Regular) :
    response.Fills response.slot := by
  refine ⟨fun success => slot_of_success success, fun failure => ?_⟩
  obtain ⟨text, message⟩ := regular.message failure
  exact ⟨text, message, slot_of_message failure message⟩

theorem gathers_ofBatch {responses : List Response}
    (regular : ∀ response ∈ responses, response.Regular) : (ofBatch responses).Gathers responses :=
  ⟨_, responses.map slot, rfl, Abi.Signature.decodeOutput_multicall,
    List.forall₂_map_right_iff.mpr (List.forall₂_same.mpr fun response member =>
      (regular response member).fills)⟩

/-- What a batch gathers is told by its data. -/
theorem Gathers.forall₂_fills {answers responses : List Response}
    (gathers : (ofBatch answers).Gathers responses)
    (short : (ofBatch answers).data.length < UInt64.size) :
    List.Forall₂ Fills responses (answers.map slot) := by
  obtain ⟨content, slots, same, read, fills⟩ := gathers
  obtain rfl : (ofBatch answers).data = content := congrArg data same
  have known := Except.ok.inj
    ((read short).symm.trans (Abi.Signature.decodeOutput_multicall short))
  have listed := Abi.Value.array.inj (List.cons.inj known).1
  rwa [← List.map_injective_iff.mpr (fun _ _ => Abi.Value.bytes.inj) listed]

end Response

/-- Every answer of a dispatch is data or the report of an error. -/
theorem Plan.regular_of_run_course {σ : Type} [Store σ] {plan : Plan} {w : World σ}
    {response : Response} (h : (plan.course.run w).1 = .answered response) : response.Regular := by
  cases plan with
  | refused ctx cause =>
    rw [run_course_refused] at h
    cases h
    exact .ofError cause
  | invoke ctx signature handler args =>
    rw [run_course_invoke] at h
    exact Outcome.regular_of_ending h
  | batch ctx signature slots =>
    rw [run_course_batch] at h
    exact Outcome.regular_of_ending h

/-! ## Batches -/

namespace Table

variable {σ : Type} [Store σ] {t : Table}

/-- All functions of a table end, whatever they are called with. -/
def Finishes (σ : Type) [Store σ] (t : Table) : Prop :=
  ∀ selector signature handler, t.get? selector = some ⟨signature, .function handler⟩ →
    ∀ ctx args (w : World σ), ((handler ctx args).run w).1 ≠ .never

/-- All functions of a table end, whatever happens to the world between their operations. -/
def FinishesInFlight (σ : Type) [Store σ] (t : Table) : Prop :=
  ∀ selector signature handler, t.get? selector = some ⟨signature, .function handler⟩ →
    ∀ ctx args, ¬ (handler ctx args).Becomes σ (.done .never)

/-- The world after calls were dispatched one after the other, each in a context nested in the given
one: the one in which the next call of a batch is dispatched if no slot is held up. -/
def after (t : Table) (ctx : Context) (calls : List Bytes) (w : World σ) : World σ :=
  calls.foldl (fun w data => ((t.dispatch (ctx.nested data)).run w).2) w

/-- Every call is answered. -/
theorem Built.run_dispatch_answered (built : t.Built) (finishes : t.Finishes σ) (ctx : Context)
    (w : World σ) : ∃ response, ((t.dispatch ctx).run w).1 = .answered response := by
  refine built.run_planAt_answered ?_ w
  intro ctx' signature handler args member
  obtain ⟨inner, ctx'', -, hplan⟩ := of_mem_subplans_planAt member
  obtain ⟨-, selector, payload, -, hget, -⟩ := planAt_eq_invoke_iff.mp hplan.symm
  exact finishes selector signature handler hget ctx' args

theorem FinishesInFlight.finishes (finishes : t.FinishesInFlight σ) : t.Finishes σ := by
  intro selector signature handler hget ctx args w never
  have run := (handler ctx args).becomes_run w
  rw [never] at run
  exact finishes selector signature handler hget ctx args run

/-- Every call that has ended is answered, whatever happened in between. -/
theorem Built.answers_flight (built : t.Built) (finishes : t.FinishesInFlight σ) (ctx : Context) :
    (t.flight ctx).Answers σ := by
  refine Flight.answers_flight ?_ ?_
  · intro ctx' signature slots member
    obtain ⟨inner, ctx'', -, hplan⟩ := of_mem_subplans_planAt member
    exact built.signature_of_planAt hplan.symm
  · intro ctx' signature handler args member
    obtain ⟨inner, ctx'', -, hplan⟩ := of_mem_subplans_planAt member
    obtain ⟨-, selector, payload, -, hget, -⟩ := planAt_eq_invoke_iff.mp hplan.symm
    exact finishes selector signature handler hget ctx' args

theorem after_cons (t : Table) (ctx : Context) (data : Bytes) (rest : List Bytes) (w : World σ) :
    t.after ctx (data :: rest) w = t.after ctx rest ((t.dispatch (ctx.nested data)).run w).2 := rfl

theorem now_after (t : Table) (ctx : Context) (calls : List Bytes) (w : World σ) :
    (t.after ctx calls w).now = w.now := by
  induction calls generalizing w with
  | nil => rfl
  | cons data rest ih => rw [after_cons, ih, Course.run_now]

/-- Carrying out the plans of calls leaves the world that the calls leave. -/
theorem run_courses_dispatch (t : Table) (ctx : Context) (calls : List Bytes) (w : World σ) :
    ((Plan.courses (calls.map fun data => t.plan (ctx.nested data))).run w).2 =
      t.after ctx calls w := by
  induction calls generalizing w with
  | nil => rw [List.map_nil, Plan.run_courses_nil, after, List.foldl_nil]
  | cons data rest ih =>
    rw [List.map_cons, Plan.run_courses_cons, ih, after_cons, dispatch]

/-- How a call ends is how it is dispatched in the world that the calls before it leave. -/
theorem getElem?_run_courses_dispatch (t : Table) (ctx : Context) {calls : List Bytes} {k : Nat}
    (inside : k < calls.length) (w : World σ) :
    ((Plan.courses (calls.map fun data => t.plan (ctx.nested data))).run w).1[k]? =
      some ((t.dispatch (ctx.nested calls[k])).run (t.after ctx (calls.take k) w)).1 := by
  rw [Plan.getElem?_run_courses, ← List.map_take, run_courses_dispatch, List.getElem?_map,
    List.getElem?_eq_getElem inside]
  rfl

/-- A call of one byte has no selector and is refused. -/
theorem run_dispatch_short (t : Table) (ctx : Context) (w : World σ) :
    (t.dispatch (ctx.nested [0x00])).run w =
      (.answered (.error 400 "malformed request: calldata must be at least 4 bytes, got 1"), w) := by
  have short : splitSelector (ctx.nested [0x00]).data =
      .error (.malformedRequest "calldata must be at least 4 bytes, got 1") := by
    show splitSelector [0x00] = _
    decide
  have hplan : t.plan (ctx.nested [0x00]) = .refused (ctx.nested [0x00])
      (.malformedRequest "calldata must be at least 4 bytes, got 1") := by
    rw [plan, planAt, short]
  rw [dispatch, hplan, Plan.run_course_refused]
  rfl

section Multicall

variable {ctx : Context} {calls : List Bytes}

/-- The calldata of a batch is read back as the batch of its calls. -/
theorem reads_multicall {data : Bytes}
    (encoded : Abi.Signature.multicall.encodeCall [.array (calls.map .bytes)] = .ok data)
    (short : data.length < UInt64.size) : ∃ payload,
      splitSelector data = .ok (Abi.Signature.multicall.selector, payload) ∧
      Abi.Signature.multicall.decodeInput payload = .ok [.array (calls.map .bytes)] := by
  rw [Abi.Signature.encodeCall_multicall] at encoded
  injection encoded with encoded
  subst encoded
  rw [List.length_append] at short
  exact ⟨_, splitSelector_append .., Abi.Signature.decodeInput_multicall (by omega)⟩

theorem batches_of_encodeCall
    (encoded : Abi.Signature.multicall.encodeCall [.array (calls.map .bytes)] = .ok ctx.data)
    (short : ctx.data.length < UInt64.size) : ctx.Batches calls := by
  obtain ⟨payload, split, read⟩ := reads_multicall encoded short
  exact ⟨payload, _, split, read, Arguments.bytesArray_map calls⟩

theorem depth_nested (room : ctx.depth < maxBatches) (data : Bytes) :
    (ctx.nested data).depth = ctx.depth + 1 := by
  -- The depth is capped, but far above the bound on batches.
  have bound : maxBatches ≤ Context.maxDepth := by decide
  exact Nat.min_eq_left (by omega)

/-- Below the bound a batch is planned as the plans of its calls. -/
theorem plan_of_batches (holds : t.get? Abi.Signature.multicall.selector = some ⟨.multicall, .batch⟩)
    (batches : ctx.Batches calls) (room : ctx.depth < maxBatches) :
    t.plan ctx = .batch ctx .multicall (calls.map fun data => t.plan (ctx.nested data)) := by
  obtain ⟨payload, args, split, read, listed⟩ := batches
  have levels : maxBatches - ctx.depth = (maxBatches - (ctx.depth + 1)) + 1 := by omega
  refine planAt_eq_batch_iff.mpr ⟨rfl, _, _, _, calls, _, split, holds, read, levels, listed, ?_⟩
  refine List.map_congr_left fun data _ => ?_
  rw [plan, depth_nested room]

theorem plan_multicall (holds : t.get? Abi.Signature.multicall.selector = some ⟨.multicall, .batch⟩)
    (encoded : Abi.Signature.multicall.encodeCall [.array (calls.map .bytes)] = .ok ctx.data)
    (short : ctx.data.length < UInt64.size) (room : ctx.depth < maxBatches) :
    t.plan ctx = .batch ctx .multicall (calls.map fun data => t.plan (ctx.nested data)) :=
  plan_of_batches holds (batches_of_encodeCall encoded short) room

/-- At the bound a batch is refused. -/
theorem plan_multicall_of_deep
    (holds : t.get? Abi.Signature.multicall.selector = some ⟨.multicall, .batch⟩)
    (encoded : Abi.Signature.multicall.encodeCall [.array (calls.map .bytes)] = .ok ctx.data)
    (short : ctx.data.length < UInt64.size) (deep : maxBatches ≤ ctx.depth) :
    t.plan ctx = .refused ctx (.malformedRequest "multicall nested too deeply") := by
  obtain ⟨payload, split, read⟩ := reads_multicall encoded short
  rw [plan, Nat.sub_eq_zero_of_le deep, planAt]
  simp only [split, holds, read]

/-- Below the bound a batch whose calls are answered is answered with all of that. -/
theorem run_dispatch_of_batches
    (holds : t.get? Abi.Signature.multicall.selector = some ⟨.multicall, .batch⟩)
    (batches : ctx.Batches calls) (room : ctx.depth < maxBatches) {w : World σ}
    {responses : List Response}
    (answered : ((Plan.courses (calls.map fun data => t.plan (ctx.nested data))).run w).1 =
      responses.map .answered) :
    (t.dispatch ctx).run w = (.answered (.ofBatch responses), t.after ctx calls w) := by
  rw [dispatch, plan_of_batches holds batches room]
  refine Prod.ext ?_ ?_
  · exact Plan.run_course_batch_eq_answered_iff.mpr ⟨responses, answered, rfl⟩
  · rw [Plan.run_course_batch, run_courses_dispatch]

/-- Below the bound a batch is answered with a slot for each of its calls, which holds what the call is
answered with after the calls before it. -/
theorem run_dispatch_of_room (built : t.Built) (finishes : t.Finishes σ)
    (holds : t.get? Abi.Signature.multicall.selector = some ⟨.multicall, .batch⟩)
    (batches : ctx.Batches calls) (room : ctx.depth < maxBatches) (w : World σ) :
    ∃ responses, (t.dispatch ctx).run w = (.answered (.ofBatch responses), t.after ctx calls w) ∧
      responses.length = calls.length ∧
      ∀ k (inside : k < calls.length), ∃ response, responses[k]? = some response ∧
        ((t.dispatch (ctx.nested calls[k])).run (t.after ctx (calls.take k) w)).1 =
          .answered response := by
  have hplan := plan_of_batches holds batches room
  obtain ⟨answer, answered⟩ := built.run_dispatch_answered finishes ctx w
  rw [dispatch, hplan] at answered
  obtain ⟨responses, hresponses, rfl⟩ := Plan.run_course_batch_eq_answered_iff.mp answered
  have slots : ∀ k (inside : k < calls.length), responses[k]?.map .answered =
      some ((t.dispatch (ctx.nested calls[k])).run (t.after ctx (calls.take k) w)).1 := by
    intro k inside
    rw [← List.getElem?_map, ← hresponses, t.getElem?_run_courses_dispatch ctx inside]
  refine ⟨responses, ?_, ?_, ?_⟩
  · exact run_dispatch_of_batches holds batches room hresponses
  · have length := congrArg List.length hresponses
    rw [Plan.length_run_courses, List.length_map, List.length_map] at length
    exact length.symm
  · intro k inside
    obtain ⟨response, hresponse, heq⟩ := Option.map_eq_some_iff.mp (slots k inside)
    exact ⟨response, hresponse, heq.symm⟩

end Multicall

/-- A batch that has ended is answered with the answers to its calls, each in its place. -/
def Joins (σ : Type) [Store σ] (t : Table) (ctx : Context) (calls : List Bytes) (flight : Flight) :
    Prop :=
  ∃ slots, flight = .batch .multicall slots ∧
    List.Forall₂ (Flight.Becomes σ) (calls.map fun data => t.flight (ctx.nested data)) slots ∧
    ∀ ending, flight.ending? = some ending → ∃ (answer : Response) (responses : List Response),
      ending = .answered answer ∧ slots.map Flight.ending? = responses.map (some ∘ .answered) ∧
      answer.Gathers responses

/-- A batch is answered with what its calls are answered with when they are dispatched one after the other, and
the world is left as the last call leaves it. -/
def Folds (t : Table) (ctx : Context) (calls : List Bytes) (w : World σ) (ending : Ending Response)
    (w' : World σ) : Prop :=
  ∃ (answer : Response) (responses : List Response),
    ending = .answered answer ∧ answer.Gathers responses ∧ responses.length = calls.length ∧
    (∀ k (inside : k < calls.length), ∃ response, responses[k]? = some response ∧
      ((t.dispatch (ctx.nested calls[k])).run (t.after ctx (calls.take k) w)).1 = .answered response) ∧
    w' = t.after ctx calls w

section Turns

variable {ctx : Context} {calls : List Bytes}

theorem flight_of_batches (holds : t.get? Abi.Signature.multicall.selector = some ⟨.multicall, .batch⟩)
    (batches : ctx.Batches calls) (room : ctx.depth < maxBatches) :
    t.flight ctx = .batch .multicall (calls.map fun data => t.flight (ctx.nested data)) := by
  rw [flight, plan_of_batches holds batches room, Plan.flight, Flight.flights_eq_map, List.map_map]
  rfl

/-- The slots of a batch are its calls, in whatever order they take their turns. -/
theorem joins_of_becomes (built : t.Built) (finishes : t.FinishesInFlight σ)
    (holds : t.get? Abi.Signature.multicall.selector = some ⟨.multicall, .batch⟩)
    (batches : ctx.Batches calls) (room : ctx.depth < maxBatches) {flight : Flight}
    (become : (t.flight ctx).Becomes σ flight) : t.Joins σ ctx calls flight := by
  rw [flight_of_batches holds batches room] at become
  obtain ⟨slots, rfl, places⟩ := become.of_batch
  refine ⟨slots, rfl, places, fun ending ended => ?_⟩
  have each : ∀ slot ∈ calls.map fun data => t.flight (ctx.nested data), slot.Answers σ := by
    rw [List.forall_mem_map]
    intro data _
    exact built.answers_flight finishes (ctx.nested data)
  obtain ⟨responses, each, rfl, regular⟩ := Flight.exists_ofBatch each places ended
  exact ⟨_, responses, rfl, each, Response.gathers_ofBatch regular⟩

/-- Where no slot is held up, a batch folds the dispatcher over its calls. -/
theorem folds_of_inOrder (built : t.Built) (finishes : t.Finishes σ)
    (holds : t.get? Abi.Signature.multicall.selector = some ⟨.multicall, .batch⟩)
    (batches : ctx.Batches calls) (room : ctx.depth < maxBatches) {turns : List (List Nat)}
    {w : World σ} {ending : Ending Response} (inOrder : (t.flight ctx).InOrder turns w)
    (ended : ((t.flight ctx).after turns w).1.ending? = some ending) :
    t.Folds ctx calls w ending ((t.flight ctx).after turns w).2 := by
  have carried := Flight.run_of_inOrder inOrder ended
  obtain ⟨responses, hrun, length, each⟩ := run_dispatch_of_room built finishes holds batches room w
  rw [flight, Flight.course_flight, ← dispatch, hrun] at carried
  obtain ⟨rfl, left⟩ := Prod.mk.inj carried
  refine ⟨_, responses, rfl, Response.gathers_ofBatch ?_, length, each, left.symm⟩
  intro response member
  obtain ⟨k, inside, rfl⟩ := List.getElem_of_mem member
  obtain ⟨response, here, hdispatch⟩ := each k (length ▸ inside)
  rw [List.getElem?_eq_getElem inside] at here
  cases here
  exact Plan.regular_of_run_course hdispatch

end Turns

/-- Below the bound a batch ends in whatever order its slots take their turns, with their answers in the places
of the calls, also where others change the world between the turns; and where no slot is held up it folds the
dispatcher over its calls. At the bound it is refused and no call is dispatched. -/
theorem flight_multicall (built : t.Built) (finishes : t.Finishes σ)
    (holds : t.get? Abi.Signature.multicall.selector = some ⟨.multicall, .batch⟩)
    (calls : List Bytes) :
    ∃ data, Abi.Signature.multicall.encodeCall [.array (calls.map .bytes)] = .ok data ∧
      (data.length < UInt64.size → ∀ (ctx : Context) (w : World σ), ctx.data = data →
        (ctx.depth < maxBatches → (∀ inner, (ctx.nested inner).depth = ctx.depth + 1) ∧
          (t.FinishesInFlight σ → ∀ flight, (t.flight ctx).Becomes σ flight → t.Joins σ ctx calls flight) ∧
          (∀ turns, ∃ more ending, ((t.flight ctx).after (turns ++ more) w).1.ending? = some ending) ∧
          (∃ turns, (t.flight ctx).InOrder turns w ∧
            ∃ ending, ((t.flight ctx).after turns w).1.ending? = some ending) ∧
          ∀ turns ending, (t.flight ctx).InOrder turns w →
            ((t.flight ctx).after turns w).1.ending? = some ending →
            t.Folds ctx calls w ending ((t.flight ctx).after turns w).2) ∧
        (maxBatches ≤ ctx.depth → (t.plan ctx).contexts = [ctx] ∧
          ∀ turns, (t.flight ctx).after turns w = (.call (.done (.answered
            (.error 400 "malformed request: multicall nested too deeply"))), w))) := by
  have encoded := Abi.Signature.encodeCall_multicall calls
  refine ⟨_, encoded, fun short ctx w hdata => ⟨?_, ?_⟩⟩ <;> rw [← hdata] at encoded short
  · intro room
    have batches := batches_of_encodeCall encoded short
    refine ⟨depth_nested room,
      fun inFlight flight become => joins_of_becomes built inFlight holds batches room become,
      fun turns => ?_, Flight.exists_inOrder (t.flight ctx) w,
      fun turns ending inOrder ended => folds_of_inOrder built finishes holds batches room inOrder ended⟩
    obtain ⟨more, -, ending, ended⟩ := Flight.exists_inOrder ((t.flight ctx).after turns w).1
      ((t.flight ctx).after turns w).2
    exact ⟨more, ending, by rw [Flight.after_append, ended]⟩
  · intro deep
    have hplan := plan_multicall_of_deep holds encoded short deep
    refine ⟨by rw [hplan, Plan.contexts], fun turns => ?_⟩
    rw [flight, hplan, Plan.flight, Plan.course, Flight.after_done]
    rfl

end Table

/-! ## A function that waits -/

namespace Touch

/-- The signature of a function without parameters and results. -/
def signature : Abi.Signature := ⟨"touch", [], [], .nonpayable⟩

/-- A refusal if there was a record. -/
def verdict : Except StoreError (Option Record) → Outcome
  | .ok none => .reply {}
  | _ => .failure (.application 409 "touched already")

/-- Looks up the record of the node 1, waits for the remote chain, and makes the record. -/
def handler : Handler := fun _ _ =>
  .domain 1 fun found => .ask 0 [] fun _ => .change (.setContenthash 1 [0x01]) fun _ =>
    .done (verdict found)

/-- A table with the batch and the function. -/
def table : Table := Table.standard.add signature handler

/-- Two calls of the function. -/
def calls : List Bytes := [[0xa5, 0x55, 0x26, 0xdb], [0xa5, 0x55, 0x26, 0xdb]]

/-- The calldata of the batch of both. -/
def data : Bytes :=
  Bytes.ofBits Abi.Signature.multicall.selector ++ Abi.encode [.array (calls.map .bytes)]

/-- The context of the batch inside a number of batches. -/
def context (depth : Nat) : Context := ⟨0, data, data, none, depth⟩

/-- A world without records. -/
def world : World Memory := { store := Memory.empty, now := 0 }

theorem selector_signature : signature.selector = 0xa55526db := by
  refine Abi.Signature.selector_eq (by conv => lhs; cbv) ?_
  decide +kernel

theorem get?_table (selector : Selector) : table.get? selector =
    if selector = 0xa55526db then some ⟨signature, .function handler⟩
    else if selector = 0xac9650d8 then some ⟨.multicall, .batch⟩ else none := by
  rw [table, Table.get?_add, Table.get?_standard, selector_signature, Abi.Signature.selector_multicall]

theorem built_table : table.Built := .add .standard signature handler

theorem get?_multicall :
    table.get? Abi.Signature.multicall.selector = some ⟨.multicall, .batch⟩ := by
  rw [Abi.Signature.selector_multicall, get?_table]
  rfl

theorem finishes_handler (ctx : Context) (args : Arguments) :
    ¬ (handler ctx args).Becomes Memory (.done .never) := by
  have finished : ∀ found, verdict found ≠ .never := by
    rintro (_ | _ | _) <;> nofun
  intro h
  rcases h.cases_head with h | ⟨_, ⟨w, rfl⟩, h⟩
  · cases h
  · rcases h.cases_head with h | ⟨_, ⟨w', rfl⟩, h⟩
    · cases h
    · rcases h.cases_head with h | ⟨_, ⟨w'', rfl⟩, h⟩
      · cases h
      · exact finished _ (Course.done.inj (Course.Becomes.of_done h)).symm

theorem finishes_table : table.FinishesInFlight Memory := by
  intro selector signature handler h
  rw [get?_table] at h
  split at h
  · cases h
    exact finishes_handler
  · split at h <;> cases h

theorem length_data : data.length < UInt64.size := by
  rw [data, List.length_append, Bytes.length_ofBits, Abi.length_encode_array]
  decide

theorem plan_touch (ctx : Context) : table.plan (ctx.nested [0xa5, 0x55, 0x26, 0xdb]) =
    .invoke (ctx.nested [0xa5, 0x55, 0x26, 0xdb]) signature handler [] :=
  Table.planAt_eq_invoke_iff.mpr ⟨rfl, 0xa55526db, [], rfl, get?_table _, rfl⟩

/-- The record that the first call has made is found by a second one that is dispatched after it. -/
theorem run_dispatch_second (ctx : Context) : ((table.dispatch (ctx.nested [0xa5, 0x55, 0x26, 0xdb])).run
    (table.after ctx [[0xa5, 0x55, 0x26, 0xdb]] world)).1 = .answered (.error 409 "touched already") := by
  have found : Store.domain (Memory.empty.put 1 ((Memory.empty.getD 1).putContenthash [0x01])) 1 =
      .ok (some ((Memory.empty.getD 1).putContenthash [0x01])) :=
    congrArg Except.ok ((SortedMap.getElem?_insert ..).trans (if_pos rfl))
  rw [Table.after_cons, Table.dispatch, plan_touch, Plan.run_course_invoke, Plan.run_course_invoke]
  exact congrArg (fun found => Outcome.ending signature (verdict found)) found

/-- The answers to the calls if both look the record up before one makes it. -/
def unseen : List Response := [.ok [] none, .ok [] none]

theorem length_unseen : (Response.ofBatch unseen).data.length < UInt64.size := by
  show (Abi.encode [.array ((unseen.map Response.slot).map .bytes)]).length < UInt64.size
  rw [Abi.length_encode_array]
  decide

/-- Both slots look the record up, and then both wait. -/
theorem ending?_after : ((table.flight (context 0)).after [[0], [1], [0], [0], [1], [1]] world).1.ending? =
    some (.answered (.ofBatch unseen)) := by
  have encoded := Abi.Signature.encodeCall_multicall calls
  have batches : (context 0).Batches calls := Table.batches_of_encodeCall encoded length_data
  have nothing : Store.domain world.store 1 = .ok none := congrArg Except.ok Std.ExtTreeMap.getElem?_empty
  rw [Table.flight_of_batches get?_multicall batches (by decide)]
  simp only [calls, List.map_cons, List.map_nil, Table.flight, plan_touch, Plan.flight, Plan.course]
  refine congrArg some (Outcome.ending_ofSlots_eq_answered_iff.mpr ⟨_, ?_, rfl⟩)
  simp only [nothing]
  rfl

end Touch

open Touch in
/-- Both orders of the two calls end, and where no slot is held up they fold. Inside eight batches no call is
dispatched. -/
theorem touched_twice :
    table.Joins Memory (context 7) calls
      ((table.flight (context 7)).after [[0], [1], [0], [0], [1], [1]] world).1 ∧
    (∃ turns ending, (table.flight (context 7)).InOrder turns world ∧
      ((table.flight (context 7)).after turns world).1.ending? = some ending ∧
      table.Folds (context 7) calls world ending ((table.flight (context 7)).after turns world).2) ∧
    (table.plan (context 8)).contexts = [context 8] := by
  obtain ⟨data, encoded, folded⟩ :=
    Table.flight_multicall built_table finishes_table.finishes get?_multicall calls
  rw [Abi.Signature.encodeCall_multicall] at encoded
  injection encoded with encoded
  subst encoded
  obtain ⟨below, -⟩ := folded length_data (context 7) world rfl
  obtain ⟨-, deep⟩ := folded length_data (context 8) world rfl
  obtain ⟨-, joins, -, ⟨turns, inOrder, ending, ended⟩, folds⟩ := below (by decide)
  exact ⟨joins finishes_table _ (Flight.becomes_after ..),
    ⟨turns, ending, inOrder, ended, folds turns ending inOrder ended⟩, (deep (by decide)).1⟩

open Touch in
/-- A slot that waits lets the one after it act first, which then is not answered as after it. -/
theorem touched_at_once : table.Built ∧ table.FinishesInFlight Memory ∧
    table.get? Abi.Signature.multicall.selector = some ⟨.multicall, .batch⟩ ∧
    ∃ ending,
      ((table.flight (context 0)).after [[0], [1], [0], [0], [1], [1]] world).1.ending? = some ending ∧
      ¬ table.Folds (context 0) calls world ending
        ((table.flight (context 0)).after [[0], [1], [0], [0], [1], [1]] world).2 := by
  refine ⟨built_table, finishes_table, get?_multicall, _, ending?_after, ?_⟩
  rintro ⟨answer, responses, same, gathers, -, each, -⟩
  obtain rfl := Ending.answered.inj same
  obtain ⟨response, here, hdispatch⟩ := each 1 (by decide)
  obtain rfl : .error 409 "touched already" = response :=
    Ending.answered.inj ((run_dispatch_second (context 0)).symm.trans hdispatch)
  -- The second slot would have to hold the report of the refusal, but it is empty.
  have fills := gathers.forall₂_fills length_unseen
  obtain ⟨_, _, -, others, rfl⟩ := List.forall₂_cons_right_iff.mp fills
  obtain ⟨second, _, fill, -, rfl⟩ := List.forall₂_cons_right_iff.mp others
  cases here
  obtain ⟨text, -, empty⟩ := fill.2 (by decide)
  exact List.cons_ne_nil _ _ empty.symm

end OffchainNames
