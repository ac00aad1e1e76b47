import OffchainNames.Proofs.Resolver.Reserved

/-!
# What a write is answered with

Over a store that holds what a store in memory could, the marking never fails: it hands on a response that is
read off this store, and marks the record that it looks up (`Integrity.run_process_of_mirrors`). Every store
that calls to a gateway reach from an empty one is of this kind (`Resolver.faithful_handleAll`). So a direct
write that is answered with success leaves the record of its node marked and all others as they are, and a
registration or a transfer is answered with a receipt: the node and the marker. A batch gets no receipt
(`Resolver.receipt_of_write`).
-/

namespace OffchainNames

namespace Integrity

/-- The response that the marking hands on where a store in memory is held. -/
def handOn (i : Integrity) (call : Call) (response : Response) (m : Memory) : Response :=
  match i.target? call response with
  | none => response
  | some node =>
    match m.records[node]? with
    | none => response
    | some record => i.respond call response node record.fingerprint

variable {i : Integrity} {call : Call} {response : Response} {m : Memory} {node : Word}

theorem handOn_of_record {record : Record} (target : i.target? call response = some node)
    (stored : m.records[node]? = some record) :
    i.handOn call response m = i.respond call response node record.fingerprint := by
  simp only [handOn, target, stored]

/-- Where calldata calls no function that answers with a node and a marker, the response stays. -/
theorem handOn_of_not_embeds (plain : i.embeds call.data = false) :
    i.handOn call response m = response := by
  unfold handOn
  split
  · rfl
  · split
    · rfl
    · simp only [respond, plain, Bool.false_eq_true, if_false]

theorem isSuccess_handOn (i : Integrity) (call : Call) (m : Memory)
    (success : response.isSuccess = true) : (i.handOn call response m).isSuccess = true := by
  unfold handOn
  split
  · exact success
  · split
    · exact success
    · exact isSuccess_respond i call success _ _

theorem embeds_eq {selector : Selector} {data payload : Bytes}
    (split : splitSelector data = .ok (selector, payload)) :
    i.embeds data = decide (selector ∈ i.embedded) := by
  simp only [embeds, split, List.contains_eq_mem]

/-- Over a backend that holds what a store in memory does, the marking does not fail: it hands a response on
and leaves the backend with what the store in memory holds after the marking. -/
theorem run_process_of_mirrors (i : Integrity) (call : Call) (response : Response) {w : World Backend}
    (mirrors : w.store.Mirrors m) :
    ∃ w', (i.process call response).run w = (.ok (i.handOn call response m), w') ∧
      w'.store.Mirrors (i.settle call response m) := by
  unfold process handOn settle target?
  by_cases success : response.isSuccess = true
  · rw [if_pos success, if_pos success]
    cases i.affected call.data with
    | none => exact ⟨w, rfl, mirrors⟩
    | some node =>
      simp only [mark, Course.run, mirrors.domain node, Memory.mark]
      cases stored : m.records[node]? with
      | none => exact ⟨w, rfl, mirrors⟩
      | some record =>
        have unrefused : m.refusal? (.setMarker node record.fingerprint) = none := by
          simp [Memory.refusal?, stored]
        have other : ∀ n owner ttl, Change.setMarker node record.fingerprint ≠ .register n owner ttl := by
          intro n owner ttl same
          cases same
        obtain ⟨b, applied, mirrors'⟩ := mirrors.apply_of_unrefused unrefused other
        have before : m.getD node = record := by rw [Memory.getD, stored, Option.getD_some]
        simp only [Change.node, before, Change.effect] at mirrors'
        simp only [Course.run, World.apply, applied]
        exact ⟨_, rfl, mirrors'⟩
  · rw [if_neg success, if_neg success]
    exact ⟨w, rfl, mirrors⟩

end Integrity

namespace Resolver

variable {r : Resolver} {call : Call} {w w' : World Backend} {response : Response} {m : Memory}

/-- From an empty store on, calls to the gateway leave what a store in memory could hold. -/
theorem faithful_handleAll (r : Resolver) {start : World Backend} (vacant : start.store.Vacant)
    (arrivals : List Arrival) : (r.gateway.handleAll arrivals start).store.Faithful := by
  refine Gateway.handleAll_preserves (I := Backend.Faithful) ?_ ?_ arrivals ⟨_, vacant.mirrors⟩
  · intro call w
    exact r.keeps_faithful (.ofCall call) w
  · intro stage member call response w faithful
    obtain rfl := List.mem_singleton.mp member
    rw [Integrity.run_stage]
    obtain same | ⟨node, marker, stored⟩ := Integrity.resolver.store_run_process call response w
    · rw [same]
      exact faithful
    · rw [stored]
      exact faithful.apply _

/-- Over a store that holds what a store in memory could, the table answers every call, and the gateway
answers it with what the marking hands on of that. -/
theorem run_handle_of_faithful (r : Resolver) (call : Call) (faithful : w.store.Faithful) :
    ∃ response w₁ m after,
      (r.table.dispatch (.ofCall call)).run w = (.answered response, w₁) ∧ w₁.store.Mirrors m ∧
      (r.gateway.handle call).run w = (.answered (Integrity.resolver.handOn call response m), after) ∧
      after.store.Mirrors (Integrity.resolver.settle call response m) := by
  obtain ⟨response, answered⟩ := r.run_planAt_answered _ (.ofCall call) w
  obtain ⟨w₁, dispatched⟩ : ∃ w₁, (r.table.dispatch (.ofCall call)).run w =
      (.answered response, w₁) := ⟨_, Prod.ext answered rfl⟩
  have reached := r.faithful_run_dispatch (.ofCall call) faithful
  rw [dispatched] at reached
  obtain ⟨m, mirrors⟩ := reached
  obtain ⟨after, processed, settled⟩ :=
    Integrity.resolver.run_process_of_mirrors call response mirrors
  have marked : (Integrity.resolver.stage.process call response).run w₁ =
      (.answered (.ok (Integrity.resolver.handOn call response m)), after) := by
    rw [Integrity.run_stage, processed]
  refine ⟨response, w₁, m, after, dispatched, mirrors, ?_, settled⟩
  rw [Gateway.run_handle_of_answered (g := r.gateway) dispatched]
  exact (Stage.run_processAll_of_ok marked []).trans (Stage.run_processAll_nil ..)

/-- A direct write that succeeds is answered without data, and puts a record in the place of that of its
node, which is the one to be marked. -/
theorem put_of_success {op : Operation} {payload : Bytes} (mirrors : w.store.Mirrors m)
    (writes : op.writes = true) (split : splitSelector call.data = .ok (op.selector, payload))
    (dispatched : (r.table.dispatch (.ofCall call)).run w = (.answered response, w'))
    (success : response.status = 200) :
    ∃ args node record, op.Calls args (.ofCall call) ∧ args.word 0 = .ok node ∧
      response = .ok [] none ∧ Integrity.resolver.target? call response = some node ∧
      w'.store.Mirrors (m.put node record) := by
  obtain ⟨args, calls⟩ := calls_of_success split (congrArg Prod.fst dispatched) success
  obtain ⟨node, command, signer, requested, -, applied, empty⟩ :=
    made_of_success writes calls dispatched success
  have word := (Operation.word_of_read requested).1
  have target : Integrity.resolver.target? call response = some node := by
    rw [Integrity.target?, if_pos (Response.isSuccess_iff.mpr success),
      Integrity.affected_of_tracked split (Operation.mem_tracked_iff.mpr ⟨op, writes, rfl⟩),
      calls.firstWord?_eq split word]
  have put := mirrors.put_of_apply_ok applied
  rw [Command.node_change] at put
  exact ⟨args, node, _, calls, word, empty, target, put⟩

/-- What a direct write that is answered with success leaves behind, and what it is answered with. -/
structure Receipt (op : Operation) (node : Word) (before after : Backend) (answer : Response)
    (record : Record) : Prop where
  stored : Store.domain after node = .ok (some record)
  marked : record.marker = some record.fingerprint
  others : ∀ other, other ≠ node → Store.domain after other = Store.domain before other
  /-- A registration and a transfer are answered with the node and the marker. -/
  embedded : op = .register ∨ op = .transfer →
    answer = .ok (Bytes.ofBits node ++ Bytes.ofBits record.fingerprint) none
  /-- Other writes are answered without data. -/
  plain : op ≠ .register → op ≠ .transfer → answer = .ok [] none

/-- The marking of the record that a direct write has put into the store makes up its receipt. -/
theorem receipt_of_put {op : Operation} {payload : Bytes} {node : Word} {record : Record}
    {before after : Backend} (split : splitSelector call.data = .ok (op.selector, payload))
    (target : Integrity.resolver.target? call (.ok [] none) = some node)
    (mirrors : before.Mirrors m)
    (settled : after.Mirrors (Integrity.resolver.settle call (.ok [] none) (m.put node record))) :
    Receipt op node before after
      (Integrity.resolver.handOn call (.ok [] none) (m.put node record)) record.marked := by
  have stored : (m.put node record).records[node]? = some record := Memory.getElem?_put_self ..
  have embeds : Integrity.resolver.embeds call.data = decide (op = .register ∨ op = .transfer) := by
    rw [Integrity.embeds_eq split, decide_eq_decide]
    exact Operation.mem_embedded_iff
  have settles : Integrity.resolver.settle call (.ok [] none) (m.put node record) =
      (m.put node record).mark node := by
    rw [Integrity.settle, target]
  rw [settles] at settled
  refine ⟨?_, record.marker_marked, ?_, ?_, ?_⟩
  · rw [settled.domain, Memory.getElem?_mark, if_pos rfl, stored, Option.map_some]
  · intro other different
    rw [settled.domain, mirrors.domain, Memory.getElem?_mark, if_neg different, Memory.getElem?_put,
      if_neg different]
  · intro embedded
    rw [Integrity.handOn_of_record target stored, Integrity.respond, embeds, decide_eq_true embedded,
      if_pos rfl]
    rfl
  · intro unregistered untransferred
    rw [Integrity.handOn_of_not_embeds]
    rw [embeds, decide_eq_false_iff_not, not_or]
    exact ⟨unregistered, untransferred⟩

/-- Over a store that holds what a store in memory could, a direct write that is answered with success leaves
a receipt for the node that is its first argument. -/
theorem receipt_of_faithful {op : Operation} {payload : Bytes} {answer : Response}
    (faithful : w.store.Faithful) (writes : op.writes = true)
    (split : splitSelector call.data = .ok (op.selector, payload))
    (handled : (r.gateway.handle call).run w = (.answered answer, w'))
    (success : answer.status = 200) :
    ∃ args node record, op.Calls args (.ofCall call) ∧ args.word 0 = .ok node ∧
      Receipt op node w.store w'.store answer record := by
  obtain ⟨response, w₁, m₁, after, dispatched, mirrors₁, handled', settled⟩ :=
    r.run_handle_of_faithful call faithful
  obtain ⟨answers, rfl⟩ := Prod.mk.inj (handled.symm.trans handled')
  obtain rfl := Ending.answered.inj answers
  have succeeded : response.status = 200 := by
    by_contra failed
    have unmarked : Integrity.resolver.target? call response = none :=
      if_neg fun h => failed (Response.isSuccess_iff.mp h)
    rw [Integrity.handOn, unmarked] at success
    exact failed success
  obtain ⟨m, mirrors⟩ := faithful
  obtain ⟨args, node, record, calls, word, rfl, target, put⟩ :=
    put_of_success mirrors writes split dispatched succeeded
  obtain rfl := put.right_unique mirrors₁
  exact ⟨args, node, record.marked, calls, word, receipt_of_put split target mirrors settled⟩

/-- After any calls from an empty store on, in either backend: a direct write that is answered with success
leaves the record of its node marked and all others as they were, and answers with the node and the marker,
or, if it is no registration or transfer, without data. A batch, whatever is in it, is answered with what
the table answers. -/
theorem receipt_of_write (r : Resolver) {start : World Backend} (vacant : start.store.Vacant)
    (arrivals : List Arrival) (a : Arrival) :
    (∀ (op : Operation) (payload : Bytes) (answer : Response) (after : World Backend),
      op.writes = true → splitSelector a.call.data = .ok (op.selector, payload) →
      (r.gateway.handle a.call).run (a.world (r.gateway.handleAll arrivals start)) =
        (.answered answer, after) → answer.status = 200 →
      ∃ args node record, op.Calls args (.ofCall a.call) ∧ args.word 0 = .ok node ∧
        Receipt op node (r.gateway.handleAll arrivals start).store after.store answer record) ∧
    ∀ payload : Bytes,
      splitSelector a.call.data = .ok (Abi.Signature.multicall.selector, payload) →
      ∃ response,
        ((r.table.dispatch (.ofCall a.call)).run (a.world (r.gateway.handleAll arrivals start))).1 =
          .answered response ∧
        ((r.gateway.handle a.call).run (a.world (r.gateway.handleAll arrivals start))).1 =
          .answered response := by
  have faithful : (a.world (r.gateway.handleAll arrivals start)).store.Faithful :=
    r.faithful_handleAll vacant arrivals
  constructor
  · intro op payload answer after writes split handled success
    exact receipt_of_faithful (w := a.world _) faithful writes split handled success
  · intro payload split
    obtain ⟨response, w₁, m, after, dispatched, -, handled, -⟩ :=
      r.run_handle_of_faithful a.call faithful
    have plain : Integrity.resolver.embeds a.call.data = false := by
      rw [Integrity.embeds_eq split, decide_eq_false_iff_not]
      exact Operation.multicall_not_embedded
    rw [Integrity.handOn_of_not_embeds plain] at handled
    exact ⟨response, congrArg Prod.fst dispatched, congrArg Prod.fst handled⟩

namespace Registration

/-- The registration of node 1 as the first call of a run. -/
def arrival : Arrival := ⟨request, 1700000000, []⟩

/-- A batch that asks for it again, now without an authorization. -/
def repeated : Arrival := ⟨TwoWrites.request none, 1700000001, []⟩

/-- The world in which the batch is handled. -/
def repeatedWorld : World Backend :=
  repeated.world (TwoWrites.resolver.gateway.handleAll [arrival] vacantWorld)

end Registration

/-- The registration of node 1 in empty tables is answered with its receipt, and a batch that asks for it
again is answered with what the table answers. -/
theorem registration_receipt :
    Registration.vacantWorld.store.Vacant ∧ Operation.register.writes = true ∧
    splitSelector Registration.request.data =
      .ok (Operation.register.selector, TwoWrites.registration.drop 4) ∧
    splitSelector TwoWrites.data =
      .ok (Abi.Signature.multicall.selector, TwoWrites.data.drop 4) ∧
    (∃ answer after record,
      (TwoWrites.resolver.gateway.handle Registration.request).run Registration.vacantWorld =
        (.answered answer, after) ∧ answer.status = 200 ∧
      Store.domain after.store 1 = .ok (some record) ∧ record.marker = some record.fingerprint ∧
      answer = .ok (Bytes.ofBits (1 : Word) ++ Bytes.ofBits record.fingerprint) none) ∧
    ∃ response,
      ((TwoWrites.resolver.table.dispatch (.ofCall (TwoWrites.request none))).run
        Registration.repeatedWorld).1 = .answered response ∧
      ((TwoWrites.resolver.gateway.handle (TwoWrites.request none)).run
        Registration.repeatedWorld).1 = .answered response := by
  have vacant : Registration.vacantWorld.store.Vacant := .tables
  have split := TwoWrites.split_registration
  have batch := (receipt_of_write TwoWrites.resolver vacant [Registration.arrival]
    Registration.repeated).2 _ TwoWrites.split_data
  refine ⟨vacant, rfl, split, TwoWrites.split_data, ?_, batch⟩
  obtain ⟨response, w₁, m, after, dispatched, -, handled, -⟩ :=
    TwoWrites.resolver.run_handle_of_faithful Registration.request ⟨_, vacant.mirrors⟩
  rw [Registration.run_dispatch_vacant] at dispatched
  cases dispatched
  have made : (Response.ok [] none).isSuccess = true := rfl
  have success := Response.isSuccess_iff.mp
    (Integrity.resolver.isSuccess_handOn Registration.request m made)
  obtain ⟨args, node, record, calls, word, receipt⟩ :=
    (receipt_of_write TwoWrites.resolver vacant [] Registration.arrival).1 .register _ _ _ rfl split
      handled success
  obtain ⟨args', calls', read⟩ := Registration.calls_register
  have one := calls'.firstWord?_eq split (Operation.word_of_read read).1
  obtain rfl : node = 1 := Option.some.inj ((calls.firstWord?_eq split word).symm.trans one)
  exact ⟨_, after, record, handled, success, receipt.stored, receipt.marked,
    receipt.embedded (.inl rfl)⟩

end Resolver

end OffchainNames
