import OffchainNames.Proofs.Resolver.WriteSafety

/-!
# Markers and writes

The record of a node is marked after a call that seems to have written to it. What was written is read
off the calldata and not off the answers inside a batch, so that the two may part. The marker of a node
moves without a write iff the last call of a batch that names a node to a function that writes names this
one, whether it succeeds or not, and the marker was stale (`Resolver.wrote_of_marker_moved_iff`). And a
record that was written is marked if its node is the one that the last such call names
(`Resolver.marked_of_content_changed`).
-/

namespace OffchainNames

namespace Resolver

/-- While a call is dispatched, some call names the node to a function that writes and is answered with
the status 200. -/
def Wrote (r : Resolver) (call : Call) (w : World Memory) (n : Word) : Prop :=
  ∃ plan w', (plan, w') ∈ (r.table.plan (.ofCall call)).visits w ∧
    Integrity.resolver.named? plan.context.data = some n ∧
    ∃ response, (plan.course.run w').1 = .answered response ∧ response.status = 200

/-- The call is a batch whose last call that names a node to a function that writes names this one, and
the record of the node is there but its marker is not the fingerprint. -/
structure Stale (r : Resolver) (call : Call) (w : World Memory) (n : Word) : Prop where
  batch : ∃ slots, r.table.plan (.ofCall call) = .batch (.ofCall call) .multicall slots
  /-- The last call that names a node to a function that writes names this one. -/
  last : (Integrity.resolver.named (r.table.plan (.ofCall call)).contexts).getLast? = some n
  /-- The marker is not the fingerprint. -/
  record : ∃ record, w.store.records[n]? = some record ∧ record.marker ≠ some record.fingerprint

variable {r : Resolver} {call : Call} {w : World Memory} {n : Word}

/-- Dispatching a call leaves the record of a node as it is, or it writes to the node. -/
theorem kept_or_wrote (r : Resolver) (call : Call) (w : World Memory) (n : Word) :
    ((r.table.plan (.ofCall call)).course.run w).2.store.records[n]? = w.store.records[n]? ∨
      r.Wrote call w n := by
  refine Plan.run_course_preserves (I := fun w' : World Memory =>
    w'.store.records[n]? = w.store.records[n]? ∨ r.Wrote call w n) ?_ (.inl rfl)
  intro ctx signature handler args w' visited hw'
  obtain ⟨-, op, payload, rfl, rfl, hsplit, hargs⟩ :=
    invoked_of_mem_subplans (Plan.mem_subplans_of_mem_visits visited)
  rcases hw' with same | wrote
  · have effect := r.effect_handler op ctx args w'
    rcases effect.kept_or_changed n with kept | ⟨command, signer, hread, houtcome, -, -, -⟩
    · exact .inl (kept.trans same)
    · refine .inr ⟨_, w', visited, named?_of_command hsplit hargs hread, .ok [] none, ?_, rfl⟩
      rw [Plan.run_course_invoke, houtcome, ending_reply_empty]
  · exact .inr wrote

/-- A record that is in the store stays there. -/
theorem isSome_run_plan (r : Resolver) (call : Call) (w : World Memory)
    (h : w.store.records[n]?.isSome = true) :
    ((r.table.plan (.ofCall call)).course.run w).2.store.records[n]?.isSome = true := by
  refine Plan.run_course_preserves (I := fun w' : World Memory => w'.store.records[n]?.isSome = true) ?_ h
  intro ctx signature handler args w' visited hw'
  obtain ⟨-, op, payload, rfl, rfl, -, -⟩ :=
    invoked_of_mem_subplans (Plan.mem_subplans_of_mem_visits visited)
  have effect := r.effect_handler op ctx args w'
  rcases effect.kept_or_changed n with kept | ⟨command, signer, -, -, -, -, -, hrecord⟩
  · rw [kept]
    exact hw'
  · rw [hrecord]
    rfl

/-- A call that is no batch writes only to the node that it names itself. -/
theorem named?_of_wrote (wrote : r.Wrote call w n)
    (direct : ∀ slots, r.table.plan (.ofCall call) ≠ .batch (.ofCall call) .multicall slots) :
    Integrity.resolver.named? call.data = some n := by
  obtain ⟨plan, w', visited, hnamed, -⟩ := wrote
  have member := Plan.mem_subplans_of_mem_visits visited
  have hctx : plan.context ∈ (r.table.plan (.ofCall call)).contexts := by
    rw [Plan.contexts_eq_map]
    exact List.mem_map.mpr ⟨plan, member, rfl⟩
  rw [Table.plan, r.built_table.contexts_of_no_batch direct, List.mem_singleton] at hctx
  rw [hctx] at hnamed
  exact hnamed

/-- The node that a call which is no batch names is the last one that is named. -/
theorem getLast?_named_of_direct
    (direct : ∀ slots, r.table.plan (.ofCall call) ≠ .batch (.ofCall call) .multicall slots) :
    (Integrity.resolver.named (r.table.plan (.ofCall call)).contexts).getLast? =
      Integrity.resolver.named? call.data := by
  rw [Table.plan, r.built_table.contexts_of_no_batch direct, Integrity.getLast?_named_singleton]
  rfl

/-- Without a signer nothing is written. -/
theorem not_wrote_of_unsigned
    (unsigned : ∀ signer, r.authority.domain.signerAt (.ofCall call) w.now ≠ .ok signer) :
    ¬ r.Wrote call w n := by
  rintro ⟨plan, w', visited, hnamed, response, hresponse, hstatus⟩
  have member := Plan.mem_subplans_of_mem_visits visited
  cases plan with
  | refused ctx cause =>
    obtain ⟨inner, ctx', -, hplan⟩ := Table.of_mem_subplans_planAt member
    rw [Plan.run_course_refused] at hresponse
    cases hresponse
    exact Table.status_of_planAt_refused hplan.symm hstatus
  | invoke ctx signature handler args =>
    obtain ⟨inherits, op, payload, rfl, rfl, hsplit, -⟩ := invoked_of_mem_subplans member
    rw [Plan.run_course_invoke] at hresponse
    have effect := r.effect_handler op ctx args w'
    generalize (r.handler op ctx args).run w' = ran at effect hresponse
    cases effect with
    | refused status kept =>
      cases hresponse
      exact status hstatus
    | answered requested found =>
      have reads := Operation.not_writes_of_request (Operation.word_of_read requested).2
      rw [writes_of_named? hsplit hnamed] at reads
      cases reads
    | changed requested unobjected permitted applied =>
      have signed := permitted.signed
      rw [Domain.signerAt_of_inherits inherits, Plan.now_of_mem_visits visited] at signed
      exact unsigned _ signed
    | rejected requested unobjected permitted applied =>
      cases hresponse
      exact absurd hstatus (by decide : (400 : UInt16) ≠ 200)
  | batch ctx signature slots =>
    obtain ⟨inner, ctx', -, hplan⟩ := Table.of_mem_subplans_planAt member
    obtain rfl := (Table.planAt_eq_batch_iff.mp hplan.symm).1
    rw [Plan.context, named?_of_batch hplan.symm] at hnamed
    cases hnamed

/-- The marker of a node is another one after the call than before it. -/
def Moved (r : Resolver) (call : Call) (w : World Memory) (n : Word) : Prop :=
  ((r.gateway.handle call).run w).2.store.marker n ≠ w.store.marker n

/-- A batch is answered with success. -/
theorem isSuccess_of_batch {slots : List Plan} {ctx : Context} {response : Response}
    (h : ((Plan.batch ctx .multicall slots).course.run w).1 = .answered response) :
    response.isSuccess = true := by
  obtain ⟨responses, -, rfl⟩ := Plan.run_course_batch_eq_answered_iff.mp h
  exact Response.isSuccess_ofBatch responses

/-- Where nothing was written to a node, its marker moves iff it was stale and the call is a batch whose
last call of those that name a node to a function that writes names this one. -/
theorem moved_iff_of_not_wrote (h : ¬ r.Wrote call w n) : r.Moved call w n ↔ r.Stale call w n := by
  obtain ⟨response, answer, w', dispatched, -, handled⟩ := r.run_handle call w
  have kept := (r.kept_or_wrote call w n).resolve_right h
  rw [dispatched] at kept
  have same : w.store.marker n = w'.store.marker n := by
    rw [Memory.marker, Memory.marker, kept]
  rw [Moved, handled, same, Integrity.marker_settle_ne_iff, Integrity.target?, r.affected_eq_named,
    kept]
  constructor
  · rintro ⟨htarget, hrecord⟩
    split at htarget
    · rename_i success
      refine ⟨Classical.byContradiction fun hbatch => ?_, htarget, hrecord⟩
      -- A call that is no batch and succeeds has written to the node that it names.
      have direct := not_exists.mp hbatch
      rw [getLast?_named_of_direct direct] at htarget
      refine h ⟨_, w, Plan.mem_visits_self _ w, ?_, response, ?_, Response.isSuccess_iff.mp success⟩
      · rw [Table.plan, Table.context_planAt]
        exact htarget
      · rw [dispatched]
    · cases htarget
  · rintro ⟨⟨slots, hbatch⟩, last, hrecord⟩
    have success : response.isSuccess = true := by
      rw [hbatch] at dispatched
      exact isSuccess_of_batch (congrArg Prod.fst dispatched)
    exact ⟨(if_pos success).trans last, hrecord⟩

/-- The marker of a node follows the writes to it, unless it was stale and the call is a batch whose last
call of those that name a node to a function that writes names this one. -/
theorem wrote_of_marker_moved_iff (r : Resolver) (call : Call) (w : World Memory) (n : Word) :
    (r.Moved call w n → r.Wrote call w n) ↔ (r.Stale call w n → r.Wrote call w n) := by
  by_cases h : r.Wrote call w n
  · simp [h]
  · rw [moved_iff_of_not_wrote h]

namespace TwoWrites

/-- The call names both nodes. -/
theorem named_request (auth? : Option Authorization) :
    Integrity.resolver.named (resolver.table.plan (.ofCall (request auth?))).contexts = [1, 2] := by
  obtain ⟨args₁, hargs₁, hread₁⟩ := Except.bind_eq_ok_iff.mp read_calls.1
  obtain ⟨args₂, hargs₂, hread₂⟩ := Except.bind_eq_ok_iff.mp read_calls.2.1
  have first : Integrity.resolver.named? registration = some 1 :=
    named?_of_command split_registration hargs₁ hread₁
  have second : Integrity.resolver.named? clearing = some 2 :=
    named?_of_command split_clearing hargs₂ hread₂
  obtain ⟨_, _, -, -, hplan⟩ := plan_request auth?
  rw [Table.plan] at hplan
  have outer : Integrity.resolver.named? (Context.ofCall (request auth?)).data = none :=
    named?_of_batch hplan
  rw [Table.plan, hplan, Plan.contexts, Integrity.named_cons_of_none outer,
    Plan.contextsOf_eq_flatMap]
  simp [Plan.contexts, Integrity.named, Context.nested, first, second]

/-- However the batch ends, node 2 is marked. -/
theorem run_handle_of_run_plan {auth? : Option Authorization} {responses : List Response}
    {w w' : World Memory}
    (h : (resolver.table.plan (.ofCall (request auth?))).course.run w =
      (.answered (.ofBatch responses), w')) :
    ∃ answer : Response, answer.status = 200 ∧ (resolver.gateway.handle (request auth?)).run w =
      (.answered answer, { w' with store := w'.store.mark 2 }) := by
  obtain ⟨response, answer, w'', dispatched, hsuccess, handled⟩ :=
    resolver.run_handle (request auth?) w
  rw [h] at dispatched
  cases dispatched
  have target : Integrity.resolver.target? (request auth?) (.ofBatch responses) = some 2 := by
    rw [Integrity.target?, if_pos (Response.isSuccess_ofBatch responses),
      resolver.affected_eq_named, named_request]
    rfl
  rw [Response.isSuccess_ofBatch] at hsuccess
  refine ⟨answer, Response.isSuccess_iff.mp hsuccess, ?_⟩
  rw [handled, Integrity.settle, target]

/-- Without an authorization nothing is written. -/
theorem not_wrote_two : ¬ resolver.Wrote (request none) vacant 2 := by
  refine not_wrote_of_unsigned ?_
  intro signer h
  cases h

end TwoWrites

/-- A batch without an authorization moves the marker of node 2, although nothing is written. -/
theorem moved_without_write : ¬ (TwoWrites.resolver.Moved (TwoWrites.request none) TwoWrites.vacant 2 →
    TwoWrites.resolver.Wrote (TwoWrites.request none) TwoWrites.vacant 2) := by
  intro claim
  refine TwoWrites.not_wrote_two (claim ((moved_iff_of_not_wrote TwoWrites.not_wrote_two).mpr ?_))
  obtain ⟨_, _, -, -, hplan⟩ := TwoWrites.plan_request none
  refine ⟨⟨_, hplan⟩, ?_, _, TwoWrites.getElem?_store_two 0 none, nofun⟩
  rw [TwoWrites.named_request]
  rfl

/-- After a call that is answered with the status 200, the record of a node whose contents changed is
marked with its fingerprint, if the call is direct or the last call inside the batch that names a node to
a function that writes names this one. -/
theorem marked_of_content_changed (r : Resolver) (call : Call) (w : World Memory) (n : Word)
    {answer : Response} (answered : ((r.gateway.handle call).run w).1 = .answered answer)
    (status : answer.status = 200)
    (changed : ((r.gateway.handle call).run w).2.store.content n ≠ w.store.content n)
    (last : ∀ slots, r.table.plan (.ofCall call) = .batch (.ofCall call) .multicall slots →
      (Integrity.resolver.named (r.table.plan (.ofCall call)).contexts).getLast? = some n) :
    ∃ record, ((r.gateway.handle call).run w).2.store.records[n]? = some record ∧
      record.marker = some record.fingerprint := by
  obtain ⟨response, answer', w', dispatched, hsuccess, handled⟩ := r.run_handle call w
  rw [handled] at answered changed
  cases answered
  rw [handled]
  have success : response.isSuccess = true := by
    rw [← hsuccess]
    exact Response.isSuccess_iff.mpr status
  rw [Integrity.content_settle] at changed
  have wrote : r.Wrote call w n := by
    have kept := r.kept_or_wrote call w n
    rw [dispatched] at kept
    refine kept.resolve_left ?_
    intro same
    rw [Memory.content, same, Memory.content] at changed
    exact changed rfl
  have target : Integrity.resolver.target? call response = some n := by
    rw [Integrity.target?, if_pos success, r.affected_eq_named]
    by_cases hbatch : ∃ slots, r.table.plan (.ofCall call) = .batch (.ofCall call) .multicall slots
    · obtain ⟨slots, hslots⟩ := hbatch
      exact last slots hslots
    · rw [getLast?_named_of_direct (not_exists.mp hbatch)]
      exact named?_of_wrote wrote (not_exists.mp hbatch)
  obtain ⟨record, hrecord⟩ : ∃ record, w'.store.records[n]? = some record := by
    cases hafter : w'.store.records[n]? with
    | some record => exact ⟨record, rfl⟩
    | none =>
      refine absurd ?_ changed
      rw [Memory.content, hafter, Memory.content]
      cases hbefore : w.store.records[n]? with
      | none => rfl
      | some record =>
        have stays := r.isSome_run_plan (n := n) call w (by rw [hbefore]; rfl)
        rw [dispatched, hafter] at stays
        cases stays
  refine ⟨record.marked, ?_, record.marker_marked⟩
  show (Integrity.resolver.settle call response w'.store).records[n]? = _
  rw [Integrity.settle, target]
  show (w'.store.mark n).records[n]? = _
  rw [Memory.getElem?_mark, if_pos rfl, hrecord]
  rfl

namespace TwoWrites

/-- The world in which node 1 has an owner and node 2 a content hash. -/
def occupied : World Memory := { store := store account (some [1]), now := 1700000000 }

/-- Where node 1 has an owner, the call clears the content hash of node 2 and changes nothing else. -/
theorem run_plan_occupied : ∃ first,
    (resolver.table.plan (.ofCall (request (some authorization)))).course.run occupied =
      (.answered (.ofBatch [first, .ok [] none]), { occupied with
        store := occupied.store.put 2 { node := 2, owner := account } }) := by
  have applied : Store.apply (.register 1 account 60) occupied.store =
      (.error (.alreadyRegistered 1), occupied.store) := by
    rw [Memory.apply_eq]
    simp only [Memory.refusal?, Memory.getD, Change.node, occupied, getElem?_store_one,
      Option.getD_some]
    rfl
  exact run_plan_authorized (by decide : occupied.now ≤ 4102444800) applied
    (getElem?_store_two account (some [1])) rfl

end TwoWrites

/-- Clearing the content hash of node 2 is such a change. -/
theorem marked_clearing : ∃ answer : Response,
    ((TwoWrites.resolver.gateway.handle (TwoWrites.request (some TwoWrites.authorization))).run
      TwoWrites.occupied).1 = .answered answer ∧ answer.status = 200 ∧
    ((TwoWrites.resolver.gateway.handle (TwoWrites.request (some TwoWrites.authorization))).run
      TwoWrites.occupied).2.store.content 2 ≠ TwoWrites.occupied.store.content 2 ∧
    (∀ slots, TwoWrites.resolver.table.plan
        (.ofCall (TwoWrites.request (some TwoWrites.authorization))) =
        .batch (.ofCall (TwoWrites.request (some TwoWrites.authorization))) .multicall slots →
      (Integrity.resolver.named (TwoWrites.resolver.table.plan
        (.ofCall (TwoWrites.request (some TwoWrites.authorization)))).contexts).getLast? = some 2) ∧
    ∃ record, ((TwoWrites.resolver.gateway.handle
        (TwoWrites.request (some TwoWrites.authorization))).run
        TwoWrites.occupied).2.store.records[(2 : Word)]? = some record ∧
      record.marker = some record.fingerprint := by
  obtain ⟨first, hrun⟩ := TwoWrites.run_plan_occupied
  obtain ⟨answer, status, handled⟩ := TwoWrites.run_handle_of_run_plan hrun
  have answered : ((TwoWrites.resolver.gateway.handle
      (TwoWrites.request (some TwoWrites.authorization))).run TwoWrites.occupied).1 =
      .answered answer := by
    rw [handled]
  have changed :
      ((TwoWrites.resolver.gateway.handle (TwoWrites.request (some TwoWrites.authorization))).run
        TwoWrites.occupied).2.store.content 2 ≠ TwoWrites.occupied.store.content 2 := by
    have before : TwoWrites.occupied.store.records[(2 : Word)]? = _ :=
      TwoWrites.getElem?_store_two TwoWrites.account (some [1])
    rw [handled, Memory.content_mark, Memory.content, Memory.content, Memory.getElem?_put_self,
      before]
    intro h
    exact absurd (congrArg (Option.map Record.contenthash) h) (by decide)
  have last : ∀ slots, TwoWrites.resolver.table.plan
        (.ofCall (TwoWrites.request (some TwoWrites.authorization))) =
        .batch (.ofCall (TwoWrites.request (some TwoWrites.authorization))) .multicall slots →
      (Integrity.resolver.named (TwoWrites.resolver.table.plan
        (.ofCall (TwoWrites.request (some TwoWrites.authorization)))).contexts).getLast? = some 2 := by
    intro slots _
    rw [TwoWrites.named_request]
    rfl
  exact ⟨answer, answered, status, changed, last, marked_of_content_changed TwoWrites.resolver
    (TwoWrites.request (some TwoWrites.authorization)) TwoWrites.occupied 2 answered status changed
    last⟩

/-- The last condition is needed: registering node 1 alone changes contents, but it is node 2 that is
marked, to which the last call wrote what was there already. -/
theorem registered_unmarked : ∃ answer : Response,
    ((TwoWrites.resolver.gateway.handle (TwoWrites.request (some TwoWrites.authorization))).run
      TwoWrites.vacant).1 = .answered answer ∧ answer.status = 200 ∧
    (∀ n, ((TwoWrites.resolver.gateway.handle
      (TwoWrites.request (some TwoWrites.authorization))).run TwoWrites.vacant).2.store.content n ≠
        TwoWrites.vacant.store.content n ↔ n = 1) ∧
    ¬ ∃ record, ((TwoWrites.resolver.gateway.handle
        (TwoWrites.request (some TwoWrites.authorization))).run
        TwoWrites.vacant).2.store.records[(1 : Word)]? = some record ∧
      record.marker = some record.fingerprint := by
  obtain ⟨first, hrun⟩ := TwoWrites.run_plan_vacant
  obtain ⟨answer, status, handled⟩ := TwoWrites.run_handle_of_run_plan hrun
  refine ⟨answer, by rw [handled], status, ?_, ?_⟩
  · intro n
    constructor
    · intro changed
      refine Classical.byContradiction fun hn => ?_
      rw [handled, Memory.content_mark, Memory.content, Memory.getElem?_put, if_neg hn] at changed
      exact changed rfl
    · rintro rfl
      exact TwoWrites.content_one_changed
  · rintro ⟨record, hrecord, hmarker⟩
    rw [handled, Memory.getElem?_mark, if_neg (by decide), Memory.getElem?_put_self] at hrecord
    cases hrecord
    cases hmarker

end Resolver

end OffchainNames
