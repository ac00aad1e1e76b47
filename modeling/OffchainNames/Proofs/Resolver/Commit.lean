import OffchainNames.Proofs.Dispatch.Failure
import OffchainNames.Proofs.Resolver.Direct
import OffchainNames.Proofs.Store.Owners

/-!
# Errors after a write was made

The marking looks the whole record of the written node up, after the write was made. It fails where what is
held of the node does not read, and the call is then answered with that failure, while the write stays
(`Resolver.answered_of_committed`). No write makes unreadable what reads, so this happens only to rows that
did not read before: those of a record, or texts and addresses that stood under a node without a row, which
nothing had looked at. Where owners are looked up in the store, every write but a registration reads the whole
record before, so that a registration alone is answered with a failure after it was made
(`Resolver.registered_unanswered`).
-/

namespace OffchainNames

namespace Integrity

variable {i : Integrity} {call : Call} {response : Response} {node : Word} {w : World Tables}

/-- The node of a tracked call is the first word of its arguments. -/
theorem affected_of_tracked {selector : Selector} {data payload : Bytes}
    (split : splitSelector data = .ok (selector, payload)) (tracked : selector ∈ i.tracked) :
    i.affected data = firstWord? payload := by
  unfold affected affectedAt
  simp [split, tracked]

/-- A record that does not read ends the call with the failure of the marking. -/
theorem run_process_of_unreadable {cause : StoreError} (success : response.isSuccess = true)
    (affected : i.affected call.data = some node)
    (unread : Store.domain w.store node = .error cause) : (i.process call response).run w =
      (.error (.signing ("integrity lookup failed: " ++ cause.message)), w) := by
  simp only [process, success, if_true, affected, mark, Course.run, unread]

/-- A record that reads is marked, and the response is handed on as a success. -/
theorem run_process_of_readable {held : Holding} {record : Option Record}
    (success : response.isSuccess = true) (affected : i.affected call.data = some node)
    (holds : w.store.holding? node = some held)
    (found : Store.domain w.store node = .ok record) :
    ∃ handedOn : Response, ∃ w', handedOn.isSuccess = true ∧
      (i.process call response).run w = (.ok handedOn, w') := by
  simp only [process, success, if_true, affected, mark, Course.run, found]
  cases record with
  | none => exact ⟨response, w, success, rfl⟩
  | some record =>
    have marked := Tables.apply_setMarker holds record.fingerprint
    simp only [Course.run, World.apply, marked]
    exact ⟨_, _, isSuccess_respond i call success _ _, rfl⟩

end Integrity

namespace Resolver

/-- The gateway of a resolver that marks the records that it writes and signs its answers. -/
def signingGateway (r : Resolver) (signer : Signer) (time : Option UInt64) : Gateway :=
  ⟨r.table, [Integrity.resolver.stage, signer.stage time]⟩

variable {r : Resolver} {op : Operation} {call : Call} {payload : Bytes} {w w' : World Tables}
  {response : Response}

/-- A write that was made is about the node that is marked. It leaves the node with a row, and what is held of
the node reads if what was found of it did, as it does if it had to be read to find the owner of the node. -/
theorem holding_of_committed (writes : op.writes = true)
    (split : splitSelector call.data = .ok (op.selector, payload))
    (dispatched : (r.table.dispatch (.ofCall call)).run w = (.answered response, w'))
    (success : response.status = 200) :
    ∃ node held, Integrity.firstWord? payload = some node ∧
      w'.store.holding? node = some held ∧
      ((w.store.getD node).Reads → held.Reads) ∧
      (r.authority.ownership = .stored → op ≠ .register → (w.store.getD node).Reads) := by
  obtain ⟨args, calls⟩ := calls_of_success split (congrArg Prod.fst dispatched) success
  obtain ⟨node, command, signer, requested, permitted, applied⟩ :=
    changed_of_success writes calls dispatched success
  obtain ⟨held, holds, reads⟩ := Tables.holding_of_apply_ok applied
  rw [Command.node_change] at holds reads
  have named := calls.firstWord?_eq split (Operation.word_of_read requested).1
  refine ⟨node, held, named, holds, reads, ?_⟩
  intro hstored other
  -- The store has told the owner, and for that it has read the whole record.
  have owns := permitted.owns hstored (calls.takes.not_registers other requested)
  obtain ⟨before, found, reads, -⟩ := Tables.owner_eq_some_iff.mp owns
  rw [Tables.getD_of_holding? found]
  exact reads

/-- After a success, a written record that does not read is answered with the failure of the marking. -/
theorem run_handle_of_unreadable {signer : Signer} {time : Option UInt64} {node : Word}
    {cause : StoreError}
    (dispatched : (r.table.dispatch (.ofCall call)).run w = (.answered response, w'))
    (success : response.isSuccess = true)
    (affected : Integrity.resolver.affected call.data = some node)
    (unread : Store.domain w'.store node = .error cause) :
    ((r.signingGateway signer time).handle call).run w = (.answered
      (.ofError (.signing ("integrity lookup failed: " ++ cause.message))), w') := by
  have failed := Integrity.run_process_of_unreadable success affected unread
  rw [Gateway.run_handle_of_answered (g := r.signingGateway signer time) dispatched, signingGateway,
    Stage.processAll, Course.run_bind, Integrity.run_stage, failed]
  rfl

/-- A write that was made is answered with success iff the record of the node reads afterwards. That is so if
it was found before, if it was absent and no text or address that does not read stood under the node, and
where owners are looked up in the store for every write but a registration. Otherwise the write stays and the
answer is the failure of the marking. -/
theorem answered_of_committed (r : Resolver) (signer : Signer) (time : Option UInt64)
    (writes : op.writes = true) (split : splitSelector call.data = .ok (op.selector, payload))
    (dispatched : (r.table.dispatch (.ofCall call)).run w = (.answered response, w'))
    (success : response.status = 200) :
    ∃ node answer after, Integrity.firstWord? payload = some node ∧
      ((r.signingGateway signer time).handle call).run w = (.answered answer, after) ∧
      (answer.status = 200 ↔ ∃ record, Store.domain w'.store node = .ok record) ∧
      ((∃ record, Store.domain w.store node = .ok (some record)) → answer.status = 200) ∧
      (Store.domain w.store node = .ok none → w.store.RowsRead node → answer.status = 200) ∧
      (r.authority.ownership = .stored → op ≠ .register → answer.status = 200) ∧
      ∀ cause, Store.domain w'.store node = .error cause →
        answer = .ofError (.signing ("integrity lookup failed: " ++ cause.message)) ∧
          after.store = w'.store := by
  obtain ⟨node, held, named, holds, kept, read⟩ := holding_of_committed writes split dispatched success
  have isSuccess : response.isSuccess = true := Response.isSuccess_iff.mpr success
  have affected : Integrity.resolver.affected call.data = some node := by
    rw [Integrity.affected_of_tracked split (Operation.mem_tracked_iff.mpr ⟨op, writes, rfl⟩), named]
  have reads_iff : (∃ record, Store.domain w'.store node = .ok record) ↔ held.Reads := by
    rw [Tables.domain_reads_iff]
    simp only [holds, Option.some.injEq, forall_eq']
  -- Whatever the reason, what was found read before and so reads afterwards.
  have enough {answer : Response} (h : answer.status = 200 ↔ held.Reads) :
      ((∃ record, Store.domain w.store node = .ok (some record)) → answer.status = 200) ∧
      (Store.domain w.store node = .ok none → w.store.RowsRead node → answer.status = 200) ∧
      (r.authority.ownership = .stored → op ≠ .register → answer.status = 200) := by
    refine ⟨?_, ?_, ?_⟩
    · rintro ⟨record, found⟩
      exact h.mpr (kept (Tables.reads_getD_of_domain found))
    · intro absent rows
      exact h.mpr (kept (Tables.reads_getD_of_absent absent rows))
    · intro hstored other
      exact h.mpr (kept (read hstored other))
  cases found : Store.domain w'.store node with
  | error cause =>
    have unread : ¬ held.Reads := by
      intro reads
      obtain ⟨record, h⟩ := reads_iff.mpr reads
      rw [found] at h
      cases h
    let answer := Response.ofError (.signing ("integrity lookup failed: " ++ cause.message))
    have failed : answer.status = 200 ↔ held.Reads :=
      iff_of_false (fun h => absurd h (by decide : (500 : UInt16) ≠ 200)) unread
    obtain ⟨ofFound, ofAbsent, ofStored⟩ := enough failed
    refine ⟨node, answer, w', named, run_handle_of_unreadable dispatched isSuccess affected found,
      ?_, ofFound, ofAbsent, ofStored, ?_⟩
    · rw [failed, ← reads_iff, found]
    · intro cause' h
      obtain rfl : cause = cause' := Except.error.inj (found.symm.trans h)
      exact ⟨rfl, rfl⟩
  | ok record =>
    obtain ⟨handedOn, w'', handedOnSuccess, processed⟩ :=
      Integrity.run_process_of_readable isSuccess affected holds found
    obtain ⟨content, expires, signed⟩ :=
      run_processAll_of_marked signer time processed handedOnSuccess
    have handled := Gateway.run_handle_of_answered (g := r.signingGateway signer time) dispatched
    have answered : (Response.ok content (some expires)).status = 200 ↔ held.Reads :=
      iff_of_true rfl (reads_iff.mp ⟨record, found⟩)
    obtain ⟨ofFound, ofAbsent, ofStored⟩ := enough answered
    refine ⟨node, .ok content (some expires), _, named, handled.trans (Prod.ext signed rfl), ?_,
      ofFound, ofAbsent, ofStored, ?_⟩
    · rw [answered, ← reads_iff, found]
    · intro cause h
      exact absurd (found.symm.trans h) (fun h => nomatch h)

/-! ## A registration over a row that does not read -/

namespace Registration

/-- A row without an owner whose content hash does not read. -/
def unreadable : Holding := { owner := Tables.noOwner, contenthash := some "zz" }

/-- A world in which this is the row of node 1. -/
def unreadableWorld : World Tables := { store := Tables.empty.put 1 unreadable, now := 1700000000 }

/-- The world after the registration. -/
def registeredWorld : World Tables := { unreadableWorld with
  store := unreadableWorld.store.put 1
    { unreadable with owner := TwoWrites.account.lower, ttl := .typed 60 } }

/-- A world of tables without a row. -/
def emptyWorld : World Tables := { store := .empty, now := 1700000000 }

theorem run_dispatch_empty : (TwoWrites.resolver.table.dispatch (.ofCall request)).run emptyWorld =
    (.answered (.ok [] none), { emptyWorld with
      store := Tables.empty.put 1 { owner := TwoWrites.account.lower, ttl := .typed 60 } }) := by
  have fits : (60 : UInt64).toNat ≤ Tables.maxTtl := by decide
  exact run_dispatch (by decide) (Tables.apply_register_empty fits 1 TwoWrites.account)

theorem affected_request : Integrity.resolver.affected request.data = some 1 := by
  have tracked : Operation.register.selector ∈ Integrity.resolver.tracked :=
    Operation.mem_tracked_iff.mpr ⟨.register, rfl, rfl⟩
  rw [request, Integrity.affected_of_tracked TwoWrites.split_registration tracked]
  decide

theorem run_dispatch_unreadable :
    (TwoWrites.resolver.table.dispatch (.ofCall request)).run unreadableWorld =
      (.answered (.ok [] none), registeredWorld) := by
  have held : unreadableWorld.store.holding? 1 = some unreadable := by
    rw [unreadableWorld, Tables.holding?_put, if_pos rfl]
  have unowned : unreadable.OwnedBy 0 := ⟨_, rfl, Address.parse_lower 0⟩
  have fits : (60 : UInt64).toNat ≤ Tables.maxTtl := by decide
  have applied := Tables.apply_register fits (Tables.hasOwner_of_ownedBy held unowned) TwoWrites.account
  rw [Tables.getD_of_holding? held] at applied
  exact run_dispatch (by decide) applied

theorem domain_registered : Store.domain registeredWorld.store 1 = .error
    (Tables.unreadable "contenthash" "zz" (Hex.Error.invalidCharacter 122 0).message) := by
  have held : registeredWorld.store.holding? 1 =
      some { unreadable with owner := TwoWrites.account.lower, ttl := .typed 60 } := by
    rw [registeredWorld, Tables.holding?_put, if_pos rfl]
  have texts := Tables.readText_readsBack.readRows Tables.Shows.empty
  have addresses := Tables.readAddress_readsBack.readRows Tables.Shows.empty
  have owner : Tables.readColumn "owner" TwoWrites.account.lower Address.parse = .ok TwoWrites.account :=
    Tables.readColumn_eq_ok_iff.mpr (Address.parse_lower TwoWrites.account)
  have contenthash : Tables.readColumn "contenthash" "zz" Hex.decode =
      .error (Tables.unreadable "contenthash" "zz" (Hex.Error.invalidCharacter 122 0).message) := by
    decide
  simp only [Store.domain, held, Tables.readHolding, unreadable, Cell.read, Cell.readOptional, Except.map,
    Except.ok_bind, texts, addresses, owner, Tables.readTtl, Tables.readOptional, contenthash]
  rfl

end Registration

/-- Over a row that reads, or where there is none, it is answered with success. -/
theorem registered_answered : ∃ node answer after,
    Integrity.firstWord? (TwoWrites.registration.drop 4) = some node ∧
    ((TwoWrites.resolver.signingGateway DeclaredSuccess.signer (some 0)).handle
      Registration.request).run Registration.emptyWorld = (.answered answer, after) ∧
    answer.status = 200 := by
  obtain ⟨node, answer, after, named, handled, -, -, ofAbsent, -⟩ :=
    answered_of_committed TwoWrites.resolver DeclaredSuccess.signer (some 0) rfl
      TwoWrites.split_registration Registration.run_dispatch_empty rfl
  have absent : Store.domain Tables.empty node = .ok none := by
    simp [Store.domain, Tables.holding?, Tables.empty]
  have rows : Tables.empty.RowsRead node := by
    constructor <;> simp [Tables.getD, Tables.under, Tables.empty]
  exact ⟨node, answer, after, named, handled, ofAbsent absent rows⟩

/-- Over a row that does not read, a registration is made and answered with a failure. -/
theorem registered_unanswered :
    Registration.registeredWorld.store.holding? 1 ≠ Registration.unreadableWorld.store.holding? 1 ∧
    (TwoWrites.resolver.table.dispatch (.ofCall Registration.request)).run
        Registration.unreadableWorld = (.answered (.ok [] none), Registration.registeredWorld) ∧
    ∃ answer, ((TwoWrites.resolver.signingGateway DeclaredSuccess.signer (some 0)).handle
        Registration.request).run Registration.unreadableWorld =
      (.answered answer, Registration.registeredWorld) ∧ answer.status = 500 := by
  have dispatched := Registration.run_dispatch_unreadable
  refine ⟨?_, dispatched, _, run_handle_of_unreadable dispatched rfl Registration.affected_request
    Registration.domain_registered, rfl⟩
  rw [Registration.registeredWorld, Tables.holding?_put, if_pos rfl, Registration.unreadableWorld,
    Tables.holding?_put, if_pos rfl]
  intro same
  have ttl := congrArg (fun held : Holding => held.ttl) (Option.some.inj same)
  exact absurd ttl (by decide)

end Resolver

end OffchainNames
