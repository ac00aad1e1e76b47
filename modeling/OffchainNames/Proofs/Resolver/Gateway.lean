import OffchainNames.Proofs.Dispatch.Batch
import OffchainNames.Proofs.Dispatch.Stages
import OffchainNames.Proofs.Integrity.Marking
import OffchainNames.Proofs.Integrity.Search
import OffchainNames.Proofs.Resolver.Command

/-!
# The gateway of a resolver

Whatever is invoked inside a call to a resolver is one of its functions, with arguments that its
calldata holds (`Resolver.invoked_of_mem_subplans`); each of them ends, so that every call is answered.
The gateway that marks written records answers like the table does up to the data, and leaves the store
of the dispatch with at most one record marked (`Resolver.run_handle`).
-/

namespace OffchainNames

namespace Resolver

/-- The gateway of a resolver that marks the records that it writes. -/
def gateway (r : Resolver) : Gateway := ⟨r.table, [Integrity.resolver.stage]⟩

variable {r : Resolver} {ctx ctx' : Context} {levels : Nat} {signature : Abi.Signature}
  {handler : Handler} {args : Arguments}

/-- What is invoked inside a call is a function of the resolver, with arguments that its calldata
holds. -/
theorem invoked_of_mem_subplans
    (h : .invoke ctx' signature handler args ∈ (r.table.planAt levels ctx).subplans) :
    ctx'.Inherits ctx ∧ ∃ (op : Operation) (payload : Bytes), signature = op.signature ∧
      handler = r.handler op ∧ splitSelector ctx'.data = .ok (op.selector, payload) ∧
      op.signature.decodeInput payload = .ok args := by
  obtain ⟨inner, ctx'', inherits, hplan⟩ := Table.of_mem_subplans_planAt h
  obtain ⟨rfl, selector, payload, hsplit, hget, hargs⟩ := Table.planAt_eq_invoke_iff.mp hplan.symm
  refine ⟨inherits, ?_⟩
  rcases get?_table_eq_some_iff.mp hget with ⟨-, hentry⟩ | ⟨op, rfl, hentry⟩
  · cases hentry
  · cases hentry
    exact ⟨op, payload, rfl, rfl, hsplit, hargs⟩

/-- A call that gives a command names the node of the command. -/
theorem named?_of_command {op : Operation} {payload data : Bytes} {node : Word} {command : Command}
    (hsplit : splitSelector data = .ok (op.selector, payload))
    (hargs : op.signature.decodeInput payload = .ok args)
    (hread : op.read args = .ok (node, .command command)) :
    Integrity.resolver.named? data = some node := by
  obtain ⟨hword, hrequest⟩ := Operation.word_of_read hread
  obtain ⟨named, hfirst, hnamed⟩ := Operation.word_of_decodeInput hargs
  obtain rfl : named = node := by
    rw [hnamed] at hword
    exact Except.ok.inj hword
  have tracked : op.selector ∈ Integrity.resolver.tracked :=
    Operation.mem_tracked_iff.mpr ⟨op, Operation.writes_of_request hrequest, rfl⟩
  rw [Integrity.named?_of_split hsplit, if_pos tracked, hfirst]

/-- A function that is tracked writes. -/
theorem writes_of_named? {op : Operation} {payload data : Bytes} {n : Word}
    (hsplit : splitSelector data = .ok (op.selector, payload))
    (h : Integrity.resolver.named? data = some n) : op.writes = true := by
  rw [Integrity.named?_of_split hsplit] at h
  split at h
  · rename_i tracked
    obtain ⟨op', writes, hselector⟩ := Operation.mem_tracked_iff.mp tracked
    rw [← Operation.selector_injective hselector]
    exact writes
  · cases h

/-- The batch is not among the functions that write. -/
theorem multicall_not_tracked :
    Abi.Signature.multicall.selector ∉ Integrity.resolver.tracked := by
  intro h
  obtain ⟨op, -, hselector⟩ := Operation.mem_tracked_iff.mp h
  exact op.selector_ne_multicall hselector

/-- A batch names no node itself. -/
theorem named?_of_batch {slots : List Plan}
    (h : r.table.planAt levels ctx = .batch ctx' signature slots) :
    Integrity.resolver.named? ctx.data = none := by
  obtain ⟨-, selector, payload, _, _, _, hsplit, hget, -⟩ := Table.planAt_eq_batch_iff.mp h
  obtain ⟨rfl, -⟩ := r.built_table.of_batch hget
  rw [Integrity.named?_of_split hsplit, if_neg multicall_not_tracked]

/-- The node that is marked after a call is what the last call inside it names of those that are
dispatched and write. -/
theorem affected_eq_named (r : Resolver) (call : Call) :
    Integrity.resolver.affected call.data =
      (Integrity.resolver.named (r.table.plan (.ofCall call)).contexts).getLast? :=
  Integrity.affectedAt_eq_named r.built_table r.get?_table_multicall multicall_not_tracked _
    (.ofCall call)

/-- A function that returns nothing is answered with no data. -/
theorem ending_reply_empty (signature : Abi.Signature) :
    (Outcome.reply {}).ending signature = .answered (.ok [] none) := by
  simp [Outcome.ending, Abi.Signature.pack]

section Run

variable {σ : Type} [Store σ]

/-- Every function ends. -/
theorem run_handler_ne_never (r : Resolver) (op : Operation) (ctx : Context) (args : Arguments)
    (w : World σ) : ((r.handler op ctx args).run w).1 ≠ .never := by
  have effect := r.effect_handler op ctx args w
  intro hnever
  generalize (r.handler op ctx args).run w = ran at effect hnever
  cases effect <;> cases hnever

/-- Every call to a resolver is answered. -/
theorem run_planAt_answered (r : Resolver) (levels : Nat) (ctx : Context) (w : World σ) :
    ∃ response, ((r.table.planAt levels ctx).course.run w).1 = .answered response := by
  refine r.built_table.run_planAt_answered ?_ w
  intro ctx' signature handler args h w
  obtain ⟨-, op, payload, -, rfl, -, -⟩ := invoked_of_mem_subplans h
  exact r.run_handler_ne_never op ctx' args w

end Run

/-- In memory a function leaves the record of a node as it is, or it puts the effect of a command about
that node in the place of the record, for a signer who may give it. -/
theorem Effect.kept_or_changed {op : Operation} {w w' : World Memory} {outcome : Outcome}
    (effect : r.Effect op ctx args w (outcome, w')) (n : Word) :
    w'.store.records[n]? = w.store.records[n]? ∨
      ∃ command signer, op.read args = .ok (n, .command command) ∧ outcome = .reply {} ∧
        r.objection? command = none ∧ r.Permits ctx w n command signer ∧
        w.store.refusal? (command.change n signer) = none ∧
        w'.store.records[n]? = some ((command.change n signer).effect (w.store.getD n)) := by
  cases effect with
  | refused status kept => exact .inl (by rw [kept])
  | answered requested found => exact .inl rfl
  | rejected requested unobjected permitted applied =>
    exact .inl (by rw [Memory.eq_of_apply_error applied])
  | @changed node command signer _ requested unobjected permitted applied =>
    by_cases hnode : n = node
    · subst hnode
      obtain ⟨unrefused, hput⟩ := Memory.eq_of_apply_ok applied
      rw [Command.node_change] at hput
      refine .inr ⟨command, signer, requested, rfl, unobjected, permitted, unrefused, ?_⟩
      rw [hput, Memory.getElem?_put_self]
    · have other : n ≠ (command.change node signer).node := by
        rw [Command.node_change]
        exact hnode
      exact .inl (Memory.getElem?_apply_of_ne applied other)

/-- The gateway answers with success iff the dispatch does, and leaves the store of the dispatch with
the record of the written node marked. -/
theorem run_handle (r : Resolver) (call : Call) (w : World Memory) :
    ∃ response answer : Response, ∃ w' : World Memory,
      (r.table.plan (.ofCall call)).course.run w = (.answered response, w') ∧
      answer.isSuccess = response.isSuccess ∧ (r.gateway.handle call).run w =
        (.answered answer, { w' with store := Integrity.resolver.settle call response w'.store }) := by
  obtain ⟨response, hresponse⟩ := r.run_planAt_answered _ (.ofCall call) w
  obtain ⟨w', dispatched⟩ : ∃ w', (r.table.plan (.ofCall call)).course.run w =
      (.answered response, w') := ⟨_, Prod.ext hresponse rfl⟩
  obtain ⟨answer, hsuccess, hprocess⟩ := Integrity.resolver.run_process call response w'
  refine ⟨response, answer, w', dispatched, hsuccess, ?_⟩
  have marked : (Integrity.resolver.stage.process call response).run w' = (.answered (.ok answer),
      { w' with store := Integrity.resolver.settle call response w'.store }) := by
    rw [Integrity.run_stage, hprocess]
  rw [Gateway.run_handle_of_answered (g := r.gateway) dispatched]
  exact (Stage.run_processAll_of_ok marked []).trans (Stage.run_processAll_nil ..)

end Resolver

end OffchainNames
