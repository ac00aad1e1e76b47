import OffchainNames.Proofs.Authority
import OffchainNames.Proofs.Resolver.WriteSafety

/-!
# Under whose name functions run

A function that is invoked inside a batch runs for whoever made the outermost call. It sees the contract,
the whole calldata and the authorization of that call, however deep the batch is, and finds the same signer
at every time as the outermost call does (`Table.identity_of_invokes`). What its own calldata looks like
takes no part: it may repeat the outermost calldata, or be the outermost calldata of another call that was
signed.
-/

namespace OffchainNames

variable {σ : Type} [Store σ]

/-- A function is invoked in a context while a plan is carried out. -/
def Plan.Invokes (plan : Plan) (w : World σ) (ctx : Context) : Prop :=
  ∃ signature handler args w', (invoke ctx signature handler args, w') ∈ plan.visits w

/-- An account signed a call: it comes with an authorization for its own calldata and contract that has not
ended and whose signature recovers to the account. -/
def Call.SignedBy (call : Call) (domain : Domain) (now : UInt64) (signer : Address) : Prop :=
  ∃ auth, call.authorization = some auth ∧ auth.message.callData = call.data ∧
    auth.message.sender = call.recipient ∧ now ≤ auth.message.expiration ∧
    auth.recover domain = .ok signer

theorem Context.depth_nested_le (ctx : Context) (data : Bytes) :
    (ctx.nested data).depth ≤ ctx.depth + 1 := Nat.min_le_left ..

namespace Table

variable {t : Table}

/-- No call inside a call has more batches around it than could be opened. -/
theorem depth_of_mem_subplans_planAt {levels : Nat} {ctx : Context} {plan : Plan}
    (h : plan ∈ (t.planAt levels ctx).subplans) : plan.context.depth ≤ ctx.depth + levels := by
  have own : ∀ levels ctx, (t.planAt levels ctx).context.depth ≤ ctx.depth + levels := by
    intro levels ctx
    rw [t.context_planAt]
    exact Nat.le_add_right ..
  induction hp : t.planAt levels ctx using Plan.induction generalizing levels ctx with
  | refused ctx' cause | invoke ctx' signature handler args =>
    rw [hp, Plan.subplans, List.mem_singleton] at h
    rw [h, ← hp]
    exact own levels ctx
  | batch ctx' signature slots ih =>
    rw [hp, Plan.mem_subplans_batch] at h
    obtain rfl | ⟨slot, member, inside⟩ := h
    · rw [← hp]
      exact own levels ctx
    · -- A slot may open one batch less and has one more around it.
      obtain ⟨-, _, _, _, calls, inner, -, -, -, rfl, -, rfl⟩ := planAt_eq_batch_iff.mp hp
      obtain ⟨data, -, rfl⟩ := List.mem_map.mp member
      have bound := ih _ member inside rfl
      have step := ctx.depth_nested_le data
      omega

/-- Every function that is invoked for a call sees the contract, the calldata and the authorization of that
call, with at most eight batches around it. So it finds the signer that the call itself has: the account
that signed it, and none if nobody did. -/
theorem identity_of_invokes (t : Table) (call : Call) (w : World σ) (domain : Domain) (now : UInt64) :
    (∀ ctx, (t.plan (.ofCall call)).Invokes w ctx →
      ctx.sender = call.recipient ∧ ctx.rootData = call.data ∧
        ctx.authorization = call.authorization ∧ ctx.depth ≤ 8 ∧
        domain.signerAt ctx now = domain.signerAt (.ofCall call) now) ∧
    (∀ signer, domain.signerAt (.ofCall call) now = .ok signer ↔ call.SignedBy domain now signer) ∧
    ((∀ signer, ¬ call.SignedBy domain now signer) →
      ∃ detail, domain.signerAt (.ofCall call) now = .error (.unauthorized detail)) := by
  have signed : ∀ signer, domain.signerAt (.ofCall call) now = .ok signer ↔
      call.SignedBy domain now signer := fun signer => Domain.signerAt_eq_ok_iff
  refine ⟨?_, signed, ?_⟩
  · rintro ctx ⟨signature, handler, args, w', visited⟩
    have inside := Plan.mem_subplans_of_mem_visits visited
    have depth := depth_of_mem_subplans_planAt inside
    obtain ⟨levels, ctx', inherits, planned⟩ := of_mem_subplans_planAt inside
    have same := t.context_planAt levels ctx'
    rw [← planned] at same
    obtain rfl : ctx = ctx' := same
    exact ⟨inherits.sender, inherits.rootData, inherits.authorization, depth,
      Domain.signerAt_of_inherits inherits domain now⟩
  · intro nobody
    cases found : domain.signerAt (.ofCall call) now with
    | ok signer => exact absurd ((signed signer).mp found) (nobody signer)
    | error e =>
      obtain ⟨detail, rfl⟩ := Domain.unauthorized_of_signerAt found
      exact ⟨detail, rfl⟩

end Table

namespace Resolver.TwoWrites

/-- Both writes are invoked inside the batch. -/
theorem invokes_request (auth? : Option Authorization) (w : World Memory) :
    (resolver.table.plan (.ofCall (request auth?))).Invokes w
        ((Context.ofCall (request auth?)).nested registration) ∧
      (resolver.table.plan (.ofCall (request auth?))).Invokes w
        ((Context.ofCall (request auth?)).nested clearing) := by
  obtain ⟨args₁, args₂, -, -, planned⟩ := plan_request auth?
  rw [planned]
  simp only [Plan.Invokes, Plan.visits, Plan.visitsOf]
  constructor
  · exact ⟨_, _, _, _, List.mem_cons_of_mem _ (List.mem_cons_self ..)⟩
  · exact ⟨_, _, _, _, List.mem_cons_of_mem _ (List.mem_cons_of_mem _ (List.mem_cons_self ..))⟩

end Resolver.TwoWrites

/-- Both functions of the batch run for the account that signed it, and for nobody where it is not signed. -/
theorem two_writes_identity :
    (Resolver.TwoWrites.resolver.authority.domain.signerAt
        ((Context.ofCall (Resolver.TwoWrites.request (some Resolver.TwoWrites.authorization))).nested
          Resolver.TwoWrites.registration) 1700000000 = .ok Resolver.TwoWrites.account ∧
      Resolver.TwoWrites.resolver.authority.domain.signerAt
        ((Context.ofCall (Resolver.TwoWrites.request (some Resolver.TwoWrites.authorization))).nested
          Resolver.TwoWrites.clearing) 1700000000 = .ok Resolver.TwoWrites.account) ∧
    ∃ detail, Resolver.TwoWrites.resolver.authority.domain.signerAt
      ((Context.ofCall (Resolver.TwoWrites.request none)).nested Resolver.TwoWrites.clearing)
        1700000000 = .error (.unauthorized detail) := by
  have signed : (Resolver.TwoWrites.request (some Resolver.TwoWrites.authorization)).SignedBy
      Resolver.TwoWrites.resolver.authority.domain 1700000000 Resolver.TwoWrites.account :=
    ⟨_, rfl, rfl, rfl, by decide, Resolver.TwoWrites.recover_authorization⟩
  obtain ⟨same, signers, -⟩ := Table.identity_of_invokes Resolver.TwoWrites.resolver.table
    (Resolver.TwoWrites.request (some Resolver.TwoWrites.authorization)) Resolver.TwoWrites.vacant
    Resolver.TwoWrites.resolver.authority.domain 1700000000
  obtain ⟨first, second⟩ := Resolver.TwoWrites.invokes_request
    (some Resolver.TwoWrites.authorization) Resolver.TwoWrites.vacant
  obtain ⟨-, -, -, -, registering⟩ := same _ first
  obtain ⟨-, -, -, -, clearing⟩ := same _ second
  have signer := (signers _).mpr signed
  refine ⟨⟨registering.trans signer, clearing.trans signer⟩, ?_⟩
  obtain ⟨same, -, nobody⟩ := Table.identity_of_invokes Resolver.TwoWrites.resolver.table
    (Resolver.TwoWrites.request none) Resolver.TwoWrites.vacant
    Resolver.TwoWrites.resolver.authority.domain 1700000000
  obtain ⟨-, -, -, -, unsigned⟩ := same _
    (Resolver.TwoWrites.invokes_request none Resolver.TwoWrites.vacant).2
  obtain ⟨detail, refused⟩ := nobody (by rintro signer ⟨auth, carried, -⟩; cases carried)
  exact ⟨detail, unsigned.trans refused⟩

end OffchainNames
