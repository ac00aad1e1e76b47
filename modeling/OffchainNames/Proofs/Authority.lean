import OffchainNames.Authority
import OffchainNames.Proofs.Dispatch.Plan

/-!
# What an authorization is worth

A call has a signer iff it carries an authorization for this very call that has not ended and whose
signature recovers (`Domain.signerAt_eq_ok_iff`). All calls inside one outermost call have the same
signer (`Domain.signerAt_of_inherits`). Finding out who may write changes nothing in the store, and
where owners are looked up in the store, whoever may write to a node is its owner at that moment
(`Authority.run_authorize`).
-/

namespace OffchainNames

namespace Domain

variable {domain : Domain} {ctx : Context} {now : UInt64} {signer : Address}

/-- A call has a signer iff its authorization is about this call, has not ended, and recovers. -/
theorem signerAt_eq_ok_iff : domain.signerAt ctx now = .ok signer ↔
    ∃ auth, ctx.authorization = some auth ∧ auth.message.callData = ctx.rootData ∧
      auth.message.sender = ctx.sender ∧ now ≤ auth.message.expiration ∧
      auth.recover domain = .ok signer := by
  cases hauth : ctx.authorization with
  | none => simp [signerAt, hauth]
  | some auth =>
    simp only [signerAt, hauth, Option.some.injEq, exists_eq_left']
    constructor
    · intro h
      by_cases hdata : auth.message.callData = ctx.rootData
      · by_cases hsender : auth.message.sender = ctx.sender
        · by_cases hnow : auth.message.expiration < now
          · simp [hdata, hsender, hnow] at h
          · simp only [hdata, hsender, hnow, ne_eq, not_true, if_false] at h
            exact ⟨hdata, hsender, UInt64.not_lt.mp hnow, h⟩
        · simp [hdata, hsender] at h
      · simp [hdata] at h
    · rintro ⟨hdata, hsender, hnow, h⟩
      simpa only [hdata, hsender, UInt64.not_lt.mpr hnow, ne_eq, not_true, if_false] using h

theorem unauthorized_of_recoverSigner {bytes : Bytes} {digest : Word} {e : Error}
    (h : recoverSigner bytes digest = .error e) : ∃ detail, e = .unauthorized detail := by
  unfold recoverSigner at h
  split at h
  · cases h
    exact ⟨_, rfl⟩
  · split at h
    · cases h
      exact ⟨_, rfl⟩
    · cases h

/-- A call without a signer is unauthorized. -/
theorem unauthorized_of_signerAt {e : Error} (h : domain.signerAt ctx now = .error e) :
    ∃ detail, e = .unauthorized detail := by
  unfold signerAt at h
  split at h
  · cases h
    exact ⟨_, rfl⟩
  · rename_i auth hauth
    split at h
    · cases h
      exact ⟨_, rfl⟩
    · split at h
      · cases h
        exact ⟨_, rfl⟩
      · split at h
        · cases h
          exact ⟨_, rfl⟩
        · exact unauthorized_of_recoverSigner h

theorem status_signerAt {e : Error} (h : domain.signerAt ctx now = .error e) : e.status = 401 := by
  obtain ⟨detail, rfl⟩ := unauthorized_of_signerAt h
  rfl

/-- The signer depends on what a call inherits alone. -/
theorem signerAt_of_inherits {inner outer : Context} (h : inner.Inherits outer) (domain : Domain)
    (now : UInt64) : domain.signerAt inner now = domain.signerAt outer now := by
  unfold signerAt
  rw [h.sender, h.rootData, h.authorization]

end Domain

@[simp] theorem World.store_ask {σ : Type} (w : World σ) : w.ask.2.store = w.store := by
  unfold World.ask
  split <;> rfl

variable {σ : Type} [Store σ]

namespace Ownership

/-- Looking up an owner changes nothing in the store. -/
theorem store_run_verify (ownership : Ownership) (node : Word) (account : Address) (w : World σ) :
    ((ownership.verify node account).run w).2.store = w.store := by
  cases ownership with
  | stored => rfl
  | registry contract => simp [verify, registryOwner, Course.run]

/-- An account that the store confirms owns the node at that moment. -/
theorem owner_of_run_verify {node : Word} {account : Address} {w : World σ}
    (h : ((stored.verify node account).run w).1 = .ok true) :
    Store.owner w.store node = .ok (some account) := by
  simp only [verify, Course.run] at h
  cases hrecord : Store.domain w.store node with
  | error e =>
    rw [hrecord] at h
    cases h
  | ok record =>
    rw [hrecord] at h
    have howner : record.bind Record.registeredOwner? = some account := by simpa using h
    simp only [Store.owner, hrecord, Except.map, howner]

/-- A failure to look up an owner is no success. -/
theorem status_run_verify {ownership : Ownership} {node : Word} {account : Address} {w : World σ}
    {e : Error} (h : ((ownership.verify node account).run w).1 = .error e) : e.status ≠ 200 := by
  cases ownership with
  | stored =>
    simp only [verify, Course.run] at h
    split at h
    · cases h
      exact (by decide : (400 : UInt16) ≠ 200)
    · cases h
  | registry contract =>
    simp only [verify, registryOwner, Course.bind, Course.run] at h
    cases howner : readOwner w.ask.1 with
    | ok owner =>
      rw [howner] at h
      cases h
    | error cause =>
      rw [howner] at h
      cases h
      unfold readOwner at howner
      split at howner
      · cases howner
        exact (by decide : (500 : UInt16) ≠ 200)
      · split at howner
        · cases howner
        · cases howner
        · cases howner
          exact (by decide : (500 : UInt16) ≠ 200)

end Ownership

namespace Authority

theorem run_signer (authority : Authority) (ctx : Context) (w : World σ) :
    (authority.signer ctx).run w = (authority.domain.signerAt ctx w.now, w) := rfl

/-- Whoever may write to a node has signed the call, and owns the node if owners are looked up in the
store; nothing changes in the store. -/
theorem run_authorize (authority : Authority) (ctx : Context) (node : Word) (w : World σ) :
    ((authority.authorize ctx node).run w).2.store = w.store ∧
      ∀ signer, ((authority.authorize ctx node).run w).1 = .ok signer →
        authority.domain.signerAt ctx w.now = .ok signer ∧
          (authority.ownership = .stored → Store.owner w.store node = .ok (some signer)) := by
  rw [authorize, Course.run_bind, run_signer]
  cases hsigner : authority.domain.signerAt ctx w.now with
  | error e =>
    refine ⟨rfl, ?_⟩
    intro signer h
    cases h
  | ok account =>
    simp only [Course.run_bind]
    have kept := authority.ownership.store_run_verify node account w
    cases howns : ((authority.ownership.verify node account).run w).1 with
    | error e =>
      refine ⟨kept, ?_⟩
      intro signer h
      cases h
    | ok owns =>
      cases owns with
      | false =>
        refine ⟨kept, ?_⟩
        intro signer h
        cases h
      | true =>
        refine ⟨kept, ?_⟩
        intro signer h
        cases h
        refine ⟨rfl, ?_⟩
        intro hstored
        rw [hstored] at howns
        exact Ownership.owner_of_run_verify howns

/-- A refusal to let somebody write is no success. -/
theorem status_run_authorize {authority : Authority} {ctx : Context} {node : Word} {w : World σ}
    {e : Error} (h : ((authority.authorize ctx node).run w).1 = .error e) : e.status ≠ 200 := by
  rw [authorize, Course.run_bind, run_signer] at h
  cases hsigner : authority.domain.signerAt ctx w.now with
  | error cause =>
    rw [hsigner] at h
    cases h
    rw [Domain.status_signerAt hsigner]
    decide
  | ok account =>
    simp only [hsigner, Course.run_bind] at h
    cases howns : ((authority.ownership.verify node account).run w).1 with
    | error cause =>
      rw [howns] at h
      cases h
      exact Ownership.status_run_verify howns
    | ok owns =>
      rw [howns] at h
      cases owns with
      | true => cases h
      | false =>
        cases h
        exact (by decide : (401 : UInt16) ≠ 200)

/-- The owner that a store has for a node may write to it. -/
theorem run_authorize_of_owner {authority : Authority} {ctx : Context} {node : Word} {w : World σ}
    {signer : Address} (hstored : authority.ownership = .stored)
    (signed : authority.domain.signerAt ctx w.now = .ok signer)
    (owns : Store.owner w.store node = .ok (some signer)) :
    (authority.authorize ctx node).run w = (.ok signer, w) := by
  have verified : (authority.ownership.verify node signer).run w = (.ok true, w) := by
    rw [hstored]
    unfold Store.owner at owns
    simp only [Ownership.verify, Course.run]
    cases hrecord : Store.domain w.store node with
    | error e =>
      rw [hrecord] at owns
      cases owns
    | ok record =>
      rw [hrecord] at owns
      have howner : record.bind Record.registeredOwner? = some signer := Except.ok.inj owns
      simp only [howner, beq_self_eq_true]
  rw [authorize, Course.run_bind, run_signer, signed]
  simp only [Course.run_bind, verified, Course.run]

end Authority

end OffchainNames
