import OffchainNames.Proofs.Store.Rows
import OffchainNames.Store.Backend

/-!
# Either store as a store in memory

Whichever store is chosen, a refused change leaves it as it is (`Backend.eq_of_apply_error`). What a
backend holds is stated as a store in memory: the records themselves, or records that the rows show
(`Backend.Mirrors`). A change that a backend makes is then one to the record of one node
(`Backend.Mirrors.put_of_apply_ok`), and every node is looked up with success
(`Backend.Mirrors.domain`). A backend without a record mirrors the empty store in memory, and no change
takes a backend out of these states (`Backend.Faithful.apply`).
-/

namespace OffchainNames

namespace Backend

/-- A refused change leaves the backend as it is. -/
theorem eq_of_apply_error {c : Change} {b b' : Backend} {cause : StoreError}
    (h : Store.apply c b = (.error cause, b')) : b' = b := by
  cases b with
  | memory m =>
    rw [apply_memory] at h
    obtain ⟨refused, rfl⟩ := Prod.mk.inj h
    exact congrArg memory (Memory.eq_of_apply_error (Prod.ext refused rfl))
  | tables t =>
    rw [apply_tables] at h
    obtain ⟨refused, rfl⟩ := Prod.mk.inj h
    exact congrArg tables (Tables.eq_of_apply_error (Prod.ext refused rfl))

/-- A backend holds what a store in memory does. -/
def Mirrors : Backend → Memory → Prop
  | memory records, m => records = m
  | tables t, m => t.Mirrors m

namespace Mirrors

variable {b b' : Backend} {m : Memory} {c : Change}

/-- A node is looked up as it is in memory. -/
theorem domain (h : b.Mirrors m) (node : Word) : Store.domain b node = .ok m.records[node]? := by
  cases b with
  | memory records =>
    obtain rfl : records = m := h
    rfl
  | tables t => exact (Tables.Mirrors.sameAnswers h).domain node

/-- What a backend holds is one store in memory only. -/
theorem right_unique {m' : Memory} (h : b.Mirrors m) (h' : b.Mirrors m') : m = m' :=
  Memory.ext_getElem? fun node => Except.ok.inj ((h.domain node).symm.trans (h'.domain node))

/-- A change that is made puts its effect on the record in the place of the record. -/
theorem put_of_apply_ok (h : b.Mirrors m) (made : Store.apply c b = (.ok (), b')) :
    b'.Mirrors (m.put c.node (c.effect (m.getD c.node))) := by
  cases b with
  | memory records =>
    obtain rfl : records = m := h
    rw [apply_memory] at made
    obtain ⟨hmade, rfl⟩ := Prod.mk.inj made
    exact (Memory.eq_of_apply_ok (Prod.ext hmade rfl)).2
  | tables t =>
    rw [apply_tables] at made
    obtain ⟨hmade, rfl⟩ := Prod.mk.inj made
    have fits : ∀ node owner ttl, c = .register node owner ttl → ttl.toNat ≤ Tables.maxTtl := by
      rintro node owner ttl rfl
      exact Tables.fits_of_register (Prod.ext hmade rfl)
    obtain ⟨answer, after⟩ := Tables.Mirrors.apply h fits
    have inMemory : Store.apply c m = (.ok (), (Store.apply c m).2) :=
      Prod.ext (answer.symm.trans hmade) rfl
    rw [inMemory] at after
    show (Store.apply c t).2.Mirrors _
    rw [← (Memory.eq_of_apply_ok inMemory).2]
    exact after

/-- A change that memory does not refuse is made, unless it is a registration, whose ttl may be too long for
a row. -/
theorem apply_of_unrefused (h : b.Mirrors m) (unrefused : m.refusal? c = none)
    (other : ∀ node owner ttl, c ≠ .register node owner ttl) :
    ∃ b', Store.apply c b = (.ok (), b') ∧
      b'.Mirrors (m.put c.node (c.effect (m.getD c.node))) := by
  have inMemory : (Store.apply c m).1 = .ok () := by
    rw [Memory.apply_eq, unrefused]
  have made : (Store.apply c b).1 = .ok () := by
    cases b with
    | memory records =>
      obtain rfl : records = m := h
      exact inMemory
    | tables t =>
      have fits : ∀ node owner ttl, c = .register node owner ttl → ttl.toNat ≤ Tables.maxTtl := by
        intro node owner ttl register
        exact absurd register (other node owner ttl)
      exact (Tables.Mirrors.apply h fits).1.trans inMemory
  exact ⟨_, Prod.ext made rfl, h.put_of_apply_ok (Prod.ext made rfl)⟩

end Mirrors

/-- A backend holds what a store in memory could hold. -/
def Faithful (b : Backend) : Prop := ∃ m, b.Mirrors m

/-- A backend holds what a store in memory could hold after every change, made or refused. -/
theorem Faithful.apply {b : Backend} (faithful : b.Faithful) (c : Change) :
    (Store.apply c b).2.Faithful := by
  obtain ⟨answer, b', applied⟩ : ∃ answer b', Store.apply c b = (answer, b') := ⟨_, _, rfl⟩
  rw [applied]
  cases answer with
  | error cause =>
    rw [eq_of_apply_error applied]
    exact faithful
  | ok made =>
    obtain ⟨m, mirrors⟩ := faithful
    exact ⟨_, mirrors.put_of_apply_ok applied⟩

/-- The backends without a record. -/
inductive Vacant : Backend → Prop where
  | memory : Vacant (memory .empty)
  | tables : Vacant (tables .empty)

theorem Vacant.mirrors {b : Backend} (vacant : b.Vacant) : b.Mirrors .empty := by
  cases vacant with
  | memory => rfl
  | tables => exact Tables.Mirrors.empty

end Backend

end OffchainNames
