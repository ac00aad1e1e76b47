import OffchainNames.Proofs.Store.Backend

/-!
# Owners stay

A node that a store has an owner for keeps this owner through every change but a transfer of this node: it
cannot be registered again, and all other changes leave the owner alone. This is so in memory, in tables
with any rows, and so in either backend (`Backend.owner_apply`).
-/

namespace OffchainNames

/-- A change gives a node to another owner. -/
def Change.Transfers (c : Change) (n : Word) : Prop := ∃ owner, c = .transfer n owner

namespace Record

@[simp] theorem owner_putText (r : Record) (key value : String) :
    (r.putText key value).owner = r.owner := by
  unfold putText
  split <;> rfl

@[simp] theorem owner_putAddress (r : Record) (coin : Word) (raw : Bytes) :
    (r.putAddress coin raw).owner = r.owner := by
  unfold putAddress
  split <;> rfl

theorem registeredOwner?_eq_some_iff {r : Record} {account : Address} :
    r.registeredOwner? = some account ↔ r.owner = account ∧ account ≠ 0 := by
  unfold registeredOwner? isRegistered
  by_cases owned : r.owner = 0
  · simp only [owned, bne_self_eq_false, Bool.false_eq_true, if_false, reduceCtorEq, false_iff]
    rintro ⟨rfl, nonzero⟩
    exact nonzero rfl
  · simp only [bne_iff_ne, ne_eq, owned, not_false_eq_true, if_true, Option.some.injEq]
    constructor
    · rintro rfl
      exact ⟨rfl, owned⟩
    · exact fun same => same.1

end Record

namespace Memory

variable {m : Memory} {n : Word} {account : Address}

theorem owner_eq_some_iff : Store.owner m n = .ok (some account) ↔
    ∃ record, m.records[n]? = some record ∧ record.owner = account ∧ account ≠ 0 := by
  show Except.ok (m.records[n]?.bind Record.registeredOwner?) = _ ↔ _
  simp only [Except.ok.injEq, Option.bind_eq_some_iff, Record.registeredOwner?_eq_some_iff]

theorem owner_apply {c : Change} (owned : Store.owner m n = .ok (some account))
    (other : ¬ c.Transfers n) : Store.owner (Store.apply c m).2 n = .ok (some account) := by
  obtain ⟨record, found, owner, nonzero⟩ := owner_eq_some_iff.mp owned
  rw [owner_eq_some_iff]
  obtain ⟨answer, m', applied⟩ : ∃ answer m', Store.apply c m = (answer, m') := ⟨_, _, rfl⟩
  rw [applied]
  by_cases same : n = c.node
  · cases answer with
    | error cause =>
      rw [eq_of_apply_error applied]
      exact ⟨record, found, owner, nonzero⟩
    | ok made =>
      obtain ⟨unrefused, hput⟩ := eq_of_apply_ok applied
      refine ⟨c.effect record, ?_, ?_, nonzero⟩
      · rw [hput, same, getElem?_put_self, ← same, getD, found]
        rfl
      · cases c with
        | register node owner' ttl =>
          -- A node with an owner is not registered again.
          obtain rfl : n = node := same
          have free := owner_of_register unrefused
          rw [owned] at free
          cases free
        | transfer node owner' =>
          obtain rfl : n = node := same
          exact absurd ⟨owner', rfl⟩ other
        | setText node key value => exact (record.owner_putText key value).trans owner
        | setAddress node coin raw => exact (record.owner_putAddress coin raw).trans owner
        | setContenthash | setMarker => exact owner
  · exact ⟨record, (getElem?_apply_of_ne applied same).trans found, owner, nonzero⟩

end Memory

namespace Holding

variable (held : Holding) {a b : Address}

/-- The text in the place of the owner stands for an account. -/
def OwnedBy (account : Address) : Prop :=
  ∃ text, held.owner = .typed text ∧ Address.parse text = .ok account

variable {held} in
theorem OwnedBy.unique (first : held.OwnedBy a) (second : held.OwnedBy b) : a = b := by
  obtain ⟨text, htext, parsed⟩ := first
  obtain ⟨text', htext', parsed'⟩ := second
  obtain rfl : text = text' := Cell.typed.inj (htext.symm.trans htext')
  exact Except.ok.inj (parsed.symm.trans parsed')

@[simp] theorem owner_putText (name value : String) :
    (held.putText name value).owner = held.owner := by
  unfold putText
  split <;> rfl

@[simp] theorem owner_putAddress (coin : Word) (value : Bytes) :
    (held.putAddress coin value).owner = held.owner := by
  unfold putAddress
  split <;> rfl

end Holding

namespace Tables

variable {t : Tables} {n : Word} {account : Address}

theorem owner_of_readHolding {held : Holding} {record : Record}
    (read : readHolding n held = .ok record) : held.OwnedBy record.owner := by
  obtain ⟨text, htext, read⟩ := Except.bind_eq_ok_iff.mp read
  obtain ⟨rawTtl, -, read⟩ := Except.bind_eq_ok_iff.mp read
  obtain ⟨rawHash, -, read⟩ := Except.bind_eq_ok_iff.mp read
  obtain ⟨rawMarker, -, read⟩ := Except.bind_eq_ok_iff.mp read
  obtain ⟨texts, -, read⟩ := Except.bind_eq_ok_iff.mp read
  obtain ⟨addresses, -, read⟩ := Except.bind_eq_ok_iff.mp read
  obtain ⟨owner, howner, read⟩ := Except.bind_eq_ok_iff.mp read
  obtain ⟨ttl, -, read⟩ := Except.bind_eq_ok_iff.mp read
  obtain ⟨contenthash, -, read⟩ := Except.bind_eq_ok_iff.mp read
  obtain ⟨marker, -, read⟩ := Except.bind_eq_ok_iff.mp read
  cases read
  exact ⟨text, Cell.read_eq_ok_iff.mp htext, readColumn_eq_ok_iff.mp howner⟩

/-- Tables have an owner for a node iff its row reads and its text of the owner is that of an account. -/
theorem owner_eq_some_iff : Store.owner t n = .ok (some account) ↔
    ∃ held, t.holding? n = some held ∧ held.Reads ∧ held.OwnedBy account ∧ account ≠ 0 := by
  unfold Store.owner
  simp only [Store.domain]
  cases found : t.holding? n with
  | none =>
    constructor
    · intro owned
      cases owned
    · rintro ⟨held, h, -⟩
      cases h
  | some held =>
    simp only [Option.some.injEq, exists_eq_left']
    constructor
    · intro owned
      obtain ⟨looked, hlooked, howner⟩ := Except.map_eq_ok_iff.mp owned
      obtain ⟨record, read, rfl⟩ := Except.map_eq_ok_iff.mp hlooked
      obtain ⟨rfl, nonzero⟩ := Record.registeredOwner?_eq_some_iff.mp howner
      exact ⟨(held.reads_iff n).mpr ⟨record, read⟩, owner_of_readHolding read, nonzero⟩
    · rintro ⟨reads, owned, nonzero⟩
      obtain ⟨record, read⟩ := (held.reads_iff n).mp reads
      have owner : record.owner = account := (owner_of_readHolding read).unique owned
      refine Except.map_eq_ok_iff.mpr ⟨some record, ?_, ?_⟩
      · rw [read]
        rfl
      · exact Record.registeredOwner?_eq_some_iff.mpr ⟨owner, nonzero⟩

theorem hasOwner_of_ownedBy {held : Holding} (found : t.holding? n = some held)
    (owned : held.OwnedBy account) : t.hasOwner n = .ok (account != 0) := by
  obtain ⟨text, htext, parsed⟩ := owned
  have column : readColumn "owner" text Address.parse = .ok account :=
    readColumn_eq_ok_iff.mpr parsed
  rw [hasOwner_eq_of_holding?, found]
  simp only [htext, Cell.read, Except.bind, column]
  rfl

/-- A node that has an owner is not registered. -/
theorem apply_register_of_owner {owner : Address} {ttl : UInt64}
    (owned : Store.owner t n = .ok (some account)) :
    (Store.apply (.register n owner ttl) t).2 = t := by
  obtain ⟨held, found, -, account_owns, nonzero⟩ := owner_eq_some_iff.mp owned
  show (register n owner ttl t).2 = t
  unfold register
  rw [hasOwner_of_ownedBy found account_owns, bne_iff_ne.mpr nonzero]
  split <;> rfl

theorem owner_apply {c : Change} (owned : Store.owner t n = .ok (some account))
    (other : ¬ c.Transfers n) : Store.owner (Store.apply c t).2 n = .ok (some account) := by
  rcases apply_refused_or_made c t with ⟨cause, refused⟩ | made
  · rw [refused]
    exact owned
  obtain ⟨held, found, reads, ownedBy, nonzero⟩ := owner_eq_some_iff.mp owned
  by_cases same : n = c.node
  · have holds : (Store.apply c t).2.holding? n = some (c.holdingEffect held) := by
      rw [made, holding?_put, if_pos same, ← same, getD_of_holding? found]
    rw [owner_eq_some_iff]
    refine ⟨_, holds, reads.effect c, ?_, nonzero⟩
    cases c with
    | register node owner ttl =>
      obtain rfl : n = node := same
      rw [apply_register_of_owner owned] at holds
      rw [← Option.some.inj (found.symm.trans holds)]
      exact ownedBy
    | transfer node owner =>
      obtain rfl : n = node := same
      exact absurd ⟨owner, rfl⟩ other
    | setText node name value =>
      rw [Change.holdingEffect, Holding.OwnedBy, Holding.owner_putText]
      exact ownedBy
    | setAddress node coin value =>
      rw [Change.holdingEffect, Holding.OwnedBy, Holding.owner_putAddress]
      exact ownedBy
    | setContenthash | setMarker => exact ownedBy
  · rw [owner_eq_some_iff, made, holding?_put, if_neg same]
    exact ⟨held, found, reads, ownedBy, nonzero⟩

end Tables

/-- In either backend a node keeps its owner through every change but a transfer of this node. -/
theorem Backend.owner_apply {b : Backend} {c : Change} {n : Word} {account : Address}
    (owned : Store.owner b n = .ok (some account)) (other : ¬ c.Transfers n) :
    Store.owner (Store.apply c b).2 n = .ok (some account) := by
  cases b with
  | memory m => exact Memory.owner_apply owned other
  | tables t => exact Tables.owner_apply owned other

end OffchainNames
