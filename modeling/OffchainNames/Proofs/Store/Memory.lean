import OffchainNames.Store.Memory
import Std.Data.ExtTreeMap.Lemmas

/-!
# What a change does to the store in memory

A change is refused and leaves the store as it is, or it puts one record in place of another
(`Memory.apply_eq`): which changes are refused is `Memory.refusal?`, and what becomes of the record is
`Change.effect`. All else about changes in memory is read off that: a change is about its own node
(`Memory.getElem?_apply_of_ne`), and a node that can be registered has no owner
(`Memory.owner_of_register`).
-/

namespace OffchainNames

/-- The record without its marker. -/
def Record.unmarked (r : Record) : Record := { r with marker := none }

namespace Record

/-- Two records are the same without their markers iff all else that they hold is the same. -/
theorem unmarked_eq_iff {a b : Record} : a.unmarked = b.unmarked ↔
    a.node = b.node ∧ a.owner = b.owner ∧ a.ttl = b.ttl ∧ a.texts = b.texts ∧
      a.addresses = b.addresses ∧ a.contenthash = b.contenthash := by
  cases a
  cases b
  simp [unmarked]

/-- The fingerprint takes no notice of the marker. -/
@[simp] theorem fingerprint_unmarked (r : Record) : r.unmarked.fingerprint = r.fingerprint := rfl

end Record

/-- What a change makes of the record of its node. -/
def Change.effect : Change → Record → Record
  | register _ owner ttl, r => { r with owner, ttl }
  | transfer _ owner, r => { r with owner }
  | setText _ key value, r => r.putText key value
  | setAddress _ coin value, r => r.putAddress coin value
  | setContenthash _ value, r => r.putContenthash value
  | setMarker _ marker, r => { r with marker := some marker }

namespace Memory

theorem getElem?_put (m : Memory) (node n : Word) (record : Record) :
    (m.put node record).records[n]? = if n = node then some record else m.records[n]? := by
  unfold put
  exact SortedMap.getElem?_insert ..

@[simp] theorem getElem?_put_self (m : Memory) (node : Word) (record : Record) :
    (m.put node record).records[node]? = some record := by
  rw [getElem?_put, if_pos rfl]

theorem ext_getElem? {a b : Memory} (h : ∀ n : Word, a.records[n]? = b.records[n]?) : a = b := by
  cases a
  cases b
  exact congrArg mk (Std.ExtTreeMap.ext_getElem? fun n => h n)

/-- Putting a record where it already is changes nothing. -/
theorem put_of_getElem? {m : Memory} {node : Word} {record : Record}
    (h : m.records[node]? = some record) : m.put node record = m := by
  refine ext_getElem? fun n => ?_
  rw [getElem?_put]
  split
  · rename_i heq
    rw [heq, h]
  · rfl

/-- Why a change is refused, if it is: a node is registered once, only a registered one is given
away, and only a record that is there is marked. -/
def refusal? (m : Memory) : Change → Option StoreError
  | .register node _ _ => if (m.getD node).isRegistered then some (.alreadyRegistered node) else none
  | .transfer node _ => if (m.getD node).isRegistered then none else some (.notFound node)
  | .setMarker node _ => if m.records[node]?.isSome then none else some (.notFound node)
  | _ => none

/-- A record with an owner is in the store. -/
theorem getElem?_of_isRegistered {m : Memory} {node : Word} (h : (m.getD node).isRegistered) :
    m.records[node]? = some (m.getD node) := by
  unfold getD at h ⊢
  cases hr : m.records[node]? with
  | none =>
    rw [hr] at h
    exact absurd h (by simp [Record.isRegistered])
  | some record => rfl

/-- A change is refused without a trace, or it puts its effect on the record in the place of the
record. -/
theorem apply_eq (c : Change) (m : Memory) : Store.apply c m =
    match m.refusal? c with
    | some cause => (.error cause, m)
    | none => (.ok (), m.put c.node (c.effect (m.getD c.node))) := by
  cases c with
  | register node owner ttl =>
    show register node owner ttl m = _
    simp only [register, refusal?, Change.node, Change.effect]
    by_cases h : (m.getD node).isRegistered
    · rw [if_pos h, if_pos h, put_of_getElem? (getElem?_of_isRegistered h)]
    · rw [if_neg h, if_neg h]
  | transfer node owner =>
    show transfer node owner m = _
    simp only [transfer, refusal?, Change.node, Change.effect, getD]
    split
    · rename_i record hr
      by_cases h : record.isRegistered <;> simp [hr, h]
    · rename_i hr
      simp [hr, Record.isRegistered]
  | setText | setAddress | setContenthash => rfl
  | setMarker node marker =>
    show setMarker node marker m = _
    simp only [setMarker, refusal?, Change.node, Change.effect, getD]
    split
    · rename_i record hr
      simp [hr]
    · rename_i hr
      simp [hr]

/-- A refused change leaves the store as it is. -/
theorem eq_of_apply_error {c : Change} {m m' : Memory} {cause : StoreError}
    (h : Store.apply c m = (.error cause, m')) : m' = m := by
  rw [apply_eq] at h
  cases hr : m.refusal? c with
  | some cause' =>
    rw [hr] at h
    cases h
    rfl
  | none =>
    rw [hr] at h
    cases h

/-- A change that is made is not refused, and puts its effect on the record in the place of the
record. -/
theorem eq_of_apply_ok {c : Change} {m m' : Memory} (h : Store.apply c m = (.ok (), m')) :
    m.refusal? c = none ∧ m' = m.put c.node (c.effect (m.getD c.node)) := by
  rw [apply_eq] at h
  cases hr : m.refusal? c with
  | some cause =>
    rw [hr] at h
    cases h
  | none =>
    rw [hr] at h
    cases h
    exact ⟨rfl, rfl⟩

/-- A change is about its own node. -/
theorem getElem?_apply_of_ne {c : Change} {m m' : Memory} {answer : Except StoreError Unit}
    (h : Store.apply c m = (answer, m')) {n : Word} (hn : n ≠ c.node) :
    m'.records[n]? = m.records[n]? := by
  cases answer with
  | error cause => rw [eq_of_apply_error h]
  | ok made =>
    rw [(eq_of_apply_ok h).2, getElem?_put, if_neg hn]

/-- What is stored for a node but the marker. -/
def content (m : Memory) (node : Word) : Option Record := m.records[node]?.map Record.unmarked

/-- The owner of a node is read off its contents. -/
theorem owner_eq (m : Memory) (node : Word) :
    Store.owner m node = .ok ((m.content node).bind Record.registeredOwner?) := by
  show Except.ok (m.records[node]?.bind Record.registeredOwner?) = _
  unfold content
  cases m.records[node]? <;> rfl

/-- A node that can be registered has no owner. -/
theorem owner_of_register {m : Memory} {node : Word} {owner : Address} {ttl : UInt64}
    (h : m.refusal? (.register node owner ttl) = none) : Store.owner m node = .ok none := by
  have unregistered : ¬ (m.getD node).isRegistered := by
    intro registered
    simp [refusal?, registered] at h
  rw [owner_eq, content]
  unfold getD at unregistered
  cases hr : m.records[node]? with
  | none => rfl
  | some record =>
    rw [hr] at unregistered
    exact congrArg Except.ok (if_neg unregistered)

theorem text_eq (m : Memory) (n : Word) (key : String) :
    Store.text m n key = .ok (m.getD n).texts[key]? := by
  show Except.ok (m.records[n]?.bind fun r => r.texts[key]?) = _
  unfold getD
  cases m.records[n]? with
  | none => simp
  | some record => rfl

end Memory

end OffchainNames
