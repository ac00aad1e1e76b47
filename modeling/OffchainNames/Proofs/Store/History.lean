import Mathlib.Data.List.Induction
import OffchainNames.Proofs.Store.Texts

/-!
# Only the last writes count

Changes that set entries leave a record in which every text, every address and the content hash is what was
written last, and absent where that is empty (`Record.Reflects`): in memory (`Memory.reflects_after`), and so
in either backend. Whatever was written before, in whatever order and between whatever writes to other nodes,
is not seen, so that two histories with the same last writes end with the same record
(`Backend.domain_after_of_sameLast`).
-/

namespace OffchainNames

namespace Change

/-- A change sets an entry of a record. -/
inductive SetsEntry : Change → Prop where
  | text (node : Word) (key value : String) : SetsEntry (.setText node key value)
  | address (node coin : Word) (value : Bytes) : SetsEntry (.setAddress node coin value)
  | contenthash (node : Word) (value : Bytes) : SetsEntry (.setContenthash node value)

/-- The value that a change writes as the text of a node under a key. -/
def text? (n : Word) (key : String) : Change → Option String
  | setText node set value => if node = n ∧ set = key then some value else none
  | _ => none

/-- The value that a change writes as the address of a node for a coin type. -/
def address? (n coin : Word) : Change → Option Bytes
  | setAddress node set value => if node = n ∧ set = coin then some value else none
  | _ => none

/-- The value that a change writes as the content hash of a node. -/
def contenthash? (n : Word) : Change → Option Bytes
  | setContenthash node value => if node = n then some value else none
  | _ => none

variable {c : Change} {n : Word}

theorem text?_of_ne (other : c.node ≠ n) (key : String) : c.text? n key = none := by
  cases c with
  | setText node set value => exact if_neg fun same => other same.1
  | register | transfer | setAddress | setContenthash | setMarker => rfl

theorem address?_of_ne (other : c.node ≠ n) (coin : Word) : c.address? n coin = none := by
  cases c with
  | setAddress node set value => exact if_neg fun same => other same.1
  | register | transfer | setText | setContenthash | setMarker => rfl

theorem contenthash?_of_ne (other : c.node ≠ n) : c.contenthash? n = none := by
  cases c with
  | setContenthash node value => exact if_neg other
  | register | transfer | setText | setAddress | setMarker => rfl

theorem SetsEntry.unrefused (sets : c.SetsEntry) (m : Memory) : m.refusal? c = none := by
  cases sets <;> rfl

theorem SetsEntry.not_register (sets : c.SetsEntry) (node : Word) (owner : Address) (ttl : UInt64) :
    c ≠ .register node owner ttl := by
  rintro rfl
  cases sets

end Change

/-- The value that changes write last, or the empty one if they write none. -/
def lastWritten {α : Type} (empty : α) (value? : Change → Option α) (changes : List Change) : α :=
  (changes.reverse.findSome? value?).getD empty

/-- What is stored of a value: nothing, if it is the empty one. -/
def unlessEmpty {α : Type} [DecidableEq α] (empty value : α) : Option α :=
  if value = empty then none else some value

theorem unlessEmpty_ne {α : Type} [DecidableEq α] (empty value : α) :
    unlessEmpty empty value ≠ some empty := by
  unfold unlessEmpty
  by_cases cleared : value = empty <;> simp [cleared]

theorem lastWritten_append {α : Type} (empty : α) (value? : Change → Option α) (changes : List Change)
    (c : Change) : lastWritten empty value? (changes ++ [c]) =
      (value? c).getD (lastWritten empty value? changes) := by
  unfold lastWritten
  cases written : value? c <;> simp [written]

/-- Two histories write the same last for every entry of a node. -/
structure SameLast (n : Word) (a b : List Change) : Prop where
  text : ∀ key, lastWritten "" (Change.text? n key) a = lastWritten "" (Change.text? n key) b
  address : ∀ coin,
    lastWritten [] (Change.address? n coin) a = lastWritten [] (Change.address? n coin) b
  contenthash : lastWritten [] (Change.contenthash? n) a = lastWritten [] (Change.contenthash? n) b

/-- The store after changes that are made one after the other. -/
def Store.after {σ : Type} [Store σ] (changes : List Change) (s : σ) : σ :=
  changes.foldl (fun s c => (Store.apply c s).2) s

theorem Store.after_append {σ : Type} [Store σ] (changes : List Change) (c : Change) (s : σ) :
    Store.after (changes ++ [c]) s = (Store.apply c (Store.after changes s)).2 :=
  List.foldl_concat ..

namespace Record

/-- The record without its entries. -/
def bare (r : Record) : Record := { r with texts := ∅, addresses := ∅, contenthash := none }

theorem ext_entries {a b : Record} (bare : a.bare = b.bare)
    (texts : ∀ key : String, a.texts[key]? = b.texts[key]?)
    (addresses : ∀ coin : Word, a.addresses[coin]? = b.addresses[coin]?)
    (contenthash : a.contenthash = b.contenthash) : a = b := by
  have texts := Std.ExtTreeMap.ext_getElem? texts
  have addresses := Std.ExtTreeMap.ext_getElem? addresses
  cases a
  cases b
  simp_all [Record.bare]

variable (r : Record) (key value : String) (coin : Word) (raw : Bytes)

@[simp] theorem bare_putText : (r.putText key value).bare = r.bare := by
  unfold putText
  split <;> rfl

@[simp] theorem bare_putAddress : (r.putAddress coin raw).bare = r.bare := by
  unfold putAddress
  split <;> rfl

/-- A record of a node that was never registered holds what changes wrote last, and no entry where that is
empty. -/
structure Reflects (r : Record) (n : Word) (changes : List Change) : Prop where
  bare : r.bare = { node := n }
  text : ∀ key : String,
    r.texts[key]? = unlessEmpty "" (lastWritten "" (Change.text? n key) changes)
  address : ∀ coin : Word,
    r.addresses[coin]? = unlessEmpty [] (lastWritten [] (Change.address? n coin) changes)
  contenthash : r.contenthash = unlessEmpty [] (lastWritten [] (Change.contenthash? n) changes)

/-- No entry of a record is empty. -/
structure NoneEmpty (r : Record) : Prop where
  text : ∀ key : String, r.texts[key]? ≠ some ""
  address : ∀ coin : Word, r.addresses[coin]? ≠ some []
  contenthash : r.contenthash ≠ some []

namespace Reflects

variable {r r' : Record} {n : Word} {changes others : List Change} {c : Change}

theorem empty (n : Word) : Reflects { node := n } n [] where
  bare := rfl
  text key := by simp [lastWritten, unlessEmpty]
  address coin := by simp [lastWritten, unlessEmpty]
  contenthash := by simp [lastWritten, unlessEmpty]

theorem noneEmpty (reflects : r.Reflects n changes) : r.NoneEmpty where
  text key := reflects.text key ▸ unlessEmpty_ne "" _
  address coin := reflects.address coin ▸ unlessEmpty_ne [] _
  contenthash := reflects.contenthash ▸ unlessEmpty_ne [] _

/-- Nothing but the last writes is seen in a record. -/
theorem eq_of_sameLast (reflects : r.Reflects n changes) (reflects' : r'.Reflects n others)
    (same : SameLast n changes others) : r = r' := by
  refine ext_entries (reflects.bare.trans reflects'.bare.symm) ?_ ?_ ?_
  · intro key
    rw [reflects.text, reflects'.text, same.text]
  · intro coin
    rw [reflects.address, reflects'.address, same.address]
  · rw [reflects.contenthash, reflects'.contenthash, same.contenthash]

/-- A change to another node is not seen. -/
theorem append_of_ne (reflects : r.Reflects n changes) (other : c.node ≠ n) :
    r.Reflects n (changes ++ [c]) where
  bare := reflects.bare
  text key := by
    rw [lastWritten_append, Change.text?_of_ne other]
    exact reflects.text key
  address coin := by
    rw [lastWritten_append, Change.address?_of_ne other]
    exact reflects.address coin
  contenthash := by
    rw [lastWritten_append, Change.contenthash?_of_ne other]
    exact reflects.contenthash

/-- A change that sets an entry of the node is the last one to write it. -/
theorem append (reflects : r.Reflects n changes) (sets : c.SetsEntry) (same : c.node = n) :
    (c.effect r).Reflects n (changes ++ [c]) := by
  -- The entry that is set is the only one whose last write is another one than before.
  cases sets with
  | text node set value =>
    obtain rfl : node = n := same
    refine ⟨?_, ?_, ?_, ?_⟩
    · exact (r.bare_putText set value).trans reflects.bare
    · intro key
      rw [Change.effect, getElem?_putText, lastWritten_append, Change.text?]
      by_cases hit : set = key
      · simp [hit, unlessEmpty]
      · simp [hit, reflects.text]
    · intro coin
      rw [Change.effect, addresses_putText, lastWritten_append]
      exact reflects.address coin
    · rw [Change.effect, contenthash_putText, lastWritten_append]
      exact reflects.contenthash
  | address node set value =>
    obtain rfl : node = n := same
    refine ⟨?_, ?_, ?_, ?_⟩
    · exact (r.bare_putAddress set value).trans reflects.bare
    · intro key
      rw [Change.effect, texts_putAddress, lastWritten_append]
      exact reflects.text key
    · intro coin
      rw [Change.effect, getElem?_putAddress, lastWritten_append, Change.address?]
      by_cases hit : set = coin
      · simp [hit, unlessEmpty]
      · simp [hit, reflects.address]
    · rw [Change.effect, contenthash_putAddress, lastWritten_append]
      exact reflects.contenthash
  | contenthash node value =>
    obtain rfl : node = n := same
    refine ⟨reflects.bare, ?_, ?_, ?_⟩
    · intro key
      rw [lastWritten_append]
      exact reflects.text key
    · intro coin
      rw [lastWritten_append]
      exact reflects.address coin
    · rw [lastWritten_append, Change.contenthash?, if_pos rfl]
      rfl

end Reflects

end Record

variable {changes others : List Change} {n : Word}

/-- From the empty store in memory on, the record of every node holds what was written last, and it is there
if anything was written to the node. -/
theorem Memory.reflects_after (sets : ∀ c ∈ changes, c.SetsEntry) (n : Word) :
    ((Store.after changes Memory.empty).getD n).Reflects n changes ∧
      ((∃ c ∈ changes, c.node = n) → (Store.after changes Memory.empty).records[n]? =
        some ((Store.after changes Memory.empty).getD n)) := by
  induction changes using List.reverseRecOn with
  | nil =>
    have absent : Memory.empty.records[n]? = none := by simp [Memory.empty]
    constructor
    · show (Memory.empty.getD n).Reflects n []
      rw [getD, absent]
      exact .empty n
    · rintro ⟨c, member, -⟩
      cases member
  | append_singleton changes c ih =>
    obtain ⟨reflects, stored⟩ := ih fun c member => sets c (List.mem_append_left _ member)
    have setsLast := sets c (List.mem_append_right _ (List.mem_singleton.mpr rfl))
    rw [Store.after_append, apply_eq, setsLast.unrefused]
    by_cases same : n = c.node
    · subst same
      rw [getD, getElem?_put_self]
      exact ⟨reflects.append setsLast rfl, fun _ => rfl⟩
    · simp only [getD, getElem?_put, if_neg same]
      refine ⟨reflects.append_of_ne (Ne.symm same), ?_⟩
      rintro ⟨c', member, named⟩
      rcases List.mem_append.mp member with earlier | last
      · exact stored ⟨c', earlier, named⟩
      · rw [List.mem_singleton.mp last] at named
        exact absurd named.symm same

namespace Backend

variable {b b' : Backend} {m : Memory}

/-- Changes that set entries keep a backend and a store in memory alike. -/
theorem mirrors_after (mirrors : b.Mirrors m) (sets : ∀ c ∈ changes, c.SetsEntry) :
    (Store.after changes b).Mirrors (Store.after changes m) := by
  induction changes generalizing b m with
  | nil => exact mirrors
  | cons c rest ih =>
    have setsFirst := sets c (List.mem_cons_self ..)
    obtain ⟨b', applied, mirrors'⟩ :=
      mirrors.apply_of_unrefused (setsFirst.unrefused m) setsFirst.not_register
    have inMemory : (Store.apply c m).2 = m.put c.node (c.effect (m.getD c.node)) := by
      rw [Memory.apply_eq, setsFirst.unrefused]
    show (Store.after rest (Store.apply c b).2).Mirrors (Store.after rest (Store.apply c m).2)
    rw [applied, inMemory]
    exact ih mirrors' fun c member => sets c (List.mem_cons_of_mem _ member)

/-- A node that was written to is found with a record that holds what was written last. -/
theorem reflects_after (vacant : b.Vacant) (sets : ∀ c ∈ changes, c.SetsEntry)
    (touched : ∃ c ∈ changes, c.node = n) :
    ∃ record, Store.domain (Store.after changes b) n = .ok (some record) ∧
      record.Reflects n changes := by
  obtain ⟨reflects, stored⟩ := Memory.reflects_after sets n
  refine ⟨_, ?_, reflects⟩
  rw [(mirrors_after vacant.mirrors sets).domain, stored touched]

/-- Two histories of writes to an empty store, in either backend each, that write to a node and agree on
what they write last for each of its entries, where to write nothing is to write an empty value, end with the
same record of the node, and so with the same fingerprint. It holds what was written last and no empty
value. -/
theorem domain_after_of_sameLast (vacant : b.Vacant) (vacant' : b'.Vacant)
    (sets : ∀ c ∈ changes, c.SetsEntry) (sets' : ∀ c ∈ others, c.SetsEntry)
    (touched : ∃ c ∈ changes, c.node = n) (touched' : ∃ c ∈ others, c.node = n)
    (same : SameLast n changes others) :
    ∃ record record', Store.domain (Store.after changes b) n = .ok (some record) ∧
      Store.domain (Store.after others b') n = .ok (some record') ∧
      record = record' ∧ record.fingerprint = record'.fingerprint ∧
      record.Reflects n changes ∧ record.NoneEmpty := by
  obtain ⟨record, found, reflects⟩ := reflects_after vacant sets touched
  obtain ⟨record', found', reflects'⟩ := reflects_after vacant' sets' touched'
  have equal := reflects.eq_of_sameLast reflects' same
  exact ⟨record, record', found, found', equal, congrArg Record.fingerprint equal, reflects,
    reflects.noneEmpty⟩

/-- Writes to node 1 that overwrite and clear each other, with one to node 2 between them. -/
def rewriting : List Change :=
  [.setText 1 "url" "old", .setContenthash 1 [1], .setText 2 "url" "other", .setText 1 "url" "new",
    .setContenthash 1 []]

/-- The last of these writes alone, and one that clears what was never set. -/
def straight : List Change := [.setAddress 1 60 [], .setText 1 "url" "new"]

theorem sameLast_rewriting : SameLast 1 rewriting straight where
  text key := by
    by_cases hit : "url" = key <;>
      simp [rewriting, straight, lastWritten, List.findSome?_cons, Change.text?, hit]
  address coin := by
    by_cases hit : 60#256 = coin <;>
      simp [rewriting, straight, lastWritten, List.findSome?_cons, Change.address?, hit]
  contenthash := by simp [rewriting, straight, lastWritten, List.findSome?_cons, Change.contenthash?]

/-- Writes in memory that overwrite each other and writes in tables that do not end with the same record. -/
theorem rewriting_unseen :
    ∃ record, Store.domain (Store.after rewriting (memory .empty)) 1 = .ok (some record) ∧
      Store.domain (Store.after straight (tables .empty)) 1 = .ok (some record) ∧
      record.texts["url"]? = some "new" ∧ record.contenthash = none := by
  have sets : ∀ c ∈ rewriting, c.SetsEntry := by
    simp only [rewriting, List.forall_mem_cons, List.not_mem_nil, false_implies, implies_true, and_true]
    exact ⟨.text .., .contenthash .., .text .., .text .., .contenthash ..⟩
  have sets' : ∀ c ∈ straight, c.SetsEntry := by
    simp only [straight, List.forall_mem_cons, List.not_mem_nil, false_implies, implies_true, and_true]
    exact ⟨.address .., .text ..⟩
  have touched : ∃ c ∈ rewriting, c.node = 1 := ⟨_, List.mem_cons_self .., rfl⟩
  have touched' : ∃ c ∈ straight, c.node = 1 := ⟨_, List.mem_cons_self .., rfl⟩
  obtain ⟨record, record', found, found', rfl, -, reflects, -⟩ :=
    domain_after_of_sameLast .memory .tables sets sets' touched touched' sameLast_rewriting
  refine ⟨record, found, found', ?_, ?_⟩
  · rw [reflects.text]
    decide
  · rw [reflects.contenthash]
    decide

end Backend

end OffchainNames
