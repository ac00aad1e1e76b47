import OffchainNames.Abi.Encoding
import OffchainNames.Hash.Keccak
import Std.Data.ExtTreeMap.Lemmas

/-!
# Records of names

A record holds what is stored for one node: who owns it, how long answers about it may be kept, its
texts, its addresses on other chains and its content hash. Writing an empty value clears the entry, so
that a record that lost an entry equals one that never had it. The fingerprint is the digest of all of
this in one encoding; the marker that was stored last is no part of it.
-/

namespace OffchainNames

/-- A table sorted by its keys. Two tables with the same entries are equal. -/
abbrev SortedMap (κ ν : Type) [Ord κ] := Std.ExtTreeMap κ ν compare

instance Word.instTransCmp : Std.TransCmp (compare : Word → Word → Ordering) := inferInstance

instance Selector.instTransCmp : Std.TransCmp (compare : Selector → Selector → Ordering) :=
  inferInstance

namespace SortedMap

variable {κ ν : Type} [Ord κ] [Std.TransCmp (compare : κ → κ → Ordering)] [Std.LawfulEqOrd κ]
  [DecidableEq κ] (m : SortedMap κ ν) (key other : κ) (value : ν)

theorem getElem?_insert : (m.insert key value)[other]? =
    if other = key then some value else m[other]? := by
  rw [Std.ExtTreeMap.getElem?_insert]
  by_cases h : other = key
  · rw [if_pos h, if_pos (Std.compare_eq_iff_eq.mpr h.symm)]
  · rw [if_neg h, if_neg fun same => h (Std.compare_eq_iff_eq.mp same).symm]

theorem getElem?_erase : (m.erase key)[other]? = if other = key then none else m[other]? := by
  rw [Std.ExtTreeMap.getElem?_erase]
  by_cases h : other = key
  · rw [if_pos h, if_pos (Std.compare_eq_iff_eq.mpr h.symm)]
  · rw [if_neg h, if_neg fun same => h (Std.compare_eq_iff_eq.mp same).symm]

/-- An entry that is set, or cleared, and all others. -/
theorem getElem?_put (cleared : Prop) [Decidable cleared] :
    (if cleared then m.erase key else m.insert key value)[other]? =
      if key = other then (if cleared then none else some value) else m[other]? := by
  by_cases h : cleared
  · rw [if_pos h, if_pos h, getElem?_erase]
    exact ite_congr (propext eq_comm) (fun _ => rfl) fun _ => rfl
  · rw [if_neg h, if_neg h, getElem?_insert]
    exact ite_congr (propext eq_comm) (fun _ => rfl) fun _ => rfl

variable {m key value} {p : κ → ν → Prop}

/-- What holds of all entries holds of those that stay when one is cleared. -/
theorem forall_erase (all : ∀ k v, m[k]? = some v → p k v) :
    ∀ k v, (m.erase key)[k]? = some v → p k v := by
  intro k v h
  rw [getElem?_erase] at h
  split at h
  · cases h
  · exact all k v h

/-- What holds of all entries and of the one that is set holds of all afterwards. -/
theorem forall_insert (all : ∀ k v, m[k]? = some v → p k v) (new : p key value) :
    ∀ k v, (m.insert key value)[k]? = some v → p k v := by
  intro k v h
  rw [getElem?_insert] at h
  split at h
  · rename_i same
    cases h
    exact same ▸ new
  · exact all k v h

end SortedMap

/-- What is stored for one node. -/
structure Record where
  node : Word
  /-- The owner; zero if the node was never registered. -/
  owner : Address := 0
  /-- For how many seconds answers may be kept. -/
  ttl : UInt64 := 0
  texts : SortedMap String String := ∅
  addresses : SortedMap Word Bytes := ∅
  contenthash : Option Bytes := none
  /-- The marker of integrity that was stored last. -/
  marker : Option Word := none

namespace Record

/-- Whether the node has an owner. -/
def isRegistered (r : Record) : Bool := r.owner != 0

/-- The owner, if there is one. -/
def registeredOwner? (r : Record) : Option Address := if r.isRegistered then some r.owner else none

/-- Sets a text, or clears it if the value is empty. -/
def putText (r : Record) (key value : String) : Record :=
  if value = "" then { r with texts := r.texts.erase key }
  else { r with texts := r.texts.insert key value }

/-- Sets an address, or clears it if the value is empty. -/
def putAddress (r : Record) (coin : Word) (value : Bytes) : Record :=
  if value = [] then { r with addresses := r.addresses.erase coin }
  else { r with addresses := r.addresses.insert coin value }

/-- Sets the content hash, or clears it if the value is empty. -/
def putContenthash (r : Record) (value : Bytes) : Record :=
  { r with contenthash := if value = [] then none else some value }

/-- The value that the fingerprint is taken of: node, owner, ttl, content hash, texts in the order of
their keys and addresses in the order of their coin types. -/
def state (r : Record) : Abi.Value :=
  .tuple
    [.fixedBytes r.node 32, .address r.owner, .uint (BitVec.ofNat 256 r.ttl.toNat) 64,
     .bytes (r.contenthash.getD []),
     .array (r.texts.toList.map fun (key, value) => .tuple [.string key, .string value]),
     .array (r.addresses.toList.map fun (coin, value) => .tuple [.uint coin 256, .bytes value])]

/-- The digest of all that the record holds but the marker. -/
def fingerprint (r : Record) : Word := keccak256 (Abi.encode [r.state])

end Record

end OffchainNames
