import OffchainNames.Bytes.Hex
import OffchainNames.Record

/-!
# Stores of records

A store keeps records by node. Every operation is atomic. Reading changes nothing and does not fail for
want of a record. A change takes the stored state to an answer and the state after it; it creates the
record that it needs, except for a transfer and for the marker.
-/

namespace OffchainNames

/-- Why a store refuses or fails an operation. -/
inductive StoreError where
  | medium (detail : String)
  | lock (detail : String)
  | interrupted (detail : String)
  /-- The node has no record, or none with an owner. -/
  | notFound (node : Word)
  | alreadyRegistered (node : Word)
  | corrupt (detail : String)
  deriving DecidableEq, Repr

/-- The wording of an error. -/
def StoreError.message : StoreError → String
  | .medium detail => "storage error: " ++ detail
  | .lock detail => "storage lock poisoned: " ++ detail
  | .interrupted detail => "storage task failed: " ++ detail
  | .notFound node => "domain not found: " ++ Hex.encodeBits node
  | .alreadyRegistered _ => "domain already registered"
  | .corrupt detail => "corrupt record: " ++ detail

/-- A change to what is stored for one node. -/
inductive Change where
  /-- Gives a node without an owner to an owner, with a ttl. -/
  | register (node : Word) (owner : Address) (ttl : UInt64)
  /-- Gives a node with an owner to another owner. -/
  | transfer (node : Word) (owner : Address)
  /-- Sets a text, or clears it if the value is empty. -/
  | setText (node : Word) (key value : String)
  /-- Sets an address, or clears it if the value is empty. -/
  | setAddress (node coin : Word) (value : Bytes)
  /-- Sets the content hash, or clears it if the value is empty. -/
  | setContenthash (node : Word) (value : Bytes)
  | setMarker (node marker : Word)
  deriving DecidableEq, Repr

/-- The node that a change is about. -/
def Change.node : Change → Word
  | register node _ _ => node
  | transfer node _ => node
  | setText node _ _ => node
  | setAddress node _ _ => node
  | setContenthash node _ => node
  | setMarker node _ => node

/-- A write: the answer and the state after it. -/
abbrev Write (σ : Type) := σ → Except StoreError Unit × σ

/-- The operations of a store whose state has the given type. -/
class Store (σ : Type) where
  domain : σ → Word → Except StoreError (Option Record)
  text : σ → Word → String → Except StoreError (Option String)
  apply : Change → Write σ

namespace Store

variable {σ : Type} [Store σ]

/-- The address of a node for a coin type. -/
def address (s : σ) (node coin : Word) : Except StoreError (Option Bytes) :=
  (domain s node).map fun record => record.bind fun r => r.addresses[coin]?

/-- The content hash of a node. -/
def contenthash (s : σ) (node : Word) : Except StoreError (Option Bytes) :=
  (domain s node).map fun record => record.bind Record.contenthash

/-- The owner of a node, if it has one. -/
def owner (s : σ) (node : Word) : Except StoreError (Option Address) :=
  (domain s node).map fun record => record.bind Record.registeredOwner?

end Store

end OffchainNames
