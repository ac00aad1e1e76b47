import OffchainNames.Store.Basic

/-!
# A store in memory

Records by node. A write on a node without a record starts from the empty record.
-/

namespace OffchainNames

/-- Records by node. -/
structure Memory where
  records : SortedMap Word Record := ∅

namespace Memory

/-- The store without a record. -/
def empty : Memory := {}

/-- The number of records. -/
def size (m : Memory) : Nat := m.records.size

/-- The record of a node, or the empty one. -/
def getD (m : Memory) (node : Word) : Record := m.records[node]?.getD { node }

/-- The store with another record for a node. -/
def put (m : Memory) (node : Word) (record : Record) : Memory :=
  ⟨m.records.insert node record⟩

/-- Changes the record of a node. -/
def update (node : Word) (change : Record → Record) : Write Memory := fun m =>
  (.ok (), m.put node (change (m.getD node)))

/-- Gives a node without an owner to an owner; the record exists afterwards either way. -/
def register (node : Word) (owner : Address) (ttl : UInt64) : Write Memory := fun m =>
  let record := m.getD node
  if record.isRegistered then (.error (.alreadyRegistered node), m.put node record)
  else (.ok (), m.put node { record with owner, ttl })

/-- Gives a node with an owner to another owner. -/
def transfer (node : Word) (owner : Address) : Write Memory := fun m =>
  match m.records[node]? with
  | some record =>
    if record.isRegistered then (.ok (), m.put node { record with owner })
    else (.error (.notFound node), m)
  | none => (.error (.notFound node), m)

/-- Stores the marker of integrity in the record of a node. -/
def setMarker (node marker : Word) : Write Memory := fun m =>
  match m.records[node]? with
  | some record => (.ok (), m.put node { record with marker := some marker })
  | none => (.error (.notFound node), m)

instance : Store Memory where
  domain m node := .ok m.records[node]?
  text m node key := .ok (m.records[node]?.bind fun r => r.texts[key]?)
  apply
    | .register node owner ttl => register node owner ttl
    | .transfer node owner => transfer node owner
    | .setText node key value => update node fun r => r.putText key value
    | .setAddress node coin value => update node fun r => r.putAddress coin value
    | .setContenthash node value => update node fun r => r.putContenthash value
    | .setMarker node marker => setMarker node marker

end Memory

end OffchainNames
