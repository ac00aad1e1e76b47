import OffchainNames.Store.Memory
import OffchainNames.Store.Tables

/-!
# Either store

A backend is one of the two stores, as a configuration chooses it. Each operation is that of the store
within.
-/

namespace OffchainNames

/-- One of the two stores. -/
inductive Backend where
  | memory (records : Memory)
  | tables (tables : Tables)

namespace Backend

instance : Store Backend where
  domain
    | memory m, node => Store.domain m node
    | tables t, node => Store.domain t node
  text
    | memory m, node, key => Store.text m node key
    | tables t, node, key => Store.text t node key
  apply change
    | memory m => (Store.apply change m).map id memory
    | tables t => (Store.apply change t).map id tables

@[simp] theorem domain_memory (m : Memory) (node : Word) :
    Store.domain (memory m) node = Store.domain m node := rfl

@[simp] theorem domain_tables (t : Tables) (node : Word) :
    Store.domain (tables t) node = Store.domain t node := rfl

@[simp] theorem apply_memory (c : Change) (m : Memory) :
    Store.apply c (memory m) = ((Store.apply c m).1, memory (Store.apply c m).2) := rfl

@[simp] theorem apply_tables (c : Change) (t : Tables) :
    Store.apply c (tables t) = ((Store.apply c t).1, tables (Store.apply c t).2) := rfl

end Backend

end OffchainNames
