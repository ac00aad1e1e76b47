import OffchainNames.Abi.Interface
import OffchainNames.Arguments
import OffchainNames.Call
import OffchainNames.Course

/-!
# Tables of functions

A table says for each selector what runs when it is called: a function, or the batch of calls that
every table starts with. Registering a function under a selector that is taken replaces what was there.
-/

namespace OffchainNames

/-- What a function returns: results, and for how many seconds they may be kept. -/
structure Reply where
  values : List Abi.Value := []
  ttl : Option UInt64 := none

/-- How a function ends. -/
inductive Outcome where
  | reply (reply : Reply)
  | failure (cause : Error)
  /-- It breaks down, with a text if there is one. -/
  | crash (text : Option String)
  | never

/-- A function: it takes the context of a call and the arguments to a course of operations. -/
abbrev Handler := Context → Arguments → Course Outcome

/-- What runs when a selector is called. -/
inductive Kind where
  | function (handler : Handler)
  | batch

/-- Whether a kind is the batch. -/
def Kind.isBatch : Kind → Bool
  | .function _ => false
  | .batch => true

/-- A signature with what runs when it is called. -/
structure Entry where
  signature : Abi.Signature
  kind : Kind

/-- The signature of a batch of calls. -/
def Abi.Signature.multicall : Abi.Signature :=
  { name := "multicall"
    inputs := [⟨"data", "bytes[]", []⟩]
    outputs := [⟨"results", "bytes[]", []⟩]
    mutability := .nonpayable }

/-- Entries by selector, with the interface of all that was registered. -/
structure Table where
  interface : Abi.Interface := {}
  entries : SortedMap Selector Entry := ∅

namespace Table

/-- The table without an entry. -/
def empty : Table := {}

/-- The table with one more entry. -/
def insert (t : Table) (entry : Entry) : Table :=
  { interface := t.interface.insert entry.signature
    entries := t.entries.insert entry.signature.selector entry }

/-- The table with the batch of calls. -/
def standard : Table := empty.insert ⟨.multicall, .batch⟩

/-- The table with a function under a signature. -/
def add (t : Table) (signature : Abi.Signature) (handler : Handler) : Table :=
  t.insert ⟨signature, .function handler⟩

/-- The table with a function under the signature that a fragment writes, and its selector. -/
def register (t : Table) (fragment : String) (handler : Handler) : Except Error (Selector × Table) :=
  match Abi.Signature.ofFragment fragment with
  | .ok sig => .ok (sig.selector, t.add sig handler)
  | .error e => .error e

/-- The entry for a selector. -/
def get? (t : Table) (selector : Selector) : Option Entry := t.entries[selector]?

/-- The number of entries. -/
def size (t : Table) : Nat := t.entries.size

/-- A text that shows the canonical texts of the entries. -/
def describe (t : Table) : String :=
  let names := t.entries.toList.map fun (_, entry) => "\"" ++ entry.signature.canonical ++ "\""
  "HandlerTable \x7b handlers: [" ++ String.intercalate ", " names ++ "] \x7d"

end Table

end OffchainNames
