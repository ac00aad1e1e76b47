import OffchainNames.Address
import OffchainNames.Numeral
import OffchainNames.Store.Basic

/-!
# A store in tables of text

Three tables by the text of a node: one row for the node, its texts by key, and its addresses by coin type.
Every column but the ttl is text: nodes, addresses and byte strings as marked lowercase digits, coin types as
numerals, and the ttl is a signed integer of 64 bits.

What the store did not write itself is taken as the medium has it. A column may hold something that is not of
its type, and texts and addresses may stand under a node that has no row; they count once the node gets one.
Texts are read as loosely as they allow, and what does not read at all makes the record corrupt.
-/

namespace OffchainNames

/-- What a column of a row holds. -/
inductive Cell (α : Type) where
  /-- A value of the type of the column. -/
  | typed (value : α)
  /-- Something else, with what is reported of it when it is read. -/
  | foreign (report : String)
  deriving DecidableEq, Repr

namespace Cell

variable {α : Type}

instance : Coe α (Cell α) := ⟨typed⟩

/-- Reads a column. -/
def read : Cell α → Except StoreError α
  | typed value => .ok value
  | foreign report => .error (.medium report)

/-- Reads a column that may be empty. -/
def readOptional : Option (Cell α) → Except StoreError (Option α)
  | none => .ok none
  | some cell => cell.read.map some

/-- The place of a key among the keys of a table: texts come first, in their order. -/
def place : Cell String → Nat × String
  | typed text => (0, text)
  | foreign report => (1, report)

instance : Ord (Cell String) :=
  ⟨compareLex (compareOn fun cell => cell.place.1) (compareOn fun cell => cell.place.2)⟩

instance : Std.TransCmp (compare : Cell String → Cell String → Ordering) :=
  inferInstanceAs (Std.TransCmp (compareLex _ _))

instance : Std.LawfulEqOrd (Cell String) where
  eq_of_compare {a b} h := by
    obtain ⟨table, name⟩ := compareLex_eq_eq.mp h
    have table : a.place.1 = b.place.1 := Std.compare_eq_iff_eq.mp table
    have name : a.place.2 = b.place.2 := Std.compare_eq_iff_eq.mp name
    cases a <;> cases b <;> simp_all [place]

end Cell

/-- The row of a node. -/
structure Row where
  owner : Cell String
  ttl : Cell Int := .typed 0
  contenthash : Option (Cell String) := none
  marker : Option (Cell String) := none

/-- The rows of a table under a node, by the column that tells them apart. -/
abbrev Rows := SortedMap (Cell String) (Cell String)

/-- What is held of a node that has a row: the row, its texts by key and its addresses by coin
type. -/
structure Holding extends Row where
  texts : Rows := ∅
  addresses : Rows := ∅

/-- The three tables by the text of the node. -/
structure Tables where
  rows : SortedMap String Row := ∅
  texts : SortedMap String Rows := ∅
  addresses : SortedMap String Rows := ∅

namespace Tables

/-- The tables without a row. -/
def empty : Tables := {}

/-- The text under which a node is stored. -/
def key (node : Word) : String := Hex.encodeBits node

/-- The text of the owner of a node without an owner. -/
def noOwner : String := Address.lower 0

/-- The greatest ttl that a row holds. -/
def maxTtl : Nat := Nat.pow 2 63 - 1

/-- The error of a column whose text does not read. -/
def unreadable (column raw reason : String) : StoreError :=
  .corrupt (column ++ " '" ++ raw ++ "': " ++ reason)

/-- Reads the text of a column. -/
def readColumn (column raw : String) (read : String → Except Hex.Error α) : Except StoreError α :=
  match read raw with
  | .ok a => .ok a
  | .error e => .error (unreadable column raw e.message)

/-- Reads the text of a column that may be empty. -/
def readOptional (column : String) (read : String → Except Hex.Error α) :
    Option String → Except StoreError (Option α)
  | none => .ok none
  | some raw => (readColumn column raw read).map some

/-- Reads rows in their order, each as an entry; of two entries for one key the later counts. -/
def readRows [Ord κ] [Std.TransCmp (compare : κ → κ → Ordering)]
    (read : Cell String → Cell String → Except StoreError (κ × ν)) :
    List (Cell String × Cell String) → SortedMap κ ν → Except StoreError (SortedMap κ ν)
  | [], entries => .ok entries
  | (name, value) :: rest, entries =>
    match read name value with
    | .error e => .error e
    | .ok (name, value) => readRows read rest (entries.insert name value)

/-- Reads the row of a text. -/
def readText (name value : Cell String) : Except StoreError (String × String) := do
  let name ← name.read
  let value ← value.read
  pure (name, value)

/-- Reads the row of an address. -/
def readAddress (coin value : Cell String) : Except StoreError (Word × Bytes) := do
  let coin ← coin.read
  let value ← value.read
  match Numeral.parse coin with
  | .error e => .error (unreadable "coin_type" coin e.message)
  | .ok number =>
    let content ← readColumn "address value" value Hex.decode
    pure (number, content)

/-- Reads the ttl of a row. -/
def readTtl (ttl : Int) : Except StoreError UInt64 :=
  if ttl < 0 then
    .error (.corrupt ("ttl " ++ toString ttl ++ ": number too small to fit in target type"))
  else .ok (UInt64.ofNat ttl.toNat)

/-- Reads the record of a node. -/
def readHolding (node : Word) (holding : Holding) : Except StoreError Record := do
  let owner ← holding.owner.read
  let ttl ← holding.ttl.read
  let contenthash ← Cell.readOptional holding.contenthash
  let marker ← Cell.readOptional holding.marker
  let texts ← readRows readText holding.texts.toList ∅
  let addresses ← readRows readAddress holding.addresses.toList ∅
  let owner ← readColumn "owner" owner Address.parse
  let ttl ← readTtl ttl
  let contenthash ← readOptional "contenthash" Hex.decode contenthash
  let marker ← readOptional "fingerprint" (Hex.decodeBits 256) marker
  pure { node, owner, ttl, texts, addresses, contenthash, marker }

/-- A row with the texts and addresses under a text. -/
def under (t : Tables) (name : String) (row : Row) : Holding :=
  { row with texts := t.texts[name]?.getD ∅, addresses := t.addresses[name]?.getD ∅ }

/-- What the tables hold of a node, if it has a row. -/
def holding? (t : Tables) (node : Word) : Option Holding := t.rows[key node]?.map (t.under (key node))

/-- What a change finds of a node, which gets a row without an owner if it has none. -/
def getD (t : Tables) (node : Word) : Holding :=
  t.under (key node) (t.rows[key node]?.getD { owner := noOwner })

/-- The tables with a holding in place of what they have under a text. -/
def write (t : Tables) (name : String) (holding : Holding) : Tables where
  rows := t.rows.insert name holding.toRow
  texts := t.texts.insert name holding.texts
  addresses := t.addresses.insert name holding.addresses

/-- The tables with another holding of a node. -/
def put (t : Tables) (node : Word) (holding : Holding) : Tables := t.write (key node) holding

/-- Changes what is held of a node, which gets a row if it has none. -/
def update (node : Word) (change : Holding → Holding) : Write Tables := fun t =>
  (.ok (), t.put node (change (t.getD node)))

/-- Whether the row of a node has an owner; there need not be a row. -/
def hasOwner (t : Tables) (node : Word) : Except StoreError Bool :=
  match t.rows[key node]? with
  | none => .ok false
  | some row => do
    let owner ← row.owner.read
    (readColumn "owner" owner Address.parse).map (· != 0)

/-- Gives a node without an owner to an owner. -/
def register (node : Word) (owner : Address) (ttl : UInt64) : Write Tables := fun t =>
  if maxTtl < ttl.toNat then
    (.error (.corrupt ("ttl " ++ toString ttl.toNat ++ ": number too large to fit in target type")), t)
  else
    match t.hasOwner node with
    | .error e => (.error e, t)
    | .ok true => (.error (.alreadyRegistered node), t)
    | .ok false =>
      update node (fun holding => { holding with owner := owner.lower, ttl := .typed ttl.toNat }) t

/-- Gives a node to another owner, if its owner is not the text of no owner. -/
def transfer (node : Word) (owner : Address) : Write Tables := fun t =>
  match t.holding? node with
  | some holding =>
    if holding.owner ≠ noOwner then (.ok (), t.put node { holding with owner := owner.lower })
    else (.error (.notFound node), t)
  | none => (.error (.notFound node), t)

/-- The numeral of a coin type. -/
def coinText (coin : Word) : String := toString coin.toNat

/-- Stores the marker of integrity in the row of a node. -/
def setMarker (node marker : Word) : Write Tables := fun t =>
  match t.holding? node with
  | some holding => (.ok (), t.put node { holding with marker := some (Hex.encodeBits marker) })
  | none => (.error (.notFound node), t)

end Tables

namespace Holding

/-- Sets a text, or clears it if the value is empty. -/
def putText (name value : String) (holding : Holding) : Holding :=
  if value = "" then { holding with texts := holding.texts.erase name }
  else { holding with texts := holding.texts.insert name value }

/-- Sets an address, or clears it if the value is empty. -/
def putAddress (coin : Word) (value : Bytes) (holding : Holding) : Holding :=
  if value = [] then { holding with addresses := holding.addresses.erase (Tables.coinText coin) }
  else { holding with
    addresses := holding.addresses.insert (Tables.coinText coin) (Hex.encode value) }

/-- Sets the content hash, or clears it if the value is empty. -/
def putContenthash (value : Bytes) (holding : Holding) : Holding :=
  { holding with contenthash := if value = [] then none else some (Hex.encode value) }

end Holding

namespace Tables

instance : Store Tables where
  domain t node :=
    match t.holding? node with
    | none => .ok none
    | some holding => (readHolding node holding).map some
  text t node name := Cell.readOptional (t.texts[key node]?.bind fun rows => rows[Cell.typed name]?)
  apply
    | .register node owner ttl => register node owner ttl
    | .transfer node owner => transfer node owner
    | .setText node name value => update node (Holding.putText name value)
    | .setAddress node coin value => update node (Holding.putAddress coin value)
    | .setContenthash node value => update node (Holding.putContenthash value)
    | .setMarker node marker => setMarker node marker

/-- Replaces the row under a text, past the operations of the store. The texts and addresses of a row that
is replaced go with it. -/
def putRow (t : Tables) (name : String) (row : Row) : Tables :=
  if name ∈ t.rows then t.write name { row with } else { t with rows := t.rows.insert name row }

/-- Changes what is held under a text, past the operations of the store; there must be a row. -/
def changeRow (t : Tables) (name : String) (change : Holding → Holding) : Except StoreError Tables :=
  match t.rows[name]? with
  | some row => .ok (t.write name (change (t.under name row)))
  | none => .error (.medium "FOREIGN KEY constraint failed")

end Tables

end OffchainNames
