import OffchainNames.Proofs.Store.Tables

/-!
# Rows that read and rows that do not

Tables may hold rows that the store never wrote. A change to such tables is refused without a trace, or it
puts its effect on what is held of the node in the place of that (`Tables.apply_refused_or_made`), whether it
reads or not: a change looks at no other column than the owner. What is held reads iff each of its columns
does (`Holding.reads_iff`), and no change makes unreadable what reads (`Holding.Reads.effect`). A node without
a row is looked up with success, whatever texts and addresses stand under it, and a change gives it a row that
they then belong to (`Tables.holding_of_apply_ok`).
-/

namespace OffchainNames

namespace Tables

/-- A change is refused without a trace, or it puts its effect on what is held of the node in the place of
that. -/
theorem apply_refused_or_made (c : Change) (t : Tables) :
    (∃ cause, Store.apply c t = (.error cause, t)) ∨
      Store.apply c t = (.ok (), t.put c.node (c.holdingEffect (t.getD c.node))) := by
  cases c with
  | register node owner ttl =>
    show (∃ cause, register node owner ttl t = (.error cause, t)) ∨ register node owner ttl t = _
    unfold register
    split
    · exact .inl ⟨_, rfl⟩
    · split
      · exact .inl ⟨_, rfl⟩
      · exact .inl ⟨_, rfl⟩
      · exact .inr rfl
  | transfer node owner =>
    show (∃ cause, transfer node owner t = (.error cause, t)) ∨ transfer node owner t = _
    unfold transfer
    cases found : t.holding? node with
    | none => exact .inl ⟨_, rfl⟩
    | some held =>
      by_cases owned : held.owner ≠ noOwner
      · refine .inr ?_
        simp only [if_pos owned, Change.node, getD_of_holding? found]
        rfl
      · refine .inl ⟨.notFound node, ?_⟩
        simp only [if_neg owned]
  | setText | setAddress | setContenthash => exact .inr rfl
  | setMarker node marker =>
    show (∃ cause, setMarker node marker t = (.error cause, t)) ∨ setMarker node marker t = _
    unfold setMarker
    cases found : t.holding? node with
    | none => exact .inl ⟨_, rfl⟩
    | some held =>
      refine .inr ?_
      simp only [Change.node, getD_of_holding? found]
      rfl

theorem eq_of_apply_error {c : Change} {t t' : Tables} {cause : StoreError}
    (h : Store.apply c t = (.error cause, t')) : t' = t := by
  rcases apply_refused_or_made c t with ⟨cause', refused⟩ | made
  · rw [refused] at h
    cases h
    rfl
  · rw [made] at h
    cases h

theorem eq_of_apply_ok {c : Change} {t t' : Tables} (h : Store.apply c t = (.ok (), t')) :
    t' = t.put c.node (c.holdingEffect (t.getD c.node)) := by
  rcases apply_refused_or_made c t with ⟨cause, refused⟩ | made
  · rw [refused] at h
    cases h
  · rw [made] at h
    cases h
    rfl

/-- A marker is stored wherever there is a row, and the row may read or not. -/
theorem apply_setMarker {t : Tables} {node : Word} {held : Holding} (h : t.holding? node = some held)
    (marker : Word) : Store.apply (.setMarker node marker) t =
      (.ok (), t.put node { held with marker := some (Hex.encodeBits marker) }) := by
  show setMarker node marker t = _
  simp only [setMarker, h]

/-- A node whose row has no owner is registered, and its row may read or not otherwise. -/
theorem apply_register {t : Tables} {node : Word} {ttl : UInt64} (fits : ttl.toNat ≤ maxTtl)
    (free : t.hasOwner node = .ok false) (owner : Address) :
    Store.apply (.register node owner ttl) t =
      (.ok (), t.put node { t.getD node with owner := owner.lower, ttl := .typed ttl.toNat }) := by
  show register node owner ttl t = _
  rw [register, if_neg (Nat.not_lt.mpr fits), free]
  rfl

/-- A node without a row has no owner. -/
theorem hasOwner_of_holding?_eq_none {t : Tables} {node : Word} (absent : t.holding? node = none) :
    t.hasOwner node = .ok false := by
  rw [hasOwner_eq_of_holding?, absent]

/-- Empty tables register every node. -/
theorem apply_register_empty {ttl : UInt64} (fits : ttl.toNat ≤ maxTtl) (node : Word)
    (owner : Address) : Store.apply (.register node owner ttl) empty =
      (.ok (), empty.put node { owner := owner.lower, ttl := .typed ttl.toNat }) := by
  have absent : empty.holding? node = none := by simp [holding?, empty]
  have found : empty.getD node = { owner := noOwner } := by simp [getD, under, empty]
  rw [apply_register fits (hasOwner_of_holding?_eq_none absent), found]

/-- A registration is made only with a ttl that fits a row. -/
theorem fits_of_register {t t' : Tables} {node : Word} {owner : Address} {ttl : UInt64}
    (h : Store.apply (.register node owner ttl) t = (.ok (), t')) : ttl.toNat ≤ maxTtl := by
  by_contra large
  have refused : Store.apply (.register node owner ttl) t = (.error (.corrupt
      ("ttl " ++ toString ttl.toNat ++ ": number too large to fit in target type")), t) :=
    if_pos (Nat.lt_of_not_le large)
  rw [refused] at h
  cases h

/-- A column reads iff its text does. -/
theorem readColumn_eq_ok_iff {α : Type} {column raw : String}
    {read : String → Except Hex.Error α} {a : α} :
    readColumn column raw read = .ok a ↔ read raw = .ok a := by
  unfold readColumn
  cases read raw with
  | ok b => simp only [Except.ok.injEq]
  | error e => exact ⟨fun h => (nomatch h), fun h => (nomatch h)⟩

/-- Rows are read iff each of them is. -/
theorem readRows_reads_iff {κ ν : Type} [Ord κ] [Std.TransCmp (compare : κ → κ → Ordering)]
    {read : Cell String → Cell String → Except StoreError (κ × ν)}
    {rows : List (Cell String × Cell String)} {acc : SortedMap κ ν} :
    (∃ entries, readRows read rows acc = .ok entries) ↔
      ∀ name value, (name, value) ∈ rows → ∃ entry, read name value = .ok entry := by
  induction rows generalizing acc with
  | nil => exact ⟨fun _ name value member => (nomatch member), fun _ => ⟨acc, rfl⟩⟩
  | cons first rest ih =>
    obtain ⟨name, value⟩ := first
    constructor
    · rintro ⟨entries, h⟩
      rw [readRows] at h
      split at h
      · cases h
      · rename_i k v hentry
        intro name' value' member
        rcases List.mem_cons.mp member with heq | member
        · cases heq
          exact ⟨(k, v), hentry⟩
        · exact ih.mp ⟨entries, h⟩ name' value' member
    · intro each
      obtain ⟨⟨k, v⟩, hentry⟩ := each name value (List.mem_cons_self ..)
      obtain ⟨entries, h⟩ : ∃ entries, readRows read rest (acc.insert k v) = .ok entries :=
        ih.mpr fun name' value' member => each name' value' (List.mem_cons_of_mem _ member)
      refine ⟨entries, ?_⟩
      rw [readRows, hentry]
      exact h

end Tables

namespace Cell

/-- A column holds a value of its type, and what it holds reads. -/
def Reads {α ε β : Type} (cell : Cell α) (read : α → Except ε β) : Prop :=
  ∃ value, cell = .typed value ∧ ∃ b, read value = .ok b

theorem read_eq_ok_iff {α : Type} {cell : Cell α} {value : α} :
    cell.read = .ok value ↔ cell = .typed value := by
  cases cell <;> simp [read]

/-- A column that may be empty reads iff it is empty or what it holds reads. -/
theorem readOptional_reads_iff {α : Type} (column : String) {read : String → Except Hex.Error α}
    {cell? : Option (Cell String)} :
    (∃ text value, readOptional cell? = .ok text ∧ Tables.readOptional column read text = .ok value) ↔
      ∀ cell, cell? = some cell → cell.Reads read := by
  cases cell? with
  | none => exact ⟨fun _ cell h => (nomatch h), fun _ => ⟨none, none, rfl, rfl⟩⟩
  | some cell =>
    simp only [Option.some.injEq, forall_eq']
    constructor
    · rintro ⟨text, value, htext, hvalue⟩
      obtain ⟨raw, hraw, rfl⟩ := Except.map_eq_ok_iff.mp htext
      obtain ⟨a, ha, -⟩ := Except.map_eq_ok_iff.mp hvalue
      exact ⟨raw, read_eq_ok_iff.mp hraw, a, Tables.readColumn_eq_ok_iff.mp ha⟩
    · rintro ⟨raw, rfl, a, ha⟩
      refine ⟨some raw, some a, rfl, ?_⟩
      exact Except.map_eq_ok_iff.mpr ⟨a, Tables.readColumn_eq_ok_iff.mpr ha, rfl⟩

end Cell

/-- Every column of what is held reads. -/
structure Holding.Reads (held : Holding) : Prop where
  owner : held.owner.Reads Address.parse
  ttl : held.ttl.Reads Tables.readTtl
  contenthash : ∀ cell, held.contenthash = some cell → cell.Reads Hex.decode
  marker : ∀ cell, held.marker = some cell → cell.Reads (Hex.decodeBits 256)
  texts : ∀ name value, held.texts[name]? = some value →
    ∃ text, Tables.readText name value = .ok text
  addresses : ∀ coin value, held.addresses[coin]? = some value →
    ∃ address, Tables.readAddress coin value = .ok address

namespace Holding

variable {held : Holding}

theorem rows_reads_iff {κ ν : Type} [Ord κ] [Std.TransCmp (compare : κ → κ → Ordering)]
    {read : Cell String → Cell String → Except StoreError (κ × ν)} {rows : Rows} :
    (∃ entries, Tables.readRows read rows.toList ∅ = .ok entries) ↔
      ∀ name value, rows[name]? = some value → ∃ entry, read name value = .ok entry := by
  rw [Tables.readRows_reads_iff]
  simp only [Std.ExtTreeMap.mem_toList_iff_getElem?_eq_some]

/-- What is held reads iff each of its columns does. -/
theorem reads_iff (held : Holding) (node : Word) :
    held.Reads ↔ ∃ record, Tables.readHolding node held = .ok record := by
  constructor
  · intro reads
    obtain ⟨rawOwner, howner, owner, parsed⟩ := reads.owner
    obtain ⟨rawTtl, httl, ttl, fits⟩ := reads.ttl
    obtain ⟨rawHash, contenthash, hhash, hcontenthash⟩ :=
      (Cell.readOptional_reads_iff "contenthash").mpr reads.contenthash
    obtain ⟨rawMarker, marker, hmark, hmarker⟩ :=
      (Cell.readOptional_reads_iff "fingerprint").mpr reads.marker
    obtain ⟨texts, htexts⟩ := rows_reads_iff.mpr reads.texts
    obtain ⟨addresses, haddresses⟩ := rows_reads_iff.mpr reads.addresses
    have column : Tables.readColumn "owner" rawOwner Address.parse = .ok owner :=
      Tables.readColumn_eq_ok_iff.mpr parsed
    refine ⟨{ node, owner, ttl, texts, addresses, contenthash, marker }, ?_⟩
    simp only [Tables.readHolding, howner, httl, Cell.read, hhash, hmark, htexts, haddresses, column,
      fits, hcontenthash, hmarker, Except.ok_bind]
    rfl
  · rintro ⟨record, h⟩
    obtain ⟨rawOwner, howner, h⟩ := Except.bind_eq_ok_iff.mp h
    obtain ⟨rawTtl, httl, h⟩ := Except.bind_eq_ok_iff.mp h
    obtain ⟨rawHash, hhash, h⟩ := Except.bind_eq_ok_iff.mp h
    obtain ⟨rawMarker, hmark, h⟩ := Except.bind_eq_ok_iff.mp h
    obtain ⟨texts, htexts, h⟩ := Except.bind_eq_ok_iff.mp h
    obtain ⟨addresses, haddresses, h⟩ := Except.bind_eq_ok_iff.mp h
    obtain ⟨owner, column, h⟩ := Except.bind_eq_ok_iff.mp h
    obtain ⟨ttl, fits, h⟩ := Except.bind_eq_ok_iff.mp h
    obtain ⟨contenthash, hcontenthash, h⟩ := Except.bind_eq_ok_iff.mp h
    obtain ⟨marker, hmarker, -⟩ := Except.bind_eq_ok_iff.mp h
    exact {
      owner := ⟨rawOwner, Cell.read_eq_ok_iff.mp howner, owner, Tables.readColumn_eq_ok_iff.mp column⟩
      ttl := ⟨rawTtl, Cell.read_eq_ok_iff.mp httl, ttl, fits⟩
      contenthash := (Cell.readOptional_reads_iff _).mp ⟨rawHash, contenthash, hhash, hcontenthash⟩
      marker := (Cell.readOptional_reads_iff _).mp ⟨rawMarker, marker, hmark, hmarker⟩
      texts := rows_reads_iff.mp ⟨texts, htexts⟩
      addresses := rows_reads_iff.mp ⟨addresses, haddresses⟩ }

namespace Reads

theorem putText (reads : held.Reads) (key value : String) : (held.putText key value).Reads := by
  unfold Holding.putText
  by_cases cleared : value = ""
  · rw [if_pos cleared]
    exact { reads with texts := SortedMap.forall_erase reads.texts }
  · rw [if_neg cleared]
    have new := Tables.readText_readsBack key value
    exact { reads with texts := SortedMap.forall_insert reads.texts ⟨_, new⟩ }

theorem putAddress (reads : held.Reads) (coin : Word) (value : Bytes) :
    (held.putAddress coin value).Reads := by
  unfold Holding.putAddress
  by_cases cleared : value = []
  · rw [if_pos cleared]
    exact { reads with addresses := SortedMap.forall_erase reads.addresses }
  · rw [if_neg cleared]
    have new := Tables.readAddress_readsBack coin value
    exact { reads with addresses := SortedMap.forall_insert reads.addresses ⟨_, new⟩ }

theorem putContenthash (reads : held.Reads) (value : Bytes) : (held.putContenthash value).Reads := by
  refine { reads with contenthash := ?_ }
  intro cell h
  simp only [Holding.putContenthash] at h
  split at h
  · cases h
  · cases h
    exact ⟨_, rfl, value, Hex.decode_encode value⟩

/-- What reads, reads after a change. -/
theorem effect (reads : held.Reads) (c : Change) : (c.holdingEffect held).Reads := by
  cases c with
  | register _ owner ttl =>
    exact { reads with
      owner := ⟨_, rfl, owner, Address.parse_lower owner⟩
      ttl := ⟨_, rfl, ttl, Tables.readTtl_toNat ttl⟩ }
  | transfer _ owner => exact { reads with owner := ⟨_, rfl, owner, Address.parse_lower owner⟩ }
  | setText _ key value => exact reads.putText key value
  | setAddress _ coin value => exact reads.putAddress coin value
  | setContenthash _ value => exact reads.putContenthash value
  | setMarker _ marker =>
    refine { reads with marker := ?_ }
    intro cell h
    cases h
    exact ⟨_, rfl, marker, Hex.decodeBits_encodeBits (by decide) marker⟩

end Reads

end Holding

namespace Tables

variable {t t' : Tables} {c : Change}

/-- A node is looked up with success iff it has no row or what is held of it reads. -/
theorem domain_reads_iff {node : Word} : (∃ record, Store.domain t node = .ok record) ↔
    ∀ held, t.holding? node = some held → held.Reads := by
  simp only [Store.domain]
  cases t.holding? node with
  | none => exact ⟨fun _ held h => (nomatch h), fun _ => ⟨none, rfl⟩⟩
  | some held =>
    simp only [Option.some.injEq, forall_eq']
    rw [held.reads_iff node]
    constructor
    · rintro ⟨found, h⟩
      obtain ⟨record, hrecord, -⟩ := Except.map_eq_ok_iff.mp h
      exact ⟨record, hrecord⟩
    · rintro ⟨record, hrecord⟩
      exact ⟨some record, Except.map_eq_ok_iff.mpr ⟨record, hrecord, rfl⟩⟩

/-- What is held of a node that is found reads. -/
theorem reads_getD_of_domain {node : Word} {record : Record}
    (found : Store.domain t node = .ok (some record)) : (t.getD node).Reads := by
  cases hheld : t.holding? node with
  | none =>
    simp only [Store.domain, hheld] at found
    cases found
  | some held =>
    rw [getD_of_holding? hheld]
    exact domain_reads_iff.mp ⟨_, found⟩ held hheld

/-- The texts and addresses under a node read, whether it has a row or not. -/
structure RowsRead (t : Tables) (node : Word) : Prop where
  texts : ∀ name value, (t.getD node).texts[name]? = some value →
    ∃ text, readText name value = .ok text
  addresses : ∀ coin value, (t.getD node).addresses[coin]? = some value →
    ∃ address, readAddress coin value = .ok address

/-- What a change finds of a node without a row reads if the texts and addresses under the node do. -/
theorem reads_getD_of_absent {node : Word} (absent : Store.domain t node = .ok none)
    (rows : t.RowsRead node) : (t.getD node).Reads := by
  have bare : t.rows[key node]? = none := by
    cases hrow : t.rows[key node]? with
    | none => rfl
    | some row =>
      simp only [Store.domain, holding?, hrow, Option.map_some] at absent
      obtain ⟨record, -, h⟩ := Except.map_eq_ok_iff.mp absent
      cases h
  have texts := rows.texts
  have addresses := rows.addresses
  simp only [getD, bare, Option.getD_none] at texts addresses ⊢
  exact {
    owner := ⟨_, rfl, 0, Address.parse_lower 0⟩
    ttl := ⟨_, rfl, 0, readTtl_toNat 0⟩
    contenthash := fun cell h => by cases h
    marker := fun cell h => by cases h
    texts := texts
    addresses := addresses }

/-- A change that is made leaves the node with a row. What is held of the node reads if it did before,
counting the texts and addresses that stood under the node before it had a row. -/
theorem holding_of_apply_ok (h : Store.apply c t = (.ok (), t')) :
    ∃ held, t'.holding? c.node = some held ∧ ((t.getD c.node).Reads → held.Reads) := by
  refine ⟨c.holdingEffect (t.getD c.node), ?_, fun reads => reads.effect c⟩
  rw [eq_of_apply_ok h, holding?_put, if_pos rfl]

end Tables

end OffchainNames
