import Mathlib.Data.List.Forall2
import OffchainNames.Proofs.Bytes.Hex
import OffchainNames.Proofs.Numeral
import OffchainNames.Proofs.Store.Memory
import OffchainNames.Store.Tables

/-!
# The tables refine the store in memory

Tables mirror a store in memory if what they hold of each node shows its record in text
(`Tables.Mirrors`).
Mirroring tables answer every question as the store in memory does (`Tables.Mirrors.sameAnswers`), and
a change is refused by both for the same reason or made in both, after which they mirror each other
again (`Tables.Mirrors.apply`). So the two agree step by step from the empty store on
(`Tables.trace_agrees`), as long as every ttl fits a row.
-/

namespace OffchainNames

namespace Store

/-- Two stores answer every question in the same way. -/
structure SameAnswers {σ τ : Type} [Store σ] [Store τ] (s : σ) (t : τ) : Prop where
  domain : ∀ node, domain s node = domain t node
  text : ∀ node key, text s node key = text t node key
  address : ∀ node coin, address s node coin = address t node coin
  contenthash : ∀ node, contenthash s node = contenthash t node
  owner : ∀ node, owner s node = owner t node

/-- Only records and texts are asked for by themselves. -/
theorem SameAnswers.of_domain {σ τ : Type} [Store σ] [Store τ] {s : σ} {t : τ}
    (domain : ∀ node, Store.domain s node = Store.domain t node)
    (text : ∀ node key, Store.text s node key = Store.text t node key) : SameAnswers s t where
  domain := domain
  text := text
  address node coin := by rw [Store.address, Store.address, domain]
  contenthash node := by rw [Store.contenthash, Store.contenthash, domain]
  owner node := by rw [Store.owner, Store.owner, domain]

/-- The answers to changes that are made one after the other, each with the state after it. -/
def trace {σ : Type} [Store σ] : List Change → σ → List (Except StoreError Unit × σ)
  | [], _ => []
  | c :: rest, s => apply c s :: trace rest (apply c s).2

end Store

namespace Tables

theorem key_inj {a b : Word} : key a = key b ↔ a = b :=
  Hex.encodeBits_inj (by decide)

theorem parse_coinText (coin : Word) : Numeral.parse (coinText coin) = .ok coin := by
  rw [coinText, Numeral.parse_toString coin.isLt, BitVec.ofNat_toNat, BitVec.setWidth_eq]

theorem coinText_inj {a b : Word} : coinText a = coinText b ↔ a = b :=
  Except.write_inj parse_coinText

theorem under_write_self (t : Tables) (name : String) (held : Holding) :
    (t.write name held).under name held.toRow = held := by
  simp [under, write]

theorem under_write_of_ne (t : Tables) {name other : String} (held : Holding) (row : Row)
    (h : other ≠ name) : (t.write name held).under other row = t.under other row := by
  simp only [under, write, SortedMap.getElem?_insert, if_neg h]

theorem holding?_put (t : Tables) (node n : Word) (held : Holding) :
    (t.put node held).holding? n = if n = node then some held else t.holding? n := by
  unfold holding? put
  by_cases same : n = node
  · rw [if_pos same, same]
    simp only [write, Std.ExtTreeMap.getElem?_insert_self, Option.map_some]
    exact congrArg some (t.under_write_self (key node) held)
  · have other : key n ≠ key node := fun h => same (key_inj.mp h)
    rw [if_neg same]
    simp only [write, SortedMap.getElem?_insert, if_neg other]
    exact congrArg (Option.map · _) (funext fun row => t.under_write_of_ne held row other)

theorem getD_put (t : Tables) (node n : Word) (held : Holding) :
    (t.put node held).getD n = if n = node then held else t.getD n := by
  unfold getD put
  by_cases same : n = node
  · rw [if_pos same, same]
    simp only [write, Std.ExtTreeMap.getElem?_insert_self, Option.getD_some]
    exact t.under_write_self (key node) held
  · have other : key n ≠ key node := fun h => same (key_inj.mp h)
    rw [if_neg same, under_write_of_ne _ _ _ other]
    simp only [write, SortedMap.getElem?_insert, if_neg other]

/-- A change finds what is held of a node that has a row. -/
theorem getD_of_holding? {t : Tables} {node : Word} {held : Holding}
    (found : t.holding? node = some held) : t.getD node = held := by
  obtain ⟨row, hrow, rfl⟩ := Option.map_eq_some_iff.mp found
  rw [getD, hrow, Option.getD_some]

/-- Whether a node has an owner is read off what is held of it. -/
theorem hasOwner_eq_of_holding? (t : Tables) (node : Word) : t.hasOwner node =
    match t.holding? node with
    | none => .ok false
    | some held =>
      held.owner.read.bind fun owner => (readColumn "owner" owner Address.parse).map (· != 0) := by
  unfold hasOwner holding?
  cases t.rows[key node]? <;> rfl

/-! ## Rows that show entries -/

section

variable {κ ν : Type} {read : Cell String → Cell String → Except StoreError (κ × ν)}
  {name : κ → String} {text : ν → String}

/-- What is written as a row is read back. -/
def ReadsBack (read : Cell String → Cell String → Except StoreError (κ × ν)) (name : κ → String)
    (text : ν → String) : Prop :=
  ∀ k v, read (.typed (name k)) (.typed (text v)) = .ok (k, v)

theorem readText_readsBack : ReadsBack readText id id := fun _ _ => rfl

theorem readAddress_readsBack : ReadsBack readAddress coinText Hex.encode := by
  intro coin value
  have column : readColumn "address value" (Hex.encode value) Hex.decode = .ok value := by
    simp only [readColumn, Hex.decode_encode]
  simp only [readAddress, Cell.read, Except.ok_bind, parse_coinText, column]
  rfl

theorem ReadsBack.row_inj (back : ReadsBack read name text) {k k' : κ} {v v' : ν}
    (names : name k = name k') (texts : text v = text v') : k = k' ∧ v = v' := by
  have same := back k v
  rw [names, texts, back] at same
  exact ⟨(Prod.mk.inj (Except.ok.inj same)).1.symm, (Prod.mk.inj (Except.ok.inj same)).2.symm⟩

variable [Ord κ] [Std.TransCmp (compare : κ → κ → Ordering)]

/-- Rows show entries in text: under the text of each key stands that of its value, and nothing else. -/
structure Shows (name : κ → String) (text : ν → String) (rows : Rows) (entries : SortedMap κ ν) :
    Prop where
  shown : ∀ k, rows[Cell.typed (name k)]? = entries[k]?.map fun v => .typed (text v)
  named : ∀ cell, cell ∈ rows → ∃ k, cell = .typed (name k)

theorem Shows.empty : Shows name text ∅ (∅ : SortedMap κ ν) where
  shown k := by simp
  named cell member := by simp at member

variable [Std.LawfulEqOrd κ] [DecidableEq κ]

namespace ReadsBack

variable (back : ReadsBack read name text)
include back

/-- Rows that are written with different names are read as the entries that they are written for. -/
theorem readRows_eq_ok {rows : List (Cell String × Cell String)}
    (each : ∀ row ∈ rows, ∃ k v, row = (.typed (name k), .typed (text v)))
    (distinct : rows.Pairwise fun a b => a.1 ≠ b.1) (acc : SortedMap κ ν) :
    ∃ entries, readRows read rows acc = .ok entries ∧ ∀ k v,
      entries[k]? = some v ↔ (Cell.typed (name k), Cell.typed (text v)) ∈ rows ∨
        (∀ row ∈ rows, row.1 ≠ Cell.typed (name k)) ∧ acc[k]? = some v := by
  -- What was read before a row stays for the keys that neither the row nor a later one has.
  induction rows generalizing acc with
  | nil => exact ⟨acc, rfl, by simp⟩
  | cons first rest ih =>
    obtain ⟨k, v, rfl⟩ := each first (List.mem_cons_self ..)
    obtain ⟨apart, distinct⟩ := List.pairwise_cons.mp distinct
    obtain ⟨entries, hread, hentries⟩ :=
      ih (fun row member => each row (List.mem_cons_of_mem _ member)) distinct (acc.insert k v)
    refine ⟨entries, ?_, ?_⟩
    · rw [Tables.readRows, back k v]
      exact hread
    · intro k' v'
      rw [hentries, SortedMap.getElem?_insert, List.mem_cons]
      by_cases same : k' = k
      · subst same
        rw [if_pos rfl]
        constructor
        · rintro (member | ⟨-, found⟩)
          · exact (apart _ member rfl).elim
          · cases found
            exact .inl (.inl rfl)
        · rintro ((heq | member) | ⟨others, -⟩)
          · obtain ⟨-, texts⟩ := Prod.mk.inj heq
            obtain ⟨-, rfl⟩ := back.row_inj (k := k') rfl (Cell.typed.inj texts)
            exact .inr ⟨fun row member => (apart row member).symm, rfl⟩
          · exact (apart _ member rfl).elim
          · exact (others _ (List.mem_cons_self ..) rfl).elim
      · rw [if_neg same]
        have other : Cell.typed (name k) ≠ .typed (name k') := by
          intro names
          exact same (back.row_inj (v := v) (Cell.typed.inj names) rfl).1.symm
        constructor
        · rintro (member | ⟨others, found⟩)
          · exact .inl (.inr member)
          · exact .inr ⟨List.forall_mem_cons.mpr ⟨other, others⟩, found⟩
        · rintro ((heq | member) | ⟨others, found⟩)
          · exact absurd (Prod.mk.inj heq).1.symm other
          · exact .inl member
          · exact .inr ⟨(List.forall_mem_cons.mp others).2, found⟩

/-- Rows that show entries are read as these entries. -/
theorem readRows {rows : Rows} {entries : SortedMap κ ν} (shows : Shows name text rows entries) :
    Tables.readRows read rows.toList ∅ = .ok entries := by
  have each : ∀ row ∈ rows.toList, ∃ k v, row = (.typed (name k), .typed (text v)) := by
    rintro ⟨cell, content⟩ member
    have found := Std.ExtTreeMap.mem_toList_iff_getElem?_eq_some.mp member
    have present : cell ∈ rows := by
      rw [Std.ExtTreeMap.mem_iff_isSome_getElem?, found]
      rfl
    obtain ⟨k, rfl⟩ := shows.named cell present
    rw [shows.shown] at found
    obtain ⟨v, -, rfl⟩ := Option.map_eq_some_iff.mp found
    exact ⟨k, v, rfl⟩
  have distinct : rows.toList.Pairwise fun a b => a.1 ≠ b.1 := by
    refine Std.ExtTreeMap.distinct_keys_toList.imp fun {a b} h heq => ?_
    exact h (Std.compare_eq_iff_eq.mpr heq)
  obtain ⟨found, hread, hentries⟩ := back.readRows_eq_ok each distinct ∅
  rw [hread]
  refine congrArg Except.ok (Std.ExtTreeMap.ext_getElem? fun k => ?_)
  refine Option.ext fun v => ?_
  rw [hentries, Std.ExtTreeMap.mem_toList_iff_getElem?_eq_some, shows.shown]
  cases entries[k]? with
  | none => simp
  | some v' =>
    have told : text v' = text v ↔ v' = v :=
      ⟨fun texts => (back.row_inj (k := k) rfl texts).2, congrArg text⟩
    simp [told]

end ReadsBack

namespace Shows

variable {rows : Rows} {entries : SortedMap κ ν}

theorem insert (h : Shows name text rows entries) (told : Function.Injective name) (k : κ) (v : ν) :
    Shows name text (rows.insert (.typed (name k)) (.typed (text v))) (entries.insert k v) where
  shown other := by
    simp only [SortedMap.getElem?_insert, Cell.typed.injEq, told.eq_iff, h.shown]
    split <;> rfl
  named cell member := by
    rcases Std.ExtTreeMap.mem_insert.mp member with same | member
    · exact ⟨k, (Std.compare_eq_iff_eq.mp same).symm⟩
    · exact h.named cell member

theorem erase (h : Shows name text rows entries) (told : Function.Injective name) (k : κ) :
    Shows name text (rows.erase (.typed (name k))) (entries.erase k) where
  shown other := by
    simp only [SortedMap.getElem?_erase, Cell.typed.injEq, told.eq_iff, h.shown]
    split <;> rfl
  named cell member := h.named cell (Std.ExtTreeMap.mem_erase.mp member).2

end Shows

end

end Tables

/-- What is held of a node shows its record in text. -/
structure Holding.Mirrors (held : Holding) (node : Word) (record : Record) : Prop where
  node : record.node = node
  owner : held.owner = record.owner.lower
  ttl : held.ttl = .typed record.ttl.toNat
  contenthash : held.contenthash = record.contenthash.map fun hash => .typed (Hex.encode hash)
  marker : held.marker = record.marker.map fun marker => .typed (Hex.encodeBits marker)
  texts : Tables.Shows id id held.texts record.texts
  addresses : Tables.Shows Tables.coinText Hex.encode held.addresses record.addresses

namespace Holding.Mirrors

variable {held : Holding} {node : Word} {record : Record}

/-- A row without an owner shows the empty record. -/
theorem empty (node : Word) : Holding.Mirrors { owner := Tables.noOwner } node { node } where
  node := rfl
  owner := rfl
  ttl := rfl
  contenthash := rfl
  marker := rfl
  texts := .empty
  addresses := .empty

theorem putText (h : held.Mirrors node record) (key value : String) :
    (held.putText key value).Mirrors node (record.putText key value) := by
  unfold Holding.putText Record.putText
  by_cases cleared : value = ""
  · rw [if_pos cleared, if_pos cleared]
    exact { h with texts := h.texts.erase Function.injective_id key }
  · rw [if_neg cleared, if_neg cleared]
    exact { h with texts := h.texts.insert Function.injective_id key value }

theorem putAddress (h : held.Mirrors node record) (coin : Word) (value : Bytes) :
    (held.putAddress coin value).Mirrors node (record.putAddress coin value) := by
  have told : Function.Injective Tables.coinText := fun _ _ => Tables.coinText_inj.mp
  unfold Holding.putAddress Record.putAddress
  by_cases cleared : value = []
  · rw [if_pos cleared, if_pos cleared]
    exact { h with addresses := h.addresses.erase told coin }
  · rw [if_neg cleared, if_neg cleared]
    exact { h with addresses := h.addresses.insert told coin value }

theorem putContenthash (h : held.Mirrors node record) (value : Bytes) :
    (held.putContenthash value).Mirrors node (record.putContenthash value) := by
  refine { h with contenthash := ?_ }
  by_cases cleared : value = []
  · simp only [Holding.putContenthash, Record.putContenthash, if_pos cleared, Option.map_none]
  · simp only [Holding.putContenthash, Record.putContenthash, if_neg cleared, Option.map_some]

end Holding.Mirrors

theorem Cell.readOptional_map {α β : Type} (write : α → β) (value : Option α) :
    readOptional (value.map fun a => typed (write a)) = .ok (value.map write) := by
  cases value <;> rfl

namespace Tables

theorem readOptional_map {α : Type} {column : String} {read : String → Except Hex.Error α}
    {write : α → String} (back : ∀ a, read (write a) = .ok a) (value : Option α) :
    readOptional column read (value.map write) = .ok value := by
  cases value with
  | none => rfl
  | some a => simp only [Option.map_some, readOptional, readColumn, back, Except.map]

theorem readTtl_toNat (ttl : UInt64) : readTtl ttl.toNat = .ok ttl := by
  rw [readTtl, if_neg (by omega), Int.toNat_natCast, UInt64.ofNat_toNat]

/-- The record that is shown is read. -/
theorem readHolding_of_mirrors {held : Holding} {node : Word} {record : Record}
    (h : held.Mirrors node record) : readHolding node held = .ok record := by
  have owner : readColumn "owner" record.owner.lower Address.parse = .ok record.owner := by
    simp only [readColumn, Address.parse_lower]
  have marker : readOptional "fingerprint" (Hex.decodeBits 256) (record.marker.map Hex.encodeBits) =
      .ok record.marker := readOptional_map (Hex.decodeBits_encodeBits (by decide)) _
  have contenthash : readOptional "contenthash" Hex.decode (record.contenthash.map Hex.encode) =
      .ok record.contenthash := readOptional_map Hex.decode_encode _
  simp only [readHolding, h.owner, h.ttl, h.contenthash, h.marker, Cell.read, Cell.readOptional_map,
    readText_readsBack.readRows h.texts, readAddress_readsBack.readRows h.addresses, owner,
    readTtl_toNat, contenthash, marker, Except.ok_bind]
  rw [← h.node]
  rfl

/-- Tables mirror a store in memory: they have rows for the same nodes, and what a change finds of a node
shows the record that it finds in memory. -/
structure Mirrors (t : Tables) (m : Memory) : Prop where
  isSome : ∀ node, (t.holding? node).isSome = m.records[node]?.isSome
  getD : ∀ node, (t.getD node).Mirrors node (m.getD node)

/-- A text is asked for whether the node has a row or not. -/
theorem text_eq (t : Tables) (n : Word) (name : String) :
    Store.text t n name = Cell.readOptional (t.getD n).texts[Cell.typed name]? := by
  show Cell.readOptional (t.texts[Tables.key n]?.bind fun rows => rows[Cell.typed name]?) = _
  rw [getD, under]
  cases t.texts[Tables.key n]? with
  | none => simp
  | some rows => rfl

end Tables

/-- What a change makes of what is held of its node. -/
def Change.holdingEffect : Change → Holding → Holding
  | register _ owner ttl, held => { held with owner := owner.lower, ttl := .typed ttl.toNat }
  | transfer _ owner, held => { held with owner := owner.lower }
  | setText _ key value, held => held.putText key value
  | setAddress _ coin value, held => held.putAddress coin value
  | setContenthash _ value, held => held.putContenthash value
  | setMarker _ marker, held => { held with marker := some (Hex.encodeBits marker) }

/-- After a change the record is still shown. -/
theorem Holding.Mirrors.effect {held : Holding} {node : Word} {record : Record}
    (h : held.Mirrors node record) (c : Change) :
    (c.holdingEffect held).Mirrors node (c.effect record) := by
  cases c with
  | register _ owner ttl => exact { h with owner := rfl, ttl := rfl }
  | transfer _ owner => exact { h with owner := rfl }
  | setText _ key value => exact h.putText key value
  | setAddress _ coin value => exact h.putAddress coin value
  | setContenthash _ value => exact h.putContenthash value
  | setMarker _ marker => exact { h with marker := rfl }

namespace Tables

namespace Mirrors

variable {t : Tables} {m : Memory}

theorem empty : Tables.empty.Mirrors Memory.empty where
  isSome node := by simp [Tables.empty, holding?, Memory.empty]
  getD node := by
    have found : Tables.empty.getD node = { owner := noOwner } := by
      simp [Tables.getD, under, Tables.empty]
    have record : Memory.empty.getD node = { node } := by simp [Memory.getD, Memory.empty]
    rw [found, record]
    exact .empty node

/-- A node has neither a row nor a record, or what is held of it shows the record. -/
theorem none_or_some (h : t.Mirrors m) (node : Word) :
    (t.holding? node = none ∧ m.records[node]? = none) ∨
      ∃ held record, t.holding? node = some held ∧ m.records[node]? = some record ∧
        held.Mirrors node record := by
  have both := h.isSome node
  have shows := h.getD node
  cases found : t.holding? node with
  | none =>
    rw [found] at both
    exact .inl ⟨rfl, Option.not_isSome_iff_eq_none.mp (by rw [← both]; exact Bool.false_ne_true)⟩
  | some held =>
    rw [found] at both
    obtain ⟨record, stored⟩ := Option.isSome_iff_exists.mp both.symm
    rw [getD_of_holding? found, Memory.getD, stored] at shows
    exact .inr ⟨held, record, rfl, stored, shows⟩

theorem put (h : t.Mirrors m) {node : Word} {held : Holding} {record : Record}
    (shows : held.Mirrors node record) : (t.put node held).Mirrors (m.put node record) where
  isSome n := by
    rw [holding?_put, Memory.getElem?_put]
    by_cases same : n = node
    · rw [if_pos same, if_pos same]
      rfl
    · rw [if_neg same, if_neg same, h.isSome]
  getD n := by
    rw [getD_put, Memory.getD, Memory.getElem?_put]
    by_cases same : n = node
    · rw [if_pos same, if_pos same, same]
      exact shows
    · rw [if_neg same, if_neg same]
      exact h.getD n

/-- Mirroring tables answer as the store in memory does. -/
theorem sameAnswers (h : t.Mirrors m) : Store.SameAnswers t m := by
  refine .of_domain ?_ ?_
  · intro node
    have found : Store.domain m node = .ok m.records[node]? := rfl
    rw [found]
    simp only [Store.domain]
    rcases h.none_or_some node with ⟨hheld, hrecord⟩ | ⟨held, record, hheld, hrecord, shows⟩
    · rw [hheld, hrecord]
    · rw [hheld, hrecord]
      simp only [readHolding_of_mirrors shows]
      rfl
  · intro node name
    have shown := (h.getD node).texts.shown name
    rw [text_eq, Memory.text_eq]
    exact (congrArg Cell.readOptional shown).trans ((Cell.readOptional_map id _).trans (by rw [Option.map_id, id]))

/-- Whether the row of a node has an owner is whether the record has one. -/
theorem hasOwner_eq (h : t.Mirrors m) (node : Word) :
    t.hasOwner node = .ok (m.getD node).isRegistered := by
  rw [hasOwner_eq_of_holding?, Memory.getD]
  rcases h.none_or_some node with ⟨hheld, hrecord⟩ | ⟨held, record, hheld, hrecord, shows⟩
  · rw [hheld, hrecord]
    rfl
  · rw [hheld, hrecord]
    have owner : readColumn "owner" record.owner.lower Address.parse = .ok record.owner := by
      simp only [readColumn, Address.parse_lower]
    simp only [shows.owner, Cell.read, Except.bind, owner]
    rfl

/-- A change whose ttl fits is refused for the reason for which it is refused in memory, or makes its
effect on what is held of the node. -/
theorem apply_eq (h : t.Mirrors m) {c : Change}
    (fits : ∀ node owner ttl, c = .register node owner ttl → ttl.toNat ≤ maxTtl) :
    Store.apply c t =
      match m.refusal? c with
      | some cause => (.error cause, t)
      | none => (.ok (), t.put c.node (c.holdingEffect (t.getD c.node))) := by
  cases c with
  | register node owner ttl =>
    have small : ¬ maxTtl < ttl.toNat := Nat.not_lt.mpr (fits node owner ttl rfl)
    show register node owner ttl t = _
    simp only [register, if_neg small, h.hasOwner_eq, Memory.refusal?]
    cases (m.getD node).isRegistered <;> rfl
  | transfer node owner =>
    show transfer node owner t = _
    simp only [transfer, Memory.refusal?, Memory.getD, Change.node]
    rcases h.none_or_some node with ⟨hheld, hrecord⟩ | ⟨held, record, hheld, hrecord, shows⟩
    · simp [hheld, hrecord, Record.isRegistered]
    -- The owner is compared as text, and only the text of no owner reads as none.
    · have owned : held.owner ≠ noOwner ↔ record.isRegistered = true := by
        rw [ne_eq, shows.owner, Cell.typed.injEq, noOwner, Address.lower_inj]
        simp [Record.isRegistered]
      simp only [hheld, hrecord, Option.getD_some, owned, getD_of_holding? hheld]
      cases record.isRegistered <;> rfl
  | setText | setAddress | setContenthash => rfl
  | setMarker node marker =>
    show setMarker node marker t = _
    simp only [setMarker, Memory.refusal?, Change.node]
    rcases h.none_or_some node with ⟨hheld, hrecord⟩ | ⟨held, record, hheld, hrecord, shows⟩
    · simp [hheld, hrecord]
    · simp only [hheld, hrecord, Option.isSome_some, if_true, getD_of_holding? hheld]
      rfl

/-- A change is answered in the same way, and the tables mirror the store in memory again. -/
theorem apply (h : t.Mirrors m) {c : Change}
    (fits : ∀ node owner ttl, c = .register node owner ttl → ttl.toNat ≤ maxTtl) :
    (Store.apply c t).1 = (Store.apply c m).1 ∧
      (Store.apply c t).2.Mirrors (Store.apply c m).2 := by
  rw [h.apply_eq fits, Memory.apply_eq]
  cases m.refusal? c with
  | some cause => exact ⟨rfl, h⟩
  | none => exact ⟨rfl, h.put ((h.getD c.node).effect c)⟩

end Mirrors

/-- From mirroring states on, changes made one after the other are answered in the same way, and after
each of them all questions are. -/
theorem forall₂_trace {t : Tables} {m : Memory} (h : t.Mirrors m) {changes : List Change}
    (fits : ∀ node owner ttl, .register node owner ttl ∈ changes → ttl.toNat ≤ maxTtl) :
    List.Forall₂ (fun a b => a.1 = b.1 ∧ Store.SameAnswers a.2 b.2) (Store.trace changes t)
      (Store.trace changes m) := by
  induction changes generalizing t m with
  | nil => exact .nil
  | cons c rest ih =>
    obtain ⟨answer, mirrors⟩ := h.apply (c := c) fun node owner ttl heq =>
      fits node owner ttl (heq ▸ List.mem_cons_self ..)
    refine .cons ⟨answer, mirrors.sameAnswers⟩ (ih mirrors fun node owner ttl member => ?_)
    exact fits node owner ttl (List.mem_cons_of_mem _ member)

/-- From the empty store on, the tables and the store in memory answer changes made one after the other
in the same way, and after each of them all questions. -/
theorem trace_agrees {changes : List Change}
    (fits : ∀ node owner ttl, .register node owner ttl ∈ changes → ttl.toNat ≤ maxTtl) :
    List.Forall₂ (fun a b => a.1 = b.1 ∧ Store.SameAnswers a.2 b.2)
      (Store.trace changes Tables.empty) (Store.trace changes Memory.empty) :=
  forall₂_trace .empty fits

/-- A registration, writes to the node and a transfer of another one. -/
def sample : List Change :=
  [.register 1 5 60, .setText 1 "url" "https://example.org", .setAddress 1 60 [1, 2],
    .setMarker 1 7, .transfer 2 6]

theorem sample_agrees :
    (∀ node owner ttl, .register node owner ttl ∈ sample → ttl.toNat ≤ maxTtl) ∧
    List.Forall₂ (fun a b => a.1 = b.1 ∧ Store.SameAnswers a.2 b.2)
      (Store.trace sample Tables.empty) (Store.trace sample Memory.empty) := by
  have fits : ∀ node owner ttl, .register node owner ttl ∈ sample → ttl.toNat ≤ maxTtl := by
    intro node owner ttl member
    have small : ttl = 60 := by
      simp [sample] at member
      exact member.2.2
    rw [small]
    decide
  exact ⟨fits, trace_agrees fits⟩

end Tables

end OffchainNames
