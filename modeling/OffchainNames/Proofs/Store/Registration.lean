import OffchainNames.Proofs.Abi.Injectivity
import OffchainNames.Proofs.Store.Owners

/-!
# Registering and transferring complement each other

A node without an owner can be registered and not transferred, and a node with an owner the other way
round (`Store.Complementary`). So it is in memory. Tables look at the text of the owner instead: to register
a node they read it, to transfer a node they compare it with the one text that they write for no owner
themselves. Two other texts stand for no owner as well (`Address.parse_eq_zero_iff`), and a row with one of
them is that of a node that can be both registered and transferred. No other row that reads is an exception
(`Backend.complementary_iff_spelt`).
-/

namespace OffchainNames

namespace Bytes

theorem toNat_lt (bytes : Bytes) : toNat bytes < Nat.pow 256 bytes.length := by
  have back := toNat_ofNat bytes.length (toNat bytes)
  rw [ofNat_toNat] at back
  rw [back]
  exact Nat.mod_lt _ (Nat.pow_pos (by decide))

theorem ofNat_zero (width : Nat) : ofNat width 0 = List.replicate width 0 := by
  induction width with
  | zero => rfl
  | succ width ih =>
    rw [ofNat, Nat.zero_div, ih, List.replicate_succ']
    rfl

/-- Whole bytes read as zero iff all of them are zero. -/
theorem toBits_eq_zero_iff {size : Nat} {bytes : Bytes} (length : bytes.length = size) :
    toBits (8 * size) bytes = 0 ↔ bytes = List.replicate size 0 := by
  constructor
  · intro zero
    have bound : Nat.pow 256 size = 2 ^ (8 * size) := by
      show 256 ^ size = 2 ^ (8 * size)
      rw [Nat.pow_mul]
    have small : toNat bytes < 2 ^ (8 * size) := by
      rw [← bound, ← length]
      exact toNat_lt bytes
    have number : toNat bytes = 0 := by
      have numbers := congrArg BitVec.toNat zero
      rwa [toBits, BitVec.toNat_ofNat, Nat.mod_eq_of_lt small] at numbers
    rw [← ofNat_toNat bytes, number, ofNat_zero, length]
  · rintro rfl
    rw [← ofNat_zero, toBits, toNat_ofNat, Nat.zero_mod]
    rfl

end Bytes

namespace Hex

theorem value?_eq_zero_iff {b : UInt8} : value? b = some 0 ↔ b = 48 := by
  constructor
  · intro h
    unfold value? at h
    apply UInt8.toNat.inj
    show b.toNat = 48
    simp only [UInt8.le_iff_toNat_le, UInt8.reduceToNat] at h
    split_ifs at h <;> simp only [Option.some.injEq] at h <;> omega
  · rintro rfl
    rfl

theorem value?_lt {b : UInt8} {n : Nat} (h : value? b = some n) : n < 16 := by
  unfold value? at h
  simp only [UInt8.le_iff_toNat_le, UInt8.reduceToNat] at h
  split_ifs at h <;> simp only [Option.some.injEq] at h <;> omega

theorem length_of_decodePairs {position : Nat} {digits bytes : Bytes}
    (h : decodePairs position digits = .ok bytes) : digits.length = 2 * bytes.length := by
  fun_induction decodePairs position digits generalizing bytes with
  | case1 position high low rest h' l' _ _ ih =>
    obtain ⟨decoded, hdecoded, rfl⟩ := Except.map_eq_ok_iff.mp h
    have := ih hdecoded
    simp only [List.length_cons]
    omega
  | case2 | case3 | case4 => cases h
  | case5 =>
    cases h
    rfl

/-- Digits stand for zeros iff each of them is the digit zero. -/
theorem decodePairs_eq_zeros_iff {size position : Nat} {digits : Bytes} :
    decodePairs position digits = .ok (List.replicate size 0) ↔
      digits = List.replicate (2 * size) 48 := by
  induction size generalizing position digits with
  | zero =>
    constructor
    · intro h
      exact List.length_eq_zero_iff.mp (length_of_decodePairs h)
    · rintro rfl
      rfl
  | succ size ih =>
    have twice : 2 * (size + 1) = 2 * size + 1 + 1 := rfl
    rw [twice, List.replicate_succ, List.replicate_succ, List.replicate_succ]
    constructor
    · intro h
      obtain ⟨high, low, rest, rfl⟩ : ∃ high low rest, digits = high :: low :: rest := by
        have length := length_of_decodePairs h
        match digits, length with
        | high :: low :: rest, _ => exact ⟨high, low, rest, rfl⟩
      rw [decodePairs] at h
      split at h
      · rename_i first second hhigh hlow
        obtain ⟨bytes, hbytes, together⟩ := Except.map_eq_ok_iff.mp h
        obtain ⟨byte, rfl⟩ := List.cons.inj together
        have firstLt := value?_lt hhigh
        have secondLt := value?_lt hlow
        have number := congrArg UInt8.toNat byte
        rw [UInt8.toNat_ofNat', Nat.mod_eq_of_lt (by omega), UInt8.toNat_zero] at number
        obtain rfl : first = 0 := by omega
        obtain rfl : second = 0 := by omega
        rw [value?_eq_zero_iff.mp hhigh, value?_eq_zero_iff.mp hlow, ih.mp hbytes]
      · cases h
      · cases h
    · rintro rfl
      rw [decodePairs]
      simp only [value?_eq_zero_iff.mpr rfl, ih.mpr rfl]
      rfl

/-- Only a mark stands between a text and its digits. -/
theorem unmarked_eq_zeros_iff {text : Bytes} {size : Nat} :
    unmarked text = List.replicate size 48 ↔
      text = 48 :: 120 :: List.replicate size 48 ∨ text = 48 :: 88 :: List.replicate size 48 ∨
        text = List.replicate size 48 := by
  constructor
  · intro h
    unfold unmarked at h
    split at h
    · exact .inl (by rw [h])
    · exact .inr (.inl (by rw [h]))
    · exact .inr (.inr h)
  · rintro (rfl | rfl | rfl)
    · rfl
    · rfl
    · match size with
      | 0 | 1 | _ + 2 => rfl

/-- A text stands for bytes of a length iff its digits do. -/
theorem decodeExact_eq_ok_iff {size : Nat} {text : String} {bytes : Bytes} :
    decodeExact size text = .ok bytes ↔
      decodePairs 0 (unmarked (Bytes.ofString text)) = .ok bytes ∧ bytes.length = size := by
  simp only [decodeExact]
  constructor
  · intro h
    split_ifs at h with odd wrong
    have length := length_of_decodePairs h
    exact ⟨h, by omega⟩
  · rintro ⟨h, rfl⟩
    have length := length_of_decodePairs h
    rw [if_neg (by omega), if_neg (by omega), h]

/-- A text stands for the word zero iff its digits are zeros. -/
theorem decodeBits_eq_zero_iff {size : Nat} {text : String} :
    decodeBits (8 * size) text = .ok 0 ↔
      unmarked (Bytes.ofString text) = List.replicate (2 * size) 48 := by
  rw [decodeBits, Nat.mul_div_cancel_left size (by decide), Except.map_eq_ok_iff,
    ← @decodePairs_eq_zeros_iff size 0]
  constructor
  · rintro ⟨bytes, h, zero⟩
    obtain ⟨digits, length⟩ := decodeExact_eq_ok_iff.mp h
    rw [digits, (Bytes.toBits_eq_zero_iff length).mp zero]
  · intro h
    have length : (List.replicate size (0 : UInt8)).length = size := List.length_replicate
    exact ⟨_, decodeExact_eq_ok_iff.mpr ⟨h, length⟩, (Bytes.toBits_eq_zero_iff length).mpr rfl⟩

end Hex

namespace Address

/-- The digits of the address zero. -/
def zeros : String := Hex.bare (List.replicate 20 0)

/-- The texts that stand for the address zero: the one that is written for it, and the same digits after
the other mark or without one. -/
theorem parse_eq_zero_iff {text : String} :
    parse text = .ok 0 ↔ text = lower 0 ∨ text = "0X" ++ zeros ∨ text = zeros := by
  have written : Bytes.ofString (lower 0) = 48 :: 120 :: List.replicate 40 48 := by decide
  have capital : Bytes.ofString ("0X" ++ zeros) = 48 :: 88 :: List.replicate 40 48 := by
    decide
  have unmarked : Bytes.ofString zeros = List.replicate 40 48 := by decide
  have told (other : String) : Bytes.ofString text = Bytes.ofString other ↔ text = other :=
    ⟨Bytes.ofString_inj, congrArg _⟩
  rw [parse, @Hex.decodeBits_eq_zero_iff 20, Hex.unmarked_eq_zeros_iff,
    ← written, ← capital, ← unmarked, told, told, told]

end Address

/-- Registering a node and transferring it complement each other: the first is made iff the node has no
owner and the second iff it has one, and what is refused is so for this reason and without a trace. -/
@[mk_iff]
structure Store.Complementary {σ : Type} [Store σ] (s : σ) (node : Word) : Prop where
  registered_iff : ∀ (owner : Address) (ttl : UInt64), ttl.toNat < Nat.pow 2 63 →
    ((Store.apply (.register node owner ttl) s).1 = .ok () ↔ Store.owner s node = .ok none)
  register_refused : ∀ (owner : Address) (ttl : UInt64), ttl.toNat < Nat.pow 2 63 →
    (Store.apply (.register node owner ttl) s).1 ≠ .ok () →
      Store.apply (.register node owner ttl) s = (.error (.alreadyRegistered node), s)
  transferred_iff : ∀ owner : Address, (Store.apply (.transfer node owner) s).1 = .ok () ↔
    ∃ account, Store.owner s node = .ok (some account)
  transfer_refused : ∀ owner : Address, (Store.apply (.transfer node owner) s).1 ≠ .ok () →
    Store.apply (.transfer node owner) s = (.error (.notFound node), s)

namespace Store.Complementary

variable {σ τ : Type} [Store σ] [Store τ] {s : σ} {node : Word}

/-- Either change is decided by whether the node has an owner. -/
theorem of_owner {owner? : Option Address} (looked : Store.owner s node = .ok owner?)
    (register : ∀ (owner : Address) (ttl : UInt64), ttl.toNat < Nat.pow 2 63 →
      if owner?.isSome then
        Store.apply (.register node owner ttl) s = (.error (.alreadyRegistered node), s)
      else (Store.apply (.register node owner ttl) s).1 = .ok ())
    (transfer : ∀ owner : Address,
      if owner?.isSome then (Store.apply (.transfer node owner) s).1 = .ok ()
      else Store.apply (.transfer node owner) s = (.error (.notFound node), s)) :
    Complementary s node := by
  cases owner? with
  | none =>
    have made : ∀ (owner : Address) (ttl : UInt64), ttl.toNat < Nat.pow 2 63 →
        (Store.apply (.register node owner ttl) s).1 = .ok () := register
    have refused : ∀ owner : Address,
        Store.apply (.transfer node owner) s = (.error (.notFound node), s) := transfer
    exact {
      registered_iff := fun owner ttl fits => iff_of_true (made owner ttl fits) looked
      register_refused := fun owner ttl fits unmade => absurd (made owner ttl fits) unmade
      transferred_iff := by
        intro owner
        rw [refused owner, looked]
        simp
      transfer_refused := fun owner _ => refused owner }
  | some account =>
    have refused : ∀ (owner : Address) (ttl : UInt64), ttl.toNat < Nat.pow 2 63 →
        Store.apply (.register node owner ttl) s = (.error (.alreadyRegistered node), s) := register
    have made : ∀ owner : Address, (Store.apply (.transfer node owner) s).1 = .ok () := transfer
    exact {
      registered_iff := by
        intro owner ttl fits
        rw [refused owner ttl fits, looked]
        simp
      register_refused := fun owner ttl fits _ => refused owner ttl fits
      transferred_iff := fun owner => iff_of_true (made owner) ⟨account, looked⟩
      transfer_refused := fun owner unmade => absurd (made owner) unmade }

/-- Stores that answer and change alike are complementary alike. -/
theorem embedded_iff {into : σ → τ} (injective : Function.Injective into)
    (owners : Store.owner (into s) node = Store.owner s node)
    (changes : ∀ c, Store.apply c (into s) = ((Store.apply c s).1, into (Store.apply c s).2)) :
    Complementary (into s) node ↔ Complementary s node := by
  have answers (c : Change) : (Store.apply c (into s)).1 = (Store.apply c s).1 := by
    rw [changes]
  have refused (c : Change) (cause : StoreError) :
      Store.apply c (into s) = (.error cause, into s) ↔ Store.apply c s = (.error cause, s) := by
    rw [changes, Prod.mk.injEq, injective.eq_iff, Prod.ext_iff]
  simp only [complementary_iff, answers, refused, owners]

end Store.Complementary

namespace Memory

theorem complementary (m : Memory) (node : Word) : Store.Complementary m node := by
  have looked : Store.owner m node = .ok (m.records[node]?.bind Record.registeredOwner?) := rfl
  have registered : (m.records[node]?.bind Record.registeredOwner?).isSome =
      (m.getD node).isRegistered := by
    unfold getD
    cases m.records[node]? with
    | none => rfl
    | some record =>
      show record.registeredOwner?.isSome = record.isRegistered
      unfold Record.registeredOwner?
      cases record.isRegistered <;> rfl
  refine .of_owner looked ?_ ?_
  · intro owner ttl _
    rw [registered, apply_eq]
    cases h : (m.getD node).isRegistered <;> simp [refusal?, h]
  · intro owner
    rw [registered, apply_eq]
    cases h : (m.getD node).isRegistered <;> simp [refusal?, h]

end Memory

/-- No owner stands in a row as one of three texts. -/
theorem Holding.ownedBy_zero_iff {held : Holding} : held.OwnedBy 0 ↔ held.owner = .typed Tables.noOwner ∨
    held.owner = .typed ("0X" ++ Address.zeros) ∨ held.owner = .typed Address.zeros := by
  constructor
  · rintro ⟨text, h, parsed⟩
    rw [h, Cell.typed.injEq, Cell.typed.injEq, Cell.typed.injEq]
    exact Address.parse_eq_zero_iff.mp parsed
  · rintro (h | h | h)
    · exact ⟨_, h, Address.parse_lower 0⟩
    · exact ⟨_, h, Address.parse_eq_zero_iff.mpr (.inr (.inl rfl))⟩
    · exact ⟨_, h, Address.parse_eq_zero_iff.mpr (.inr (.inr rfl))⟩

namespace Tables

variable {t : Tables} {node : Word}

/-- Tables have no owner for a node iff it has no row, or what is held of it reads and has a text that stands
for zero in the place of the owner. -/
theorem owner_eq_none_iff : Store.owner t node = .ok none ↔
    ∀ held, t.holding? node = some held → held.Reads ∧ held.OwnedBy 0 := by
  unfold Store.owner
  simp only [Store.domain]
  cases t.holding? node with
  | none => exact iff_of_true rfl (fun held h => nomatch h)
  | some held =>
    simp only [Option.some.injEq, forall_eq']
    constructor
    · intro unowned
      obtain ⟨looked, hlooked, hnone⟩ := Except.map_eq_ok_iff.mp unowned
      obtain ⟨record, read, rfl⟩ := Except.map_eq_ok_iff.mp hlooked
      have zero : record.owner = 0 := by
        by_contra nonzero
        have owned := Record.registeredOwner?_eq_some_iff.mpr ⟨rfl, nonzero⟩
        rw [Option.bind_some, owned] at hnone
        cases hnone
      exact ⟨(held.reads_iff node).mpr ⟨record, read⟩, zero ▸ owner_of_readHolding read⟩
    · rintro ⟨reads, ownedBy⟩
      obtain ⟨record, read⟩ := (held.reads_iff node).mp reads
      have zero : record.owner = 0 := (owner_of_readHolding read).unique ownedBy
      refine Except.map_eq_ok_iff.mpr ⟨some record, by rw [read]; rfl, ?_⟩
      simp [Record.registeredOwner?, Record.isRegistered, zero]

/-- A node that was looked up is registered iff it has no owner. -/
theorem apply_register_of_looked {owner? : Option Address}
    (looked : Store.owner t node = .ok owner?) (owner : Address) {ttl : UInt64}
    (fits : ttl.toNat ≤ maxTtl) :
    if owner?.isSome then
      Store.apply (.register node owner ttl) t = (.error (.alreadyRegistered node), t)
    else (Store.apply (.register node owner ttl) t).1 = .ok () := by
  cases owner? with
  | some account =>
    obtain ⟨held, found, -, ownedBy, nonzero⟩ := owner_eq_some_iff.mp looked
    show register node owner ttl t = _
    rw [register, if_neg (Nat.not_lt.mpr fits), hasOwner_of_ownedBy found ownedBy,
      bne_iff_ne.mpr nonzero]
  | none =>
    have free : t.hasOwner node = .ok false := by
      cases found : t.holding? node with
      | none => exact hasOwner_of_holding?_eq_none found
      | some held =>
        rw [hasOwner_of_ownedBy found (owner_eq_none_iff.mp looked held found).2]
        rfl
    rw [apply_register fits free]
    rfl

/-- A node is transferred iff it has a row with anything but the text written for no owner. -/
theorem apply_transfer_eq (t : Tables) (node : Word) (owner : Address) :
    if ∃ held, t.holding? node = some held ∧ held.owner ≠ noOwner then
      (Store.apply (.transfer node owner) t).1 = .ok ()
    else Store.apply (.transfer node owner) t = (.error (.notFound node), t) := by
  show if _ then (transfer node owner t).1 = _ else transfer node owner t = _
  unfold transfer
  cases t.holding? node with
  | none => simp
  | some held => by_cases owned : held.owner = noOwner <;> simp [owned]

/-- The row of a node has a text in the place of the owner that stands for zero and is not the one that is
written for it. -/
def Misspelt (t : Tables) (node : Word) : Prop :=
  ∃ row, t.rows[key node]? = some row ∧
    (row.owner = .typed ("0X" ++ Address.zeros) ∨ row.owner = .typed Address.zeros)

theorem misspelt_iff : t.Misspelt node ↔ ∃ held, t.holding? node = some held ∧
    (held.owner = .typed ("0X" ++ Address.zeros) ∨ held.owner = .typed Address.zeros) := by
  unfold Misspelt holding?
  cases t.rows[key node]? with
  | none => simp
  | some row => simp [under]

theorem ne_noOwner_of_misspelt {owner : Cell String}
    (misspelt : owner = .typed ("0X" ++ Address.zeros) ∨ owner = .typed Address.zeros) :
    owner ≠ noOwner := by
  rcases misspelt with rfl | rfl <;> decide

/-- A node that was looked up is transferred iff it has an owner or is misspelt. -/
theorem transferable_iff {owner? : Option Address} (looked : Store.owner t node = .ok owner?) :
    (∃ held, t.holding? node = some held ∧ held.owner ≠ noOwner) ↔
      owner?.isSome ∨ t.Misspelt node := by
  cases owner? with
  | some account =>
    obtain ⟨held, found, -, ownedBy, nonzero⟩ := owner_eq_some_iff.mp looked
    refine iff_of_true ⟨held, found, ?_⟩ (.inl rfl)
    intro own
    exact nonzero (ownedBy.unique (Holding.ownedBy_zero_iff.mpr (.inl own)))
  | none =>
    rw [misspelt_iff]
    constructor
    · rintro ⟨held, found, other⟩
      have unowned := Holding.ownedBy_zero_iff.mp (owner_eq_none_iff.mp looked held found).2
      exact .inr ⟨held, found, unowned.resolve_left other⟩
    · rintro (owned | ⟨held, found, misspelt⟩)
      · cases owned
      · exact ⟨held, found, ne_noOwner_of_misspelt misspelt⟩

/-- A misspelt node has no owner. -/
theorem Misspelt.unowned (misspelt : t.Misspelt node) {account : Address} :
    Store.owner t node ≠ .ok (some account) := by
  intro owned
  obtain ⟨held, found, -, ownedBy, nonzero⟩ := owner_eq_some_iff.mp owned
  obtain ⟨held', found', text⟩ := misspelt_iff.mp misspelt
  obtain rfl : held = held' := Option.some.inj (found.symm.trans found')
  exact nonzero (ownedBy.unique (Holding.ownedBy_zero_iff.mpr (.inr text)))

theorem complementary_iff (readable : ∃ record, Store.domain t node = .ok record) :
    Store.Complementary t node ↔ ¬ t.Misspelt node := by
  obtain ⟨owner?, looked⟩ : ∃ owner?, Store.owner t node = .ok owner? := by
    obtain ⟨record, hrecord⟩ := readable
    exact ⟨_, Except.map_eq_ok_iff.mpr ⟨record, hrecord, rfl⟩⟩
  constructor
  · intro complementary misspelt
    have transferred := apply_transfer_eq t node 0
    rw [if_pos ((transferable_iff looked).mpr (.inr misspelt))] at transferred
    obtain ⟨account, owned⟩ := (complementary.transferred_iff 0).mp transferred
    exact misspelt.unowned owned
  · intro spelt
    refine .of_owner looked ?_ ?_
    · intro owner ttl fits
      exact apply_register_of_looked looked owner (Nat.le_sub_one_of_lt fits)
    · intro owner
      have transferred := apply_transfer_eq t node owner
      simp only [transferable_iff looked, spelt, or_false] at transferred
      exact transferred

/-- Tables with one row, that of the node 1, which has the given text for its owner. -/
def withOwner (text : String) : Tables := Tables.empty.putRow (Tables.key 1) { owner := text }

theorem row_withOwner {text : String} {row : Row} :
    (withOwner text).rows[Tables.key 1]? = some row ↔ row = { owner := text } := by
  simp [withOwner, Tables.putRow, empty, eq_comm]

theorem holding_withOwner {text : String} {held : Holding} :
    (withOwner text).holding? 1 = some held ↔ held = { owner := text } := by
  simp [holding?, under, withOwner, putRow, empty, eq_comm]

theorem reads_withOwner {text : String} {account : Address}
    (parsed : Address.parse text = .ok account) : ({ owner := text } : Holding).Reads where
  owner := ⟨text, rfl, account, parsed⟩
  ttl := ⟨0, rfl, 0, readTtl_toNat 0⟩
  contenthash := fun cell h => nomatch h
  marker := fun cell h => nomatch h
  texts := fun name value h => by simp at h
  addresses := fun coin value h => by simp at h

end Tables

namespace Backend

/-- A node of tables whose row has another text than theirs for no owner. -/
def Misspelt : Backend → Word → Prop
  | memory _, _ => False
  | tables t, node => t.Misspelt node

variable {b : Backend} {node : Word}

/-- Registering and transferring a node that is looked up with success complement each other, unless its
row stands in tables and has for no owner another text than the one that is written there. -/
theorem complementary_iff_spelt (readable : ∃ record, Store.domain b node = .ok record) :
    Store.Complementary b node ↔ ¬ b.Misspelt node := by
  cases b with
  | memory m =>
    have injective : Function.Injective memory := fun _ _ same => memory.inj same
    have within : Store.Complementary (memory m) node ↔ Store.Complementary m node :=
      Store.Complementary.embedded_iff injective rfl fun c => rfl
    exact iff_of_true (within.mpr (m.complementary node)) id
  | tables t =>
    have injective : Function.Injective tables := fun _ _ same => tables.inj same
    have within : Store.Complementary (tables t) node ↔ Store.Complementary t node :=
      Store.Complementary.embedded_iff injective rfl fun c => rfl
    exact within.trans (Tables.complementary_iff readable)

/-- A row that was not written by the store, with the owner in the letter case of its checksum. -/
theorem complementary_checksummed :
    (∃ record, Store.domain (tables (Tables.withOwner "0x7E5F4552091A69125d5DfCb7b8C2659029395Bdf")) 1 =
      .ok record) ∧
    Store.Complementary (tables (Tables.withOwner "0x7E5F4552091A69125d5DfCb7b8C2659029395Bdf")) 1 := by
  have parsed : Address.parse "0x7E5F4552091A69125d5DfCb7b8C2659029395Bdf" =
      .ok 0x7e5f4552091a69125d5dfcb7b8c2659029395bdf := by decide
  have readable : ∃ record,
      Store.domain (Tables.withOwner "0x7E5F4552091A69125d5DfCb7b8C2659029395Bdf") 1 = .ok record := by
    refine Tables.domain_reads_iff.mpr fun held found => ?_
    rw [Tables.holding_withOwner.mp found]
    exact Tables.reads_withOwner parsed
  refine ⟨readable, (complementary_iff_spelt readable).mpr ?_⟩
  rintro ⟨row, found, text⟩
  rw [Tables.row_withOwner.mp found] at text
  revert text
  decide

/-- A node whose row has zeros without a mark for its owner: it has no owner, and is given to another one
as well as registered. -/
theorem transferred_without_owner :
    Store.owner (tables (Tables.withOwner Address.zeros)) 1 = .ok none ∧
      (Store.apply (.transfer 1 7) (tables (Tables.withOwner Address.zeros))).1 = .ok () ∧
      (Store.apply (.register 1 7 60) (tables (Tables.withOwner Address.zeros))).1 = .ok () ∧
      ¬ Store.Complementary (tables (Tables.withOwner Address.zeros)) 1 := by
  have unowned : Store.owner (Tables.withOwner Address.zeros) 1 = .ok none := by
    refine Tables.owner_eq_none_iff.mpr fun held found => ?_
    have parsed := Address.parse_eq_zero_iff.mpr (.inr (.inr (Eq.refl Address.zeros)))
    rw [Tables.holding_withOwner.mp found]
    exact ⟨Tables.reads_withOwner parsed, _, rfl, parsed⟩
  have other : ∃ held, (Tables.withOwner Address.zeros).holding? 1 = some held ∧
      held.owner ≠ Tables.noOwner :=
    ⟨_, Tables.holding_withOwner.mpr rfl, Tables.ne_noOwner_of_misspelt (.inr rfl)⟩
  have transferred := Tables.apply_transfer_eq (Tables.withOwner Address.zeros) 1 7
  rw [if_pos other] at transferred
  have registered : (Store.apply (.register 1 7 60) (Tables.withOwner Address.zeros)).1 = .ok () :=
    Tables.apply_register_of_looked unowned 7 (by decide)
  refine ⟨unowned, transferred, registered, fun complementary => ?_⟩
  obtain ⟨account, owned⟩ := (complementary.transferred_iff 7).mp transferred
  have both : Except.ok none = Except.ok (some account) := unowned.symm.trans owned
  cases both

end Backend

end OffchainNames
