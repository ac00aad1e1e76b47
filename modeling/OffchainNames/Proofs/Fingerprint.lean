import OffchainNames.Proofs.Abi.Injectivity
import Std.Data.ExtTreeMap.Lemmas

/-!
# What a fingerprint commits to

The fingerprint of a record is the digest of one encoding. Records whose sizes fit 64 bits have the same
encoding only if they agree on all that they hold but their markers (`Record.encode_state_eq_iff`): entries of
texts and addresses are neither split nor joined in another way. So two records with the same fingerprint
agree, or they show two byte strings with the same digest (`Record.agrees_of_fingerprint`).
-/

namespace OffchainNames

namespace Record

/-- The sizes of the content hash, of the texts and of the addresses fit 64 bits. -/
structure Sized (r : Record) : Prop where
  contenthash : ∀ hash, r.contenthash = some hash → hash.length < UInt64.size
  texts : r.texts.size < UInt64.size
  text : ∀ key value : String, r.texts[key]? = some value →
    (Bytes.ofString key).length < UInt64.size ∧ (Bytes.ofString value).length < UInt64.size
  addresses : r.addresses.size < UInt64.size
  address : ∀ (coin : Word) value, r.addresses[coin]? = some value → value.length < UInt64.size

/-- Two records hold the same but for their markers, and to hold no content hash is to hold an empty one. -/
structure Agrees (a b : Record) : Prop where
  node : a.node = b.node
  owner : a.owner = b.owner
  ttl : a.ttl = b.ttl
  contenthash : a.contenthash.getD [] = b.contenthash.getD []
  texts : a.texts = b.texts
  addresses : a.addresses = b.addresses

/-- The type of the value that the fingerprint is taken of. -/
def stateType : Abi.Ty :=
  .tuple [.fixedBytes 32, .address, .uint 64, .bytes, .array (.tuple [.string, .string]),
    .array (.tuple [.uint 256, .bytes])]

theorem belongs_state (r : Record) : Abi.Belongs r.state stateType := by
  refine .of_admits ?_
  simp [stateType, state, Abi.Ty.admits, Abi.Ty.admitsAll]

theorem fits_word {n : Nat} (small : n < UInt64.size) : n < Nat.pow 2 256 :=
  Nat.lt_trans small (by decide)

theorem fits_pair {a b : Abi.Value} (ha : a.Fits) (hb : b.Fits) : (Abi.Value.tuple [a, b]).Fits := by
  refine .tuple ?_
  simp only [List.forall_mem_cons, List.not_mem_nil, false_implies, implies_true, and_true]
  exact ⟨ha, hb⟩

section Entries

variable {κ ν : Type} [Ord κ] [Std.TransCmp (compare : κ → κ → Ordering)]
  {entries others : SortedMap κ ν} {entry : κ × ν → Abi.Value}

theorem fits_entries [Std.LawfulEqCmp (compare : κ → κ → Ordering)]
    (short : entries.size < UInt64.size)
    (each : ∀ key value, entries[key]? = some value → (entry (key, value)).Fits) :
    (Abi.Value.array (entries.toList.map entry)).Fits := by
  refine .array ?_ ?_
  · rw [List.length_map, Std.ExtTreeMap.length_toList]
    exact fits_word short
  · intro shown member
    obtain ⟨⟨key, value⟩, stored, rfl⟩ := List.mem_map.mp member
    exact each key value (Std.ExtTreeMap.mem_toList_iff_getElem?_eq_some.mp stored)

theorem eq_of_entries (injective : Function.Injective entry)
    (same : entries.toList.map entry = others.toList.map entry) : entries = others :=
  Std.ExtTreeMap.toList_inj.mp (List.map_injective_iff.mpr injective same)

end Entries

theorem Sized.fits_state {r : Record} (sized : r.Sized) : r.state.Fits := by
  have contenthash : (r.contenthash.getD []).length < UInt64.size := by
    cases held : r.contenthash with
    | none => exact Nat.zero_lt_succ _
    | some hash => exact sized.contenthash hash held
  refine .tuple ?_
  simp only [List.forall_mem_cons, List.not_mem_nil, false_implies, implies_true, and_true]
  refine ⟨.fixedBytes .., .address _, .uint .., .bytes (fits_word contenthash), ?_, ?_⟩
  · refine fits_entries sized.texts ?_
    intro key value stored
    obtain ⟨hkey, hvalue⟩ := sized.text key value stored
    exact fits_pair (.string (fits_word hkey)) (.string (fits_word hvalue))
  · refine fits_entries sized.addresses ?_
    intro coin value stored
    exact fits_pair (.uint ..) (.bytes (fits_word (sized.address coin value stored)))

theorem state_eq_iff {a b : Record} : a.state = b.state ↔ a.Agrees b := by
  constructor
  · intro same
    simp only [state, Abi.Value.tuple.injEq, List.cons.injEq, Abi.Value.fixedBytes.injEq,
      Abi.Value.address.injEq, Abi.Value.uint.injEq, Abi.Value.bytes.injEq, Abi.Value.array.injEq,
      and_true] at same
    obtain ⟨node, owner, ttl, contenthash, texts, addresses⟩ := same
    refine ⟨node, owner, Word.ofNat_toNat_inj ttl, contenthash, ?_, ?_⟩
    · refine eq_of_entries ?_ texts
      rintro ⟨key, value⟩ ⟨key', value'⟩ same
      simpa using same
    · refine eq_of_entries ?_ addresses
      rintro ⟨coin, value⟩ ⟨coin', value'⟩ same
      simpa using same
  · intro agrees
    rw [state, state, agrees.node, agrees.owner, agrees.ttl, agrees.contenthash, agrees.texts,
      agrees.addresses]

/-- Records whose sizes fit are encoded alike only if they agree. -/
theorem encode_state_eq_iff {a b : Record} (ha : a.Sized) (hb : b.Sized) :
    Abi.encode [a.state] = Abi.encode [b.state] ↔ a.Agrees b := by
  rw [← state_eq_iff]
  constructor
  · intro same
    have belong : ∀ r : Record, List.Forall₂ Abi.Belongs [r.state] [stateType] := fun r =>
      .cons r.belongs_state .nil
    have fit : ∀ {r : Record}, r.Sized → ∀ value ∈ [r.state], value.Fits := by
      intro r sized value member
      rw [List.mem_singleton.mp member]
      exact sized.fits_state
    exact List.head_eq_of_cons_eq
      (Abi.eq_of_encode (belong a) (belong b) (fit ha) (fit hb) (congrArg (· ++ []) same))
  · intro same
    rw [same]

/-- Two records whose sizes fit have the same fingerprint only if they agree on all but their markers, or
if their encodings are different byte strings with the same digest. Records that agree have the same
fingerprint, whatever their markers and sizes are. -/
theorem agrees_of_fingerprint (a b : Record) :
    (a.Sized → b.Sized → a.fingerprint = b.fingerprint → a.Agrees b ∨
      Abi.encode [a.state] ≠ Abi.encode [b.state] ∧
        keccak256 (Abi.encode [a.state]) = keccak256 (Abi.encode [b.state])) ∧
    (a.Agrees b → a.fingerprint = b.fingerprint) := by
  constructor
  · intro ha hb same
    by_cases alike : Abi.encode [a.state] = Abi.encode [b.state]
    · exact .inl ((encode_state_eq_iff ha hb).mp alike)
    · exact .inr ⟨alike, same⟩
  · intro agrees
    rw [fingerprint, fingerprint, state_eq_iff.mpr agrees]

/-- A record of the node 1 with one text. -/
def ofText (key value : String) : Record :=
  { node := 1, texts := (∅ : SortedMap String String).insert key value }

theorem sized_ofText {key value : String} (hkey : (Bytes.ofString key).length < UInt64.size)
    (hvalue : (Bytes.ofString value).length < UInt64.size) : (ofText key value).Sized := by
  refine ⟨?_, ?_, ?_, ?_, ?_⟩
  · simp [ofText]
  · simp [ofText, Std.ExtTreeMap.size_insert, UInt64.size]
  · intro other text stored
    simp only [ofText, Std.ExtTreeMap.getElem?_insert, Std.ExtTreeMap.getElem?_empty] at stored
    split at stored
    · rename_i same
      cases stored
      rw [← Std.LawfulEqCmp.eq_of_compare same]
      exact ⟨hkey, hvalue⟩
    · cases stored
  · simp [ofText, UInt64.size]
  · simp [ofText]

/-- A record with another marker has the same fingerprint and agrees. Two records that split the same three
characters between key and value are told apart, unless they show a collision. -/
theorem fingerprint_splits :
    ((ofText "ab" "c").fingerprint = { ofText "ab" "c" with marker := some 1 }.fingerprint ∧
      (ofText "ab" "c").Agrees { ofText "ab" "c" with marker := some 1 }) ∧
    ((ofText "ab" "c").fingerprint ≠ (ofText "a" "bc").fingerprint ∨
      Abi.encode [(ofText "ab" "c").state] ≠ Abi.encode [(ofText "a" "bc").state] ∧
        keccak256 (Abi.encode [(ofText "ab" "c").state]) =
          keccak256 (Abi.encode [(ofText "a" "bc").state])) := by
  have split : (ofText "ab" "c").Sized := sized_ofText (by decide) (by decide)
  have moved : (ofText "a" "bc").Sized := sized_ofText (by decide) (by decide)
  have marked : { ofText "ab" "c" with marker := some 1 }.Sized := { split with }
  constructor
  · have same : (ofText "ab" "c").fingerprint = { ofText "ab" "c" with marker := some 1 }.fingerprint :=
      (agrees_of_fingerprint _ _).2 ⟨rfl, rfl, rfl, rfl, rfl, rfl⟩
    obtain agrees | ⟨differ, -⟩ := (agrees_of_fingerprint _ _).1 split marked same
    · exact ⟨same, agrees⟩
    · exact absurd rfl differ
  · refine or_iff_not_imp_left.mpr fun same => ?_
    obtain agrees | collision := (agrees_of_fingerprint _ _).1 split moved (not_not.mp same)
    · have text := congrArg (fun texts => texts["a"]?) agrees.texts
      simp [ofText] at text
    · exact collision

end Record

end OffchainNames
