import OffchainNames.Proofs.Abi.RoundTrip

/-!
# What is read belongs to the types that it is read for

Decoding accepts many encodings of a value, but no value of another type: whatever is read for a type
belongs to it (`Abi.belongs_of_decode`), so that the arguments of a call always are as many as the
parameters, and of their types (`Abi.Signature.belong_of_decodeInput`).
-/

namespace OffchainNames

namespace Abi

section Kinds

variable {value : Value}

theorem belongs_fixedBytes_iff {size : Nat} :
    Belongs value (.fixedBytes size) ↔ ∃ w, value = .fixedBytes w size := by
  constructor
  · rintro ⟨⟩
    exact ⟨_, rfl⟩
  · rintro ⟨w, rfl⟩
    exact .fixedBytes w size

theorem belongs_uint_iff {bits : Nat} : Belongs value (.uint bits) ↔ ∃ w, value = .uint w bits := by
  constructor
  · rintro ⟨⟩
    exact ⟨_, rfl⟩
  · rintro ⟨w, rfl⟩
    exact .uint w bits

theorem belongs_address_iff : Belongs value .address ↔ ∃ a, value = .address a := by
  constructor
  · rintro ⟨⟩
    exact ⟨_, rfl⟩
  · rintro ⟨a, rfl⟩
    exact .address a

theorem belongs_bytes_iff : Belongs value .bytes ↔ ∃ b, value = .bytes b := by
  constructor
  · rintro ⟨⟩
    exact ⟨_, rfl⟩
  · rintro ⟨b, rfl⟩
    exact .bytes b

theorem belongs_string_iff : Belongs value .string ↔ ∃ s, value = .string s := by
  constructor
  · rintro ⟨⟩
    exact ⟨_, rfl⟩
  · rintro ⟨s, rfl⟩
    exact .string s

theorem belongs_array_iff {element : Ty} : Belongs value (.array element) ↔
    ∃ values, (∀ value ∈ values, Belongs value element) ∧ value = .array values := by
  constructor
  · rintro ⟨⟩
    exact ⟨_, ‹_›, rfl⟩
  · rintro ⟨values, all, rfl⟩
    exact .array all

/-- Values that are byte strings are the list of them. -/
theorem eq_map_of_belong_bytes {values : List Value} (all : ∀ value ∈ values, Belongs value .bytes) :
    ∃ contents : List Bytes, values = contents.map .bytes := by
  induction values with
  | nil => exact ⟨[], rfl⟩
  | cons value rest ih =>
    obtain ⟨content, rfl⟩ := belongs_bytes_iff.mp (all value (List.mem_cons_self ..))
    obtain ⟨contents, rfl⟩ := ih fun value member => all value (List.mem_cons_of_mem _ member)
    exact ⟨content :: contents, rfl⟩

end Kinds

/-- Values that are read with one reader are as many as asked for, and belong to what it reads. -/
theorem belong_of_repeated {element : Ty} {read : Cursor → Except DecodeError (Value × Cursor)}
    (each : ∀ c value c', read c = .ok (value, c') → Belongs value element) {count : Nat}
    {c c' : Cursor} {values : List Value} (h : repeated read count c = .ok (values, c')) :
    values.length = count ∧ ∀ value ∈ values, Belongs value element := by
  -- Each value is read where the one before it ended.
  induction count generalizing c values with
  | zero =>
    cases h
    exact ⟨rfl, fun value member => nomatch member⟩
  | succ count ih =>
    rw [repeated, Except.bind_eq_ok_iff] at h
    obtain ⟨⟨first, next⟩, hfirst, h⟩ := h
    obtain ⟨⟨rest, last⟩, hrest, h⟩ := Except.bind_eq_ok_iff.mp h
    cases h
    obtain ⟨length, all⟩ := ih hrest
    refine ⟨by rw [List.length_cons, length], ?_⟩
    exact List.forall_mem_cons.mpr ⟨each c first next hfirst, all⟩

theorem read_of_framed {tailed : Bool} {read : Cursor → Except DecodeError (List Value × Cursor)}
    {c c' : Cursor} {values : List Value} (h : framed tailed read c = .ok (values, c')) :
    ∃ child last, read child = .ok (values, last) := by
  unfold framed at h
  split at h
  · obtain ⟨⟨child, next⟩, -, h⟩ := Except.bind_eq_ok_iff.mp h
    obtain ⟨⟨values', last⟩, hread, h⟩ := Except.bind_eq_ok_iff.mp h
    cases h
    exact ⟨child, last, hread⟩
  · obtain ⟨child, -, h⟩ := Except.bind_eq_ok_iff.mp h
    obtain ⟨⟨values', last⟩, hread, h⟩ := Except.bind_eq_ok_iff.mp h
    cases h
    exact ⟨child, last, hread⟩

theorem repeated_of_listed {minWords : Nat} {read : Cursor → Except DecodeError (Value × Cursor)}
    {c c' : Cursor} {values : List Value} (h : listed minWords read c = .ok (values, c')) :
    ∃ count inner last, repeated read count inner = .ok (values, last) := by
  rw [listed, Except.bind_eq_ok_iff] at h
  obtain ⟨⟨child, next⟩, -, h⟩ := h
  obtain ⟨⟨count, body⟩, -, h⟩ := Except.bind_eq_ok_iff.mp h
  dsimp only at h
  split at h
  · cases h
    exact ⟨0, body, body, rfl⟩
  · obtain ⟨inner, -, h⟩ := Except.bind_eq_ok_iff.mp h
    split at h
    · cases h
    · obtain ⟨⟨values', last⟩, hread, h⟩ := Except.bind_eq_ok_iff.mp h
      cases h
      exact ⟨count, inner, last, hread⟩

/-- Values that are read for types in turn belong to these types, if that holds of each of them. -/
theorem belong_of_decodeAll {types : List Ty} {c c' : Cursor} {values : List Value}
    (each : ∀ ty ∈ types, ∀ c value c', ty.decode c = .ok (value, c') → Belongs value ty)
    (h : Ty.decodeAll types c = .ok (values, c')) : List.Forall₂ Belongs values types := by
  induction types generalizing c values with
  | nil =>
    rw [Ty.decodeAll] at h
    cases h
    exact .nil
  | cons ty rest ih =>
    rw [Ty.decodeAll, Except.bind_eq_ok_iff] at h
    obtain ⟨⟨value, next⟩, hvalue, h⟩ := h
    obtain ⟨⟨tail, last⟩, htail, h⟩ := Except.bind_eq_ok_iff.mp h
    cases h
    refine .cons (each ty (List.mem_cons_self ..) c value next hvalue) (ih ?_ htail)
    exact fun ty member => each ty (List.mem_cons_of_mem _ member)

/-- What is read for a type belongs to it. -/
theorem belongs_of_decode {ty : Ty} {c c' : Cursor} {value : Value}
    (h : ty.decode c = .ok (value, c')) : Belongs value ty := by
  induction ty using Ty.induction generalizing c c' value with
  | bool | uint | int | fixedBytes | address | function =>
    rw [Ty.decode, Except.bind_eq_ok_iff] at h
    obtain ⟨⟨w, next⟩, -, h⟩ := h
    cases h
    constructor
  | bytes | string =>
    rw [Ty.decode, Except.bind_eq_ok_iff] at h
    obtain ⟨⟨content, next⟩, -, h⟩ := h
    cases h
    constructor
  | array element ih =>
    rw [Ty.decode, Except.bind_eq_ok_iff] at h
    obtain ⟨⟨values, next⟩, hvalues, h⟩ := h
    cases h
    obtain ⟨count, inner, last, hread⟩ := repeated_of_listed hvalues
    exact .array (belong_of_repeated (fun _ _ _ => ih) hread).2
  -- The length of a fixed list is not written: it is the number of readings.
  | fixedArray element size ih =>
    rw [Ty.decode, Except.bind_eq_ok_iff] at h
    obtain ⟨⟨values, next⟩, hvalues, h⟩ := h
    cases h
    obtain ⟨child, last, hread⟩ := read_of_framed hvalues
    obtain ⟨rfl, all⟩ := belong_of_repeated (fun _ _ _ => ih) hread
    exact .fixedArray all
  | tuple components ih =>
    rw [Ty.decode, Except.bind_eq_ok_iff] at h
    obtain ⟨⟨values, next⟩, hvalues, h⟩ := h
    cases h
    obtain ⟨child, last, hread⟩ := read_of_framed hvalues
    have each := belong_of_decodeAll (fun ty member _ _ _ => ih ty member) hread
    obtain ⟨length, zipped⟩ := List.forall₂_iff_zip.mp each
    exact .tuple length fun pair member => zipped member

/-- What is read for parameters belongs to the types that they stand for. -/
theorem belong_of_readAll {params : List Param} {types : List Ty} {c : Cursor} {values : List Value}
    (resolved : Param.resolveAll params = .ok types) (h : readAll params c = .ok values) :
    List.Forall₂ Belongs values types := by
  rw [Param.resolveAll_eq_ok_iff] at resolved
  induction resolved generalizing c values with
  | nil =>
    cases h
    exact .nil
  | cons hty hrest ih =>
    obtain ⟨ty, value, next, tail, hty', hvalue, htail, rfl⟩ := readAll_cons_eq_ok_iff.mp h
    cases hty'.symm.trans hty
    exact .cons (belongs_of_decode hvalue) (ih htail)

/-- The arguments of a call belong to the types of the parameters. -/
theorem Signature.belong_of_decodeInput {signature : Signature} {types : List Ty} {data : Bytes}
    {args : List Value} (resolved : Param.resolveAll signature.inputs = .ok types)
    (h : signature.decodeInput data = .ok args) : List.Forall₂ Belongs args types :=
  belong_of_readAll resolved (decodeInput_eq_ok_iff.mp h)

end Abi

end OffchainNames
