import Mathlib.Data.List.Forall2
import OffchainNames.Proofs.Abi.Decoding

/-!
# The types of parameters

Parameters are of the types that each of them is of (`Abi.Param.resolveAll_eq_ok_iff`). A text that opens
no list of types writes a name with list marks (`Abi.Specifier.parse?_named`), and a parameter with such
a text is of the type with that name, or of lists of it (`Abi.Param.resolve_named`). A parameter with
components is of their tuple, or of lists of it (`Abi.Param.resolve_components`).
-/

namespace OffchainNames

namespace Abi

open Reader

/-- A text that starts with no opening parenthesis, after a keyword or without one, reads as the name
and the list marks that follow it. -/
theorem Specifier.parse?_named {text name : String} {found : List (Option Nat)}
    (flat : literal? ['t', 'u', 'p', 'l', 'e', '('] text.toList = none)
    (unopened : text.toList.head? ≠ some '(')
    (reads : ((root text.toList).map fun (name, rest) => (name, marks rest.length rest)) =
      some (name, found, [])) : parse? text = some (.named name found) := by
  obtain ⟨⟨word, rest⟩, hword, heq⟩ := Option.map_eq_some_iff.mp reads
  obtain ⟨rfl, listed⟩ := Prod.mk.inj heq
  have parsed : reader maxDepth text.toList = some (.named word found, []) := by
    rw [maxDepth, reader.eq_def]
    simp only [flat]
    -- No keyword was taken, so that an opening parenthesis could only be the first character.
    split
    · rename_i opened
      rw [opened] at unopened
      exact absurd rfl unopened
    · simp only [hword, Option.map_some, listed]
  simp only [parse?, parsed]

namespace Param

/-- Parameters are of the types that each of them is of. -/
theorem resolveAll_eq_ok_iff {params : List Param} {types : List Ty} :
    resolveAll params = .ok types ↔ List.Forall₂ (fun param ty => param.resolve = .ok ty) params types := by
  induction params generalizing types with
  | nil =>
    rw [resolveAll, List.forall₂_nil_left_iff]
    exact ⟨fun h => (Except.ok.inj h).symm, fun h => congrArg Except.ok h.symm⟩
  | cons param rest ih =>
    rw [resolveAll, Except.bind_eq_ok_iff, List.forall₂_cons_left_iff]
    constructor
    · rintro ⟨ty, hty, h⟩
      obtain ⟨tys, hrest, h⟩ := Except.bind_eq_ok_iff.mp h
      exact ⟨ty, tys, hty, ih.mp hrest, (Except.ok.inj h).symm⟩
    · rintro ⟨ty, tys, hty, hrest, rfl⟩
      exact ⟨ty, hty, Except.bind_eq_ok_iff.mpr ⟨tys, ih.mpr hrest, rfl⟩⟩

/-- A parameter with the name of a type and list marks is of the type that the marks make of it. -/
theorem resolve_named (param type name : String) (found : List (Option Nat)) (ty : Ty)
    (parsed : Specifier.parse? type = some (.named name found)) (known : Ty.ofName name = .ok ty) :
    resolve ⟨param, type, []⟩ = .ok (ty.marked found) := by
  rw [resolve, parsed]
  simp only [Specifier.resolve, known]
  rfl

/-- A parameter with components and list marks is of the tuple of the types of the components, or of lists
of it. -/
theorem resolve_components (param type name : String) (found : List (Option Nat)) (first : Param)
    (rest : List Param) (types : List Ty)
    (parsed : Specifier.parse? type = some (.named name found))
    (elements : resolveAll (first :: rest) = .ok types) :
    resolve ⟨param, type, first :: rest⟩ = .ok ((Ty.tuple types).marked found) := by
  rw [resolve, parsed]
  simp only [elements]
  rfl

variable (param : String)

theorem resolve_bytes32 : resolve ⟨param, "bytes32", []⟩ = .ok (.fixedBytes 32) :=
  resolve_named param "bytes32" "bytes32" [] (.fixedBytes 32)
    (Specifier.parse?_named (by decide) (by decide) (by decide)) rfl

theorem resolve_string : resolve ⟨param, "string", []⟩ = .ok .string :=
  resolve_named param "string" "string" [] .string
    (Specifier.parse?_named (by decide) (by decide) (by decide)) rfl

theorem resolve_address : resolve ⟨param, "address", []⟩ = .ok .address :=
  resolve_named param "address" "address" [] .address
    (Specifier.parse?_named (by decide) (by decide) (by decide)) rfl

theorem resolve_bytes : resolve ⟨param, "bytes", []⟩ = .ok .bytes :=
  resolve_named param "bytes" "bytes" [] .bytes
    (Specifier.parse?_named (by decide) (by decide) (by decide)) rfl

theorem resolve_bytesArray : resolve ⟨param, "bytes[]", []⟩ = .ok (.array .bytes) :=
  resolve_named param "bytes[]" "bytes" [none] .bytes
    (Specifier.parse?_named (by decide) (by decide) (by decide)) rfl

theorem resolve_uint256 : resolve ⟨param, "uint256", []⟩ = .ok (.uint 256) :=
  resolve_named param "uint256" "uint256" [] (.uint 256)
    (Specifier.parse?_named (by decide) (by decide) (by decide)) rfl

theorem resolve_uint32 : resolve ⟨param, "uint32", []⟩ = .ok (.uint 32) :=
  resolve_named param "uint32" "uint32" [] (.uint 32)
    (Specifier.parse?_named (by decide) (by decide) (by decide)) rfl

end Param

end Abi

end OffchainNames
