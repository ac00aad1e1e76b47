import OffchainNames.Dispatch
import OffchainNames.Proofs.Abi.RoundTrip

/-!
# Arguments and results of functions

Values that conform to parameters always encode, and are read back for these parameters if reading can
follow their types (`Abi.Readable`): arguments of a call (`Abi.Signature.decodeInput_encode`) as well as
results (`Abi.Signature.decodeOutput_encode`).
-/

namespace OffchainNames

namespace Abi

/-- Reading can follow the types of parameters: no fixed list and no tuple among them is without
elements, and they nest within the bound on frames. -/
structure Readable (params : List Param) (types : List Ty) : Prop where
  resolved : Param.resolveAll params = .ok types
  solid : Ty.allInhabited types = true
  frames : Ty.framesOf types ≤ maxFrames

theorem checkAll_of_admitsAll {params : List Param} {types : List Ty} {values : List Value}
    (resolved : Param.resolveAll params = .ok types) (admits : Ty.admitsAll types values = true) :
    checkAll params values = .ok () := by
  rw [Param.resolveAll_eq_ok_iff] at resolved
  induction resolved generalizing values with
  | nil => cases values <;> rfl
  | cons hty hrest ih =>
    cases values with
    | nil => cases admits
    | cons value values =>
      rw [Ty.admitsAll, Bool.and_eq_true] at admits
      simp only [checkAll, hty, admits.1, if_true]
      exact ih admits.2

theorem length_of_admitsAll {params : List Param} {types : List Ty} {values : List Value}
    (resolved : Param.resolveAll params = .ok types) (admits : Ty.admitsAll types values = true) :
    values.length = params.length := by
  rw [(Ty.admitsAll_iff.mp admits).length_eq, (Param.resolveAll_eq_ok_iff.mp resolved).length_eq]

/-- Values that conform to parameters encode. -/
theorem encodeFor_of_admitsAll {params : List Param} {types : List Ty} {values : List Value}
    (resolved : Param.resolveAll params = .ok types) (admits : Ty.admitsAll types values = true) :
    encodeFor params values = .ok (encode values) := by
  have length := length_of_admitsAll resolved admits
  simp only [encodeFor, length, ne_eq, not_true, if_false, checkAll_of_admitsAll resolved admits]
  rfl

namespace Signature

variable {signature : Signature} {types : List Ty} {values : List Value}

theorem encodeCall_of_admitsAll (resolved : Param.resolveAll signature.inputs = .ok types)
    (admits : Ty.admitsAll types values = true) :
    signature.encodeCall values = .ok (Bytes.ofBits signature.selector ++ encode values) := by
  simp only [encodeCall, encodeFor_of_admitsAll resolved admits]

theorem encodeOutput_of_admitsAll (resolved : Param.resolveAll signature.outputs = .ok types)
    (admits : Ty.admitsAll types values = true) :
    signature.encodeOutput values = .ok (encode values) := by
  simp only [encodeOutput, encodeFor_of_admitsAll resolved admits]

/-- Results that conform are packed as they are encoded, also where there are none. -/
theorem pack_of_admitsAll (resolved : Param.resolveAll signature.outputs = .ok types)
    (admits : Ty.admitsAll types values = true) :
    signature.pack values = .ok (encode values) := by
  have encoded := encodeOutput_of_admitsAll resolved admits
  have length := length_of_admitsAll resolved admits
  unfold pack
  -- Where there are no parameters or no results, nothing is packed; conforming results are none either way.
  split
  · rename_i none
    have empty : values = [] := by
      rw [Bool.or_eq_true, List.isEmpty_iff, List.isEmpty_iff] at none
      rcases none with noOutputs | noValues
      · rw [noOutputs] at length
        exact List.eq_nil_of_length_eq_zero length
      · exact noValues
    rw [empty]
    rfl
  · exact encoded

/-- Arguments are read back from their encoding. -/
theorem decodeInput_encode (readable : Readable signature.inputs types)
    (admits : Ty.admitsAll types values = true) (short : (encode values).length < UInt64.size) :
    signature.decodeInput (encode values) = .ok values := by
  have read := decodeFor_encode readable.resolved admits readable.solid readable.frames short
  simp only [decodeInput, read]

/-- Results are read back from their encoding. -/
theorem decodeOutput_encode (readable : Readable signature.outputs types)
    (admits : Ty.admitsAll types values = true) (short : (encode values).length < UInt64.size) :
    signature.decodeOutput (encode values) = .ok values := by
  have read := decodeFor_encode readable.resolved admits readable.solid readable.frames short
  simp only [decodeOutput, read]

end Signature

end Abi

end OffchainNames
