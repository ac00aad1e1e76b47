import OffchainNames.Arguments
import OffchainNames.Proofs.Abi.Decoding

/-!
# Errors of calldata

Whatever is wrong with calldata or with an argument in it, the call is malformed and answered with the
status 400. Typed access to arguments (`Arguments.Access`) fails with one of three errors only
(`Arguments.Access.accessError`).
-/

namespace OffchainNames

/-- The error that a computation ends with, if it fails. -/
def Except.error? {ε α : Type} : Except ε α → Option ε
  | .error e => some e
  | .ok _ => none

@[simp] theorem Except.error?_error {ε α : Type} (e : ε) :
    Except.error? (.error e : Except ε α) = some e := rfl

@[simp] theorem Except.error?_ok {ε α : Type} (a : α) :
    Except.error? (.ok a : Except ε α) = none := rfl

theorem Except.error?_eq_some_iff {ε α : Type} {x : Except ε α} {e : ε} :
    Except.error? x = some e ↔ x = .error e := by
  cases x <;> simp

namespace Arguments

/-- The error of an argument that does not fit 64 bits. -/
def tooLarge (i : Nat) : Error :=
  .malformedRequest ("argument " ++ toString i ++ " does not fit in uint64")

/-- The errors of typed access: no argument stands at the position, it is of another type than is read, or
it does not fit 64 bits. -/
inductive AccessError : Error → Prop where
  | missing (i : Nat) : AccessError (.malformedRequest ("missing argument " ++ toString i))
  | mismatch (i : Nat) (expected : String) (value : Abi.Value) :
    AccessError (mismatch i expected value)
  | tooLarge (i : Nat) : AccessError (tooLarge i)

theorem AccessError.status {e : Error} (h : AccessError e) : e.status = 400 := by
  cases h <;> rfl

/-- A typed access to the argument at a position. -/
inductive Access where
  | word (i : Nat)
  | address (i : Nat)
  | uint (i : Nat)
  | uint64 (i : Nat)
  | string (i : Nat)
  | bytes (i : Nat)
  | bytesArray (i : Nat)
  deriving DecidableEq

/-- The error that an access fails with, if it does. -/
def Access.error? (args : Arguments) : Access → Option Error
  | word i => Except.error? (args.word i)
  | address i => Except.error? (args.address i)
  | uint i => Except.error? (args.uint i)
  | uint64 i => Except.error? (args.uint64 i)
  | string i => Except.error? (args.string i)
  | bytes i => Except.error? (args.bytes i)
  | bytesArray i => Except.error? (args.bytesArray i)

variable {args : Arguments} {i : Nat} {e : Error}

theorem accessError_get (h : args.get i = .error e) : AccessError e := by
  unfold get at h
  split at h
  · cases h
  · cases h
    exact .missing i

theorem accessError_uint (h : args.uint i = .error e) : AccessError e := by
  unfold uint at h
  split at h
  · rename_i e' hget
    cases h
    exact accessError_get hget
  · cases h
  · cases h
    exact .mismatch ..

/-- Byte strings are read as they are. -/
theorem elements_map (i : Nat) (items : List Bytes) :
    elements i (items.map .bytes) = .ok items := by
  induction items with
  | nil => rfl
  | cons item rest ih =>
    rw [List.map_cons, elements, ih]
    rfl

theorem accessError_elements {values : List Abi.Value} (h : elements i values = .error e) :
    AccessError e := by
  induction values with
  | nil => cases h
  | cons value rest ih =>
    cases value with
    | bytes b =>
      rw [elements] at h
      cases hrest : elements i rest with
      | ok calls =>
        rw [hrest] at h
        cases h
      | error e' =>
        rw [hrest] at h
        cases h
        exact ih hrest
    | _ =>
      cases h
      exact .mismatch ..

/-- Access fails with no other errors. -/
theorem Access.accessError (access : Access) (h : access.error? args = some e) : AccessError e := by
  cases access with
  | word i | address i | string i | bytes i =>
    have failed := Except.error?_eq_some_iff.mp h
    simp only [Arguments.word, Arguments.address, Arguments.string, Arguments.bytes] at failed
    split at failed
    · rename_i e' hget
      cases failed
      exact accessError_get hget
    · cases failed
    · cases failed
      exact .mismatch ..
  | uint i => exact accessError_uint (Except.error?_eq_some_iff.mp h)
  | uint64 i =>
    have failed := Except.error?_eq_some_iff.mp h
    unfold Arguments.uint64 at failed
    split at failed
    · rename_i e' huint
      cases failed
      exact accessError_uint huint
    · split at failed
      · cases failed
      · cases failed
        exact .tooLarge i
  | bytesArray i =>
    have failed := Except.error?_eq_some_iff.mp h
    unfold Arguments.bytesArray at failed
    split at failed
    · rename_i e' hget
      cases failed
      exact accessError_get hget
    · exact accessError_elements failed
    · cases failed
      exact .mismatch ..

/-- Accesses that are made one after the other fail as the first one does that fails. -/
theorem error?_bind_access {α β : Type} {x : Except Error α} {f : α → Except Error β}
    {rest : List Access} (access : Access) (reads : access.error? args = Except.error? x)
    (next : ∀ a, Except.error? (f a) = rest.findSome? (·.error? args)) :
    Except.error? (x >>= f) = (access :: rest).findSome? (·.error? args) := by
  rw [List.findSome?_cons, reads]
  cases x with
  | error e => rfl
  | ok a => exact next a

end Arguments

/-- Calldata that is too short for a selector is malformed. -/
theorem status_splitSelector {data : Bytes} {e : Error} (h : splitSelector data = .error e) :
    e.status = 400 := by
  unfold splitSelector at h
  split at h
  · cases h
    rfl
  · cases h

/-- Data that does not hold the arguments of a function is malformed. -/
theorem Abi.Signature.status_decodeInput {signature : Signature} {data : Bytes} {e : Error}
    (h : signature.decodeInput data = .error e) : e.status = 400 := by
  unfold decodeInput at h
  split at h
  · cases h
  · cases h
    rfl

end OffchainNames
