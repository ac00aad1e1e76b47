import OffchainNames.Abi.Value
import OffchainNames.Error

/-!
# Arguments of functions

Typed access to the list of values that a call decoded to.
-/

namespace OffchainNames

/-- The arguments of a call. -/
abbrev Arguments := List Abi.Value

namespace Arguments

/-- The argument at a position. -/
def get (args : Arguments) (i : Nat) : Except Error Abi.Value :=
  match args[i]? with
  | some value => .ok value
  | none => .error (.malformedRequest ("missing argument " ++ toString i))

/-- The error of an argument that is not of the type that a function reads. -/
def mismatch (i : Nat) (expected : String) (value : Abi.Value) : Error :=
  .malformedRequest
    ("argument " ++ toString i ++ ": expected " ++ expected ++ ", got "
      ++ value.typeName?.getD "unknown")

/-- The argument at a position as a word that holds 32 bytes. -/
def word (args : Arguments) (i : Nat) : Except Error Word :=
  match get args i with
  | .error e => .error e
  | .ok (.fixedBytes w 32) => .ok w
  | .ok value => .error (mismatch i "bytes32" value)

/-- The argument at a position as an address. -/
def address (args : Arguments) (i : Nat) : Except Error Address :=
  match get args i with
  | .error e => .error e
  | .ok (.address a) => .ok a
  | .ok value => .error (mismatch i "address" value)

/-- The argument at a position as an unsigned integer of any width. -/
def uint (args : Arguments) (i : Nat) : Except Error Word :=
  match get args i with
  | .error e => .error e
  | .ok (.uint w _) => .ok w
  | .ok value => .error (mismatch i "uint" value)

/-- The argument at a position as an unsigned integer below `2 ^ 64`. -/
def uint64 (args : Arguments) (i : Nat) : Except Error UInt64 :=
  match uint args i with
  | .error e => .error e
  | .ok w =>
    if w.toNat < UInt64.size then .ok (UInt64.ofNat w.toNat)
    else .error (.malformedRequest ("argument " ++ toString i ++ " does not fit in uint64"))

/-- The argument at a position as a text. -/
def string (args : Arguments) (i : Nat) : Except Error String :=
  match get args i with
  | .error e => .error e
  | .ok (.string s) => .ok s
  | .ok value => .error (mismatch i "string" value)

/-- The argument at a position as a byte string. -/
def bytes (args : Arguments) (i : Nat) : Except Error Bytes :=
  match get args i with
  | .error e => .error e
  | .ok (.bytes b) => .ok b
  | .ok value => .error (mismatch i "bytes" value)

/-- The elements of a list of byte strings that is the argument at a position. -/
def elements (i : Nat) : List Abi.Value → Except Error (List Bytes)
  | [] => .ok []
  | .bytes b :: rest => (elements i rest).map (b :: ·)
  | value :: _ => .error (mismatch i "bytes[]" value)

/-- The argument at a position as a list of byte strings. -/
def bytesArray (args : Arguments) (i : Nat) : Except Error (List Bytes) :=
  match get args i with
  | .error e => .error e
  | .ok (.array values) => elements i values
  | .ok value => .error (mismatch i "bytes[]" value)

end Arguments

end OffchainNames
