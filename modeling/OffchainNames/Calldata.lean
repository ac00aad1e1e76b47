import OffchainNames.Abi.Signature
import OffchainNames.Error

/-!
# Calldata

Calldata is a selector followed by the encoded arguments of the function that it names. Reading and
writing it against a signature fails with the errors of the gateway: what a caller sent is malformed,
what a function returned is a fault of the gateway.
-/

namespace OffchainNames

/-- The selector of calldata and what follows it. -/
def splitSelector (data : Bytes) : Except Error (Selector × Bytes) :=
  if data.length < 4 then
    .error (.malformedRequest ("calldata must be at least 4 bytes, got " ++ toString data.length))
  else .ok (Bytes.toBits 32 (data.take 4), data.drop 4)

namespace Abi.Signature

/-- The signature that a fragment writes. -/
def ofFragment (fragment : String) : Except Error Signature :=
  match parse fragment with
  | .ok sig => .ok sig
  | .error e => .error (.malformedInterface ("\x60" ++ fragment ++ "\x60: " ++ e.message))

/-- The arguments that data after a selector holds. -/
def decodeInput (sig : Signature) (data : Bytes) : Except Error (List Value) :=
  match decodeFor sig.inputs data with
  | .ok values => .ok values
  | .error e => .error (.malformedRequest ("cannot decode " ++ sig.canonical ++ ": " ++ e.message))

/-- The calldata of a call with the given arguments. -/
def encodeCall (sig : Signature) (arguments : List Value) : Except Error Bytes :=
  match encodeFor sig.inputs arguments with
  | .ok data => .ok (Bytes.ofBits sig.selector ++ data)
  | .error e => .error (.malformedRequest ("cannot encode " ++ sig.canonical ++ ": " ++ e.message))

/-- The data that holds the given results. -/
def encodeOutput (sig : Signature) (results : List Value) : Except Error Bytes :=
  match encodeFor sig.outputs results with
  | .ok data => .ok data
  | .error e =>
    .error (.internal ("cannot encode result of " ++ sig.canonical ++ ": " ++ e.message))

/-- The results that data holds. -/
def decodeOutput (sig : Signature) (data : Bytes) : Except Error (List Value) :=
  match decodeFor sig.outputs data with
  | .ok values => .ok values
  | .error e =>
    .error (.malformedRequest ("cannot decode result of " ++ sig.canonical ++ ": " ++ e.message))

end Abi.Signature

end OffchainNames
