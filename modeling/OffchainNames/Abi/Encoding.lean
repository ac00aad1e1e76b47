import OffchainNames.Abi.Value

/-!
# Encoding of values

A sequence of values is written as heads followed by tails. A value of fixed extent stands in its
head; any other has its body among the tails and the distance from the start of the sequence to that
body in its head.
-/

namespace OffchainNames

namespace Abi

/-- A number as a word. -/
def wordOf (n : Nat) : Bytes := Bytes.ofNat 32 n

/-- A byte string after its length, filled up with zeros to whole words. -/
def sized (bytes : Bytes) : Bytes := wordOf bytes.length ++ Bytes.padRight bytes

/-- The body of a value, and whether it goes among the tails. -/
structure Part where
  /-- Whether the body goes among the tails. -/
  tailed : Bool
  body : Bytes
  deriving Repr, DecidableEq

namespace Part

/-- The length of the head of a part. -/
def headSize (part : Part) : Nat := if part.tailed then 32 else part.body.length

/-- The heads of parts, the first tail being at the given distance from the start. -/
def heads : (distance : Nat) → List Part → Bytes
  | _, [] => []
  | distance, part :: rest =>
    if part.tailed then wordOf distance ++ heads (distance + part.body.length) rest
    else part.body ++ heads distance rest

/-- The bodies that go among the tails. -/
def tails (parts : List Part) : Bytes :=
  parts.flatMap fun part => if part.tailed then part.body else []

/-- The number of bytes that the heads of a sequence take. -/
def headsSize (parts : List Part) : Nat := parts.foldr (fun part size => part.headSize + size) 0

/-- The heads and tails of a sequence. -/
def assemble (parts : List Part) : Bytes := heads (headsSize parts) parts ++ tails parts

end Part

mutual

/-- The body of a value, which goes among the tails if a text, a byte string or a list of any length
is inside. -/
def Value.part : Value → Part
  | .bool value => ⟨false, wordOf value.toNat⟩
  | .uint word _ => ⟨false, Bytes.ofBits word⟩
  | .int word _ => ⟨false, Bytes.ofBits word⟩
  | .fixedBytes word _ => ⟨false, Bytes.ofBits word⟩
  | .address value => ⟨false, wordOf value.toNat⟩
  | .function value => ⟨false, Bytes.ofBits value ++ List.replicate 8 0⟩
  | .bytes value => ⟨true, sized value⟩
  | .string value => ⟨true, sized (Bytes.ofString value)⟩
  | .array values => ⟨true, wordOf values.length ++ Part.assemble (Value.parts values)⟩
  | .fixedArray values =>
    let parts := Value.parts values
    ⟨parts.any Part.tailed, Part.assemble parts⟩
  | .tuple values =>
    let parts := Value.parts values
    ⟨parts.any Part.tailed, Part.assemble parts⟩

/-- The bodies of values. -/
def Value.parts : List Value → List Part
  | [] => []
  | value :: rest => value.part :: Value.parts rest

end

/-- The encoding of a sequence of values. -/
def encode (values : List Value) : Bytes := Part.assemble (Value.parts values)

end Abi

end OffchainNames
