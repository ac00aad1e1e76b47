import OffchainNames.Abi.Value
import OffchainNames.Bytes.Hex
import OffchainNames.Text.Utf8

/-!
# Decoding of values

Decoding follows distances through a frame of bytes. It accepts every reading that stays inside the
data: filling bytes are not looked at, bodies may overlap or stand in any order, and bytes may be left
over. What stops it is a distance or length above 64 bits, an end of data, or 16 frames inside each
other.
-/

namespace OffchainNames

namespace Abi

/-- Why data does not decode. -/
inductive DecodeError where
  | overrun
  | tooDeep
  /-- A distance or length does not fit 64 bits. -/
  | tooFar (word : Word)
  deriving DecidableEq, Repr

/-- The number of frames that may be inside each other. -/
def maxFrames : Nat := 16

/-- The wording of an error. -/
def DecodeError.message : DecodeError → String
  | .overrun => "ABI decoding failed: buffer overrun while deserializing"
  | .tooDeep =>
    "ABI decoding failed: recursion limit of " ++ toString maxFrames ++ " exceeded during decoding"
  | .tooFar word =>
    "type check failed for \"offset (usize)\" with data: " ++ Hex.bare (Bytes.ofBits word)

/-- A place in the data: the frame that distances count from, what is left of it to read, and the
number of frames around it. -/
structure Cursor where
  /-- The bytes that distances count from. -/
  frame : Bytes
  rest : Bytes
  /-- The number of frames around this one. -/
  depth : Nat
  deriving Repr

namespace Cursor

/-- The start of data. -/
def start (data : Bytes) : Cursor := ⟨data, data, 0⟩

/-- Reads a word. -/
def word (c : Cursor) : Except DecodeError (Word × Cursor) :=
  let bytes := c.rest.take 32
  if bytes.length < 32 then .error .overrun
  else .ok (Bytes.toBits 256 bytes, { c with rest := c.rest.drop 32 })

/-- Reads a distance or a length. -/
def distance (c : Cursor) : Except DecodeError (Nat × Cursor) := do
  let (w, c) ← c.word
  if w.toNat < UInt64.size then pure (w.toNat, c) else throw (.tooFar w)

/-- A new frame made of the given bytes. -/
def enter (c : Cursor) (frame : Bytes) : Except DecodeError Cursor :=
  if maxFrames ≤ c.depth then .error .tooDeep
  else .ok ⟨frame, frame, c.depth + 1⟩

/-- Reads a distance and enters the frame there. -/
def follow (c : Cursor) : Except DecodeError (Cursor × Cursor) := do
  let (n, c) ← c.distance
  if maxFrames ≤ c.depth then throw .tooDeep
  else if c.frame.length < n then throw .overrun
  else pure (⟨c.frame.drop n, c.frame.drop n, c.depth + 1⟩, c)

/-- Reads a distance and the byte string after its length there. -/
def sized (c : Cursor) : Except DecodeError (Bytes × Cursor) := do
  let (child, c) ← c.follow
  let (size, child) ← child.distance
  if child.rest.length < size then throw .overrun
  else pure (child.rest.take size, c)

end Cursor

mutual

/-- Whether values of a type have their bodies among the tails. -/
def Ty.isTailed : Ty → Bool
  | .bytes => true
  | .string => true
  | .array _ => true
  | .fixedArray element size => size != 0 && element.isTailed
  | .tuple components => Ty.anyTailed components
  | _ => false

/-- Whether some type has its bodies among the tails. -/
def Ty.anyTailed : List Ty → Bool
  | [] => false
  | ty :: rest => ty.isTailed || Ty.anyTailed rest

end

mutual

/-- A number of words that every list of values of the type spends on each of them. -/
def Ty.minWords : Ty → Nat
  | .fixedArray element size => size * element.minWords
  | .tuple components => Ty.sumWords components
  | _ => 1

/-- The sum of `Ty.minWords` over types. -/
def Ty.sumWords : List Ty → Nat
  | [] => 0
  | ty :: rest => ty.minWords + Ty.sumWords rest

end

/-- Reads the given number of values, each with the same reader. -/
def repeated (read : Cursor → Except DecodeError (Value × Cursor)) :
    (count : Nat) → Cursor → Except DecodeError (List Value × Cursor)
  | 0, c => pure ([], c)
  | count + 1, c => do
    let (value, c) ← read c
    let (values, c) ← repeated read count c
    pure (value :: values, c)

/-- Reads values in a frame of their own: where a distance leads if they are among the tails, and in
place if not. -/
def framed (tailed : Bool) (read : Cursor → Except DecodeError (List Value × Cursor)) (c : Cursor) :
    Except DecodeError (List Value × Cursor) :=
  if tailed then do
    let (child, c) ← c.follow
    let (values, _) ← read child
    pure (values, c)
  else do
    let child ← c.enter c.rest
    let (values, child) ← read child
    pure (values, { c with rest := child.rest })

/-- Reads a distance and, where it leads, a length and a list of that many values. -/
def listed (minWords : Nat) (read : Cursor → Except DecodeError (Value × Cursor)) (c : Cursor) :
    Except DecodeError (List Value × Cursor) := do
  let (child, c) ← c.follow
  let (count, child) ← child.distance
  if count = 0 then pure ([], c)
  else
    let inner ← child.enter child.rest
    if inner.rest.length / 32 < minWords * count then throw .overrun
    else
      let (values, _) ← repeated read count inner
      pure (values, c)

mutual

/-- Reads a value of a type. -/
def Ty.decode : Ty → Cursor → Except DecodeError (Value × Cursor)
  | .bool, c => do
    let (w, c) ← c.word
    pure (.bool (w != 0), c)
  | .uint bits, c => do
    let (w, c) ← c.word
    pure (.uint w bits, c)
  | .int bits, c => do
    let (w, c) ← c.word
    pure (.int w bits, c)
  | .fixedBytes size, c => do
    let (w, c) ← c.word
    pure (.fixedBytes w size, c)
  | .address, c => do
    let (w, c) ← c.word
    pure (.address (w.setWidth 160), c)
  | .function, c => do
    let (w, c) ← c.word
    pure (.function ((w >>> 64).setWidth 192), c)
  | .bytes, c => do
    let (content, c) ← c.sized
    pure (.bytes content, c)
  | .string, c => do
    let (content, c) ← c.sized
    pure (.string (Utf8.decodeLossy content), c)
  | .array element, c => do
    let (values, c) ← listed element.minWords element.decode c
    pure (.array values, c)
  | .fixedArray element size, c => do
    let (values, c) ← framed (size != 0 && element.isTailed) (repeated element.decode size) c
    pure (.fixedArray values, c)
  | .tuple components, c => do
    let (values, c) ← framed (Ty.anyTailed components) (Ty.decodeAll components) c
    pure (.tuple values, c)

/-- Reads a value of each type in turn. -/
def Ty.decodeAll : List Ty → Cursor → Except DecodeError (List Value × Cursor)
  | [], c => pure ([], c)
  | ty :: rest, c => do
    let (value, c) ← ty.decode c
    let (values, c) ← Ty.decodeAll rest c
    pure (value :: values, c)

end

/-- The values of the given types that data starts with. -/
def decode (types : List Ty) (data : Bytes) : Except DecodeError (List Value) :=
  (Ty.decodeAll types (Cursor.start data)).map Prod.fst

end Abi

end OffchainNames
