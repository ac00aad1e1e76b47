import OffchainNames.Bytes

/-!
# SHA-256 and its keyed form

The digest over blocks of 64 bytes with eight 32-bit words of state, and the message authentication
code that hashes twice under two paddings of a key.
-/

namespace OffchainNames

namespace Sha256

/-- The constants added in the rounds. -/
def roundConstants : List UInt32 :=
  [0x428a2f98, 0x71374491, 0xb5c0fbcf, 0xe9b5dba5, 0x3956c25b, 0x59f111f1, 0x923f82a4, 0xab1c5ed5,
   0xd807aa98, 0x12835b01, 0x243185be, 0x550c7dc3, 0x72be5d74, 0x80deb1fe, 0x9bdc06a7, 0xc19bf174,
   0xe49b69c1, 0xefbe4786, 0x0fc19dc6, 0x240ca1cc, 0x2de92c6f, 0x4a7484aa, 0x5cb0a9dc, 0x76f988da,
   0x983e5152, 0xa831c66d, 0xb00327c8, 0xbf597fc7, 0xc6e00bf3, 0xd5a79147, 0x06ca6351, 0x14292967,
   0x27b70a85, 0x2e1b2138, 0x4d2c6dfc, 0x53380d13, 0x650a7354, 0x766a0abb, 0x81c2c92e, 0x92722c85,
   0xa2bfe8a1, 0xa81a664b, 0xc24b8b70, 0xc76c51a3, 0xd192e819, 0xd6990624, 0xf40e3585, 0x106aa070,
   0x19a4c116, 0x1e376c08, 0x2748774c, 0x34b0bcb5, 0x391c0cb3, 0x4ed8aa4a, 0x5b9cca4f, 0x682e6ff3,
   0x748f82ee, 0x78a5636f, 0x84c87814, 0x8cc70208, 0x90befffa, 0xa4506ceb, 0xbef9a3f7, 0xc67178f2]

/-- The state before the first block. -/
def initial : List UInt32 :=
  [0x6a09e667, 0xbb67ae85, 0x3c6ef372, 0xa54ff53a, 0x510e527f, 0x9b05688c, 0x1f83d9ab, 0x5be0cd19]

/-- Rotation of a word to the right by a distance between 1 and 31. -/
def rotate (word distance : UInt32) : UInt32 := (word >>> distance) ||| (word <<< (32 - distance))

/-- The next word of the schedule, given the last sixteen with the newest first. -/
def nextWord (window : List UInt32) : UInt32 :=
  let w i := window.getD i 0
  let early := w 14
  let late := w 1
  let s0 := rotate early 7 ^^^ rotate early 18 ^^^ (early >>> 3)
  let s1 := rotate late 17 ^^^ rotate late 19 ^^^ (late >>> 10)
  w 15 + s0 + w 6 + s1

/-- Puts further words of the schedule in front of the newest. -/
def extend : (count : Nat) → List UInt32 → List UInt32
  | 0, window => window
  | count + 1, window => extend count (nextWord window :: window)

/-- One round with a word of the schedule and a constant. -/
def round (state : List UInt32) (input : UInt32 × UInt32) : List UInt32 :=
  match state with
  | [a, b, c, d, e, f, g, h] =>
    let s1 := rotate e 6 ^^^ rotate e 11 ^^^ rotate e 25
    let choice := (e &&& f) ^^^ (~~~e &&& g)
    let t1 := h + s1 + choice + input.1 + input.2
    let s0 := rotate a 2 ^^^ rotate a 13 ^^^ rotate a 22
    let majority := (a &&& b) ^^^ (a &&& c) ^^^ (b &&& c)
    [t1 + s0 + majority, a, b, c, d + t1, e, f, g]
  | state => state

/-- The words that a byte string spells, most significant byte first. -/
def wordsOf : (count : Nat) → Bytes → List UInt32
  | 0, _ => []
  | count + 1, bytes =>
    UInt32.ofNat (Bytes.toNat (bytes.take 4)) :: wordsOf count (bytes.drop 4)

/-- Takes a block of 64 bytes into the state. -/
def absorb (state : List UInt32) (block : Bytes) : List UInt32 :=
  let schedule := (extend 48 (wordsOf 16 block).reverse).reverse
  state.zipWith (· + ·) ((schedule.zip roundConstants).foldl round state)

/-- The message followed by `80`, zeros and its length in bits, up to a multiple of 64 bytes. -/
def pad (message : Bytes) : Bytes :=
  let zeros := (119 - message.length % 64) % 64
  message ++ 0x80 :: List.replicate zeros 0 ++ Bytes.ofNat 8 (8 * message.length)

/-- The first blocks of a byte string. -/
def blocks : (count : Nat) → Bytes → List Bytes
  | 0, _ => []
  | count + 1, bytes => bytes.take 64 :: blocks count (bytes.drop 64)

/-- The 32 bytes of the digest of a message. -/
def digest (message : Bytes) : Bytes :=
  let padded := pad message
  ((blocks (padded.length / 64) padded).foldl absorb initial).flatMap fun word =>
    Bytes.ofNat 4 word.toNat

/-- The 32 bytes that authenticate a message under a key of at most 64 bytes. -/
def authenticate (key message : Bytes) : Bytes :=
  let block := key ++ List.replicate (64 - key.length) 0
  digest (block.map (· ^^^ 0x5c) ++ digest (block.map (· ^^^ 0x36) ++ message))

/-- The digest of the three letters `abc`. -/
example : digest [97, 98, 99] =
    Bytes.ofNat 32 0xba7816bf8f01cfea414140de5dae2223b00361a396177a9cb410ff61f20015ad := by
  decide +kernel

end Sha256

end OffchainNames
