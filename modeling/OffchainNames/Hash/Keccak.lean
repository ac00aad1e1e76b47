import OffchainNames.Bytes

/-!
# Keccak-256

The sponge over the 1600-bit permutation with a rate of 136 bytes and the padding that starts with
`01`. The state is a list of 25 lanes of 64 bits, row by row; each of the 24 rounds mixes columns
(`theta`), rotates and moves lanes (`rhoPi`), combines rows (`chi`) and adds a constant.
-/

namespace OffchainNames

namespace Keccak

/-- The constants added to the first lane, one a round. -/
def roundConstants : List UInt64 :=
  [0x0000000000000001, 0x0000000000008082, 0x800000000000808A, 0x8000000080008000,
   0x000000000000808B, 0x0000000080000001, 0x8000000080008081, 0x8000000000008009,
   0x000000000000008A, 0x0000000000000088, 0x0000000080008009, 0x000000008000000A,
   0x000000008000808B, 0x800000000000008B, 0x8000000000008089, 0x8000000000008003,
   0x8000000000008002, 0x8000000000000080, 0x000000000000800A, 0x800000008000000A,
   0x8000000080008081, 0x8000000000008080, 0x0000000080000001, 0x8000000080008008]

/-- For each lane in order: the lane it comes from and the distance by which that one is rotated. -/
def moves : List (Nat × Nat) :=
  [(0, 0), (6, 44), (12, 43), (18, 21), (24, 14),
   (3, 28), (9, 20), (10, 3), (16, 45), (22, 61),
   (1, 1), (7, 6), (13, 25), (19, 8), (20, 18),
   (4, 27), (5, 36), (11, 10), (17, 15), (23, 56),
   (2, 62), (8, 55), (14, 39), (15, 41), (21, 2)]

/-- Rotation of a lane to the left by a distance below 64. -/
def rotate (lane : UInt64) (distance : Nat) : UInt64 :=
  if distance = 0 then lane
  else (lane <<< UInt64.ofNat distance) ||| (lane >>> UInt64.ofNat (64 - distance))

/-- Adds to every lane the parities of the two neighbouring columns. -/
def theta (state : List UInt64) : List UInt64 :=
  let lane i := state.getD i 0
  let parity := (List.range 5).map fun x =>
    lane x ^^^ lane (x + 5) ^^^ lane (x + 10) ^^^ lane (x + 15) ^^^ lane (x + 20)
  let effect := (List.range 5).map fun x =>
    parity.getD ((x + 4) % 5) 0 ^^^ rotate (parity.getD ((x + 1) % 5) 0) 1
  state.zipWith (· ^^^ ·) (effect ++ effect ++ effect ++ effect ++ effect)

/-- Rotates the lanes and moves them to their new places. -/
def rhoPi (state : List UInt64) : List UInt64 :=
  moves.map fun (source, distance) => rotate (state.getD source 0) distance

/-- Combines every lane of a row with the two that follow it. -/
def chiRow : List UInt64 → List UInt64
  | [a, b, c, d, e] =>
    [a ^^^ (~~~b &&& c), b ^^^ (~~~c &&& d), c ^^^ (~~~d &&& e), d ^^^ (~~~e &&& a),
     e ^^^ (~~~a &&& b)]
  | row => row

/-- Combines the given number of rows. -/
def chi : (rows : Nat) → List UInt64 → List UInt64
  | 0, state => state
  | rows + 1, state => chiRow (state.take 5) ++ chi rows (state.drop 5)

/-- One round of the permutation. -/
def round (state : List UInt64) (constant : UInt64) : List UInt64 :=
  match chi 5 (rhoPi (theta state)) with
  | [] => []
  | first :: rest => (first ^^^ constant) :: rest

/-- The permutation of the state. -/
def permute (state : List UInt64) : List UInt64 := roundConstants.foldl round state

/-- The lane that eight bytes spell, least significant first. -/
def laneOf (bytes : Bytes) : UInt64 :=
  bytes.foldr (fun b lane => lane <<< 8 ||| b.toUInt64) 0

/-- The first lanes that a byte string spells. -/
def lanesOf : (count : Nat) → Bytes → List UInt64
  | 0, _ => []
  | count + 1, bytes => laneOf (bytes.take 8) :: lanesOf count (bytes.drop 8)

/-- The eight bytes of a lane, least significant first. -/
def laneBytes (lane : UInt64) : Bytes :=
  (List.range 8).map fun i => (lane >>> UInt64.ofNat (8 * i)).toUInt8

/-- The bytes taken in between two permutations. -/
def rate : Nat := 136

/-- Takes a block of `rate` bytes into the state. -/
def absorb (state : List UInt64) (block : Bytes) : List UInt64 :=
  permute (state.zipWith (· ^^^ ·) (lanesOf 17 block ++ List.replicate 8 0))

/-- The message followed by `01`, zeros and `80` up to a multiple of the rate; when one byte is
missing the two marks share it. -/
def pad (message : Bytes) : Bytes :=
  let missing := rate - message.length % rate
  message ++
    if missing = 1 then [0x81] else 0x01 :: List.replicate (missing - 2) 0 ++ [0x80]

/-- The first blocks of a byte string. -/
def blocks : (count : Nat) → Bytes → List Bytes
  | 0, _ => []
  | count + 1, bytes => bytes.take rate :: blocks count (bytes.drop rate)

/-- The 32 bytes of the digest of a message. -/
def digest (message : Bytes) : Bytes :=
  let padded := pad message
  let state := (blocks (padded.length / rate) padded).foldl absorb (List.replicate 25 0)
  (state.take 4).flatMap laneBytes

end Keccak

/-- The Keccak-256 digest of a message as a word. -/
def keccak256 (message : Bytes) : Word := Bytes.toBits 256 (Keccak.digest message)

/-- The digest of the empty message. -/
example : Keccak.digest [] =
    Bytes.ofNat 32 0xc5d2460186f7233c927e7db2dcc703c0e500b653ca82273b7bfad8045d85a470 := by
  decide +kernel

end OffchainNames
