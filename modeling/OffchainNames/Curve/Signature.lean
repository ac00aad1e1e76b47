import OffchainNames.Address
import OffchainNames.Curve.Secp256k1
import OffchainNames.Hash.Sha256

/-!
# Signatures from which the signer can be recovered

A signature is two scalars and the parity of a point; 65 bytes hold it. Signing draws its nonce from
the key and the digest alone, so the same inputs give the same signature, and of the two signatures
with a nonce and its opposite it takes the one with the lower second scalar. Recovering accepts both.
-/

namespace OffchainNames

open Secp256k1

/-- A secret scalar: neither zero nor as large as the group. -/
structure SecretKey where
  scalar : Nat
  pos : 0 < scalar
  lt : scalar < groupOrder

namespace SecretKey

/-- The key with the given scalar, if that is in range. -/
def ofNat? (scalar : Nat) : Option SecretKey :=
  if h : 0 < scalar ∧ scalar < groupOrder then some ⟨scalar, h.1, h.2⟩ else none

end SecretKey

/-- The account of a public point: the last 20 bytes of the digest of its coordinates. -/
def Secp256k1.Point.account? (p : Point) : Option Address :=
  p.affine?.map fun (x, y) => (keccak256 (Bytes.ofNat 32 x ++ Bytes.ofNat 32 y)).setWidth 160

/-- The account that a key signs for. -/
def SecretKey.address (key : SecretKey) : Address :=
  (Point.multiple key.scalar Point.generator).account?.getD 0

/-- A signature from which the signer can be recovered. -/
structure Signature where
  /-- The first coordinate of the nonce point. -/
  r : Word
  /-- The scalar that ties the nonce to the key and the digest. -/
  s : Word
  /-- Whether the second coordinate of the nonce point is odd. -/
  odd : Bool
  deriving DecidableEq, Repr

namespace Signature

/-- Why bytes are no signature, or a signature has no signer. -/
inductive Error where
  /-- There are not 65 bytes. -/
  | wrongLength
  | invalidParity (byte : UInt8)
  | unrecoverable
  deriving DecidableEq, Repr

/-- The wording of an error. -/
def Error.message : Error → String
  | .wrongLength => "expected exactly 65 bytes"
  | .invalidParity b => "invalid parity: " ++ toString b.toNat
  | .unrecoverable => "signature error"

/-- The parity that the last byte names: zero and one, the same after 27, and after 35 every other
byte. -/
def parity? (b : UInt8) : Option Bool :=
  if b = 0 ∨ b = 27 then some false
  else if b = 1 ∨ b = 28 then some true
  else if 35 ≤ b then some (b % 2 = 0)
  else none

/-- Both scalars and a last byte of 27 or 28. -/
def toBytes (sig : Signature) : Bytes :=
  Bytes.ofBits sig.r ++ Bytes.ofBits sig.s ++ [if sig.odd then 28 else 27]

/-- The signature that 65 bytes hold. -/
def ofBytes (bytes : Bytes) : Except Error Signature :=
  if bytes.length ≠ 65 then .error .wrongLength
  else
    let last := bytes.getLastD 0
    match parity? last with
    | none => .error (.invalidParity last)
    | some odd =>
      .ok ⟨Bytes.toBits 256 (bytes.take 32), Bytes.toBits 256 ((bytes.drop 32).take 32), odd⟩

/-- The equivalent signature whose second scalar is in the lower half of the group. -/
def normalize (r s : Nat) (odd : Bool) : Signature :=
  if groupOrder / 2 < s then
    ⟨BitVec.ofNat 256 r, BitVec.ofNat 256 (groupOrder - s), !odd⟩
  else ⟨BitVec.ofNat 256 r, BitVec.ofNat 256 s, odd⟩

/-- The account whose key made a signature over a digest. -/
def recover (sig : Signature) (digest : Word) : Except Error Address :=
  let r := sig.r.toNat
  let s := sig.s.toNat
  if r = 0 ∨ groupOrder ≤ r ∨ s = 0 ∨ groupOrder ≤ s then .error .unrecoverable
  else
    match Point.lift? r sig.odd with
    | none => .error .unrecoverable
    | some nonce =>
      let w := inverse groupOrder r
      let z := digest.toNat % groupOrder
      let u := (groupOrder - z) * w % groupOrder
      let v := s * w % groupOrder
      match ((Point.multiple u Point.generator).add (Point.multiple v nonce)).account? with
      | none => .error .unrecoverable
      | some account => .ok account

end Signature

namespace SecretKey

/-- The state of the nonce generator: a key and a value. -/
abbrev NonceState := Bytes × Bytes

/-- The state after taking in one more message. -/
def NonceState.update (state : NonceState) (message : Bytes) : NonceState :=
  let key := Sha256.authenticate state.1 (state.2 ++ message)
  (key, Sha256.authenticate key state.2)

/-- The state that a key and a digest start from. -/
def nonceState (key : SecretKey) (digest : Word) : NonceState :=
  let seed := Bytes.ofNat 32 key.scalar ++ Bytes.ofNat 32 (digest.toNat % groupOrder)
  let start : NonceState := (List.replicate 32 0, List.replicate 32 1)
  (start.update (0 :: seed)).update (1 :: seed)

/-- The signature with a nonce, unless the nonce is out of range or gives a zero scalar. -/
def signWith? (key : SecretKey) (digest : Word) (nonce : Nat) : Option Signature :=
  if nonce = 0 ∨ groupOrder ≤ nonce then none
  else
    match (Point.multiple nonce Point.generator).affine? with
    | none => none
    | some (x, y) =>
      let r := x % groupOrder
      let s := inverse groupOrder nonce * (digest.toNat + r * key.scalar) % groupOrder
      if r = 0 ∨ s = 0 then none else some (Signature.normalize r s (y % 2 == 1))

/-- The signature with the first of the given number of candidate nonces that gives one. -/
def signFrom (key : SecretKey) (digest : Word) : (candidates : Nat) → NonceState → Signature
  | 0, _ => ⟨0, 0, false⟩
  | candidates + 1, state =>
    let value := Sha256.authenticate state.1 state.2
    match key.signWith? digest (Bytes.toNat value) with
    | some sig => sig
    | none =>
      let state : NonceState := (state.1, value)
      signFrom key digest candidates (state.update [0])

/-- The signature of a key over a digest. All but one nonce in `2 ^ 127` are in range, so that the
bound on candidates is out of reach. -/
def sign (key : SecretKey) (digest : Word) : Signature :=
  key.signFrom digest 64 (key.nonceState digest)

end SecretKey

end OffchainNames
