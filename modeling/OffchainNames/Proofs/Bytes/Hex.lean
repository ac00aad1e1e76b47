import OffchainNames.Address
import OffchainNames.Proofs.Abi.Decoding

/-!
# Hexadecimal text is read back

Bytes are read back from the text that they are written as (`Hex.decode_encode`), and so are words
(`Hex.decodeBits_encodeBits`) and addresses (`Address.parse_lower`). Hence different values are
written as different texts.
-/

namespace OffchainNames

namespace Hex

/-- The byte of text that a digit is written as. -/
def digitByte (n : Nat) : UInt8 := if n < 10 then UInt8.ofNat (48 + n) else UInt8.ofNat (87 + n)

theorem utf8EncodeChar_digit {n : Nat} (h : n < 16) :
    String.utf8EncodeChar (digit n) = [digitByte n] := by
  revert n
  decide

theorem value?_digitByte {n : Nat} (h : n < 16) : value? (digitByte n) = some n := by
  revert n
  decide

/-- The bytes of text that bytes are written as. -/
def digitBytes (bytes : Bytes) : Bytes :=
  bytes.flatMap fun b => [digitByte (b.toNat / 16), digitByte (b.toNat % 16)]

theorem length_digitBytes (bytes : Bytes) : (digitBytes bytes).length = 2 * bytes.length := by
  induction bytes with
  | nil => rfl
  | cons b rest ih =>
    rw [digitBytes, List.flatMap_cons, List.length_append, ← digitBytes, ih, List.length_cons]
    simp only [List.length_cons, List.length_nil]
    omega

theorem high_lt (b : UInt8) : b.toNat / 16 < 16 := by
  have := b.toNat_lt
  omega

theorem low_lt (b : UInt8) : b.toNat % 16 < 16 := Nat.mod_lt _ (by decide)

theorem flatMap_encodeChars (bytes : Bytes) :
    (encodeChars bytes).flatMap String.utf8EncodeChar = digitBytes bytes := by
  induction bytes with
  | nil => rfl
  | cons b rest ih =>
    have step : encodeChars (b :: rest) =
        digit (b.toNat / 16) :: digit (b.toNat % 16) :: encodeChars rest := rfl
    rw [step, List.flatMap_cons, List.flatMap_cons, utf8EncodeChar_digit (high_lt b),
      utf8EncodeChar_digit (low_lt b), ih]
    rfl

/-- After the mark stand the digits of the bytes. -/
theorem unmarked_encode (bytes : Bytes) :
    unmarked (Bytes.ofString (encode bytes)) = digitBytes bytes := by
  have text : Bytes.ofString (encode bytes) = 48 :: 120 :: digitBytes bytes := by
    have mark : ("0x" : String).toList.flatMap String.utf8EncodeChar = [48, 120] := by decide
    have digits : (bare bytes).toList = encodeChars bytes := String.toList_ofList
    rw [Bytes.ofString, encode, String.toList_append, List.flatMap_append, mark, digits,
      flatMap_encodeChars]
    rfl
  rw [text]
  rfl

theorem decodePairs_digitBytes (position : Nat) (bytes : Bytes) :
    decodePairs position (digitBytes bytes) = .ok bytes := by
  induction bytes generalizing position with
  | nil => rfl
  | cons b rest ih =>
    have step : digitBytes (b :: rest) =
        digitByte (b.toNat / 16) :: digitByte (b.toNat % 16) :: digitBytes rest := rfl
    have byte : UInt8.ofNat (b.toNat / 16 * 16 + b.toNat % 16) = b := by
      rw [Nat.mul_comm, Nat.div_add_mod, UInt8.ofNat_toNat]
    rw [step, decodePairs]
    simp only [value?_digitByte (high_lt b), value?_digitByte (low_lt b), ih, byte]
    rfl

theorem decode_encode (bytes : Bytes) : decode (encode bytes) = .ok bytes := by
  have even : ¬ (digitBytes bytes).length % 2 = 1 := by
    rw [length_digitBytes]
    omega
  simp only [decode, unmarked_encode, even, if_false, decodePairs_digitBytes]

section Bits

variable {width : Nat} (whole : 8 ∣ width)
include whole

/-- A word of whole bytes is read back from its text. -/
theorem decodeBits_encodeBits (bits : BitVec width) :
    decodeBits width (encodeBits bits) = .ok bits := by
  have length : (digitBytes (Bytes.ofBits bits)).length = 2 * (width / 8) := by
    rw [length_digitBytes, Bytes.length_ofBits]
  have even : ¬ (digitBytes (Bytes.ofBits bits)).length % 2 = 1 := by omega
  have exact : (digitBytes (Bytes.ofBits bits)).length / 2 = width / 8 := by omega
  have read : decodeExact (width / 8) (encodeBits bits) = .ok (Bytes.ofBits bits) := by
    simp only [decodeExact, encodeBits, unmarked_encode, even, exact, if_false, ne_eq, not_true,
      decodePairs_digitBytes]
  rw [decodeBits, read]
  exact congrArg Except.ok (Bytes.toBits_ofBits whole bits)

theorem encodeBits_inj {a b : BitVec width} : encodeBits a = encodeBits b ↔ a = b :=
  Except.write_inj (decodeBits_encodeBits whole)

end Bits

end Hex

namespace Address

theorem parse_lower (a : Address) : parse a.lower = .ok a :=
  Hex.decodeBits_encodeBits (by decide) a

theorem lower_inj {a b : Address} : a.lower = b.lower ↔ a = b :=
  Except.write_inj parse_lower

end Address

end OffchainNames
