import OffchainNames.Bytes

/-!
# Hexadecimal text

Bytes are written as `0x` followed by two lowercase digits a byte. Reading is looser than writing: the
mark may be missing or written `0X`, and either letter case is a digit. Three things can be wrong with
a text, and the first of them in this order is the one reported: an odd number of digits, a length
other than the one asked for, a character that is no digit.
-/

namespace OffchainNames

namespace Hex

/-- The digits in order of their values. -/
def digits : List Char :=
  ['0', '1', '2', '3', '4', '5', '6', '7', '8', '9', 'a', 'b', 'c', 'd', 'e', 'f']

/-- The digit of a value below 16. -/
def digit (n : Nat) : Char := digits.getD n '0'

/-- The value of a digit given as a byte of text, in either letter case. -/
def value? (b : UInt8) : Option Nat :=
  if 48 ≤ b ∧ b ≤ 57 then some (b.toNat - 48)
  else if 97 ≤ b ∧ b ≤ 102 then some (b.toNat - 87)
  else if 65 ≤ b ∧ b ≤ 70 then some (b.toNat - 55)
  else none

/-- Two digits a byte, without the mark. -/
def encodeChars (bytes : Bytes) : List Char :=
  bytes.flatMap fun b => [digit (b.toNat / 16), digit (b.toNat % 16)]

/-- Two digits a byte, without the mark. -/
def bare (bytes : Bytes) : String := String.ofList (encodeChars bytes)

/-- The mark and two digits a byte. -/
def encode (bytes : Bytes) : String := "0x" ++ bare bytes

/-- Why a text is no hexadecimal text. -/
inductive Error where
  | oddLength
  | wrongLength
  /-- The byte of text at the position, counted after the mark, is no digit. -/
  | invalidCharacter (byte : UInt8) (position : Nat)
  deriving DecidableEq, Repr

/-- A byte of text as a Latin-1 character between quotes, with control characters escaped. -/
def quoteByte (b : UInt8) : String :=
  let c := Char.ofNat b.toNat
  if b = 0 then "'\\0'"
  else if b = 9 then "'\\t'"
  else if b = 10 then "'\\n'"
  else if b = 13 then "'\\r'"
  else if b = 39 then "'\\''"
  else if b = 92 then "'\\\\'"
  else if b < 32 ∨ (127 ≤ b ∧ b ≤ 160) ∨ b = 173 then
    "'\\u\x7b" ++ String.ofList (Nat.toDigits 16 b.toNat) ++ "\x7d'"
  else "'" ++ String.singleton c ++ "'"

/-- The wording of an error. -/
def Error.message : Error → String
  | .oddLength => "odd number of digits"
  | .wrongLength => "invalid string length"
  | .invalidCharacter b i =>
    "invalid character " ++ quoteByte b ++ " at position " ++ toString i

/-- The text after the mark, if it starts with one. -/
def unmarked : Bytes → Bytes
  | 48 :: 120 :: rest => rest
  | 48 :: 88 :: rest => rest
  | text => text

/-- Reads pairs of digits, the first of which stands at the given position. -/
def decodePairs : (position : Nat) → Bytes → Except Error Bytes
  | i, high :: low :: rest =>
    match value? high, value? low with
    | some h, some l => (decodePairs (i + 2) rest).map (UInt8.ofNat (h * 16 + l) :: ·)
    | none, _ => .error (.invalidCharacter high i)
    | some _, none => .error (.invalidCharacter low (i + 1))
  | _, [_] => .error .oddLength
  | _, [] => .ok []

/-- The bytes that a text stands for. -/
def decode (text : String) : Except Error Bytes :=
  let digits := unmarked (Bytes.ofString text)
  if digits.length % 2 = 1 then .error .oddLength else decodePairs 0 digits

/-- The bytes that a text stands for, if it stands for the given number of them. -/
def decodeExact (size : Nat) (text : String) : Except Error Bytes :=
  let digits := unmarked (Bytes.ofString text)
  if digits.length % 2 = 1 then .error .oddLength
  else if digits.length / 2 ≠ size then .error .wrongLength
  else decodePairs 0 digits

/-- The word of the given width that a text stands for. -/
def decodeBits (width : Nat) (text : String) : Except Error (BitVec width) :=
  (decodeExact (width / 8) text).map (Bytes.toBits width)

/-- The mark and the digits of a word. -/
def encodeBits {width : Nat} (bits : BitVec width) : String := encode (Bytes.ofBits bits)

end Hex

end OffchainNames
