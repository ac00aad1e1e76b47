import OffchainNames.Bytes

/-!
# Reading UTF-8

Bytes that are no UTF-8 are still read: every longest part that starts like a character but is none
becomes one replacement character (`Utf8.decodeLossy`), so a text is always produced. The strict
reading `Utf8.decode?` accepts exactly the bytes of a text.
-/

namespace OffchainNames

namespace Utf8

/-- The character that stands for bytes that spell none. -/
def replacement : Char := '\uFFFD'

/-- A byte that may continue a character. -/
def isTail (b : UInt8) : Bool := 0x80 ≤ b && b ≤ 0xBF

/-- The low six bits of a continuation byte. -/
def tailBits (b : UInt8) : Nat := b.toNat % 64

/-- Whether the second byte may follow the first byte of a three-byte character. -/
def opensThree (a b : UInt8) : Bool :=
  if a = 0xE0 then 0xA0 ≤ b && b ≤ 0xBF
  else if a = 0xED then 0x80 ≤ b && b ≤ 0x9F
  else isTail b

/-- Whether the second byte may follow the first byte of a four-byte character. -/
def opensFour (a b : UInt8) : Bool :=
  if a = 0xF0 then 0x90 ≤ b && b ≤ 0xBF
  else if a = 0xF4 then 0x80 ≤ b && b ≤ 0x8F
  else isTail b

/-- The characters that bytes spell, with the replacement character for each part that spells none. -/
def decodeChars : Bytes → List Char
  | [] => []
  | a :: rest =>
    if a < 0x80 then Char.ofNat a.toNat :: decodeChars rest
    else if 0xC2 ≤ a ∧ a ≤ 0xDF then
      match rest with
      | b :: rest =>
        if isTail b then Char.ofNat (a.toNat % 32 * 64 + tailBits b) :: decodeChars rest
        else replacement :: decodeChars (b :: rest)
      | [] => [replacement]
    else if 0xE0 ≤ a ∧ a ≤ 0xEF then
      match rest with
      | b :: c :: rest =>
        if opensThree a b then
          if isTail c then
            Char.ofNat (a.toNat % 16 * 4096 + tailBits b * 64 + tailBits c) :: decodeChars rest
          else replacement :: decodeChars (c :: rest)
        else replacement :: decodeChars (b :: c :: rest)
      | [b] => if opensThree a b then [replacement] else replacement :: decodeChars [b]
      | [] => [replacement]
    else if 0xF0 ≤ a ∧ a ≤ 0xF4 then
      match rest with
      | b :: c :: d :: rest =>
        if opensFour a b then
          if isTail c then
            if isTail d then
              Char.ofNat (a.toNat % 8 * 262144 + tailBits b * 4096 + tailBits c * 64 + tailBits d)
                :: decodeChars rest
            else replacement :: decodeChars (d :: rest)
          else replacement :: decodeChars (c :: d :: rest)
        else replacement :: decodeChars (b :: c :: d :: rest)
      | [b, c] =>
        if opensFour a b then
          if isTail c then [replacement] else replacement :: decodeChars [c]
        else replacement :: decodeChars [b, c]
      | [b] => if opensFour a b then [replacement] else replacement :: decodeChars [b]
      | [] => [replacement]
    else replacement :: decodeChars rest

/-- The text that bytes spell, with the replacement character for each part that spells none. -/
def decodeLossy (bytes : Bytes) : String := String.ofList (decodeChars bytes)

/-- The text that bytes spell, if they are the UTF-8 bytes of a text. -/
def decode? (bytes : Bytes) : Option String :=
  let text := decodeLossy bytes
  if Bytes.ofString text = bytes then some text else none

end Utf8

end OffchainNames
