import OffchainNames.Bytes.Hex
import OffchainNames.Hash.Keccak

/-!
# Account addresses as text

An address is read as 20 hexadecimal bytes in any letter case and is written in one of two ways: all
in lowercase, or with letter case as a checksum.
-/

namespace OffchainNames

namespace Address

/-- The mark and the digits of an address in lowercase. -/
def lower (a : Address) : String := Hex.encodeBits a

/-- Whether each of the 40 digits is capital if it is a letter: the digits of the digest of the
lowercase digits, from eight upwards. -/
def capitals (digits : List Char) : List Bool :=
  (Keccak.digest (Bytes.ofString (String.ofList digits))).flatMap fun b =>
    [8 ≤ b.toNat / 16, 8 ≤ b.toNat % 16]

/-- The mark and the digits of an address with letter case as a checksum. -/
def checksummed (a : Address) : String :=
  let digits := Hex.encodeChars (Bytes.ofBits a)
  "0x" ++ String.ofList
    (digits.zipWith (fun c capital => if capital then c.toUpper else c) (capitals digits))

/-- The address that a text of 20 hexadecimal bytes stands for. -/
def parse (text : String) : Except Hex.Error Address := Hex.decodeBits 160 text

end Address

end OffchainNames
