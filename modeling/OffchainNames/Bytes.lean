/-!
# Byte strings and words

Byte strings are lists of bytes. Fixed-width quantities are bit vectors: a 32-byte word, a 20-byte
account address, a 4-byte function selector. Both readings meet in the big-endian expansion of a
number: `Bytes.toNat_ofNat` says that reading back gives the number modulo the width, and
`Bytes.ofNat_toNat` that a byte string is the expansion of the number it reads as.
-/

namespace OffchainNames

/-- A finite string of bytes. -/
abbrev Bytes := List UInt8

/-- A 32-byte word. -/
abbrev Word := BitVec 256

/-- A 20-byte account address. -/
abbrev Address := BitVec 160

/-- The first four bytes of a call, which name the function. -/
abbrev Selector := BitVec 32

namespace Bytes

/-- The last `width` bytes of the big-endian expansion of a number. -/
def ofNat : (width value : Nat) → Bytes
  | 0, _ => []
  | width + 1, value => ofNat width (value / 256) ++ [UInt8.ofNat value]

/-- The number whose big-endian expansion a byte string is. -/
def toNat (bytes : Bytes) : Nat :=
  bytes.foldl (fun n b => n * 256 + b.toNat) 0

@[simp] theorem length_ofNat (width value : Nat) : (ofNat width value).length = width := by
  induction width generalizing value with
  | zero => rfl
  | succ width ih => simp [ofNat, ih]

@[simp] theorem toNat_nil : toNat [] = 0 := rfl

@[simp] theorem toNat_append_singleton (bytes : Bytes) (b : UInt8) :
    toNat (bytes ++ [b]) = toNat bytes * 256 + b.toNat := by
  simp [toNat]

theorem toNat_ofNat (width value : Nat) : toNat (ofNat width value) = value % Nat.pow 256 width := by
  induction width generalizing value with
  | zero => simp [ofNat, Nat.mod_one]
  | succ width ih =>
    have byte : (UInt8.ofNat value).toNat = value % 256 := by simp
    have step : Nat.pow 256 (width + 1) = 256 * Nat.pow 256 width := Nat.mul_comm _ _
    rw [ofNat, toNat_append_singleton, ih, byte, step, Nat.mod_mul]
    omega

theorem ofNat_toNat (bytes : Bytes) : ofNat bytes.length (toNat bytes) = bytes := by
  rcases List.eq_nil_or_concat bytes with rfl | ⟨init, b, rfl⟩
  · rfl
  · have ih := ofNat_toNat init
    have hb : b.toNat < 256 := b.toNat_lt
    have high : (toNat init * 256 + b.toNat) / 256 = toNat init := by omega
    have low : UInt8.ofNat (toNat init * 256 + b.toNat) = b := by
      apply UInt8.toNat.inj
      simp only [UInt8.toNat_ofNat']
      omega
    simp only [List.concat_eq_append, toNat_append_singleton, List.length_append,
      List.length_singleton, ofNat, high, low, ih]
termination_by bytes.length

/-- The bytes of a word, most significant first. -/
def ofBits {width : Nat} (bits : BitVec width) : Bytes :=
  ofNat (width / 8) bits.toNat

/-- The low bits of the number that a byte string reads as. -/
def toBits (width : Nat) (bytes : Bytes) : BitVec width :=
  BitVec.ofNat width (toNat bytes)

@[simp] theorem length_ofBits {width : Nat} (bits : BitVec width) :
    (ofBits bits).length = width / 8 :=
  length_ofNat ..

/-- A word of whole bytes is read back from them. -/
theorem toBits_ofBits {width : Nat} (h : 8 ∣ width) (bits : BitVec width) :
    toBits width (ofBits bits) = bits := by
  obtain ⟨size, rfl⟩ := h
  have bound : Nat.pow 256 size = 2 ^ (8 * size) := by
    show 256 ^ size = 2 ^ (8 * size)
    rw [Nat.pow_mul]
  have small : bits.toNat < 2 ^ (8 * size) := bits.isLt
  apply BitVec.eq_of_toNat_eq
  rw [toBits, ofBits, Nat.mul_div_cancel_left size (by omega), toNat_ofNat, bound,
    Nat.mod_eq_of_lt small, BitVec.toNat_ofNat, Nat.mod_eq_of_lt small]

/-- Zero bytes up to the next multiple of 32. -/
def padRight (bytes : Bytes) : Bytes :=
  bytes ++ List.replicate ((32 - bytes.length % 32) % 32) 0

theorem length_le_padRight (bytes : Bytes) : bytes.length ≤ (padRight bytes).length := by
  rw [padRight, List.length_append]
  exact Nat.le_add_right ..

/-- The bytes of a text in UTF-8. -/
def ofString (text : String) : Bytes :=
  text.toList.flatMap String.utf8EncodeChar

end Bytes

end OffchainNames
