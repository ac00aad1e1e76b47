import OffchainNames.Text.Utf8

/-!
# Texts are read back from their UTF-8

A character is read back from its bytes whatever follows them (`Utf8.decodeChars_encodeChar`), so that
the reading which replaces what is no UTF-8 has nothing to replace in the bytes of a text
(`Utf8.decodeLossy_ofString`).
-/

namespace OffchainNames

namespace Utf8

/-- What holds of the characters of one byte, one by one, holds of each of them. -/
theorem forall_ascii {P : Char → Prop} (h : ∀ n < 128, P (Char.ofNat n)) {c : Char}
    (plain : c.toNat < 128) : P c := by
  have here := h c.toNat plain
  rwa [Char.ofNat_toNat] at here

theorem toNat_ofNat_of_lt {n : Nat} (h : n < 256) : (UInt8.ofNat n).toNat = n := by
  rw [UInt8.toNat_ofNat']
  omega

/-- Each byte of a character of several bytes has its highest bit set. -/
theorem high_of_mem_utf8EncodeChar {c : Char} (more : 128 ≤ c.toNat) {b : UInt8}
    (member : b ∈ String.utf8EncodeChar c) : 128 ≤ b.toNat := by
  have value : c.toNat = c.val.toNat := rfl
  unfold String.utf8EncodeChar at member
  simp only at member
  rw [if_neg (by omega)] at member
  by_cases two : c.val.toNat ≤ 0x7FF
  · simp only [two, if_true, List.mem_cons, List.not_mem_nil, or_false] at member
    rcases member with rfl | rfl <;> rw [toNat_ofNat_of_lt (by omega)] <;> omega
  by_cases three : c.val.toNat ≤ 0xFFFF
  · simp only [two, three, if_true, if_false, List.mem_cons, List.not_mem_nil, or_false] at member
    rcases member with rfl | rfl | rfl <;> rw [toNat_ofNat_of_lt (by omega)] <;> omega
  · simp only [two, three, if_false, List.mem_cons, List.not_mem_nil, or_false] at member
    rcases member with rfl | rfl | rfl | rfl <;> rw [toNat_ofNat_of_lt (by omega)] <;> omega

theorem isTail_ofNat {n : Nat} (h : n < 64) : isTail (UInt8.ofNat (n + 128)) = true := by
  simp only [isTail, Bool.and_eq_true, decide_eq_true_eq, UInt8.le_iff_toNat_le,
    toNat_ofNat_of_lt (show n + 128 < 256 by omega), UInt8.reduceToNat]
  omega

theorem tailBits_ofNat {n : Nat} (h : n < 64) : tailBits (UInt8.ofNat (n + 128)) = n := by
  rw [tailBits, toNat_ofNat_of_lt (by omega)]
  omega

/-- A byte below 0x80 is a character. -/
theorem decodeChars_one {n : Nat} (h : n ≤ 0x7F) (rest : Bytes) :
    decodeChars (UInt8.ofNat n :: rest) = Char.ofNat n :: decodeChars rest := by
  have lead : (UInt8.ofNat n).toNat = n := toNat_ofNat_of_lt (by omega)
  rw [decodeChars.eq_def]
  simp only [UInt8.lt_iff_toNat_lt, lead, UInt8.reduceToNat]
  rw [if_pos (by omega)]

/-- Two bytes spell a character of eleven bits. -/
theorem decodeChars_two {n : Nat} (h : 0x80 ≤ n) (h' : n ≤ 0x7FF) (rest : Bytes) :
    decodeChars (UInt8.ofNat (n / 64 % 32 + 192) :: UInt8.ofNat (n % 64 + 128) :: rest) =
      Char.ofNat n :: decodeChars rest := by
  have lead : (UInt8.ofNat (n / 64 % 32 + 192)).toNat = n / 64 % 32 + 192 :=
    toNat_ofNat_of_lt (by omega)
  have second : n % 64 < 64 := by omega
  have value : (n / 64 % 32 + 192) % 32 * 64 + n % 64 = n := by omega
  rw [decodeChars.eq_def]
  simp only [UInt8.lt_iff_toNat_lt, UInt8.le_iff_toNat_le, lead, UInt8.reduceToNat]
  rw [if_neg (by omega), if_pos (by omega)]
  simp only [isTail_ofNat second, if_true, tailBits_ofNat second, value]

/-- The first two bytes of a character of three bytes spell neither what two bytes do nor a
surrogate. -/
theorem opensThree_ofNat {n : Nat} (h : 0x800 ≤ n) (h' : n ≤ 0xFFFF)
    (scalar : n < 0xD800 ∨ 0xDFFF < n) :
    opensThree (UInt8.ofNat (n / 4096 % 16 + 224)) (UInt8.ofNat (n / 64 % 64 + 128)) = true := by
  have lead : (UInt8.ofNat (n / 4096 % 16 + 224)).toNat = n / 4096 % 16 + 224 :=
    toNat_ofNat_of_lt (by omega)
  have second : (UInt8.ofNat (n / 64 % 64 + 128)).toNat = n / 64 % 64 + 128 :=
    toNat_ofNat_of_lt (by omega)
  unfold opensThree
  split
  · rename_i least
    have high : n / 4096 % 16 + 224 = 0xE0 := lead.symm.trans (congrArg UInt8.toNat least)
    simp only [Bool.and_eq_true, decide_eq_true_eq, UInt8.le_iff_toNat_le, second,
      UInt8.reduceToNat]
    omega
  · split
    · rename_i surrogate
      have high : n / 4096 % 16 + 224 = 0xED := lead.symm.trans (congrArg UInt8.toNat surrogate)
      simp only [Bool.and_eq_true, decide_eq_true_eq, UInt8.le_iff_toNat_le, second,
        UInt8.reduceToNat]
      omega
    · exact isTail_ofNat (by omega)

/-- Three bytes spell a character of sixteen bits. -/
theorem decodeChars_three {n : Nat} (h : 0x800 ≤ n) (h' : n ≤ 0xFFFF)
    (scalar : n < 0xD800 ∨ 0xDFFF < n) (rest : Bytes) :
    decodeChars (UInt8.ofNat (n / 4096 % 16 + 224) :: UInt8.ofNat (n / 64 % 64 + 128) ::
      UInt8.ofNat (n % 64 + 128) :: rest) = Char.ofNat n :: decodeChars rest := by
  have lead : (UInt8.ofNat (n / 4096 % 16 + 224)).toNat = n / 4096 % 16 + 224 :=
    toNat_ofNat_of_lt (by omega)
  have second : n / 64 % 64 < 64 := by omega
  have third : n % 64 < 64 := by omega
  have value : (n / 4096 % 16 + 224) % 16 * 4096 + n / 64 % 64 * 64 + n % 64 = n := by omega
  rw [decodeChars.eq_def]
  simp only [UInt8.lt_iff_toNat_lt, UInt8.le_iff_toNat_le, lead, UInt8.reduceToNat]
  rw [if_neg (by omega), if_neg (by omega), if_pos (by omega)]
  simp only [opensThree_ofNat h h' scalar, isTail_ofNat third, if_true, tailBits_ofNat second,
    tailBits_ofNat third, value]

/-- The first two bytes of a character of four bytes spell neither what three bytes do nor anything
beyond the last character. -/
theorem opensFour_ofNat {n : Nat} (h : 0x10000 ≤ n) (h' : n < 0x110000) :
    opensFour (UInt8.ofNat (n / 262144 % 8 + 240)) (UInt8.ofNat (n / 4096 % 64 + 128)) = true := by
  have lead : (UInt8.ofNat (n / 262144 % 8 + 240)).toNat = n / 262144 % 8 + 240 :=
    toNat_ofNat_of_lt (by omega)
  have second : (UInt8.ofNat (n / 4096 % 64 + 128)).toNat = n / 4096 % 64 + 128 :=
    toNat_ofNat_of_lt (by omega)
  unfold opensFour
  split
  · rename_i least
    have high : n / 262144 % 8 + 240 = 0xF0 := lead.symm.trans (congrArg UInt8.toNat least)
    simp only [Bool.and_eq_true, decide_eq_true_eq, UInt8.le_iff_toNat_le, second,
      UInt8.reduceToNat]
    omega
  · split
    · rename_i greatest
      have high : n / 262144 % 8 + 240 = 0xF4 := lead.symm.trans (congrArg UInt8.toNat greatest)
      simp only [Bool.and_eq_true, decide_eq_true_eq, UInt8.le_iff_toNat_le, second,
        UInt8.reduceToNat]
      omega
    · exact isTail_ofNat (by omega)

/-- Four bytes spell a character of more than sixteen bits. -/
theorem decodeChars_four {n : Nat} (h : 0x10000 ≤ n) (h' : n < 0x110000) (rest : Bytes) :
    decodeChars (UInt8.ofNat (n / 262144 % 8 + 240) :: UInt8.ofNat (n / 4096 % 64 + 128) ::
      UInt8.ofNat (n / 64 % 64 + 128) :: UInt8.ofNat (n % 64 + 128) :: rest) =
      Char.ofNat n :: decodeChars rest := by
  have lead : (UInt8.ofNat (n / 262144 % 8 + 240)).toNat = n / 262144 % 8 + 240 :=
    toNat_ofNat_of_lt (by omega)
  have second : n / 4096 % 64 < 64 := by omega
  have third : n / 64 % 64 < 64 := by omega
  have fourth : n % 64 < 64 := by omega
  have value : (n / 262144 % 8 + 240) % 8 * 262144 + n / 4096 % 64 * 4096 + n / 64 % 64 * 64
      + n % 64 = n := by omega
  rw [decodeChars.eq_def]
  simp only [UInt8.lt_iff_toNat_lt, UInt8.le_iff_toNat_le, lead, UInt8.reduceToNat]
  rw [if_neg (by omega), if_neg (by omega), if_neg (by omega), if_pos (by omega)]
  simp only [opensFour_ofNat h h', isTail_ofNat third, isTail_ofNat fourth, if_true,
    tailBits_ofNat second, tailBits_ofNat third, tailBits_ofNat fourth, value]

/-- A character is read back from its bytes, whatever follows them. -/
theorem decodeChars_encodeChar (c : Char) (rest : Bytes) :
    decodeChars (String.utf8EncodeChar c ++ rest) = c :: decodeChars rest := by
  have scalar : c.val.toNat < 0xD800 ∨ 0xDFFF < c.val.toNat ∧ c.val.toNat < 0x110000 := c.valid
  have self : Char.ofNat c.val.toNat = c := Char.ofNat_toNat c
  -- The cases are those of the encoding. That of three bytes needs that no character is a surrogate.
  unfold String.utf8EncodeChar
  by_cases one : c.val.toNat ≤ 0x7F
  · simp only [one, if_true, List.cons_append, List.nil_append, decodeChars_one one, self]
  by_cases two : c.val.toNat ≤ 0x7FF
  · simp only [one, two, if_true, if_false, List.cons_append, List.nil_append,
      decodeChars_two (by omega) two, self]
  by_cases three : c.val.toNat ≤ 0xFFFF
  · simp only [one, two, three, if_true, if_false, List.cons_append, List.nil_append,
      decodeChars_three (by omega) three (by omega), self]
  · have four : 0x10000 ≤ c.val.toNat := by omega
    have last : c.val.toNat < 0x110000 := by omega
    simp only [one, two, three, if_false, List.cons_append, List.nil_append,
      decodeChars_four four last, self]

theorem decodeChars_flatMap (cs : List Char) :
    decodeChars (cs.flatMap String.utf8EncodeChar) = cs := by
  induction cs with
  | nil => rfl
  | cons c rest ih => rw [List.flatMap_cons, decodeChars_encodeChar, ih]

theorem decodeLossy_ofString (text : String) : decodeLossy (Bytes.ofString text) = text := by
  rw [decodeLossy, Bytes.ofString, decodeChars_flatMap, String.ofList_toList]

theorem decode?_ofString (text : String) : decode? (Bytes.ofString text) = some text := by
  rw [decode?.eq_def]
  simp only [decodeLossy_ofString, if_true]

end Utf8

theorem Bytes.ofString_append (a b : String) :
    Bytes.ofString (a ++ b) = Bytes.ofString a ++ Bytes.ofString b := by
  rw [ofString, String.toList_append, List.flatMap_append, ofString, ofString]

end OffchainNames
