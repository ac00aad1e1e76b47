import OffchainNames.Numeral

/-!
# Numerals are read back

A number below `2 ^ 256` is read back from its digits in base ten (`Numeral.parse_toString`).
-/

namespace OffchainNames

namespace Numeral

/-- Digits carry no mark of another base. -/
theorem base_of_isDigit {cs : List Char} (h : ∀ c ∈ cs, c.isDigit = true) : base cs = (10, cs) := by
  unfold base
  split
  case h_7 => rfl
  all_goals
    have digit := h _ (List.mem_cons_of_mem _ (List.mem_cons_self ..))
    exact absurd digit (by decide)

theorem digit?_digitChar {digit : Nat} (h : digit < 10) :
    digit? (Nat.digitChar digit) = some digit ∧ Nat.digitChar digit ≠ '_' := by
  revert digit
  decide

theorem readDigits_digitChar {n digit : Nat} (h : digit < 10) (small : n * 10 + digit < Nat.pow 2 256)
    (rest : List Char) :
    readDigits 10 n (Nat.digitChar digit :: rest) = readDigits 10 (n * 10 + digit) rest := by
  obtain ⟨read, skipped⟩ := digit?_digitChar h
  have fits : ¬ Nat.pow 2 256 ≤ n * 10 + digit := Nat.not_le.mpr small
  rw [readDigits, if_neg skipped]
  simp only [read, Nat.not_le.mpr h, fits, if_false]

/-- Reading the digits of a number leads to the number. -/
theorem readDigits_toDigits {n : Nat} (small : n < Nat.pow 2 256) (rest : List Char) :
    readDigits 10 0 (Nat.toDigits 10 n ++ rest) = readDigits 10 n rest := by
  -- All digits but the last are those of the tenth part.
  induction n using Nat.strongRecOn generalizing rest with
  | ind n ih =>
    by_cases h : n < 10
    · rw [Nat.toDigits_of_lt_base h, List.singleton_append,
        readDigits_digitChar h (by omega), Nat.zero_mul, Nat.zero_add]
    · have value : n / 10 * 10 + n % 10 = n := by omega
      rw [Nat.toDigits_of_base_le (by decide) (by omega), List.append_assoc,
        ih (n / 10) (by omega) (by omega), List.singleton_append,
        readDigits_digitChar (by omega) (by omega), value]

theorem parse_toString {n : Nat} (small : n < Nat.pow 2 256) :
    parse (toString n) = .ok (BitVec.ofNat 256 n) := by
  have text : (toString n).toList = Nat.toDigits 10 n := by
    rw [Nat.toString_eq_repr, Nat.repr_eq_ofList_toDigits, String.toList_ofList]
  have plain := base_of_isDigit fun c (member : c ∈ Nat.toDigits 10 n) =>
    Nat.isDigit_of_mem_toDigits (by decide) (by decide) member
  have read := readDigits_toDigits small []
  rw [List.append_nil] at read
  simp only [parse, text, plain, read]
  rfl

end Numeral

end OffchainNames
