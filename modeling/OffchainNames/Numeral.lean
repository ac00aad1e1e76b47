import OffchainNames.Bytes

/-!
# Numerals

A number is written in base ten; a mark in front makes it base two, eight or sixteen. Underscores
between digits are skipped, and no digit at all is zero.
-/

namespace OffchainNames

namespace Numeral

/-- Why a text is no numeral for a word. -/
inductive Error where
  | invalidDigit (c : Char)
  /-- The number has more than 256 bits. -/
  | tooLarge
  deriving DecidableEq, Repr

/-- The wording of an error. -/
def Error.message : Error → String
  | .invalidDigit c => "invalid digit: " ++ String.singleton c
  | .tooLarge => "the value is too large to fit the target type"

/-- The value of a digit in either letter case. -/
def digit? (c : Char) : Option Nat :=
  let n := c.toNat
  if 48 ≤ n ∧ n ≤ 57 then some (n - 48)
  else if 97 ≤ n ∧ n ≤ 122 then some (n - 87)
  else if 65 ≤ n ∧ n ≤ 90 then some (n - 55)
  else none

/-- Reads digits of a base after digits that are worth the given number. -/
def readDigits (base : Nat) : Nat → List Char → Except Error Nat
  | n, [] => .ok n
  | n, c :: rest =>
    if c = '_' then readDigits base n rest
    else
      match digit? c with
      | none => .error (.invalidDigit c)
      | some d =>
        if base ≤ d then .error (.invalidDigit c)
        else if Nat.pow 2 256 ≤ n * base + d then .error .tooLarge
        else readDigits base (n * base + d) rest

/-- The base that the first two characters mark, and the characters that follow. -/
def base : List Char → Nat × List Char
  | '0' :: 'x' :: rest => (16, rest)
  | '0' :: 'X' :: rest => (16, rest)
  | '0' :: 'o' :: rest => (8, rest)
  | '0' :: 'O' :: rest => (8, rest)
  | '0' :: 'b' :: rest => (2, rest)
  | '0' :: 'B' :: rest => (2, rest)
  | cs => (10, cs)

/-- The word that a text writes. -/
def parse (text : String) : Except Error Word :=
  let (base, digits) := base text.toList
  (readDigits base 0 digits).map (BitVec.ofNat 256)

end Numeral

end OffchainNames
