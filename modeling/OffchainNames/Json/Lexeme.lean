import OffchainNames.Text.Utf8

/-!
# Lexemes of JSON

A text is cut into lexemes from the left. The first place at which no lexeme starts ends the list with a
lexeme that nothing accepts, so that what stands before it can still be read. Strings keep no content
if their escapes or their bytes spell no text, and numbers keep their digits, so that only who reads
such a lexeme finds fault with it.
-/

namespace OffchainNames

namespace Json

/-- A number as it is written. -/
structure Numeral where
  negative : Bool
  whole : List Nat
  fraction : Option (List Nat)
  /-- Whether the exponent has a minus sign, and its digits. -/
  exponent : Option (Bool × List Nat)
  deriving DecidableEq, Repr

/-- A lexeme. -/
inductive Lexeme where
  | openObject
  | closeObject
  | openList
  | closeList
  | colon
  | comma
  | null
  | bool (value : Bool)
  | number (numeral : Numeral)
  /-- A string; it has no content if it spells no text. -/
  | string (content : Option String)
  | bad
  deriving DecidableEq, Repr

/-- A byte that may stand between lexemes. -/
def isSpace (b : UInt8) : Bool := b == 32 || b == 9 || b == 10 || b == 13

/-- The value of a decimal digit. -/
def decimal? (b : UInt8) : Option Nat := if 48 ≤ b ∧ b ≤ 57 then some (b.toNat - 48) else none

/-- The value of a hexadecimal digit. -/
def hexadecimal? (b : UInt8) : Option Nat :=
  if 48 ≤ b ∧ b ≤ 57 then some (b.toNat - 48)
  else if 97 ≤ b ∧ b ≤ 102 then some (b.toNat - 87)
  else if 65 ≤ b ∧ b ≤ 70 then some (b.toNat - 55)
  else none

/-- The number that four hexadecimal digits write. -/
def unit? (a b c d : UInt8) : Option Nat :=
  match hexadecimal? a, hexadecimal? b, hexadecimal? c, hexadecimal? d with
  | some a, some b, some c, some d => some (((a * 16 + b) * 16 + c) * 16 + d)
  | _, _, _, _ => none

/-- The byte that a backslash before a byte stands for. -/
def escaped? (b : UInt8) : Option UInt8 :=
  if b = 34 ∨ b = 92 ∨ b = 47 then some b
  else if b = 98 then some 8
  else if b = 102 then some 12
  else if b = 110 then some 10
  else if b = 114 then some 13
  else if b = 116 then some 9
  else none

/-- A unit that opens a pair. -/
def isHigh (n : Nat) : Bool := 0xD800 ≤ n && n ≤ 0xDBFF

/-- A unit that closes a pair. -/
def isLow (n : Nat) : Bool := 0xDC00 ≤ n && n ≤ 0xDFFF

/-- A piece of a string: a byte, or a unit that is given by its number. -/
inductive Piece where
  | byte (b : UInt8)
  | unit (n : Nat)

/-- The pieces of a string after its opening quote, and what follows the closing one. -/
def pieces : Bytes → Option (List Piece × Bytes)
  | [] => none
  | b :: rest =>
    if b = 34 then some ([], rest)
    else if b < 32 then none
    else if b = 92 then
      match rest with
      | [] => none
      | c :: rest =>
        if c = 117 then
          match rest with
          | d :: e :: f :: g :: rest =>
            match unit? d e f g with
            | some n => (pieces rest).map fun (ps, rest) => (.unit n :: ps, rest)
            | none => none
          | _ => none
        else
          match escaped? c with
          | some e => (pieces rest).map fun (ps, rest) => (.byte e :: ps, rest)
          | none => none
    else (pieces rest).map fun (ps, rest) => (.byte b :: ps, rest)

/-- The bytes that pieces spell, if units stand alone or in pairs as they should. -/
def spell : List Piece → Option Bytes
  | [] => some []
  | .byte b :: rest => (spell rest).map (b :: ·)
  | .unit n :: rest =>
    if isHigh n then
      match rest with
      | .unit low :: rest =>
        if isLow low then
          (spell rest).map fun bytes =>
            String.utf8EncodeChar
              (Char.ofNat (0x10000 + (n - 0xD800) * 1024 + (low - 0xDC00))) ++ bytes
        else none
      | _ => none
    else if isLow n then none
    else (spell rest).map fun bytes => String.utf8EncodeChar (Char.ofNat n) ++ bytes

/-- Reads a string after its opening quote: its content, if it spells a text, and what follows. -/
def scanString (bytes : Bytes) : Option (Option String × Bytes) :=
  (pieces bytes).map fun (ps, rest) => ((spell ps).bind Utf8.decode?, rest)

/-- The digits that bytes start with, and what follows. -/
def digits : Bytes → List Nat × Bytes
  | [] => ([], [])
  | b :: rest =>
    match decimal? b with
    | some d =>
      let (ds, rest) := digits rest
      (d :: ds, rest)
    | none => ([], b :: rest)

/-- Reads the exponent of a number, if there is one. -/
def scanExponent : Bytes → Option (Option (Bool × List Nat) × Bytes)
  | b :: rest =>
    if b = 101 ∨ b = 69 then
      let (negative, rest) := match rest with
        | 43 :: rest => (false, rest)
        | 45 :: rest => (true, rest)
        | rest => (false, rest)
      match digits rest with
      | ([], _) => none
      | (ds, rest) => some (some (negative, ds), rest)
    else some (none, b :: rest)
  | [] => some (none, [])

/-- Reads the digits after the point of a number, if there is one. -/
def scanFraction : Bytes → Option (Option (List Nat) × Bytes)
  | 46 :: rest =>
    match digits rest with
    | ([], _) => none
    | (ds, rest) => some (some ds, rest)
  | rest => some (none, rest)

/-- Reads a number after its sign. -/
def scanNumber (negative : Bool) (bytes : Bytes) : Option (Numeral × Bytes) :=
  match digits bytes with
  | ([], _) => none
  | (0 :: _ :: _, _) => none
  | (whole, rest) => do
    let (fraction, rest) ← scanFraction rest
    let (exponent, rest) ← scanExponent rest
    some (⟨negative, whole, fraction, exponent⟩, rest)

/-- The bytes after the given ones, if they start with these. -/
def after? : (start bytes : Bytes) → Option Bytes
  | [], bytes => some bytes
  | a :: start, b :: bytes => if a = b then after? start bytes else none
  | _ :: _, [] => none

/-- Reads a lexeme that starts with the given byte. -/
def scan (b : UInt8) (rest : Bytes) : Option (Lexeme × Bytes) :=
  if b = 123 then some (.openObject, rest)
  else if b = 125 then some (.closeObject, rest)
  else if b = 91 then some (.openList, rest)
  else if b = 93 then some (.closeList, rest)
  else if b = 58 then some (.colon, rest)
  else if b = 44 then some (.comma, rest)
  else if b = 34 then (scanString rest).map fun (s, rest) => (.string s, rest)
  else if b = 45 then (scanNumber true rest).map fun (n, rest) => (.number n, rest)
  else if b = 110 then (after? [117, 108, 108] rest).map fun rest => (.null, rest)
  else if b = 116 then (after? [114, 117, 101] rest).map fun rest => (.bool true, rest)
  else if b = 102 then (after? [97, 108, 115, 101] rest).map fun rest => (.bool false, rest)
  else (scanNumber false (b :: rest)).map fun (n, rest) => (.number n, rest)

/-- The lexemes of bytes, at most as many as the bound says. -/
def lexemesUpTo : (bound : Nat) → Bytes → List Lexeme
  | 0, _ => []
  | bound + 1, bytes =>
    match bytes.dropWhile isSpace with
    | [] => []
    | b :: rest =>
      match scan b rest with
      | some (lexeme, rest) => lexeme :: lexemesUpTo bound rest
      | none => [.bad]

/-- The lexemes of bytes. -/
def lexemes (bytes : Bytes) : List Lexeme := lexemesUpTo bytes.length bytes

end Json

end OffchainNames
