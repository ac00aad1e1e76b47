import OffchainNames.Bytes.Hex
import OffchainNames.Decimal.Shortest
import OffchainNames.Json.Lexeme
import OffchainNames.Record

/-!
# Values of JSON

Reading a value fails in one of two ways: the text does not follow the grammar, or it does so far and
means something else than what was asked for. Objects keep their members as they are written; the
compact text of a value sorts them by key and keeps the last of those with one key.
-/

namespace OffchainNames

namespace Json

/-- A number. -/
inductive Number where
  /-- A natural number below `2 ^ 64`. -/
  | natural (n : Nat)
  /-- The opposite of a positive number up to `2 ^ 63`. -/
  | negative (n : Nat)
  /-- Any other number, rounded to a binary floating-point number. -/
  | float (x : Float)

/-- A value. -/
inductive Value where
  | null
  | bool (value : Bool)
  | number (value : Number)
  | string (value : String)
  | list (values : List Value)
  /-- An object with its members as they are written. -/
  | object (members : List (String × Value))
  deriving Inhabited

namespace Numeral

/-- The digits that go into a number below `2 ^ 64`, and how many of them are left. -/
def significand : Nat → List Nat → Nat × List Nat
  | n, [] => (n, [])
  | n, d :: rest => if n * 10 + d < UInt64.size then significand (n * 10 + d) rest else (n, d :: rest)

/-- A power of ten as a floating-point number. -/
def power (n : Nat) : Float := Float.ofScientific 1 false n

/-- The floating-point number `x * 10 ^ exponent`, by steps that stay in the range of powers; there is
none beyond that range. -/
def scale : (tries : Nat) → Float → Int → Option Float
  | 0, x, _ => some x
  | tries + 1, x, exponent =>
    if exponent.natAbs ≤ 308 then
      if 0 ≤ exponent then
        let y := x * power exponent.natAbs
        if y.isInf then none else some y
      else some (x / power exponent.natAbs)
    else if x == 0 then some x
    else if 0 ≤ exponent then none
    else scale tries (x / power 308) (exponent + 308)

/-- The exponent that is written, unless it has more than 32 bits. -/
def writtenExponent : Option (Bool × List Nat) → Option Int
  | none => some 0
  | some (negative, ds) =>
    let n : Nat := ds.foldl (fun n d => n * 10 + d) 0
    if n < Nat.pow 2 31 then some (if negative then -(n : Int) else n) else none

/-- Whether a written exponent has a minus sign. -/
def shrinks : Option (Bool × List Nat) → Bool
  | some (negative, _) => negative
  | none => false

/-- The number that a numeral writes; digits past the first that exceed 64 bits count as zeros. -/
def value (n : Numeral) : Option Number :=
  let (m, left) := significand 0 n.whole
  match n.fraction, n.exponent, left with
  | none, none, [] =>
    if !n.negative then some (.natural m)
    else if 0 < m ∧ m ≤ Nat.pow 2 63 then some (.negative m)
    else some (.float (-(UInt64.ofNat m).toFloat))
  | fraction, exponent, left =>
    let after := fraction.getD []
    let (m, unread) := significand m after
    let shift : Int := left.length - (after.length - unread.length : Nat)
    let signed (x : Float) : Number := .float (if n.negative then -x else x)
    match writtenExponent exponent with
    | none => if m = 0 ∨ shrinks exponent then some (signed 0) else none
    | some e => (scale 8 (UInt64.ofNat m).toFloat (shift + e)).map signed

end Numeral

/-- Why a text does not read. -/
inductive Fault where
  /-- The text does not follow the grammar. -/
  | grammar
  /-- The text means something else than what was asked for. -/
  | meaning
  deriving DecidableEq, Repr

/-- Reads something from the front of lexemes. -/
abbrev Decoder (α : Type) := List Lexeme → Except Fault (α × List Lexeme)

/-- The number of lists and objects that may be inside each other, plus one. -/
def maxDepth : Nat := 128

mutual

/-- Reads a value. The bound limits the number of steps, the depth that of open lists and objects. -/
def readValue : (bound depth : Nat) → Decoder Value
  | 0, _, _ => .error .grammar
  | bound + 1, depth, lexemes =>
    match lexemes with
    | .null :: rest => .ok (.null, rest)
    | .bool b :: rest => .ok (.bool b, rest)
    | .number n :: rest =>
      match n.value with
      | some x => .ok (.number x, rest)
      | none => .error .grammar
    | .string (some s) :: rest => .ok (.string s, rest)
    | .openList :: rest =>
      if depth ≤ 1 then .error .grammar
      else
        match rest with
        | .closeList :: rest => .ok (.list [], rest)
        | rest => (readElements bound (depth - 1) rest).map fun (vs, rest) => (.list vs, rest)
    | .openObject :: rest =>
      if depth ≤ 1 then .error .grammar
      else
        match rest with
        | .closeObject :: rest => .ok (.object [], rest)
        | rest => (readMembers bound (depth - 1) rest).map fun (ms, rest) => (.object ms, rest)
    | _ => .error .grammar

/-- Reads the elements of a list, of which there is at least one, and its end. -/
def readElements : (bound depth : Nat) → Decoder (List Value)
  | 0, _, _ => .error .grammar
  | bound + 1, depth, lexemes =>
    match readValue bound depth lexemes with
    | .error e => .error e
    | .ok (v, .comma :: rest) =>
      (readElements bound depth rest).map fun (vs, rest) => (v :: vs, rest)
    | .ok (v, .closeList :: rest) => .ok ([v], rest)
    | .ok _ => .error .grammar

/-- Reads the members of an object, of which there is at least one, and its end. -/
def readMembers : (bound depth : Nat) → Decoder (List (String × Value))
  | 0, _, _ => .error .grammar
  | bound + 1, depth, lexemes =>
    match lexemes with
    | .string (some key) :: .colon :: rest =>
      match readValue bound depth rest with
      | .error e => .error e
      | .ok (v, .comma :: rest) =>
        (readMembers bound depth rest).map fun (ms, rest) => ((key, v) :: ms, rest)
      | .ok (v, .closeObject :: rest) => .ok ([(key, v)], rest)
      | .ok _ => .error .grammar
    | _ => .error .grammar

end

/-- The value that a whole text writes. -/
def parse (bytes : Bytes) : Except Fault Value :=
  let ls := lexemes bytes
  match readValue (ls.length + 1) maxDepth ls with
  | .error e => .error e
  | .ok (v, []) => .ok v
  | .ok _ => .error .grammar

/-- The text of a character in a string. -/
def escapeChar (c : Char) : List Char :=
  if c = '"' then ['\\', '"']
  else if c = '\\' then ['\\', '\\']
  else if c.toNat = 8 then ['\\', 'b']
  else if c.toNat = 9 then ['\\', 't']
  else if c.toNat = 10 then ['\\', 'n']
  else if c.toNat = 12 then ['\\', 'f']
  else if c.toNat = 13 then ['\\', 'r']
  else if c.toNat < 32 then
    ['\\', 'u', '0', '0', Hex.digit (c.toNat / 16), Hex.digit (c.toNat % 16)]
  else [c]

/-- The text of a string. -/
def quoted (s : String) : String :=
  "\"" ++ String.ofList (s.toList.flatMap escapeChar) ++ "\""

/-- The text of a positive decimal. It is positional if the first digit stands between five places
after the point and sixteen before it; else there is an exponent of at least two digits. -/
def decimalText (s : Decimal.Scientific) : String :=
  let ds := (toString s.digits).toList
  let place : Int := s.exponent + ds.length - 1
  if -5 ≤ place ∧ place ≤ 15 then
    if 0 ≤ s.exponent then
      String.ofList (ds ++ List.replicate s.exponent.toNat '0') ++ ".0"
    else if 0 ≤ place then
      String.ofList (ds.take (place.toNat + 1)) ++ "." ++ String.ofList (ds.drop (place.toNat + 1))
    else "0." ++ String.ofList (List.replicate ((-place).toNat - 1) '0' ++ ds)
  else
    let point := if ds.length = 1 then "" else "." ++ String.ofList (ds.drop 1)
    let e := toString place.natAbs
    String.ofList (ds.take 1) ++ point ++ "e" ++ (if place < 0 then "-" else "+")
      ++ (if e.length = 1 then "0" ++ e else e)

/-- The text of a number. -/
def Number.text : Number → String
  | natural n => toString n
  | negative n => "-" ++ toString n
  | float x =>
    let bits := x.toBits.toNat
    let sign := if bits / Nat.pow 2 63 = 1 then "-" else ""
    let magnitude := bits % Nat.pow 2 63
    sign ++ if magnitude = 0 then "0.0" else decimalText (Decimal.shortest magnitude)

/-- The entries by key, of which the last with one key counts. -/
def sortedByKey (entries : List (String × String)) : List (String × String) :=
  (entries.foldl (fun m (key, text) => m.insert key text) (∅ : SortedMap String String)).toList

mutual

/-- The compact text of a value. -/
def Value.text : Value → String
  | .null => "null"
  | .bool b => if b then "true" else "false"
  | .number n => n.text
  | .string s => quoted s
  | .list vs => "[" ++ String.intercalate "," (Value.texts vs) ++ "]"
  | .object ms =>
    let entries := (sortedByKey (Value.entries ms)).map fun (key, text) => quoted key ++ ":" ++ text
    "\x7b" ++ String.intercalate "," entries ++ "\x7d"

/-- The compact texts of values. -/
def Value.texts : List Value → List String
  | [] => []
  | v :: rest => v.text :: Value.texts rest

/-- The keys and the compact texts of the values of members. -/
def Value.entries : List (String × Value) → List (String × String)
  | [] => []
  | (key, v) :: rest => (key, v.text) :: Value.entries rest

end

end Json

end OffchainNames
