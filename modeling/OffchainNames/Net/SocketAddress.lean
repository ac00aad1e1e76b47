import OffchainNames.Numeral

/-!
# Addresses to listen on

A host address with a port. An address of four bytes is written in decimal with dots; one of eight
groups is written in hexadecimal with colons, in brackets, where one run of zero groups may be left out and
the last two groups may be written as four bytes. Reading takes every such form (`SocketAddress.parse?`);
writing leaves out the longest run of at least two zero groups, the first of several
(`SocketAddress.text`).
-/

namespace OffchainNames

namespace Net

/-- The value of a digit of a base. -/
def digitBelow? (base : Nat) (c : Char) : Option Nat := (Numeral.digit? c).filter (· < base)

/-- The values of the digits that characters start with, and what follows them. -/
def digits (base : Nat) : List Char → List Nat × List Char
  | [] => ([], [])
  | c :: rest =>
    match digitBelow? base c with
    | some d =>
      let (ds, after) := digits base rest
      (d :: ds, after)
    | none => ([], c :: rest)

/-- The number that digits write. -/
def ofDigits (base : Nat) (ds : List Nat) : Nat := ds.foldl (fun n d => n * base + d) 0

/-- Four bytes of an address. -/
structure Quad where
  a : Nat
  b : Nat
  c : Nat
  d : Nat
  deriving DecidableEq, Repr

namespace Quad

/-- Reads a byte of at most three digits without zeros in front. -/
def readByte (cs : List Char) : Option (Nat × List Char) :=
  match digits 10 cs with
  | ([d], rest) => some (d, rest)
  | (ds, rest) =>
    if ds = [] ∨ 3 < ds.length ∨ ds.head? = some 0 ∨ 255 < ofDigits 10 ds then none
    else some (ofDigits 10 ds, rest)

/-- Reads a byte after a dot. -/
def readNext : List Char → Option (Nat × List Char)
  | '.' :: rest => readByte rest
  | _ => none

/-- Reads four bytes. -/
def read (cs : List Char) : Option (Quad × List Char) := do
  let (a, cs) ← readByte cs
  let (b, cs) ← readNext cs
  let (c, cs) ← readNext cs
  let (d, cs) ← readNext cs
  some (⟨a, b, c, d⟩, cs)

/-- The text of four bytes. -/
def text (q : Quad) : String := ".".intercalate ([q.a, q.b, q.c, q.d].map toString)

end Quad

/-- Takes a colon in front of every group but the first. -/
def readColon : (first : Bool) → List Char → Option (List Char)
  | true, cs => some cs
  | false, ':' :: rest => some rest
  | false, _ => none

/-- Reads a group of at most four hexadecimal digits. -/
def readGroup (cs : List Char) : Option (Nat × List Char) :=
  match digits 16 cs with
  | (ds, rest) => if ds = [] ∨ 4 < ds.length then none else some (ofDigits 16 ds, rest)

/-- Reads at most so many groups; four bytes make the last two. Says whether they did. -/
def readGroups : (left : Nat) → (first : Bool) → List Char → List Nat × Bool × List Char
  | 0, _, cs => ([], false, cs)
  | left + 1, first, cs =>
    let quad := if left = 0 then none else (readColon first cs).bind Quad.read
    match quad with
    | some (q, rest) => ([q.a * 256 + q.b, q.c * 256 + q.d], true, rest)
    | none =>
      match (readColon first cs).bind readGroup with
      | some (group, rest) =>
        let (groups, quad, rest) := readGroups left false rest
        (group :: groups, quad, rest)
      | none => ([], false, cs)

/-- Reads eight groups. -/
def readEight (cs : List Char) : Option (List Nat × List Char) :=
  let (head, quad, rest) := readGroups 8 true cs
  if head.length = 8 then some (head, rest)
  else if quad then none
  else
    match rest with
    | ':' :: ':' :: rest =>
      let (tail, _, rest) := readGroups (7 - head.length) true rest
      some (head ++ List.replicate (8 - head.length - tail.length) 0 ++ tail, rest)
    | _ => none

/-- The number of zeros that a list starts with. -/
def zerosAhead (groups : List Nat) : Nat := (groups.takeWhile (· == 0)).length

/-- Where the first of the longest runs of zeros starts, and its length. -/
def longestZeros : (start : Nat) → List Nat → Nat × Nat
  | _, [] => (0, 0)
  | start, g :: rest =>
    let here := zerosAhead (g :: rest)
    let later := longestZeros (start + 1) rest
    if later.2 ≤ here then (start, here) else later

/-- The text of a group. -/
def groupText (g : Nat) : String := String.ofList (Nat.toDigits 16 g)

/-- The text of groups with colons between them. -/
def groupsText (groups : List Nat) : String := ":".intercalate (groups.map groupText)

/-- The text of eight groups. -/
def eightText : List Nat → String
  | [0, 0, 0, 0, 0, 0xFFFF, g, h] =>
    "::ffff:" ++ (Quad.text ⟨g / 256, g % 256, h / 256, h % 256⟩)
  | groups =>
    let (start, length) := longestZeros 0 groups
    if 1 < length then
      groupsText (groups.take start) ++ "::" ++ groupsText (groups.drop (start + length))
    else groupsText groups

/-- An address to listen on. -/
inductive SocketAddress where
  | four (host : Quad) (port : Nat)
  /-- Eight groups, the number of the zone that they belong to, and a port. -/
  | eight (host : List Nat) (zone : Nat) (port : Nat)
  deriving DecidableEq, Repr

namespace SocketAddress

/-- Reads a number that must not exceed a limit. -/
def readNumber (limit : Nat) (cs : List Char) : Option (Nat × List Char) :=
  match digits 10 cs with
  | (ds, rest) => if ds = [] ∨ limit < ofDigits 10 ds then none else some (ofDigits 10 ds, rest)

/-- Reads a port, which must end the text. -/
def readPort : List Char → Option Nat
  | ':' :: rest =>
    match readNumber 0xFFFF rest with
    | some (port, []) => some port
    | _ => none
  | _ => none

/-- Reads the number of a zone; without one it is zero. -/
def readZone : List Char → Option (Nat × List Char)
  | '%' :: rest => readNumber 0xFFFFFFFF rest
  | cs => some (0, cs)

/-- The address that a text writes. -/
def parse? (text : String) : Option SocketAddress :=
  match text.toList with
  | '[' :: rest => do
    let (host, rest) ← readEight rest
    let (zone, rest) ← readZone rest
    match rest with
    | ']' :: rest => (readPort rest).map (eight host zone)
    | _ => none
  | cs => do
    let (host, rest) ← Quad.read cs
    (readPort rest).map (four host)

/-- The text of an address. -/
def text : SocketAddress → String
  | four host port => host.text ++ ":" ++ toString port
  | eight host zone port =>
    let zone := if zone = 0 then "" else "%" ++ toString zone
    "[" ++ eightText host ++ zone ++ "]:" ++ toString port

end SocketAddress

end Net

end OffchainNames
