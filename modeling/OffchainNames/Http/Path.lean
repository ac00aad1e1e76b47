import OffchainNames.Namehash
import OffchainNames.Text.Utf8

/-!
# Paths

A path is split at its slashes. A pattern is a path in which a part that has a colon stands for any text
in its place. What stands there is then read with its percent marks resolved.
-/

namespace OffchainNames

namespace Http

/-- The path of a target: what stands in front of a query or a fragment. -/
def pathOf (target : String) : List Char := target.toList.takeWhile fun c => c != '?' && c != '#'

/-- The parts of a path. -/
def parts (path : List Char) : List (List Char) := splitAtEach '/' path

/-- The value of a hexadecimal digit. -/
def digit? (c : Char) : Option Nat :=
  let n := c.toNat
  if 48 ≤ n ∧ n ≤ 57 then some (n - 48)
  else if 97 ≤ n ∧ n ≤ 102 then some (n - 87)
  else if 65 ≤ n ∧ n ≤ 70 then some (n - 55)
  else none

/-- The bytes of a text with its percent marks resolved; a mark without two digits stands for itself. -/
def resolvePercent : List Char → Bytes
  | c :: a :: b :: rest =>
    match c == '%', digit? a, digit? b with
    | true, some high, some low => UInt8.ofNat (high * 16 + low) :: resolvePercent rest
    | _, _, _ => String.utf8EncodeChar c ++ resolvePercent (a :: b :: rest)
  | cs => cs.flatMap String.utf8EncodeChar

/-- What a part of a path matches: a text, or a text followed by anything. -/
structure Piece where
  start : List Char
  /-- Whether anything may follow. -/
  isOpen : Bool

/-- The piece that a part of a pattern stands for. -/
def Piece.ofPart (part : List Char) : Piece :=
  ⟨part.takeWhile (· != ':'), part.contains ':'⟩

/-- What follows the text of a piece in a part that matches it. -/
def Piece.match? (piece : Piece) (part : List Char) : Option (List (List Char)) :=
  if piece.isOpen then
    if piece.start.isPrefixOf part then some [part.drop piece.start.length] else none
  else if part = piece.start then some [] else none

/-- What stands in the open places of a path that matches pieces. -/
def matchPieces : List Piece → List (List Char) → Option (List (List Char))
  | [], [] => some []
  | piece :: pieces, part :: parts => do
    let here ← piece.match? part
    let there ← matchPieces pieces parts
    some (here ++ there)
  | _, _ => none

/-- What stands in the open places of a path that matches a pattern; a last place is not empty. -/
def matchPattern? (pattern path : List Char) : Option (List (List Char)) :=
  let pieces := (parts pattern).map Piece.ofPart
  match matchPieces pieces (parts path) with
  | none => none
  | some found =>
    let lastOpen := (pieces.getLast?.map Piece.isOpen).getD false
    if lastOpen && (found.getLast?.getD []).isEmpty then none else some found

/-- A path below a mount point. -/
def below (mount path : List Char) : List Char :=
  if mount.isEmpty || mount = ['/'] then path
  else if mount.getLast? = some '/' then mount ++ path.dropWhile (· == '/')
  else if path = ['/'] then mount
  else mount ++ path

end Http

end OffchainNames
