import OffchainNames.Abi.Value

/-!
# Written types

A type is written as a name or as a list of types in parentheses, followed by list marks such as `[]`
and `[3]`. Any name can be written; which names stand for a type is decided when the written type is
resolved. The grammar is given by small readers: a reader takes characters from the front and returns
what it read with the characters that are left, or nothing.
-/

namespace OffchainNames

namespace Abi

/-- A reader of characters. -/
abbrev Reader (α : Type) := List Char → Option (α × List Char)

namespace Reader

/-- Spaces and tabs. -/
def isGap (c : Char) : Bool := c == ' ' || c == '\t'

/-- The characters after the spaces and tabs that they start with. -/
def skipGaps (cs : List Char) : List Char := cs.dropWhile isGap

/-- The characters after a given text, if they start with it. -/
def literal? : (text cs : List Char) → Option (List Char)
  | [], cs => some cs
  | _ :: _, [] => none
  | t :: text, c :: cs => if t = c then literal? text cs else none

/-- A character that may start an identifier. -/
def startsIdentifier (c : Char) : Bool := c.isAlpha || c == '_' || c == '$'

/-- A character that may go on an identifier. -/
def continuesIdentifier (c : Char) : Bool := c.isAlphanum || c == '_' || c == '$'

/-- Reads an identifier. -/
def identifier : Reader String
  | [] => none
  | c :: cs =>
    if startsIdentifier c then
      some (String.ofList (c :: cs.takeWhile continuesIdentifier), cs.dropWhile continuesIdentifier)
    else none

/-- Reads the elements of a list, at most as many as the bound says. A comma that no element follows
is left. -/
def elements (element : Reader α) : (bound : Nat) → Reader (List α)
  | 0, _ => none
  | bound + 1, cs =>
    match element cs with
    | none => none
    | some (a, ',' :: rest) =>
      match elements element bound (skipGaps rest) with
      | some (as, rest) => some (a :: as, rest)
      | none => some ([a], ',' :: rest)
    | some (a, rest) => some ([a], rest)

/-- Reads a list in parentheses: elements with a comma right after each but the last, which may have
one too. -/
def list (element : Reader α) : Reader (List α)
  | '(' :: cs =>
    match skipGaps cs with
    | ')' :: rest => some ([], rest)
    | cs =>
      match elements element (cs.length + 1) cs with
      | none => none
      | some (as, rest) =>
        let rest := match rest with
          | ',' :: rest => rest
          | rest => rest
        match skipGaps rest with
        | ')' :: rest => some (as, rest)
        | _ => none
  | _ => none

end Reader

open Reader

/-- A written type. -/
inductive Specifier where
  | named (name : String) (marks : List (Option Nat))
  | tuple (components : List Specifier) (marks : List (Option Nat))
  deriving Repr, Inhabited

namespace Specifier

/-- The greatest length of a list of fixed length. -/
def maxLength : Nat := UInt64.size - 1

/-- Reads a list mark: brackets around nothing or a number between one and `maxLength`. -/
def mark : Reader (Option Nat)
  | '[' :: ']' :: rest => some (none, rest)
  | '[' :: cs =>
    let digits := cs.takeWhile Char.isDigit
    match cs.dropWhile Char.isDigit with
    | ']' :: rest =>
      let n := digits.foldl (fun n d => n * 10 + (d.toNat - 48)) 0
      if 0 < n ∧ n ≤ maxLength then some (some n, rest) else none
    | _ => none
  | _ => none

/-- Reads list marks, at most as many as the bound says. -/
def marks : (bound : Nat) → List Char → List (Option Nat) × List Char
  | 0, cs => ([], cs)
  | bound + 1, cs =>
    match mark cs with
    | none => ([], cs)
    | some (m, rest) =>
      let (ms, rest) := marks bound rest
      (m :: ms, rest)

/-- Reads the name of a type. Widths left out are 256, and a qualified name stands for an enumeration,
which is a `uint8`. -/
def root : Reader String := fun cs =>
  match identifier cs with
  | none => none
  | some (_, '.' :: rest) => (identifier rest).map fun (_, rest) => ("uint8", rest)
  | some (name, rest) =>
    some (if name = "uint" then "uint256" else if name = "int" then "int256" else name, rest)

/-- Reads a type with at most the given number of lists inside each other. -/
def reader : (depth : Nat) → Reader Specifier
  | depth, cs =>
    let opened := match literal? ['t', 'u', 'p', 'l', 'e', '('] cs with
      | some rest => '(' :: rest
      | none => cs
    match opened with
    | '(' :: _ =>
      match depth with
      | 0 => none
      | depth + 1 =>
        (list (reader depth) opened).map fun (components, rest) =>
          let (ms, rest) := marks rest.length rest
          (.tuple components ms, rest)
    | _ =>
      (root cs).map fun (name, rest) =>
        let (ms, rest) := marks rest.length rest
        (.named name ms, rest)

/-- The number of lists that may be inside each other. -/
def maxDepth : Nat := 80

/-- The type that a whole text writes. -/
def parse? (text : String) : Option Specifier :=
  match reader maxDepth text.toList with
  | some (specifier, []) => some specifier
  | _ => none

/-- The text of list marks. -/
def marksText (marks : List (Option Nat)) : String :=
  String.join (marks.map fun
    | none => "[]"
    | some n => "[" ++ toString n ++ "]")

end Specifier

/-- Why a written type stands for none. -/
inductive Unresolved where
  | unknown (name : String)
  /-- No type of the family has the width in the name. -/
  | badSize (name : String)
  | unreadable (text : String)
  deriving DecidableEq, Repr

/-- The wording of an error. -/
def Unresolved.message : Unresolved → String
  | .unknown name => "invalid type string: " ++ name
  | .badSize name => "invalid size for type: " ++ name
  | .unreadable text => "parser error:\n" ++ text

namespace Ty

/-- The number that a name has after the given start, if that is a number below `2 ^ 64`. -/
def widthAfter? (start name : List Char) : Option Nat :=
  match literal? start name with
  | some (d :: digits) =>
    if (d :: digits).all Char.isDigit then
      let n := (d :: digits).foldl (fun n d => n * 10 + (d.toNat - 48)) 0
      if n < UInt64.size then some n else none
    else none
  | _ => none

/-- The type with a name. -/
def ofName (name : String) : Except Unresolved Ty :=
  let cs := name.toList
  let sized (ty : Ty) (ok : Bool) : Except Unresolved Ty :=
    if ok then .ok ty else .error (.badSize name)
  if name = "address" then .ok .address
  else if name = "function" then .ok .function
  else if name = "bool" then .ok .bool
  else if name = "string" then .ok .string
  else if name = "bytes" then .ok .bytes
  else if name = "uint" then .ok (.uint 256)
  else if name = "int" then .ok (.int 256)
  else match widthAfter? ['b', 'y', 't', 'e', 's'] cs with
  | some n => sized (.fixedBytes n) (n != 0 && n ≤ 32)
  | none =>
    match widthAfter? ['u', 'i', 'n', 't'] cs with
    | some n => sized (.uint n) (n != 0 && n ≤ 256 && n % 8 == 0)
    | none =>
      match widthAfter? ['i', 'n', 't'] cs with
      | some n => sized (.int n) (n != 0 && n ≤ 256 && n % 8 == 0)
      | none => .error (.unknown name)

/-- The type of lists that list marks make of a type. -/
def marked (ty : Ty) (marks : List (Option Nat)) : Ty :=
  marks.foldl (fun ty mark => match mark with
    | none => .array ty
    | some n => .fixedArray ty n) ty

end Ty

mutual

/-- The type that a written type stands for. -/
def Specifier.resolve : Specifier → Except Unresolved Ty
  | .named name marks => (Ty.ofName name).map (Ty.marked · marks)
  | .tuple components marks => do
    let types ← Specifier.resolveAll components
    pure (Ty.marked (.tuple types) marks)

/-- The types that written types stand for. -/
def Specifier.resolveAll : List Specifier → Except Unresolved (List Ty)
  | [] => pure []
  | specifier :: rest => do
    let ty ← specifier.resolve
    let types ← Specifier.resolveAll rest
    pure (ty :: types)

end

end Abi

end OffchainNames
