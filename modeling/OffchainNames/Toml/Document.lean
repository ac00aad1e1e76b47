import OffchainNames.Toml.Number

/-!
# Documents of TOML

A document is a list of lines: a header of a table, a header of an element of a list of tables, or a
value under a key. Reading takes the lines (`readLines`), and building puts each into the table at which
the last header left off (`build`). A key stands once in its table, a table has one header, and
a closed table takes no more.
-/

namespace OffchainNames

namespace Toml

/-- How many lists and tables of one line may be inside each other, and how many parts a key has, at
most. -/
def maxDepth : Nat := 79

/-- Works on the last element of a list of tables. -/
def onLast (change : Entries → Option Entries) (items : List Value) : Option Value :=
  match items.reverse with
  | .table form sub :: before =>
    (change sub).map fun sub => .list true (before.reverse ++ [.table form sub])
  | _ => none

/-- Puts a value under a dotted key into a table. The table that takes the value, if it is not the one
to start with, is one that only dotted keys go through; on the way there may be any but closed ones and
those with a header. -/
def assign (key : List String) (value : Value) (entries : Entries) : Option Entries :=
  match key with
  | [] => none
  | [last] => entries.alter last fun
    | none => some value
    | some _ => none
  | part :: more => entries.alter part fun
    | none => (assign more value []).map (.table .dotted)
    | some (.table .dotted sub) => (assign more value sub).map (.table .dotted)
    | some (.table .implied sub) =>
      if more.length = 1 then none else (assign more value sub).map (.table .implied)
    | some (.list true items) => if more.length = 1 then none else onLast (assign more value) items
    | some _ => none

/-- Takes pairs of a key and a value with commas between them, and the brace that ends them. -/
def readPairs (item : Reader Value) : (bound : Nat) → Entries → Reader Entries
  | 0, _, _ => none
  | bound + 1, entries, cs => do
    let (key, rest) ← readKey maxDepth cs
    let rest ← readChar '=' rest
    let (value, rest) ← item (skipBlanks rest)
    let entries ← assign key value entries
    match skipBlanks rest with
    | ',' :: rest => readPairs item bound entries rest
    | '}' :: rest => some (entries, rest)
    | _ => none

/-- Takes values with commas between them, and the bracket that ends them. -/
def readItems (item : Reader Value) : (bound : Nat) → Reader (List Value)
  | 0, _ => none
  | bound + 1, cs =>
    match skipLines false cs with
    | ']' :: rest => some ([], rest)
    | cs => do
      let (value, rest) ← item cs
      match skipLines false rest with
      | ',' :: rest => (readItems item bound rest).map fun (values, rest) => (value :: values, rest)
      | ']' :: rest => some ([value], rest)
      | _ => none

/-- Takes a value, with lists and tables of one line at most so deep inside each other. -/
def readValue : (depth : Nat) → Reader Value
  | depth, cs =>
    match cs with
    | '[' :: rest =>
      match depth with
      | 0 => none
      | depth + 1 =>
        (readItems (readValue depth) (rest.length + 1) rest).map fun (vs, rest) =>
          (.list false vs, rest)
    | '{' :: rest =>
      match depth with
      | 0 => none
      | depth + 1 =>
        match skipBlanks rest with
        | '}' :: rest => some (.table .inline [], rest)
        | rest =>
          (readPairs (readValue depth) (rest.length + 1) [] rest).map fun (entries, rest) =>
            (.table .inline entries, rest)
    | 't' :: 'r' :: 'u' :: 'e' :: rest => some (.bool true, rest)
    | 'f' :: 'a' :: 'l' :: 's' :: 'e' :: rest => some (.bool false, rest)
    | c :: rest =>
      if c = '"' ∨ c = '\'' then (readText (c :: rest)).map fun (s, rest) => (.text s, rest)
      else readScalar (c :: rest)
    | [] => none

/-- A line that says something. -/
inductive Line where
  | table (path : List String)
  | element (path : List String)
  | entry (key : List String) (value : Value)
  deriving Repr

/-- Takes a header after its first bracket. -/
def readHeader : Reader Line
  | '[' :: rest => do
    let (path, rest) ← readKey maxDepth rest
    match rest with
    | ']' :: ']' :: rest => some (.element path, rest)
    | _ => none
  | cs => do
    let (path, rest) ← readKey maxDepth cs
    match rest with
    | ']' :: rest => some (.table path, rest)
    | _ => none

/-- Takes a value under a key. -/
def readEntry : Reader Line := fun cs => do
  let (key, rest) ← readKey maxDepth cs
  let rest ← readChar '=' rest
  let (value, rest) ← readValue maxDepth (skipBlanks rest)
  some (.entry key value, rest)

/-- Reads the lines of a document; the bound limits their number. -/
def readLines : (bound : Nat) → List Char → Option (List Line)
  | 0, _ => none
  | bound + 1, cs =>
    match skipBlanks cs with
    | [] => some []
    | c :: rest =>
      if c = '#' ∨ c = '\n' ∨ c = '\r' then do readLines bound (← lineEnd? (c :: rest))
      else do
        let (line, rest) ← if c = '[' then readHeader rest else readEntry (c :: rest)
        let rest ← lineEnd? rest
        let lines ← readLines bound rest
        some (line :: lines)

/-- Works on the table at a path, which leads through the last elements of lists of tables; tables that
are missing on the way are put there. -/
def within (change : Entries → Option Entries) : (path : List String) → Entries → Option Entries
  | [], entries => change entries
  | part :: more, entries => entries.alter part fun
    | none => (within change more []).map (.table .implied)
    | some (.table .inline _) => none
    | some (.table form sub) => (within change more sub).map (.table form)
    | some (.list true items) => onLast (within change more) items
    | some _ => none

/-- Puts a table with a header into the table above it. -/
def openTable (name : String) (entries : Entries) : Option Entries :=
  entries.alter name fun
    | none => some (.table .header [])
    | some (.table .implied sub) => some (.table .header sub)
    | some _ => none

/-- Adds an element to a list of tables. -/
def openElement (name : String) (entries : Entries) : Option Entries :=
  entries.alter name fun
    | none => some (.list true [.table .header []])
    | some (.list true items) => some (.list true (items ++ [.table .header []]))
    | some _ => none

/-- Builds a table from lines, of which the entries go into the table at a path. -/
def build : (path : List String) → List Line → Entries → Option Entries
  | _, [], entries => some entries
  | path, line :: rest, entries =>
    match line with
    | .entry key value => do build path rest (← within (assign key value) path entries)
    | .table path => do
      build path rest (← within (openTable (path.getLast?.getD "")) path.dropLast entries)
    | .element path => do
      build path rest (← within (openElement (path.getLast?.getD "")) path.dropLast entries)

/-- The table that a text writes; a mark of the byte order in front counts for nothing. -/
def parse? (text : String) : Option Entries := do
  let cs := if text.toList.head? = some '\uFEFF' then text.toList.drop 1 else text.toList
  let lines ← readLines (cs.length + 1) cs
  build [] lines []

end Toml

end OffchainNames
