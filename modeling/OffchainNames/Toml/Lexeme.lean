import OffchainNames.Net.SocketAddress

/-!
# Lexemes of TOML

Each reader takes a lexeme from the front of the characters, if there is one, and returns what follows
it. Blanks are spaces and tabs; a line ends with a line feed, which may follow a carriage return, or with
the text. Texts are written in four ways: between double quotes with escapes, or between single quotes
without, and either of them with three quotes over several lines.
-/

namespace OffchainNames

namespace Toml

/-- A reader of something at the front of characters. -/
abbrev Reader (α : Type) := List Char → Option (α × List Char)

/-- A space or a tab. -/
def isBlank (c : Char) : Bool := c == ' ' || c == '\t'

/-- What follows the blanks. -/
def skipBlanks (cs : List Char) : List Char := cs.dropWhile isBlank

/-- A character that may stand in a comment or a text as it is. -/
def isPlain (c : Char) : Bool := c == '\t' || (' ' ≤ c && c.toNat != 0x7F)

/-- A character of a key without quotes. -/
def isBare (c : Char) : Bool := c.isAlphanum || c == '_' || c == '-'

/-- Takes the end of a line. -/
def newline? : List Char → Option (List Char)
  | '\n' :: rest => some rest
  | '\r' :: '\n' :: rest => some rest
  | _ => none

/-- Whether a line ends here. -/
def atNewline (cs : List Char) : Bool := (newline? cs).isSome

/-- Takes blanks, a comment if there is one, and the end of the line or the text. -/
def lineEnd? (cs : List Char) : Option (List Char) :=
  let cs := skipBlanks cs
  let cs := if cs.head? = some '#' then cs.dropWhile isPlain else cs
  if cs = [] then some [] else newline? cs

/-- Takes blanks, comments and ends of lines. -/
def skipLines : (inComment : Bool) → List Char → List Char
  | _, [] => []
  | inComment, c :: rest =>
    if c = '\n' ∨ (c = '\r' ∧ rest.head? = some '\n') then skipLines false rest
    else if inComment then if isPlain c then skipLines true rest else c :: rest
    else if isBlank c then skipLines false rest
    else if c = '#' then skipLines true rest
    else c :: rest

/-- Takes blanks and ends of lines. -/
def skipGaps : List Char → List Char
  | [] => []
  | c :: rest =>
    if isBlank c ∨ c = '\n' ∨ (c = '\r' ∧ rest.head? = some '\n') then skipGaps rest else c :: rest

/-- The character that a letter after a backslash stands for. -/
def escaped? (c : Char) : Option Char :=
  match c with
  | 'b' => some '\x08'
  | 't' => some '\t'
  | 'n' => some '\n'
  | 'f' => some '\x0c'
  | 'r' => some '\r'
  | '"' => some '"'
  | '\\' => some '\\'
  | _ => none

/-- The character whose number hexadecimal digits write. -/
def scalar? (cs : List Char) : Option Char :=
  match Net.digits 16 cs with
  | (ds, []) =>
    let n := Net.ofDigits 16 ds
    if h : n.isValidChar then some (Char.ofNatAux n h) else none
  | _ => none

/-- Takes what follows a backslash. -/
def escape? : List Char → Option (Char × List Char)
  | [] => none
  | 'u' :: rest => if rest.length < 4 then none else (scalar? (rest.take 4)).map (·, rest.drop 4)
  | 'U' :: rest => if rest.length < 8 then none else (scalar? (rest.take 8)).map (·, rest.drop 8)
  | c :: rest => (escaped? c).map (·, rest)

/-- What stands at the front of a text between quotes. -/
inductive Front where
  /-- A character, which may be written with an escape. -/
  | char (c : Char) (rest : List Char)
  /-- Nothing that counts. -/
  | gap (rest : List Char)
  /-- Quotes that end the text, after those that belong to it. -/
  | close (quotes : Nat) (rest : List Char)
  | bad

/-- How texts are written. -/
structure Style where
  quote : Char
  long : Bool
  deriving DecidableEq, Repr

namespace Style

/-- Whether a backslash starts an escape. -/
def escapes (style : Style) : Bool := style.quote == '"'

/-- What quotes at the front are: a text between three ends with the last three of up to five. -/
def quotes (style : Style) (cs : List Char) : Front :=
  let n := (cs.takeWhile (· == style.quote)).length
  if !style.long then .close 0 (cs.drop 1)
  else if n < 3 then .char style.quote (cs.drop 1)
  else
    let inside := min (n - 3) 2
    .close inside (cs.drop (inside + 3))

/-- What a backslash at the front starts: at the end of a line it takes all blanks and ends of lines
that follow. -/
def afterBackslash (style : Style) (rest : List Char) : Front :=
  if style.long ∧ atNewline (skipBlanks rest) then
    .gap (skipGaps rest)
  else
    match escape? rest with
    | some (c, rest) => .char c rest
    | none => .bad

/-- What stands at the front. -/
def front (style : Style) : List Char → Front
  | [] => .bad
  | c :: rest =>
    if c = style.quote then style.quotes (c :: rest)
    else if c = '\\' ∧ style.escapes then style.afterBackslash rest
    else if isPlain c then .char c rest
    else if style.long ∧ c = '\n' then .char '\n' rest
    else if style.long ∧ c = '\r' ∧ rest.head? = some '\n' then .gap rest
    else .bad

/-- Takes the rest of a text and its end; the bound limits the number of steps. -/
def readRest (style : Style) : (bound : Nat) → Reader (List Char)
  | 0, _ => none
  | bound + 1, cs =>
    match style.front cs with
    | .bad => none
    | .close quotes rest => some (List.replicate quotes style.quote, rest)
    | .gap rest => readRest style bound rest
    | .char c rest => (readRest style bound rest).map fun (text, rest) => (c :: text, rest)

/-- Takes a text after its opening quotes. -/
def read (style : Style) : Reader String := fun cs =>
  let cs := if style.long then (newline? cs).getD cs else cs
  (style.readRest (cs.length + 1) cs).map fun (text, rest) => (String.ofList text, rest)

end Style

/-- Takes a text that is written in any way. -/
def readText : Reader String
  | '"' :: '"' :: '"' :: rest => Style.read ⟨'"', true⟩ rest
  | '\'' :: '\'' :: '\'' :: rest => Style.read ⟨'\'', true⟩ rest
  | '"' :: rest => Style.read ⟨'"', false⟩ rest
  | '\'' :: rest => Style.read ⟨'\'', false⟩ rest
  | _ => none

/-- Takes a part of a key. -/
def readKeyPart : Reader String
  | '"' :: rest => Style.read ⟨'"', false⟩ rest
  | '\'' :: rest => Style.read ⟨'\'', false⟩ rest
  | cs =>
    let part := cs.takeWhile isBare
    if part = [] then none else some (String.ofList part, cs.dropWhile isBare)

/-- Takes a key: at most so many parts with dots between them, and blanks around each. -/
def readKey : (parts : Nat) → Reader (List String)
  | 0, _ => none
  | parts + 1, cs => do
    let (part, rest) ← readKeyPart (skipBlanks cs)
    match skipBlanks rest with
    | '.' :: rest => (readKey parts rest).map fun (more, rest) => (part :: more, rest)
    | rest => some ([part], rest)

end Toml

end OffchainNames
