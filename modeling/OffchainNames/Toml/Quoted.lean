import OffchainNames.Toml.Lexeme

/-!
# Writing TOML

A text is written in the way that needs the fewest escapes: between double quotes if it holds neither
quotes of that kind nor backslashes, between single ones if it holds none of those, else over several lines between
three quotes; a control character other than a tab needs double quotes and an escape in any case. A list of
more than one element has a line for each.
-/

namespace OffchainNames

namespace Toml

/-- The length of the longest run of a character. -/
def longestRun (c : Char) : (current : Nat) → List Char → Nat
  | current, [] => current
  | current, d :: rest =>
    if d = c then longestRun c (current + 1) rest else max current (longestRun c 0 rest)

/-- A control character that is neither a tab nor the end of a line. -/
def isControl (c : Char) : Bool := !isPlain c && c != '\n'

namespace Style

/-- Whether a text can be written in a style without an escape. -/
def fits (style : Style) (cs : List Char) : Bool :=
  !cs.any isControl
    && decide (longestRun style.quote 0 cs ≤ if style.long then 2 else 0)
    && (style.long || !cs.contains '\n')
    && !(style.escapes && cs.contains '\\')

/-- The style in which a text is written. -/
def choose (cs : List Char) : Style :=
  let styles : List Style := [⟨'"', false⟩, ⟨'\'', false⟩, ⟨'"', true⟩, ⟨'\'', true⟩]
  (styles.find? fun style => style.fits cs).getD ⟨'"', cs.contains '\n'⟩

end Style

/-- A number of four hexadecimal digits in capitals. -/
def fourDigits (n : Nat) : List Char :=
  [n / 4096 % 16, n / 256 % 16, n / 16 % 16, n % 16].flatMap fun d =>
    (Nat.toDigits 16 d).map Char.toUpper

/-- A character that is written with an escape. -/
def escape (c : Char) : List Char :=
  match c with
  | '\x08' => ['\\', 'b']
  | '\t' => ['\\', 't']
  | '\n' => ['\\', 'n']
  | '\x0c' => ['\\', 'f']
  | '\r' => ['\\', 'r']
  | '"' => ['\\', '"']
  | '\\' => ['\\', '\\']
  | c => if isControl c then '\\' :: 'u' :: fourDigits c.toNat else [c]

/-- The characters of a text between double quotes, after the given number of double quotes in a row: of
those as many are written as they are as a text may hold. -/
def escapeAll (long : Bool) : (quotes : Nat) → List Char → List Char
  | _, [] => []
  | quotes, c :: rest =>
    if c = '"' then
      if quotes < (if long then 2 else 0) then '"' :: escapeAll long (quotes + 1) rest
      else escape '"' ++ escapeAll long 0 rest
    else if c = '\n' ∧ long then c :: escapeAll long 0 rest
    else escape c ++ escapeAll long 0 rest

/-- A text as it is written. -/
def quoted (text : String) : String :=
  let cs := text.toList
  let style := Style.choose cs
  let marks := String.ofList (List.replicate (if style.long then 3 else 1) style.quote)
  let start := if style.long then "\n" else ""
  marks ++ start ++ String.ofList (if style.escapes then escapeAll style.long 0 cs else cs) ++ marks

/-- Texts as a list of them is written. -/
def quotedList (texts : List String) : String :=
  match texts.map quoted with
  | [] => "[]"
  | [one] => "[" ++ one ++ "]"
  | items => "[\n" ++ String.join (items.map fun item => "    " ++ item ++ ",\n") ++ "]"

/-- A line with a value, which is written already, under a key. -/
def entryLine (key value : String) : String := key ++ " = " ++ value ++ "\n"

/-- A table with its header. -/
def headed (name : String) (lines : List String) : String :=
  "[" ++ name ++ "]\n" ++ String.join lines

/-- Tables with an empty line between them. -/
def document (sections : List String) : String := "\n".intercalate sections

end Toml

end OffchainNames
