import OffchainNames.Namehash
import OffchainNames.Net.SocketAddress
import OffchainNames.Http.Path
import OffchainNames.Text.Utf8

/-!
# Web addresses

Whether a text is a web address, and of which scheme. Of an address with a host the host and the port
are checked; what stands after them is taken as it is. A host in brackets has eight groups, one whose
last part is a number has four bytes, which may be written in several bases and in fewer parts, and any
other host is a name.
-/

namespace OffchainNames

namespace Net

namespace Url

/-- Why a text is no web address. -/
inductive Error where
  | noScheme
  | emptyHost
  /-- The port is no number, or too large. -/
  | invalidPort
  /-- A host that ends in a number is no address of four bytes. -/
  | invalidQuad
  /-- A host in brackets is no address of eight groups. -/
  | invalidEight
  /-- The host has a character that no name of an ordinary scheme has. -/
  | invalidName
  /-- The host has a character that no name has. -/
  | invalidCharacter
  deriving DecidableEq, Repr

/-- The wording of an error. -/
def Error.message : Error → String
  | .noScheme => "relative URL without a base"
  | .emptyHost => "empty host"
  | .invalidPort => "invalid port number"
  | .invalidQuad => "invalid IPv4 address"
  | .invalidEight => "invalid IPv6 address"
  | .invalidName => "invalid international domain name"
  | .invalidCharacter => "invalid domain character"

/-- A letter of the Latin alphabet in either case. -/
def isLetter (c : Char) : Bool := ('a' ≤ c && c ≤ 'z') || ('A' ≤ c && c ≤ 'Z')

/-- A character of a scheme after its first one. -/
def isSchemeChar (c : Char) : Bool :=
  isLetter c || ('0' ≤ c && c ≤ '9') || c == '+' || c == '-' || c == '.'

/-- A character that is dropped wherever it stands. -/
def isDropped (c : Char) : Bool := c == '\t' || c == '\n' || c == '\r'

/-- A character that is dropped at either end. -/
def isPadding (c : Char) : Bool := c ≤ ' '

/-- The characters that count. -/
def trim (text : String) : List Char :=
  let cs := text.toList.dropWhile isPadding
  (cs.reverse.dropWhile isPadding).reverse.filter fun c => !isDropped c

/-- The scheme and what follows its colon. -/
def splitScheme? (cs : List Char) : Option (String × List Char) :=
  match cs.takeWhile isSchemeChar, cs.dropWhile isSchemeChar with
  | c :: scheme, ':' :: rest =>
    if isLetter c then some (String.ofList ((c :: scheme).map Char.toLower), rest) else none
  | _, _ => none

/-- The schemes whose addresses have a host. -/
def ordinarySchemes : List String := ["http", "https", "ws", "wss", "ftp"]

/-- A character that ends the host and the port. -/
def endsAuthority (ordinary : Bool) (c : Char) : Bool :=
  c == '/' || c == '?' || c == '#' || (ordinary && c == '\\')

/-- Takes off the user and the password, which end at the last at sign. -/
def dropUser (authority : List Char) : List Char :=
  (splitAtEach '@' authority).getLast?.getD authority

/-- Splits a host from what follows it: a colon outside of brackets ends it. -/
def splitHost : (inside : Bool) → List Char → List Char × List Char
  | _, [] => ([], [])
  | inside, c :: rest =>
    if c = ':' ∧ !inside then ([], c :: rest)
    else
      let (host, after) := splitHost (c = '[' ∨ (inside ∧ c ≠ ']')) rest
      (c :: host, after)

/-- The value of a number in base ten, eight after a zero, or sixteen after a zero and an x. -/
def number? : List Char → Option Nat
  | [] => none
  | '0' :: 'x' :: rest => ofBase 16 rest
  | '0' :: 'X' :: rest => ofBase 16 rest
  | '0' :: d :: rest => ofBase 8 (d :: rest)
  | cs => ofBase 10 cs
where
  /-- The value of digits of a base. -/
  ofBase (base : Nat) (cs : List Char) : Option Nat :=
    match digits base cs with
    | (ds, []) => some (ofDigits base ds)
    | _ => none

/-- The parts of a host between dots; a dot at the end counts for nothing. -/
def hostParts (host : List Char) : List (List Char) :=
  let parts := splitAtEach '.' host
  if 1 < parts.length ∧ parts.getLast? = some [] then parts.dropLast else parts

/-- Whether the last part of a host is a number. -/
def endsInNumber (host : List Char) : Bool :=
  match (hostParts host).getLast? with
  | some part =>
    (!part.isEmpty && part.all fun c => (digitBelow? 10 c).isSome) || (number? part).isSome
  | none => false

/-- Whether numbers make four bytes: each but the last is a byte, and the last fills the rest. -/
def fitsQuad (ns : List Nat) : Bool :=
  match ns.reverse with
  | last :: before => before.all (· ≤ 255) && decide (last < Nat.pow 256 (4 - before.length))
  | [] => false

/-- Whether a host is an address of four bytes. -/
def isQuad (host : List Char) : Bool :=
  let parts := hostParts host
  match parts.mapM number? with
  | some ns => parts.length ≤ 4 && fitsQuad ns
  | none => false

/-- A character that no host has. -/
def isForbidden (c : Char) : Bool := c.toNat == 0 || "\t\n\r #/:<>?@[\\]^|".toList.contains c

/-- A character that no name of an ordinary scheme has. -/
def isForbiddenInName (c : Char) : Bool :=
  isForbidden c || c < ' ' || c == '%' || c.toNat == 0x7F || c == Utf8.replacement

/-- Checks a host in brackets. -/
def checkEight (host : List Char) : Except Error Unit :=
  match host.getLast?, readEight (host.dropLast.drop 1) with
  | some ']', some (_, []) => .ok ()
  | _, _ => .error .invalidEight

/-- Checks the host of an address. -/
def checkHost (ordinary : Bool) (host : List Char) : Except Error Unit :=
  if ordinary ∧ host = [] then .error .emptyHost
  else if host.head? = some '[' then checkEight host
  else if ordinary then
    let name := (Utf8.decodeChars (Http.resolvePercent host)).map Char.toLower
    if name.any isForbiddenInName then .error .invalidName
    else if endsInNumber name ∧ !isQuad name then .error .invalidQuad
    else .ok ()
  else if host.any isForbidden then .error .invalidCharacter
  else .ok ()

/-- Checks what follows a host. -/
def checkPort (host : List Char) : List Char → Except Error Unit
  | [] => .ok ()
  | _ :: rest =>
    if host = [] then .error .emptyHost
    else
      match digits 10 rest with
      | (ds, []) => if 0xFFFF < ofDigits 10 ds then .error .invalidPort else .ok ()
      | _ => .error .invalidPort

/-- Checks user, host and port. -/
def checkAuthority (ordinary : Bool) (cs : List Char) : Except Error Unit := do
  let rest := dropUser (cs.takeWhile fun c => !endsAuthority ordinary c)
  let (host, after) := splitHost false rest
  checkHost ordinary host
  checkPort host after

/-- The scheme of a web address. -/
def scheme (text : String) : Except Error String :=
  match splitScheme? (trim text) with
  | none => .error .noScheme
  | some (scheme, rest) =>
    if ordinarySchemes.contains scheme then do
      checkAuthority true (rest.dropWhile fun c => c == '/' || c == '\\')
      pure scheme
    else
      match scheme == "file", rest with
      | false, '/' :: '/' :: rest => do
        checkAuthority false rest
        pure scheme
      | _, _ => .ok scheme

end Url

end Net

end OffchainNames
