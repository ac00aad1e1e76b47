import OffchainNames.Bytes

/-!
# Media types

A media type such as `application/vnd.api+json; charset=utf-8` has a family, a subtype, a suffix of the
subtype and parameters. Letter case does not matter.
-/

namespace OffchainNames

namespace Http

/-- A media type without its parameters, in lowercase. -/
structure MediaType where
  family : String
  /-- The subtype without its suffix. -/
  subtype : String
  suffix : Option String
  deriving DecidableEq, Repr

namespace MediaType

/-- A character of which names consist. -/
def isToken (c : Char) : Bool :=
  c.isAlphanum || "!#$%&'+-.^_\x60|~".toList.contains c

/-- The characters in front of the last one that is equal to a given one, and those after it. -/
def splitLast? (sep : Char) (cs : List Char) : Option (List Char × List Char) :=
  match cs.reverse.span (· != sep) with
  | (_, []) => none
  | (after, _ :: before) => some (before.reverse, after.reverse)

/-- A character that may stand in a quoted value. -/
def isQuotable (c : Char) : Bool := 32 ≤ c.toNat && c.toNat ≤ 126

/-- The characters after a quoted value and the blanks that follow it; there may be a semicolon. The
value has one character at least, so that a quote in the first place belongs to it. -/
def afterQuoted : List Char → Option (List Char)
  | [] => none
  | c :: cs =>
    if !isQuotable c then none
    else
      match cs.dropWhile fun c => c != '"' && isQuotable c with
      | '"' :: rest =>
        match rest.dropWhile (· == ' ') with
        | [] => some []
        | ';' :: rest => some rest
        | _ => none
      | _ => none

/-- The characters after a value; there may be a semicolon. -/
def afterValue : List Char → Option (List Char)
  | '"' :: rest => afterQuoted rest
  | cs =>
    match cs.span isToken with
    | (_, []) => some []
    | (_ :: _, ';' :: rest) => some rest
    | _ => none

/-- Whether characters are parameters with semicolons between them, of which there are at most as many
as the bound says. -/
def areParameters : (bound : Nat) → List Char → Bool
  | 0, _ => false
  | _ + 1, [] => true
  | bound + 1, ' ' :: rest => areParameters bound rest
  | bound + 1, cs =>
    match cs.span isToken with
    | (_ :: _, '=' :: rest) =>
      match afterValue rest with
      | some rest => areParameters bound rest
      | none => false
    | _ => false

/-- The media type that a text writes. -/
def parse? (text : String) : Option MediaType :=
  let lower (cs : List Char) : String := String.ofList (cs.map Char.toLower)
  match text.toList.span isToken with
  | (family@(_ :: _), '/' :: rest) =>
    match rest.span isToken with
    | (name@(_ :: _), tail) =>
      let sound := match tail with
        | [] => true
        | ';' :: parameters => areParameters (parameters.length + 1) parameters
        | _ => false
      if sound then
        match splitLast? '+' name with
        | some (subtype@(_ :: _), suffix) => some ⟨lower family, lower subtype, some (lower suffix)⟩
        | _ => some ⟨lower family, lower name, none⟩
      else none
    | _ => none
  | _ => none

/-- Whether a media type is that of JSON, or of something that is written in JSON. -/
def isJson (m : MediaType) : Bool :=
  m.family == "application" && (m.subtype == "json" || m.suffix == some "json")

end MediaType

end Http

end OffchainNames
