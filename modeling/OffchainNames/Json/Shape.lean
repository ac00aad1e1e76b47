import OffchainNames.Json.Value

/-!
# Shapes of JSON texts

A shape says what a text is expected to hold. A record is written as an object or as the list of its
fields in order. Other members of an object are passed over, a repeated field is refused. A text is read
from the left and the first fault counts, so that a text with a fault of meaning may go on against the
grammar.
-/

namespace OffchainNames

namespace Json

/-- What a text is expected to hold. -/
inductive Shape where
  | string
  | value
  | nullable (shape : Shape)
  | record (fields : List (String × Shape))

/-- What a text of some shape holds. -/
inductive Shaped where
  | string (s : String)
  | value (v : Value)
  /-- Null, or no field. -/
  | absent
  | record (fields : List Shaped)

/-- Whether a field may be left out. -/
def Shape.optional : Shape → Bool
  | nullable _ => true
  | _ => false

/-- The fault of lexemes that do not start what is expected: whole lexemes of another meaning are a fault
of meaning, and anything else is one of grammar. -/
def unexpected : List Lexeme → Fault
  | .null :: _ => .meaning
  | .bool _ :: _ => .meaning
  | .openObject :: _ => .meaning
  | .openList :: _ => .meaning
  | .string (some _) :: _ => .meaning
  | .number n :: _ => if n.value.isSome then .meaning else .grammar
  | _ => .grammar

/-- Passes over a value, given what is still open: true for a list and false for an object. -/
def skipFrom : (bound : Nat) → (stack : List Bool) → List Lexeme → Except Fault (List Lexeme)
  | 0, _, _ => .error .grammar
  | bound + 1, stack, lexemes =>
    let close (stack : List Bool) (rest : List Lexeme) : Except Fault (List Lexeme) :=
      closeFrom bound stack rest
    match lexemes with
    | .null :: rest => close stack rest
    | .bool _ :: rest => close stack rest
    | .number _ :: rest => close stack rest
    | .string _ :: rest => close stack rest
    | .openList :: .closeList :: rest => close stack rest
    | .openList :: rest => skipFrom bound (true :: stack) rest
    | .openObject :: .closeObject :: rest => close stack rest
    | .openObject :: .string _ :: .colon :: rest => skipFrom bound (false :: stack) rest
    | _ => .error .grammar
where
  /-- Goes on after a value. -/
  closeFrom : (bound : Nat) → (stack : List Bool) → List Lexeme → Except Fault (List Lexeme)
    | _, [], rest => .ok rest
    | 0, _, _ => .error .grammar
    | bound + 1, true :: stack, rest =>
      match rest with
      | .comma :: rest => skipFrom bound (true :: stack) rest
      | .closeList :: rest => closeFrom bound stack rest
      | _ => .error .grammar
    | bound + 1, false :: stack, rest =>
      match rest with
      | .comma :: .string _ :: .colon :: rest => skipFrom bound (false :: stack) rest
      | .closeObject :: rest => closeFrom bound stack rest
      | _ => .error .grammar

/-- Passes over a value. -/
def skip (lexemes : List Lexeme) : Except Fault (List Lexeme) :=
  skipFrom (2 * lexemes.length + 2) [] lexemes

/-- The position of a key among fields, with the shape that is expected there. -/
def fieldAt? (key : String) : List (String × Shape) → Option (Nat × Shape)
  | [] => none
  | (name, shape) :: rest =>
    if name = key then some (0, shape)
    else (fieldAt? key rest).map fun (i, shape) => (i + 1, shape)

/-- The fields that were found, if none is missing that may not be. -/
def complete : List (String × Shape) → List (Option Shaped) → Except Fault (List Shaped)
  | [], _ => .ok []
  | (_, shape) :: fields, found =>
    match found.head?.join with
    | some s => (complete fields found.tail).map (s :: ·)
    | none =>
      if shape.optional then (complete fields found.tail).map (.absent :: ·) else .error .meaning

mutual

/-- Reads something of a shape. The bound limits the number of steps, the depth that of open lists and
objects. -/
def Shape.read : (bound depth : Nat) → Shape → Decoder Shaped
  | 0, _, _, _ => .error .grammar
  | bound + 1, depth, shape, lexemes =>
    match shape with
    | .string =>
      match lexemes with
      | .string (some s) :: rest => .ok (.string s, rest)
      | _ => .error (unexpected lexemes)
    | .value => (readValue (bound + 1) depth lexemes).map fun (v, rest) => (.value v, rest)
    | .nullable shape =>
      match lexemes with
      | .null :: rest => .ok (.absent, rest)
      | _ => Shape.read bound depth shape lexemes
    | .record fields =>
      match lexemes with
      | .openObject :: rest =>
        if depth ≤ 1 then .error .grammar
        else
          match rest with
          | .closeObject :: rest =>
            (complete fields []).map fun found => (.record found, rest)
          | _ => readFields bound (depth - 1) fields (fields.map fun _ => none) rest
      | .openList :: rest =>
        if depth ≤ 1 then .error .grammar
        else
          match readSequence bound (depth - 1) true fields rest with
          | .error e => .error e
          | .ok (found, .closeList :: rest) => .ok (.record found, rest)
          | .ok _ => .error .grammar
      | _ => .error (unexpected lexemes)

/-- Reads the members of an object that is a record, of which there is at least one, and its end. -/
def readFields : (bound depth : Nat) → List (String × Shape) → List (Option Shaped) → Decoder Shaped
  | 0, _, _, _, _ => .error .grammar
  | bound + 1, depth, fields, found, lexemes =>
    let continue_ (found : List (Option Shaped)) (rest : List Lexeme) :
        Except Fault (Shaped × List Lexeme) :=
      match rest with
      | .comma :: rest => readFields bound depth fields found rest
      | .closeObject :: rest => (complete fields found).map fun found => (.record found, rest)
      | _ => .error .grammar
    match lexemes with
    | .string (some key) :: rest =>
      match fieldAt? key fields with
      | none =>
        match rest with
        | .colon :: rest =>
          match skip rest with
          | .error e => .error e
          | .ok rest => continue_ found rest
        | _ => .error .grammar
      | some (i, shape) =>
        if (found[i]?.join).isSome then .error .meaning
        else
          match rest with
          | .colon :: rest =>
            match Shape.read bound depth shape rest with
            | .error e => .error e
            | .ok (s, rest) => continue_ (found.set i (some s)) rest
          | _ => .error .grammar
    | _ => .error .grammar

/-- Reads the elements of a list that is a record, up to its end. -/
def readSequence : (bound depth : Nat) → (isFirst : Bool) → List (String × Shape) →
    Decoder (List Shaped)
  | 0, _, _, _, _ => .error .grammar
  | _ + 1, _, _, [], lexemes => .ok ([], lexemes)
  | bound + 1, depth, isFirst, (name, shape) :: fields, lexemes =>
    let here (lexemes : List Lexeme) : Except Fault (List Shaped × List Lexeme) :=
      match Shape.read bound depth shape lexemes with
      | .error e => .error e
      | .ok (s, rest) =>
        (readSequence bound depth false fields rest).map fun (ss, rest) => (s :: ss, rest)
    match lexemes with
    | .closeList :: _ =>
      (complete ((name, shape) :: fields) []).map fun found => (found, lexemes)
    | .comma :: .closeList :: _ => .error .grammar
    | .comma :: rest => if isFirst then .error .grammar else here rest
    | [] => .error .grammar
    | _ => if isFirst then here lexemes else .error .grammar

end

/-- Reads something of a shape from the front of lexemes. -/
def Shape.decode (shape : Shape) : Decoder Shaped := fun lexemes =>
  shape.read (3 * lexemes.length + 8) maxDepth lexemes

end Json

end OffchainNames
