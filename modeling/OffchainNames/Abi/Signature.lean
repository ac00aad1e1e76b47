import OffchainNames.Abi.Decoding
import OffchainNames.Abi.Encoding
import OffchainNames.Abi.Specifier
import OffchainNames.Hash.Keccak
import OffchainNames.Text.Blank

/-!
# Signatures of functions

A signature has a name, parameters, results and a mutability. Its canonical text is the name with the
types of the parameters; the first four bytes of the digest of that text are its selector. A signature
is read from a fragment such as `function text(bytes32 node, string key) view returns (string)`.
-/

namespace OffchainNames

namespace Abi

/-- A parameter or a result: a name, a written type, and the components if the type is a tuple. -/
structure Param where
  /-- The name, empty if there is none. -/
  name : String
  /-- The written type; the word `tuple` stands for the components. -/
  type : String
  components : List Param
  deriving Repr, Inhabited

/-- What a function may do with what it is called on. -/
inductive Mutability where
  | pure
  | view
  | nonpayable
  | payable
  deriving DecidableEq, Repr, Inhabited

/-- The signature of a function. -/
structure Signature where
  name : String
  inputs : List Param
  outputs : List Param
  mutability : Mutability
  deriving Repr, Inhabited

namespace Param

mutual

/-- The type of a parameter as it stands in a canonical text. -/
def canonical : Param → String
  | ⟨_, type, []⟩ => type
  | ⟨_, type, first :: rest⟩ =>
    "(" ++ commaSeparated (canonicals (first :: rest)) ++ ")"
      ++ String.ofList ((Reader.literal? ['t', 'u', 'p', 'l', 'e'] type.toList).getD [])

/-- The types of parameters as they stand in a canonical text. -/
def canonicals : List Param → List String
  | [] => []
  | param :: rest => param.canonical :: canonicals rest

end

mutual

/-- The type of a parameter. -/
def resolve : Param → Except Unresolved Ty
  | ⟨_, type, components⟩ =>
    match Specifier.parse? type with
    | none => .error (.unreadable type)
    | some specifier =>
      match components with
      | [] => specifier.resolve
      | first :: rest => do
        let types ← resolveAll (first :: rest)
        let marks := match specifier with
          | .named _ marks => marks
          | .tuple _ marks => marks
        pure (Ty.marked (.tuple types) marks)

/-- The types of parameters. -/
def resolveAll : List Param → Except Unresolved (List Ty)
  | [] => pure []
  | param :: rest => do
    let ty ← param.resolve
    let types ← resolveAll rest
    pure (ty :: types)

end

mutual

/-- The parameter with a written type. -/
def ofSpecifier (name : String) : Specifier → Param
  | .named root marks => ⟨name, root ++ Specifier.marksText marks, []⟩
  | .tuple components marks =>
    ⟨name, "tuple" ++ Specifier.marksText marks, ofSpecifiers components⟩

/-- The nameless parameters with written types. -/
def ofSpecifiers : List Specifier → List Param
  | [] => []
  | specifier :: rest => ofSpecifier "" specifier :: ofSpecifiers rest

end

/-- Reads spaces and then an identifier, if there is one. -/
def word (cs : List Char) : Option String × List Char :=
  let cs := Reader.skipGaps cs
  match Reader.identifier cs with
  | some (name, rest) => (some name, rest)
  | none => (none, cs)

/-- Reads a parameter: a type, then optionally a place of storage, the mark of an index and a name. -/
def reader (depth : Nat) : Reader Param := fun cs =>
  (Specifier.reader depth cs).map fun (specifier, rest) =>
    let (name, rest) := word rest
    let (name, rest) :=
      if name = some "storage" ∨ name = some "memory" ∨ name = some "calldata" then word rest
      else (name, rest)
    let (name, rest) := if name = some "indexed" then word rest else (name, rest)
    (ofSpecifier (name.getD "") specifier, rest)

end Param

namespace Signature

/-- The canonical text: the name and the types of the parameters. -/
def canonical (sig : Signature) : String :=
  sig.name ++ "(" ++ commaSeparated (Param.canonicals sig.inputs) ++ ")"

/-- The first four bytes of the digest of the canonical text. -/
def selector (sig : Signature) : Selector :=
  Bytes.toBits 32 ((Keccak.digest (Bytes.ofString sig.canonical)).take 4)

/-- Whether the function may write. -/
def mutating (sig : Signature) : Bool :=
  sig.mutability == .nonpayable || sig.mutability == .payable

/-- The canonical text with the selector. -/
def display (sig : Signature) : String :=
  sig.canonical ++ " (" ++ Hex.encodeBits sig.selector ++ ")"

/-- A text that shows the selector and the canonical text. -/
def debug (sig : Signature) : String :=
  "FunctionSignature \x7b selector: " ++ Hex.encodeBits sig.selector ++ ", signature: \""
    ++ sig.canonical ++ "\", .. \x7d"

/-- The characters after the first of the given words that they start with, after spaces, together
with that word. -/
def keyword (words : List String) (cs : List Char) : Option String × List Char :=
  let cs := Reader.skipGaps cs
  match words.findSome? fun w => (Reader.literal? w.toList cs).map (w, ·) with
  | some (w, rest) => (some w, rest)
  | none => (none, cs)

/-- Why a fragment is no signature of a function. -/
inductive ParseError where
  | grammar (text : String)
  /-- The fragment is marked as anonymous, which only events can be. -/
  | anonymous
  deriving DecidableEq, Repr

/-- The wording of an error. -/
def ParseError.message : ParseError → String
  | .grammar text => "parser error:\n" ++ text
  | .anonymous => "functions cannot be anonymous"

/-- The characters after the word `function` and white space, if they start with these. -/
def unmarked (cs : List Char) : List Char :=
  match Reader.literal? "function".toList cs with
  | some (c :: rest) => if Text.isBlank c then Text.trimStart rest else cs
  | _ => cs

/-- Reads the results: a list of parameters, or nothing. -/
def results (cs : List Char) : Option (List Param × List Char) :=
  let (_, cs) := keyword [":"] cs
  let (_, cs) := keyword ["returns"] cs
  match Reader.skipGaps cs with
  | '(' :: rest => Reader.list (Param.reader (Specifier.maxDepth - 1)) ('(' :: rest)
  | cs => some ([], cs)

/-- Reads a signature, and whether it is marked as anonymous. -/
def reader : Reader (Signature × Bool) := fun cs =>
  match Specifier.root cs with
  | none => none
  | some (name, rest) =>
    match Reader.list (Param.reader (Specifier.maxDepth - 1)) (Reader.skipGaps rest) with
    | none => none
    | some (inputs, rest) =>
      let (_, rest) := keyword ["internal", "external", "private", "public"] rest
      let (mutability, rest) := keyword ["pure", "view", "payable"] rest
      match results rest with
      | none => none
      | some (outputs, rest) =>
        let (anonymous, rest) := keyword ["anonymous"] rest
        let mutability : Mutability :=
          if mutability = some "pure" then .pure
          else if mutability = some "view" then .view
          else if mutability = some "payable" then .payable
          else .nonpayable
        some ((⟨name, inputs, outputs, mutability⟩, anonymous.isSome), Reader.skipGaps rest)

/-- The signature that a fragment writes. -/
def parse (fragment : String) : Except ParseError Signature :=
  match reader (unmarked (Text.trim fragment.toList)) with
  | some ((sig, false), []) => .ok sig
  | some ((_, true), []) => .error .anonymous
  | _ => .error (.grammar fragment)

end Signature

/-- Why values do not encode. -/
inductive EncodeError where
  | wrongCount (expected actual : Nat)
  | wrongType (expected : String) (actual : String)
  | unresolved (cause : Unresolved)
  deriving DecidableEq, Repr

/-- The wording of an error. -/
def EncodeError.message : EncodeError → String
  | .wrongCount expected actual =>
    "encode length mismatch: expected " ++ toString expected ++ " types, got " ++ toString actual
  | .wrongType expected actual =>
    "type mismatch: expected type \"" ++ expected ++ "\", got value with type \"" ++ actual ++ "\""
  | .unresolved cause => cause.message

/-- Checks values against parameters one by one. -/
def checkAll : List Param → List Value → Except EncodeError Unit
  | param :: params, value :: values =>
    match param.resolve with
    | .error cause => .error (.unresolved cause)
    | .ok ty =>
      if ty.admits value then checkAll params values
      else .error (.wrongType ty.name (value.typeName?.getD "<none>"))
  | _, _ => .ok ()

/-- The encoding of values for parameters. -/
def encodeFor (params : List Param) (values : List Value) : Except EncodeError Bytes :=
  if values.length ≠ params.length then .error (.wrongCount params.length values.length)
  else (checkAll params values).map fun _ => encode values

/-- Why data does not decode to values for parameters. -/
inductive ReadError where
  | unresolved (cause : Unresolved)
  | data (cause : DecodeError)
  deriving DecidableEq, Repr

/-- The wording of an error. -/
def ReadError.message : ReadError → String
  | .unresolved cause => cause.message
  | .data cause => cause.message

/-- Reads a value for each parameter in turn; a type is resolved when its turn comes. -/
def readAll : List Param → Cursor → Except ReadError (List Value)
  | [], _ => .ok []
  | param :: rest, c =>
    match param.resolve with
    | .error cause => .error (.unresolved cause)
    | .ok ty =>
      match ty.decode c with
      | .error cause => .error (.data cause)
      | .ok (value, c) => (readAll rest c).map (value :: ·)

/-- The values for parameters that data starts with. -/
def decodeFor (params : List Param) (data : Bytes) : Except ReadError (List Value) :=
  readAll params (Cursor.start data)

end Abi

end OffchainNames
