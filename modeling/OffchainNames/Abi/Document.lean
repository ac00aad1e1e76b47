import OffchainNames.Abi.Interface
import OffchainNames.Json.Value

/-!
# Interfaces written in JSON

A document is a list of items, each with a type: functions, and others that are checked and left out. A
parameter has a name, a type, and the components of the type if that is a tuple.
-/

namespace OffchainNames

namespace Abi

namespace Document

/-- The values of the given keys in an object, or the elements of a list in the order of the keys; a
repeated key is refused, and so are more elements than keys. -/
def fields? (keys : List String) : Json.Value → Option (List (Option Json.Value))
  | .object members =>
    keys.mapM fun key =>
      match members.filter fun m => m.1 == key with
      | [] => some none
      | [m] => some (some m.2)
      | _ => none
  | .list values =>
    if keys.length < values.length then none
    else some (values.map some ++ List.replicate (keys.length - values.length) none)
  | _ => none

/-- The value found at a position, if any. -/
def field (found : List (Option Json.Value)) (i : Nat) : Option Json.Value := found[i]?.join

/-- A text that names something: an identifier, or nothing at all. -/
def isName (text : String) : Bool :=
  match text.toList with
  | [] => true
  | c :: rest => Reader.startsIdentifier c && rest.all Reader.continuesIdentifier

/-- The truth value that may stand in a field, or be left out, or be null. -/
def flag? : Option Json.Value → Option (Option Bool)
  | none => some none
  | some .null => some none
  | some (.bool b) => some (some b)
  | _ => none

/-- A field that is absent, null or a string. -/
def isNote : Option Json.Value → Bool
  | none => true
  | some .null => true
  | some (.string _) => true
  | _ => false

/-- The mutability with a name. -/
def mutability? (name : String) : Option Mutability :=
  if name = "pure" then some .pure
  else if name = "view" then some .view
  else if name = "nonpayable" then some .nonpayable
  else if name = "payable" then some .payable
  else none

/-- The mutability that an item declares, by name or by the two flags that came before the names. -/
def readMutability (item : Json.Value) : Option Mutability := do
  let found ← match item with
    | .object _ => fields? ["stateMutability", "payable", "constant"] item
    | _ => none
  let payable ← flag? (field found 1)
  let constant ← flag? (field found 2)
  match field found 0 with
  | some (.string name) => mutability? name
  | some .null => flags payable constant
  | none => flags payable constant
  | _ => none
where
  /-- The mutability that the two flags declare. -/
  flags (payable constant : Option Bool) : Option Mutability :=
    match payable.getD false, constant.getD false with
    | false, false => some .nonpayable
    | true, false => some .payable
    | false, true => some .view
    | true, true => none

/-- Whether a written type with components starts with the word for tuples. -/
def isTupleType (type : String) : Bool :=
  (Reader.literal? ['t', 'u', 'p', 'l', 'e'] type.toList).isSome

mutual

/-- Reads a parameter, which is marked as indexed or not exactly if it belongs to an event. -/
def readParam : (bound : Nat) → (ofEvent : Bool) → Json.Value → Option Param
  | 0, _, _ => none
  | bound + 1, ofEvent, value => do
    let found ← fields? ["name", "type", "indexed", "internalType", "components"] value
    let indexed ← flag? (field found 2)
    match field found 0, field found 1 with
    | some (.string name), some (.string type) => do
      let components ← readParams bound ((field found 4).getD (.list []))
      let sound :=
        isName name && isNote (field found 3) && indexed.isSome == ofEvent
          && (if components.isEmpty then (Specifier.parse? type).isSome else isTupleType type)
      if sound then some ⟨name, type, components⟩ else none
    | _, _ => none

/-- Reads a list of parameters that belong to no event. -/
def readParams : (bound : Nat) → Json.Value → Option (List Param)
  | 0, _ => none
  | bound + 1, .list values => values.mapM fun value => readParam bound false value
  | _, _ => none

end

/-- The number of lists and objects that parameters may be inside of. -/
def bound : Nat := 300

/-- Reads the parameters of an event. -/
def readEventParams : Json.Value → Option (List Param)
  | .list values => values.mapM (readParam bound true)
  | _ => none

/-- What an item of a document declares. -/
inductive Item where
  | function (signature : Signature)
  /-- Something that a document may declare once. -/
  | single (type : String)
  | other

/-- The name in a field. -/
def readName : Option Json.Value → Option String
  | some (.string name) => if isName name then some name else none
  | _ => none

/-- Reads an item whose type is given. -/
def readTyped (type : String) (item : Json.Value) : Option Item :=
  if type = "function" then do
    let mutability ← readMutability item
    let found ← fields? ["name", "inputs", "outputs"] item
    let name ← readName (field found 0)
    let inputs ← (field found 1).bind (readParams bound)
    let outputs ← (field found 2).bind (readParams bound)
    some (.function ⟨name, inputs, outputs, mutability⟩)
  else if type = "constructor" then do
    let _ ← readMutability item
    let found ← fields? ["inputs"] item
    let _ ← (field found 0).bind (readParams bound)
    some (.single type)
  else if type = "fallback" ∨ type = "receive" then do
    let _ ← readMutability item
    some (.single type)
  else if type = "event" then do
    let found ← fields? ["name", "inputs", "anonymous"] item
    let _ ← readName (field found 0)
    let _ ← (field found 1).bind readEventParams
    match field found 2 with
    | none => some .other
    | some (.bool _) => some .other
    | _ => none
  else if type = "error" then do
    let found ← fields? ["name", "inputs"] item
    let _ ← readName (field found 0)
    let _ ← (field found 1).bind (readParams bound)
    some .other
  else none

/-- Reads an item: an object with its type among the members, or a list that starts with its type. -/
def readItem : Json.Value → Option Item
  | .object members =>
    match members.filter fun m => m.1 == "type" with
    | [(_, .string type)] =>
      readTyped type (.object (members.filter fun m => m.1 != "type"))
    | _ => none
  | .list (.string type :: rest) => readTyped type (.list rest)
  | _ => none

/-- Whether a document declares at most one of what it may declare once. -/
def singles : List Item → Bool
  | [] => true
  | .single type :: rest =>
    !(rest.any fun
      | .single other => other == type
      | _ => false) && singles rest
  | _ :: rest => singles rest

/-- The functions among items. -/
def functions : List Item → List Signature
  | [] => []
  | .function sig :: rest => sig :: functions rest
  | _ :: rest => functions rest

/-- The interface that a value declares. -/
def read : Json.Value → Option Interface
  | .list values => do
    let items ← values.mapM readItem
    if singles items then some (Interface.ofList (functions items)) else none
  | _ => none

end Document

/-- The interface that a text in JSON declares. -/
def Interface.ofJson (text : String) : Except Error Interface :=
  match Json.parse (Bytes.ofString text) with
  | .ok value =>
    match Document.read value with
    | some i => .ok i
    | none => .error (.malformedInterface "invalid JSON ABI: ")
  | .error _ => .error (.malformedInterface "invalid JSON ABI: ")

end Abi

end OffchainNames
