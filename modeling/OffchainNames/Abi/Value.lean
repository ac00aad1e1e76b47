import OffchainNames.Bytes

/-!
# Types and values of the contract interface

A type of the interface and the values that calls carry. Words keep all their 32 bytes: the width of
an integer or of a fixed byte string is a label and does not bound the word. `Ty.Admits` says which
values belong to a type; `Ty.admits` decides it.
-/

namespace OffchainNames

namespace Abi

/-- A type of the interface. -/
inductive Ty where
  | bool
  | uint (bits : Nat)
  | int (bits : Nat)
  | fixedBytes (size : Nat)
  | address
  /-- An address with a selector. -/
  | function
  | bytes
  | string
  | array (element : Ty)
  | fixedArray (element : Ty) (size : Nat)
  | tuple (components : List Ty)
  deriving Repr, Inhabited

/-- A value that a call carries. -/
inductive Value where
  | bool (value : Bool)
  | uint (word : Word) (bits : Nat)
  /-- A signed integer in two's complement, labelled with a width in bits. -/
  | int (word : Word) (bits : Nat)
  /-- A fixed byte string at the front of a word, labelled with its length. -/
  | fixedBytes (word : Word) (size : Nat)
  | address (value : Address)
  /-- An address with a selector. -/
  | function (value : BitVec 192)
  | bytes (value : Bytes)
  | string (value : String)
  | array (values : List Value)
  | fixedArray (values : List Value)
  | tuple (values : List Value)
  deriving Repr, Inhabited

/-- The texts of a list with commas between them. -/
def commaSeparated (texts : List String) : String := String.intercalate "," texts

mutual

/-- The name of a type. A tuple of one component is written with a comma after it. -/
def Ty.name : Ty → String
  | .bool => "bool"
  | .uint bits => "uint" ++ toString bits
  | .int bits => "int" ++ toString bits
  | .fixedBytes size => "bytes" ++ toString size
  | .address => "address"
  | .function => "function"
  | .bytes => "bytes"
  | .string => "string"
  | .array element => element.name ++ "[]"
  | .fixedArray element size => element.name ++ "[" ++ toString size ++ "]"
  | .tuple [component] => "(" ++ component.name ++ ",)"
  | .tuple components => "(" ++ commaSeparated (Ty.names components) ++ ")"

/-- The names of types. -/
def Ty.names : List Ty → List String
  | [] => []
  | ty :: rest => ty.name :: Ty.names rest

end

mutual

/-- The name of the type that a value shows by itself. A list takes the name of its first element, so
that an empty list shows none, and neither does what holds one. -/
def Value.typeName? : Value → Option String
  | .bool _ => some "bool"
  | .uint _ bits => some ("uint" ++ toString bits)
  | .int _ bits => some ("int" ++ toString bits)
  | .fixedBytes _ size => some ("bytes" ++ toString size)
  | .address _ => some "address"
  | .function _ => some "function"
  | .bytes _ => some "bytes"
  | .string _ => some "string"
  | .array [] => none
  | .array (first :: _) => (Value.typeName? first).map (· ++ "[]")
  | .fixedArray [] => none
  | .fixedArray (first :: rest) =>
    (Value.typeName? first).map (· ++ "[" ++ toString (rest.length + 1) ++ "]")
  | .tuple [component] => (Value.typeName? component).map fun name => "(" ++ name ++ ",)"
  | .tuple components =>
    (Value.typeNames? components).map fun names => "(" ++ commaSeparated names ++ ")"

/-- The names of the types that values show, if all show one. -/
def Value.typeNames? : List Value → Option (List String)
  | [] => some []
  | value :: rest =>
    match Value.typeName? value, Value.typeNames? rest with
    | some name, some names => some (name :: names)
    | _, _ => none

end

mutual

/-- Whether a value belongs to a type: the labels agree, and so do the lengths of fixed lists and
tuples. -/
def Ty.admits : Ty → Value → Bool
  | .bool, .bool _ => true
  | .uint bits, .uint _ label => bits == label
  | .int bits, .int _ label => bits == label
  | .fixedBytes size, .fixedBytes _ label => size == label
  | .address, .address _ => true
  | .function, .function _ => true
  | .bytes, .bytes _ => true
  | .string, .string _ => true
  | .array element, .array values => values.all (Ty.admits element)
  | .fixedArray element size, .fixedArray values =>
    values.length == size && values.all (Ty.admits element)
  | .tuple components, .tuple values => Ty.admitsAll components values
  | _, _ => false

/-- Whether values belong to types one by one. -/
def Ty.admitsAll : List Ty → List Value → Bool
  | [], [] => true
  | ty :: types, value :: values => ty.admits value && Ty.admitsAll types values
  | _, _ => false

end

end Abi

end OffchainNames
