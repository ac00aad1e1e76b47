import OffchainNames.Call
import OffchainNames.Error
import OffchainNames.Json.Shape
import OffchainNames.Numeral

/-!
# Written calls

A call is written with hexadecimal texts, in the body of a request or in its path. An authorization goes
with it in the body, and the time at which it ends is a number or the text of one.
-/

namespace OffchainNames

/-- A written message. -/
structure MessageText where
  callData : String
  sender : String
  expiration : Json.Value

/-- A written authorization. -/
structure AuthorizationText where
  signature : String
  message : MessageText

/-- A written call. -/
structure CallText where
  sender : String
  data : String
  authorization : Option AuthorizationText

/-- Reads the address of the contract that a call goes to. -/
def readSender (text : String) : Except Error Address :=
  match Address.parse text with
  | .ok address => .ok address
  | .error e =>
    .error (.malformedRequest ("invalid sender '" ++ text ++ "': " ++ e.message))

/-- Reads calldata. -/
def readData (text : String) : Except Error Bytes :=
  match Hex.decode text with
  | .ok data => .ok data
  | .error e => .error (.malformedRequest ("invalid calldata: " ++ e.message))

/-- The time that a value writes: a natural number below `2 ^ 64`, or the text of one. -/
def time? : Json.Value → Option UInt64
  | .number (.natural n) => some (UInt64.ofNat n)
  | .string s =>
    match Numeral.parse s with
    | .ok w => if w.toNat < UInt64.size then some (UInt64.ofNat w.toNat) else none
    | .error _ => none
  | _ => none

/-- Reads the time at which an authorization ends. -/
def readExpiration (value : Json.Value) : Except Error UInt64 :=
  match time? value with
  | some t => .ok t
  | none => .error (.malformedRequest ("invalid expirationTimestamp: " ++ value.text))

namespace AuthorizationText

/-- Reads an authorization. -/
def read (text : AuthorizationText) : Except Error Authorization := do
  let signature ← readData text.signature
  let callData ← readData text.message.callData
  let sender ← readSender text.message.sender
  let expiration ← readExpiration text.message.expiration
  pure { signature, message := { callData, sender, expiration } }

end AuthorizationText

namespace CallText

/-- The shape of a written call. -/
def shape : Json.Shape :=
  .record
    [("sender", .string), ("data", .string),
     ("signature", .nullable (.record
       [("signature", .string),
        ("message", .record
          [("callData", .string), ("sender", .string), ("expirationTimestamp", .value)])]))]

/-- The authorization that something of the shape holds. -/
def authorizationOf? : Json.Shaped → Option AuthorizationText
  | .record
      [.string signature, .record [.string callData, .string sender, .value expiration]] =>
    some { signature, message := { callData, sender, expiration } }
  | _ => none

/-- The call that something of the shape holds. -/
def ofShaped? : Json.Shaped → Option CallText
  | .record [.string sender, .string data, authorization] =>
    some { sender, data, authorization := authorizationOf? authorization }
  | _ => none

/-- Reads a written call from the front of lexemes. -/
def decode (lexemes : List Json.Lexeme) : Except Json.Fault (CallText × List Json.Lexeme) :=
  match shape.decode lexemes with
  | .error e => .error e
  | .ok (shaped, rest) =>
    match ofShaped? shaped with
    | some text => .ok (text, rest)
    | none => .error .meaning

/-- The written call that bytes hold, whatever follows it. -/
def parseFront (bytes : Bytes) : Except Json.Fault CallText :=
  (decode (Json.lexemes bytes)).map Prod.fst

/-- The written call that a whole text holds. -/
def parse (text : String) : Except Json.Fault CallText :=
  match decode (Json.lexemes (Bytes.ofString text)) with
  | .error e => .error e
  | .ok (call, []) => .ok call
  | .ok _ => .error .grammar

/-- Reads a call. -/
def read (text : CallText) : Except Error Call := do
  let recipient ← readSender text.sender
  let data ← readData text.data
  match text.authorization with
  | none => pure { recipient, data }
  | some authorization => do
    let authorization ← authorization.read
    pure { recipient, data, authorization := some authorization }

end CallText

end OffchainNames
