import OffchainNames.Error

/-!
# Responses

A response has a status and a body: data, with a time for which it may be kept, or a message. Only the
status 200 means success.
-/

namespace OffchainNames

/-- What a response carries. -/
inductive Body where
  /-- Data, and a number of seconds: before signing how long the data may be kept, after it when the
  signature ends. -/
  | data (content : Bytes) (ttl : Option UInt64)
  | message (text : String)
  deriving DecidableEq, Repr

/-- A status and a body. -/
structure Response where
  status : UInt16
  body : Body
  deriving DecidableEq, Repr

namespace Response

/-- The response of success. -/
def ok (content : Bytes) (ttl : Option UInt64) : Response := ⟨200, .data content ttl⟩

/-- A response with a message. -/
def error (status : UInt16) (text : String) : Response := ⟨status, .message text⟩

/-- The response to a call that ended with an error. -/
def ofError (e : Error) : Response := error e.status e.message

/-- Whether the status means success. -/
def isSuccess (response : Response) : Bool := response.status == 200

/-- The data of a response. -/
def data? (response : Response) : Option Bytes :=
  match response.body with
  | .data content _ => some content
  | .message _ => none

/-- The data of a response, empty if it has none. -/
def data (response : Response) : Bytes := response.data?.getD []

/-- The seconds that a response carries with its data. -/
def ttl (response : Response) : Option UInt64 :=
  match response.body with
  | .data _ ttl => ttl
  | .message _ => none

/-- The message of a response. -/
def message? (response : Response) : Option String :=
  match response.body with
  | .data _ _ => none
  | .message text => some text

end Response

end OffchainNames
