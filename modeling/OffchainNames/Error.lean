import OffchainNames.Store.Basic

/-!
# Errors of the gateway

What can go wrong with a call, each with the status that it is answered with and its wording.
-/

namespace OffchainNames

/-- Why a call is not answered with data. -/
inductive Error where
  | notImplemented (selector : Selector)
  | malformedRequest (detail : String)
  | malformedInterface (detail : String)
  | unauthorized (detail : String)
  | application (status : UInt16) (detail : String)
  | store (cause : StoreError)
  | signing (detail : String)
  | internal (detail : String)
  deriving DecidableEq, Repr

namespace Error

/-- The wording of an error. -/
def message : Error → String
  | notImplemented selector =>
    "function " ++ Hex.encodeBits selector ++ " is not implemented by this gateway"
  | malformedRequest detail => "malformed request: " ++ detail
  | malformedInterface detail => "malformed interface: " ++ detail
  | unauthorized detail => "unauthorized: " ++ detail
  | application _ detail => detail
  | store cause => cause.message
  | signing detail => "signing error: " ++ detail
  | internal detail => "internal error: " ++ detail

/-- The status that an error is answered with. -/
def status : Error → UInt16
  | notImplemented _ => 404
  | malformedRequest _ => 400
  | malformedInterface _ => 500
  | unauthorized _ => 401
  | application status _ => status
  | store _ => 400
  | signing _ => 500
  | internal _ => 500

/-- Whether the same call may succeed later. -/
def retryable : Error → Bool
  | signing _ => true
  | internal _ => true
  | _ => false

/-- The error of data that does not fit the interface. -/
def ofInterface (detail : String) : Error := malformedRequest ("ABI decoding failed: " ++ detail)

/-- The refusal of a function that declares no status. -/
def refusal (detail : String) : Error := application 400 detail

end Error

end OffchainNames
