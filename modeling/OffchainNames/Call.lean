import OffchainNames.Curve.Signature

/-!
# Calls

A call is addressed to a contract and carries calldata. A call that writes carries an authorization: a
message, which repeats the calldata and the contract and says when it ends, with a signature over it. A
function sees its call in a context, which also tells what the outermost call was.
-/

namespace OffchainNames

/-- What the signer of an authorization agrees to: calldata for a contract, up to a last second. -/
structure Message where
  callData : Bytes
  sender : Address
  expiration : UInt64
  deriving DecidableEq, Repr

/-- A message with a signature over it. -/
structure Authorization where
  signature : Bytes
  message : Message
  deriving DecidableEq, Repr

/-- A call as it comes in. -/
structure Call where
  recipient : Address
  data : Bytes
  authorization : Option Authorization := none
  deriving DecidableEq, Repr

/-- What a function sees of its call and of the outermost call around it, with the number of batches in
between. -/
structure Context where
  sender : Address
  data : Bytes
  rootData : Bytes
  authorization : Option Authorization
  depth : Nat
  deriving DecidableEq, Repr

namespace Context

/-- The greatest number of batches that a context counts. -/
def maxDepth : Nat := 255

/-- The context of an outermost call. -/
def ofCall (call : Call) : Context :=
  { sender := call.recipient
    data := call.data
    rootData := call.data
    authorization := call.authorization
    depth := 0 }

/-- The context of a call in a batch. -/
def nested (ctx : Context) (data : Bytes) : Context :=
  { ctx with data, depth := min (ctx.depth + 1) maxDepth }

/-- Whether the call is part of a batch. -/
def isNested (ctx : Context) : Bool := ctx.depth != 0

end Context

end OffchainNames
