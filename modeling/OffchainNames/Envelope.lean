import OffchainNames.Authority
import OffchainNames.Gateway

/-!
# Signed responses

A response is signed together with the call that it answers and the time at which it ends; the data of
the response is then an envelope of the data, that time and the signature. Whoever knows the call can
check an envelope against a set of trusted accounts (`Verifier.verify`).
-/

namespace OffchainNames

/-- The digest that is signed for a response to a request from a contract. -/
def responseDigest (sender : Address) (expires : UInt64) (request response : Bytes) : Word :=
  keccak256
    ([0x19, 0x00] ++ Bytes.ofBits sender ++ Bytes.ofNat 8 expires.toNat
      ++ Bytes.ofBits (keccak256 request) ++ Bytes.ofBits (keccak256 response))

/-- Signed data, and the last second at which the signature counts. -/
structure Envelope where
  data : Bytes
  expires : UInt64
  signature : Bytes
  deriving DecidableEq, Repr

namespace Envelope

/-- The bytes of an envelope. -/
def encode (e : Envelope) : Bytes :=
  Abi.encode [.bytes e.data, .uint (BitVec.ofNat 256 e.expires.toNat) 64, .bytes e.signature]

/-- The envelope that bytes hold; of the time its low 64 bits count. -/
def decode (body : Bytes) : Except Error Envelope :=
  match Abi.decode [.bytes, .uint 64, .bytes] body with
  | .ok [.bytes data, .uint expires _, .bytes signature] =>
    .ok { data, expires := UInt64.ofNat expires.toNat, signature }
  | .ok _ => .error (.malformedRequest "invalid signed envelope: ")
  | .error e => .error (.malformedRequest ("invalid signed envelope: " ++ e.message))

end Envelope

/-- The sum of two times, or the last time if that is beyond it. -/
def addTime (a b : UInt64) : UInt64 := UInt64.ofNat (min (a.toNat + b.toNat) (UInt64.size - 1))

/-- A key that responses are signed with, and for how many seconds if they do not say. -/
structure Signer where
  key : SecretKey
  defaultTtl : UInt64

namespace Signer

/-- The number of seconds that is used unless another one is given: 100 days. -/
def standardTtl : UInt64 := 8640000

/-- The text of a key without one mark. -/
def unmarked (text : String) : String :=
  match text.toList with
  | '0' :: 'x' :: rest => String.ofList rest
  | _ => text

/-- The signer with the key that a text writes. -/
def ofHex (text : String) (defaultTtl : UInt64) : Except Error Signer :=
  let invalid (reason : String) : Except Error Signer :=
    .error (.signing ("invalid private key: " ++ reason))
  match Hex.decodeExact 32 (unmarked text) with
  | .error e => invalid e.message
  | .ok bytes =>
    match SecretKey.ofNat? (Bytes.toNat bytes) with
    | some key => .ok ⟨key, defaultTtl⟩
    | none => invalid Signature.Error.unrecoverable.message

/-- The account that a signer signs for. -/
def address (signer : Signer) : Address := signer.key.address

/-- A text that shows a signer but not its key. -/
def describe (signer : Signer) : String :=
  "SigningEnvelope \x7b address: " ++ signer.address.lower ++ ", default_ttl: "
    ++ toString signer.defaultTtl.toNat ++ " \x7d"

/-- Signs a response. -/
def sign (signer : Signer) (sender : Address) (expires : UInt64) (request response : Bytes) :
    Envelope :=
  { data := response
    expires
    signature := (signer.key.sign (responseDigest sender expires request response)).toBytes }

/-- The response to a call that is signed at a time. -/
def processAt (signer : Signer) (now : UInt64) (call : Call) (response : Response) : Response :=
  if response.isSuccess then
    let expires := addTime now (response.ttl.getD signer.defaultTtl)
    .ok (signer.sign call.recipient expires call.data response.data).encode (some expires)
  else response

/-- The stage that signs successful responses, at a fixed time or at that of the clock. -/
def stage (signer : Signer) (fixedTime : Option UInt64) : Stage :=
  ⟨"signing", fun call response =>
    let finish (now : UInt64) : Course (Ending (Except Error Response)) :=
      .done (.answered (.ok (signer.processAt now call response)))
    match fixedTime with
    | some now => finish now
    | none => .clock finish⟩

end Signer

/-- The accounts whose signatures are trusted. -/
structure Verifier where
  signers : List Address := []

namespace Verifier

/-- Trusts one more account. -/
def add (v : Verifier) (account : Address) : Verifier := ⟨v.signers ++ [account]⟩

/-- Whether an account is trusted. -/
def trusts (v : Verifier) (account : Address) : Bool := v.signers.contains account

/-- Checks the envelope of a response to a request from a contract, at a time. -/
def verify (v : Verifier) (sender : Address) (request body : Bytes) (now : UInt64) :
    Except Error (Bytes × Address) :=
  match Envelope.decode body with
  | .error e => .error e
  | .ok envelope =>
    if envelope.expires < now then .error (.unauthorized "signature expired")
    else
      match recoverSigner envelope.signature
          (responseDigest sender envelope.expires request envelope.data) with
      | .error e => .error e
      | .ok account =>
        if v.trusts account then .ok (envelope.data, account)
        else .error (.unauthorized ("unknown signer " ++ account.checksummed))

end Verifier

end OffchainNames
