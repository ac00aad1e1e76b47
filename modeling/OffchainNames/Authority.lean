import OffchainNames.Abi.Decoding
import OffchainNames.Abi.Encoding
import OffchainNames.Call
import OffchainNames.Course
import OffchainNames.Error

/-!
# Who may write

A message is signed under a domain, so that what is signed for one gateway counts for no other: the
digest takes in the digest of the domain's fields and that of the message's. The signer of an
authorization is the account that its signature recovers to, if the message fits the call that carries
it and has not ended (`Domain.signerAt`). Whether the signer owns a node is looked up in the store or in
a registry contract.
-/

namespace OffchainNames

/-- What messages are signed under. -/
structure Domain where
  name : String
  version : String
  chainId : UInt64
  contract : Address
  deriving DecidableEq, Repr

/-- The digest of a text. -/
def digestText (text : String) : Word := keccak256 (Bytes.ofString text)

/-- The encoding of words one after the other. -/
def concatWords (words : List Word) : Bytes := words.flatMap Bytes.ofBits

/-- The type of a domain. -/
def Domain.type : String :=
  "EIP712Domain(string name,string version,uint256 chainId,address verifyingContract)"

/-- The digest of the fields of a domain. -/
def Domain.separator (domain : Domain) : Word :=
  keccak256 (concatWords
    [digestText Domain.type, digestText domain.name, digestText domain.version,
     BitVec.ofNat 256 domain.chainId.toNat, domain.contract.setWidth 256])

/-- The type of a message. -/
def Message.type : String := "Message(bytes callData,address sender,uint256 expirationTimestamp)"

/-- The digest of the fields of a message. -/
def Message.fields (message : Message) : Word :=
  keccak256 (concatWords
    [digestText Message.type, keccak256 message.callData, message.sender.setWidth 256,
     BitVec.ofNat 256 message.expiration.toNat])

/-- The digest that is signed to agree to a message under a domain. -/
def Message.digest (message : Message) (domain : Domain) : Word :=
  keccak256 ([0x19, 0x01] ++ concatWords [domain.separator, message.fields])

/-- The authorization that a key gives by signing a message. -/
def Message.sign (message : Message) (domain : Domain) (key : SecretKey) : Authorization :=
  { signature := (key.sign (message.digest domain)).toBytes, message }

/-- The account whose key made a signature, given as bytes, over a digest. -/
def recoverSigner (signature : Bytes) (digest : Word) : Except Error Address :=
  match Signature.ofBytes signature with
  | .error e => .error (.unauthorized ("malformed signature: " ++ e.message))
  | .ok sig =>
    match sig.recover digest with
    | .error e => .error (.unauthorized ("signature recovery failed: " ++ e.message))
    | .ok account => .ok account

/-- The account that signed an authorization. -/
def Authorization.recover (auth : Authorization) (domain : Domain) : Except Error Address :=
  recoverSigner auth.signature (auth.message.digest domain)

/-- The signer of the authorization that a call carries, at a time: it must be about the outermost
calldata and the contract of the call and not have ended. -/
def Domain.signerAt (domain : Domain) (ctx : Context) (now : UInt64) : Except Error Address :=
  match ctx.authorization with
  | none => .error (.unauthorized "missing write authorization")
  | some auth =>
    if auth.message.callData ≠ ctx.rootData then
      .error (.unauthorized "authorization does not cover this calldata")
    else if auth.message.sender ≠ ctx.sender then
      .error (.unauthorized "authorization sender mismatch")
    else if auth.message.expiration < now then .error (.unauthorized "authorization expired")
    else auth.recover domain

/-- Where the owner of a node is looked up. -/
inductive Ownership where
  | stored
  | registry (contract : Address)
  deriving DecidableEq, Repr

namespace Ownership

/-- The calldata of a call to `owner(bytes32)`. -/
def ownerCall (node : Word) : Bytes := [0x02, 0x57, 0x1b, 0xe3] ++ Bytes.ofBits node

/-- The owner of a node as the result of a call to `owner(bytes32)` tells. -/
def readOwner : Except RemoteError Bytes → Except Error Address
  | .error e => .error (.internal ("eth_call failed: " ++ e.message))
  | .ok data =>
    match Abi.decode [.address] data with
    | .ok [.address owner] => .ok owner
    | .ok _ => .ok 0
    | .error e => .error (.internal ("registry owner decode failed: " ++ e.message))

/-- Looks up the owner of a node in a contract; zero if it has none. -/
def registryOwner (contract : Address) (node : Word) : Course (Except Error Address) :=
  .ask contract (ownerCall node) fun reply => .done (readOwner reply)

/-- A text that shows the contract in which owners are looked up. -/
def describe (contract : Address) : String :=
  "RegistryOwnership \x7b registry: " ++ contract.lower ++ ", .. \x7d"

/-- Looks up whether an account owns a node. -/
def verify (ownership : Ownership) (node : Word) (account : Address) : Course (Except Error Bool) :=
  match ownership with
  | stored => .domain node fun record => .done <|
    match record with
    | .error e => .error (.store e)
    | .ok record => .ok ((record.bind Record.registeredOwner?) == some account)
  | registry contract => (registryOwner contract node).bind fun owner => .done <|
    owner.map fun owner => owner != 0 && owner == account

end Ownership

/-- Who may write: whose signature counts, and where owners are looked up. -/
structure Authority where
  domain : Domain
  ownership : Ownership

namespace Authority

/-- Finds the signer of a call. -/
def signer (authority : Authority) (ctx : Context) : Course (Except Error Address) :=
  .clock fun now => .done (authority.domain.signerAt ctx now)

/-- The error of a signer who does not own a node. -/
def notOwner (account : Address) (node : Word) : Error :=
  .unauthorized (account.checksummed ++ " does not own " ++ Hex.encodeBits node)

/-- Finds the signer of a call and checks that it owns a node. -/
def authorize (authority : Authority) (ctx : Context) (node : Word) : Course (Except Error Address) :=
  (authority.signer ctx).bind fun
    | .error e => .done (.error e)
    | .ok account =>
      (authority.ownership.verify node account).bind fun
        | .error e => .done (.error e)
        | .ok true => .done (.ok account)
        | .ok false => .done (.error (notOwner account node))

end Authority

end OffchainNames
