import OffchainNames.Envelope

/-!
# Settings

What the operator of a gateway may set, with the values that hold if nothing is set. Three settings can also
come from the environment (`Settings.withEnvironment`): the key and the address to listen on win over the
rest, and the endpoint of the remote chain fills a gap.
-/

namespace OffchainNames

/-- Settings of the server; the timeout is in seconds. -/
structure ServerSettings where
  listen : String := "127.0.0.1:3000"
  mount : String := ""
  timeout : Nat := 30
  maxBody : Nat := 1024 * 1024
  deriving DecidableEq, Repr

/-- Settings of signed responses. -/
structure SigningSettings where
  key : Option String := none
  defaultTtl : Nat := Signer.standardTtl.toNat
  deriving DecidableEq, Repr

/-- Settings of the domain that writes are signed under. -/
structure DomainSettings where
  name : String := "ENS Gateway"
  version : String := "1"
  chainId : Nat := 1
  contract : Option String := none
  deriving DecidableEq, Repr

/-- Where records are kept. -/
inductive StoreKind where
  | memory
  | database
  deriving DecidableEq, Repr

/-- The name of a kind of store. -/
def StoreKind.name : StoreKind → String
  | memory => "memory"
  | database => "sqlite"

/-- Settings of the store. -/
structure StorageSettings where
  kind : StoreKind := .memory
  path : Option String := none
  deriving DecidableEq, Repr

/-- Where owners are looked up. -/
inductive OwnershipKind where
  | stored
  | registry
  deriving DecidableEq, Repr

/-- The name of a kind of ownership. -/
def OwnershipKind.name : OwnershipKind → String
  | stored => "repository"
  | registry => "registry"

/-- Settings of ownership. -/
structure OwnershipSettings where
  kind : OwnershipKind := .stored
  endpoint : Option String := none
  registry : Option String := none
  deriving DecidableEq, Repr

/-- Settings of the resolver. -/
structure ResolverSettings where
  reservedKeys : List String := []
  deriving DecidableEq, Repr

/-- All settings. -/
structure Settings where
  server : ServerSettings := {}
  signing : SigningSettings := {}
  domain : DomainSettings := {}
  storage : StorageSettings := {}
  ownership : OwnershipSettings := {}
  resolver : ResolverSettings := {}
  deriving DecidableEq, Repr

namespace Settings

/-- The variable that holds the key. -/
def keyVariable : String := "GATEWAY_PRIVATE_KEY"

/-- The variable that holds the address to listen on. -/
def listenVariable : String := "GATEWAY_LISTEN"

/-- The variable that holds the endpoint of the remote chain. -/
def endpointVariable : String := "GATEWAY_RPC_URL"

/-- The settings with what the variables of the environment say. -/
def withEnvironment (s : Settings) (lookup : String → Option String) : Settings :=
  { s with
    signing := { s.signing with key := (lookup keyVariable).or s.signing.key }
    server := { s.server with listen := (lookup listenVariable).getD s.server.listen }
    ownership :=
      { s.ownership with endpoint := s.ownership.endpoint.or (lookup endpointVariable) } }

/-- The settings as they may be shown. -/
def redacted (s : Settings) : Settings :=
  { s with signing := { s.signing with key := s.signing.key.map fun _ => "<redacted>" } }

end Settings

end OffchainNames
