import OffchainNames.Authority
import OffchainNames.Http.Server
import OffchainNames.Net.Url
import OffchainNames.Resolver
import OffchainNames.Settings.Issue
import OffchainNames.Store.Backend

/-!
# The server that settings describe

Each part of a server is built from its settings, or there is a reason why it is not. Settings without
an error give every part that does not depend on what is outside of them (`Settings.isValid`), but for a key
that is out of range.
-/

namespace OffchainNames

/-- A part whose building may fail though its settings are there. -/
inductive Component where
  | signer
  | database
  | registry
  deriving DecidableEq, Repr

/-- The name of a part. -/
def Component.name : Component → String
  | signer => "signing envelope"
  | database => "sqlite repository"
  | registry => "registry ownership"

/-- Why settings cannot be used. -/
inductive SettingsError where
  | file (detail : String)
  | document
  | missing (path : String)
  | invalid (detail : String)
  | build (component : Component) (cause : Error)
  deriving DecidableEq, Repr

/-- The wording of an error. -/
def SettingsError.message : SettingsError → String
  | file detail => "IO error: " ++ detail
  | document => "TOML parse error"
  | missing path => "missing required config: " ++ path
  | invalid detail => "invalid config value: " ++ detail
  | build component cause => "failed to build " ++ component.name ++ ": " ++ cause.message

/-- The account that a setting writes. -/
def readAddress (path raw : String) : Except SettingsError Address :=
  match Address.parse raw with
  | .ok a => .ok a
  | .error e => .error (.invalid (path ++ ": '" ++ raw ++ "' is not an address: " ++ e.message))

/-- A setting that must be there. -/
def required (path : String) : Option String → Except SettingsError String
  | some raw => .ok raw
  | none => .error (.missing path)

/-- Reaches for the endpoint of a remote chain: a web address, whose scheme may be left out in front
of a local host or an address with a port. -/
def reachEndpoint (endpoint : String) : Except String Unit :=
  let complete := "localhost:".isPrefixOf endpoint || (Net.SocketAddress.parse? endpoint).isSome
  match Net.Url.scheme (if complete then "http://" ++ endpoint else endpoint) with
  | .error e => .error e.message
  | .ok scheme =>
    if scheme == "http" || scheme == "https" then .ok ()
    else
      .error ("invalid URL scheme: " ++ scheme ++ "; expected \x60http\x60 or \x60https\x60")

namespace Settings

/-- The address to listen on. -/
def listenAddress (s : Settings) : Except SettingsError Net.SocketAddress :=
  match Net.SocketAddress.parse? s.server.listen with
  | some address => .ok address
  | none =>
    .error (.invalid ("server.listen '" ++ s.server.listen ++ "': invalid socket address syntax"))

/-- The domain that writes are signed under. -/
def signingDomain (s : Settings) : Except SettingsError Domain := do
  let contract ← match s.domain.contract with
    | some raw => readAddress "domain.verifying_contract" raw
    | none => .ok 0
  pure
    { name := s.domain.name, version := s.domain.version
      chainId := UInt64.ofNat s.domain.chainId, contract }

/-- The signer of responses. -/
def signer (s : Settings) : Except SettingsError Signer := do
  let key ← required "signing.private_key" s.signing.key
  (Signer.ofHex key (UInt64.ofNat s.signing.defaultTtl)).mapError (.build .signer)

/-- The store, given how a database file opens. -/
def store (s : Settings) (openDatabase : String → Except StoreError Tables) :
    Except SettingsError Backend :=
  match s.storage.kind with
  | .memory => .ok (.memory .empty)
  | .database => do
    let path ← required "storage.path" s.storage.path
    match openDatabase path with
    | .ok tables => .ok (.tables tables)
    | .error e => .error (.build .database (.store e))

/-- Where owners are looked up. -/
def owners (s : Settings) : Except SettingsError Ownership :=
  match s.ownership.kind with
  | .stored => .ok .stored
  | .registry => do
    let endpoint ← required "ownership.rpc_url" s.ownership.endpoint
    let raw ← required "ownership.registry" s.ownership.registry
    let contract ← readAddress "ownership.registry" raw
    match reachEndpoint endpoint with
    | .ok () => .ok (.registry contract)
    | .error detail =>
      .error (.build .registry
        (.internal ("RPC connection to '" ++ endpoint ++ "' failed: " ++ detail)))

/-- The store at the start and the server. -/
def assemble (s : Settings) (openDatabase : String → Except StoreError Tables) :
    Except SettingsError (Backend × Http.Server) := do
  let store ← s.store openDatabase
  let ownership ← s.owners
  let domain ← s.signingDomain
  let signer ← s.signer
  let resolver : Resolver :=
    { authority := { domain, ownership }, reserved := s.resolver.reservedKeys }
  let gateway : Gateway :=
    { table := resolver.table, stages := [Integrity.resolver.stage, signer.stage none] }
  pure (store, { gateway, mount := s.server.mount, maxBody := s.server.maxBody })

end Settings

end OffchainNames
