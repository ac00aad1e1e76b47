import OffchainNames.Address
import OffchainNames.Net.SocketAddress
import OffchainNames.Settings.Basic

/-!
# Issues with settings

Settings are checked before anything is built from them. An error keeps the gateway from running as it
should; a warning tells of a setting that is likely not meant. Settings are valid if there is no error
(`Settings.isValid`).
-/

namespace OffchainNames

/-- How bad an issue is. -/
inductive Severity where
  | error
  | warning
  deriving DecidableEq, Repr

/-- An issue with a setting. -/
structure Issue where
  severity : Severity
  path : String
  message : String
  deriving DecidableEq, Repr

namespace Issue

/-- An error. -/
def error (path message : String) : Issue := ⟨.error, path, message⟩

/-- A warning. -/
def warning (path message : String) : Issue := ⟨.warning, path, message⟩

/-- The text of an issue. -/
def display (i : Issue) : String :=
  let mark := match i.severity with
    | .error => "ERROR"
    | .warning => "WARN"
  "[" ++ mark ++ "] " ++ i.path ++ ": " ++ i.message

end Issue

/-- Issues, if a condition holds. -/
def issueIf (condition : Bool) (issue : Issue) : List Issue := if condition then [issue] else []

/-- Whether a text writes an account. -/
def isAddress (raw : String) : Bool := (Address.parse raw).isOk

/-- The issue of a text that writes no account. -/
def noAddress (path raw : String) : Issue := .error path ("'" ++ raw ++ "' is not an address")

/-- Issues with the server. -/
def ServerSettings.issues (s : ServerSettings) : List Issue :=
  issueIf (Net.SocketAddress.parse? s.listen).isNone
    (.error "server.listen" ("'" ++ s.listen ++ "' is not a socket address")) ++
  issueIf (s.mount != "" && (!"/".isPrefixOf s.mount || s.mount.toList.getLast? == some '/'))
    (.error "server.prefix" "Prefix must start with '/' and must not end with '/'") ++
  issueIf (s.timeout == 0)
    (.error "server.request_timeout_secs" "Request timeout must be at least 1 second") ++
  issueIf (s.maxBody == 0) (.error "server.max_body_bytes" "Body limit must be at least 1 byte")

/-- Whether a text writes a key: 64 hexadecimal digits, which may follow a mark. -/
def isKeyText (text : String) : Bool :=
  let digits := (Signer.unmarked text).toList
  digits.length == 64 && digits.all fun c => (Net.digitBelow? 16 c).isSome

/-- Issues with signed responses. -/
def SigningSettings.issues (s : SigningSettings) : List Issue :=
  (match s.key with
    | none =>
      [.error "signing.private_key"
        ("No signing key is set. Set " ++ Settings.keyVariable ++ " env var.")]
    | some key =>
      issueIf (!isKeyText key)
        (.error "signing.private_key" "Signing key must be 32 hex-encoded bytes")) ++
  issueIf (s.defaultTtl == 0)
    (.warning "signing.default_ttl_secs"
      "Default ttl is 0, responses without a handler ttl expire immediately")

/-- Issues with the domain. -/
def DomainSettings.issues (s : DomainSettings) : List Issue :=
  match s.contract with
  | none =>
    [.warning "domain.verifying_contract"
      "No verifying contract set; write authorizations bind to the zero address"]
  | some raw => issueIf (!isAddress raw) (noAddress "domain.verifying_contract" raw)

/-- Issues with the store. -/
def StorageSettings.issues (s : StorageSettings) : List Issue :=
  issueIf (s.kind == .database && s.path.isNone)
    (.error "storage.path" "The sqlite backend needs a database path")

/-- Issues with ownership. -/
def OwnershipSettings.issues (s : OwnershipSettings) : List Issue :=
  match s.kind with
  | .stored => []
  | .registry =>
    issueIf s.endpoint.isNone
      (.error "ownership.rpc_url"
        ("Registry mode needs an RPC endpoint. Set " ++ Settings.endpointVariable ++ " env var.")) ++
    (match s.registry with
      | none => [.error "ownership.registry" "Registry mode needs a registry address"]
      | some raw => issueIf (!isAddress raw) (noAddress "ownership.registry" raw))

/-- Issues with the resolver. -/
def ResolverSettings.issues (s : ResolverSettings) : List Issue :=
  issueIf (s.reservedKeys.contains "")
    (.warning "resolver.reserved_text_keys" "An empty reserved key has no effect")

namespace Settings

/-- All issues, in the order of the settings. -/
def issues (s : Settings) : List Issue :=
  s.server.issues ++ s.signing.issues ++ s.domain.issues ++ s.storage.issues
    ++ s.ownership.issues ++ s.resolver.issues

/-- The issues that are errors. -/
def errors (s : Settings) : List Issue := s.issues.filter (·.severity == .error)

/-- The issues that are warnings. -/
def warnings (s : Settings) : List Issue := s.issues.filter (·.severity == .warning)

/-- Whether there is no error. -/
def isValid (s : Settings) : Bool := s.errors.isEmpty

end Settings

end OffchainNames
