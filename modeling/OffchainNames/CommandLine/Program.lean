import OffchainNames.CommandLine.Invocation
import OffchainNames.Settings.Assembly
import OffchainNames.Settings.Document

/-!
# The program

A command works with settings that come from a file, or are the standard ones if there is no such file,
and from the environment. What it does is told by a report: the exit code, the lines that it prints, and
what it logs. Serving with good settings leads to a server that is ready to listen.
-/

namespace OffchainNames

namespace CommandLine

/-- What is found at a path. -/
inductive FileContent where
  | absent
  | text (content : String)
  | unreadable (detail : String)
  deriving DecidableEq, Repr

/-- What the program finds around it. -/
structure Host where
  lookup : String → Option String
  file : String → FileContent
  openDatabase : String → Except StoreError Tables

/-- Something that is logged. -/
structure LogEntry where
  severity : Severity
  text : String
  deriving DecidableEq, Repr

/-- What the program does. -/
structure Report where
  code : Nat := 0
  output : List String := []
  log : List LogEntry := []
  deriving DecidableEq, Repr

/-- The report of a failure. -/
def Report.failure (text : String) : Report := { code := 1, log := [⟨.error, text⟩] }

/-- A server that is ready to listen. -/
structure Service where
  address : Net.SocketAddress
  /-- The store at the start. -/
  store : Backend
  server : Http.Server
  /-- What was logged before. -/
  log : List LogEntry

/-- How the program goes on. -/
inductive Outcome where
  | done (report : Report)
  | serve (service : Service)

/-- The variable that holds the path of the file. -/
def fileVariable : String := "GATEWAY_CONFIG"

/-- The path of the file of the settings unless another one is given. -/
def standardFile : String := "gateway.toml"

/-- The settings in a file. -/
def loadSettings (file : FileContent) : Except SettingsError Settings :=
  match file with
  | .absent => .ok {}
  | .unreadable detail => .error (.file detail)
  | .text content =>
    match Settings.parse? content with
    | some s => .ok s
    | none => .error .document

/-- The lines of a text. -/
def linesOf (text : String) : List String := (splitAtEach '\n' text.toList).map String.ofList

/-- The text of invalid settings. -/
def invalidSettings (detail : String) : String := "invalid configuration:\n" ++ detail

/-- Shows settings. -/
def display (s : Settings) : Report := { output := linesOf s.redacted.document }

/-- Checks settings. -/
def validate (s : Settings) : Report :=
  let issues := s.issues.flatMap fun i => linesOf i.display
  let output := if issues.isEmpty then ["Configuration is valid"] else issues
  if s.isValid then { output }
  else
    let found := toString s.errors.length ++ " error(s) found"
    { Report.failure (invalidSettings found) with output }

/-- Prints the account of the signer. -/
def address (s : Settings) : Report :=
  match s.signer with
  | .ok signer => { output := [signer.address.checksummed] }
  | .error e => .failure e.message

/-- Prepares to serve. -/
def prepare (host : Host) (s : Settings) : Outcome :=
  let log := s.warnings.map fun i => (⟨.warning, i.display⟩ : LogEntry)
  let fail (text : String) : Outcome := .done { code := 1, log := log ++ [⟨.error, text⟩] }
  if !s.isValid then fail (invalidSettings ("\n".intercalate (s.errors.map Issue.display)))
  else
    match s.assemble host.openDatabase, s.listenAddress with
    | .error e, _ => fail e.message
    | _, .error e => fail e.message
    | .ok (store, server), .ok address => .serve { address, store, server, log }

/-- The report of a service that could not listen. -/
def Service.unbound (service : Service) (detail : String) : Report :=
  { code := 1, log := service.log ++ [⟨.error, "server error: " ++ detail⟩] }

/-- Runs a command. -/
def Invocation.run (i : Invocation) (host : Host) : Outcome :=
  match loadSettings (host.file (i.file.getD standardFile)) with
  | .error e => .done (.failure e.message)
  | .ok s =>
    let s := s.withEnvironment host.lookup
    match i.command with
    | .display => .done (display s)
    | .validate => .done (validate s)
    | .address => .done (address s)
    | .serve listen =>
      prepare host { s with server := { s.server with listen := listen.getD s.server.listen } }

/-- The lines that are logged: the first of each entry says how bad it is, and at high verbosity which
part of the program says so. -/
def LogEntry.lines (verbosity : Nat) (e : LogEntry) : List String :=
  let mark := match e.severity with
    | .error => "ERROR "
    | .warning => "WARN "
  let place := if 2 ≤ verbosity then "ens_gateway: " else ""
  linesOf (mark ++ place ++ e.text)

end CommandLine

end OffchainNames
