/-!
# Help texts

The command line has levels: the program itself and its commands, of which one has commands of its own.
Each level has a help text, which lists what may follow, and a version text.
-/

namespace OffchainNames

namespace CommandLine

/-- A level of the command line. -/
inductive Level where
  | program
  | serve
  | config
  | display
  | validate
  | address
  | help
  | configHelp
  deriving DecidableEq, Repr

/-- The name of the program. -/
def programName : String := "ens-gateway"

/-- The version of the program. -/
def version : String := "0.1.0"

namespace Level

/-- The name under which a level is called. -/
def name : Level → String
  | program => programName
  | serve => "serve"
  | config => "config"
  | display => "show"
  | validate => "validate"
  | address => "address"
  | help => "help"
  | configHelp => "help"

/-- What a level does. -/
def about : Level → String
  | program => "Command-line server for the ENS off-chain resolution gateway"
  | serve => "Run the HTTP gateway"
  | config => "Inspect configuration"
  | display => "Show the effective configuration, secrets redacted"
  | validate => "Validate configuration"
  | address => "Print the response signer address"
  | help | configHelp => "Print this message or the help of the given subcommand(s)"

/-- The levels below a level. -/
def below : Level → List Level
  | program => [serve, config, address, help]
  | config => [display, validate, configHelp]
  | _ => []

/-- Whether a level prints a help text. -/
def isHelp : Level → Bool
  | help => true
  | configHelp => true
  | _ => false

/-- The level below a level with a name. -/
def below? (level : Level) (text : String) : Option Level :=
  level.below.find? fun l => l.name == text

/-- The names of the levels from the program to a level. -/
def path : Level → List String
  | program => [programName]
  | config => [programName, config.name]
  | display => [programName, config.name, display.name]
  | validate => [programName, config.name, validate.name]
  | configHelp => [programName, config.name, configHelp.name]
  | level => [programName, level.name]

/-- The options of a level, with what each is for; the environment may hold the path of the file. -/
def options (level : Level) (file : Option String) : List (String × String) :=
  (if level = serve then
    [("-l, --listen <LISTEN>", "Socket address to bind (overrides config)")]
  else []) ++
  [("-v, --verbose...", "Verbosity level (-v, -vv, -vvv)"),
   ("-c, --config <CONFIG>",
    "Configuration file path [env: GATEWAY_CONFIG=" ++ file.getD "" ++ "]"),
   ("-h, --help", "Print help"), ("-V, --version", "Print version")]

/-- Lines of two columns. -/
def columns (rows : List (String × String)) : List String :=
  let width := rows.foldl (fun w (left, _) => max w left.length) 0
  rows.map fun (left, right) =>
    "  " ++ left ++ String.ofList (List.replicate (width - left.length + 2) ' ') ++ right

/-- The lines of a help text. -/
def helpLines (level : Level) (file : Option String) : List String :=
  let call := "Usage: " ++ " ".intercalate level.path
  let usage := call ++ " [OPTIONS]"
  let commands := columns (level.below.map fun l => (l.name, l.about))
  if level.isHelp then
    [level.about, "", call ++ " [COMMAND]...", "", "Arguments:"]
      ++ columns [("[COMMAND]...", "Print help for the subcommand(s)")]
  else if level.below.isEmpty then
    [level.about, "", usage, "", "Options:"] ++ columns (level.options file)
  else
    [level.about, "", usage ++ " <COMMAND>", "", "Commands:"] ++ commands ++ ["", "Options:"]
      ++ columns (level.options file)

/-- The line of a version text. -/
def versionLine (level : Level) : String := "-".intercalate level.path ++ " " ++ version

end Level

end CommandLine

end OffchainNames
