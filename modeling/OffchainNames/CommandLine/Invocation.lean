import OffchainNames.CommandLine.Help

/-!
# Reading the command line

The words of a command line are options and names of commands. Options stand at any level; two of them
take a value, which is the rest of the word or the next word. A word of options with one dash may hold
several. What is asked for is a command with its options, or a text to print, unless the words are
none of these (`Request.ofWords`).
-/

namespace OffchainNames

namespace CommandLine

/-- What a command does. -/
inductive Command where
  /-- Serves, on another address than that of the settings if one is given. -/
  | serve (listen : Option String)
  | display
  | validate
  | address
  deriving DecidableEq, Repr

/-- A command with its options. -/
structure Invocation where
  command : Command
  file : Option String := none
  verbosity : Nat := 0
  deriving DecidableEq, Repr

/-- What a command line asks for. -/
inductive Request where
  | run (invocation : Invocation)
  | print (lines : List String)
  | misuse
  deriving DecidableEq, Repr

/-- An option with a value. -/
inductive Valued where
  | file
  | listen
  deriving DecidableEq, Repr

/-- An option. -/
inductive Flag where
  | verbose
  | help
  | version
  | valued (option : Valued)
  deriving DecidableEq, Repr

/-- What is known after some words. -/
structure Progress where
  level : Level := .program
  /-- How much is logged, as this level says. -/
  verbosity : Nat := 0
  /-- How much is logged, as the levels above say. -/
  verbosityAbove : Nat := 0
  /-- The file that this level gives. -/
  file : Option String := none
  /-- The file that a level above gives. -/
  fileAbove : Option String := none
  /-- Whether some level above gives no file. -/
  lacking : Bool := false
  listen : Option String := none
  /-- Whether only names may follow. -/
  closed : Bool := false
  /-- The option whose value is the next word. -/
  pending : Option Valued := none

namespace Progress

/-- The option that a letter stands for. -/
def short? (p : Progress) (c : Char) : Option Flag :=
  match c with
  | 'v' => some .verbose
  | 'h' => some .help
  | 'V' => some .version
  | 'c' => some (.valued .file)
  | 'l' => if p.level = .serve then some (.valued .listen) else none
  | _ => none

/-- The option with a name. -/
def long? (p : Progress) (name : String) : Option Flag :=
  match name with
  | "verbose" => some .verbose
  | "help" => some .help
  | "version" => some .version
  | "config" => some (.valued .file)
  | "listen" => if p.level = .serve then some (.valued .listen) else none
  | _ => none

/-- Takes the value of an option, which stands once at a level; a file has a name. -/
def give (p : Progress) (option : Valued) (value : String) : Option Progress :=
  match option with
  | .file => if p.file.isSome ∨ value = "" then none else some { p with file := some value }
  | .listen => if p.listen.isSome then none else some { p with listen := some value }

/-- The file that counts, which the environment may give, unless it gives one without a name. -/
def settle (p : Progress) (environment : Option String) : Option (Option String) :=
  if environment = some "" ∧ (p.lacking ∨ p.file.isNone) then none
  else some ((p.file.or p.fileAbove).or environment)

/-- How much is logged: as the lowest level says that says anything. -/
def loudness (p : Progress) : Nat := if p.verbosity = 0 then p.verbosityAbove else p.verbosity

/-- Goes to a level below. -/
def enter (p : Progress) (level : Level) : Progress :=
  { p with
    level
    verbosity := 0
    verbosityAbove := p.loudness
    file := none
    fileAbove := p.file.or p.fileAbove
    lacking := p.lacking || p.file.isNone }

/-- The command of a level. -/
def command? (p : Progress) : Option Command :=
  match p.level with
  | .serve => some (.serve p.listen)
  | .display => some .display
  | .validate => some .validate
  | .address => some .address
  | _ => none

/-- What is asked for if no word follows. -/
def finish (p : Progress) (environment : Option String) : Request :=
  match p.pending, p.command?, p.settle environment with
  | none, some command, some file => .run { command, file, verbosity := p.loudness }
  | _, _, _ => .misuse

end Progress

/-- What a word leads to. -/
inductive Step where
  | next (p : Progress)
  | stop (r : Request)
  /-- To the help text of what the other words name. -/
  | help

namespace Progress

/-- Goes on, or stops if that is not possible. -/
def onward : Option Progress → Step
  | some p => .next p
  | none => .stop .misuse

/-- Stops with the help text. -/
def showHelp (p : Progress) (environment : Option String) : Step :=
  .stop (.print (p.level.helpLines environment))

/-- Stops with the version text. -/
def showVersion (p : Progress) : Step := .stop (.print [p.level.versionLine])

/-- Goes on with one more step of verbosity. -/
def louder (p : Progress) : Progress := { p with verbosity := p.verbosity + 1 }

/-- Goes on to the value of an option. -/
def await (p : Progress) (option : Valued) : Step := .next { p with pending := some option }

/-- Takes the letters of a word with one dash. -/
def letters (environment : Option String) : Progress → List Char → Step
  | p, [] => .next p
  | p, c :: rest =>
    match p.short? c with
    | none => .stop .misuse
    | some .verbose => letters environment p.louder rest
    | some .help => p.showHelp environment
    | some .version => p.showVersion
    | some (.valued option) =>
      match rest with
      | [] => p.await option
      | '=' :: rest => onward (p.give option (String.ofList rest))
      | rest => onward (p.give option (String.ofList rest))

/-- Takes a word with two dashes. -/
def longWord (environment : Option String) (p : Progress) (word : List Char) : Step :=
  let name := String.ofList (word.takeWhile (· != '='))
  match p.long? name, word.dropWhile (· != '=') with
  | some .verbose, [] => .next p.louder
  | some .help, [] => p.showHelp environment
  | some .version, [] => p.showVersion
  | some (.valued option), [] => p.await option
  | some (.valued option), _ :: value => onward (p.give option (String.ofList value))
  | _, _ => .stop .misuse

/-- Takes a name. -/
def name (p : Progress) (word : String) : Step :=
  match p.level.below? word with
  | some level => if level.isHelp then .help else .next (p.enter level)
  | none => .stop .misuse

/-- Takes a word. -/
def step (environment : Option String) (p : Progress) (word : String) : Step :=
  match p.closed, p.pending, word.toList with
  | true, _, _ => .stop .misuse
  | false, none, '-' :: '-' :: [] => .next { p with closed := true }
  | false, none, '-' :: '-' :: option => p.longWord environment option
  | false, none, '-' :: c :: more => letters environment p (c :: more)
  | false, none, _ => p.name word
  | false, some _, '-' :: _ :: _ => .stop .misuse
  | false, some option, _ => onward ({ p with pending := none }.give option word)

end Progress

/-- The help text of the level that names lead to. -/
def helpFor (environment : Option String) : Level → List String → Request
  | level, [] => .print (level.helpLines environment)
  | level, name :: rest =>
    match level.below? name with
    | some below => helpFor environment below rest
    | none => .misuse

/-- Takes the words of a command line. -/
def Progress.read (environment : Option String) : Progress → List String → Request
  | p, [] => p.finish environment
  | p, word :: rest =>
    match p.step environment word with
    | .next p => p.read environment rest
    | .stop r => r
    | .help => helpFor environment p.level rest

/-- What a command line asks for, given the file of the settings that the environment names. -/
def Request.ofWords (environment : Option String) (words : List String) : Request :=
  Progress.read environment {} words

end CommandLine

end OffchainNames
