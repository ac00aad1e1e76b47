import OffchainNames.CommandLine.Program

/-!
# Entry point

Reads the words of the command line, the environment and the file of the settings, and does what the
program decides. A database file is kept in memory for as long as the program runs, and there is no
socket to listen on here.
-/

namespace OffchainNames

namespace CommandLine

/-- The names of the variables that count. -/
def variableNames : List String :=
  [Settings.keyVariable, Settings.listenVariable, Settings.endpointVariable, fileVariable]

/-- The variables of the environment that are set. -/
def readVariables : IO (List (String × String)) :=
  variableNames.filterMapM fun name => do return (← IO.getEnv name).map fun value => (name, value)

/-- What is found at a path. -/
def contentAt (path : String) : IO FileContent := do
  try
    return .text (← IO.FS.readFile path)
  catch
    | .noFileOrDirectory .. => return .absent
    | e => return .unreadable (toString e)

/-- Prints lines. -/
def printAll (lines : List String) : IO Unit := lines.forM fun line => IO.println line

/-- Runs the program on the words of a command line. -/
def runWords (words : List String) : IO UInt32 := do
  let found ← readVariables
  let lookup (name : String) : Option String := found.lookup name
  match Request.ofWords (lookup fileVariable) words with
  | .misuse =>
    (Level.program.helpLines (lookup fileVariable)).forM fun line => IO.eprintln line
    return 2
  | .print lines =>
    printAll lines
    return 0
  | .run invocation =>
    let content ← contentAt (invocation.file.getD standardFile)
    let host : Host := { lookup, file := fun _ => content, openDatabase := fun _ => .ok .empty }
    let report := match invocation.run host with
      | .done report => report
      | .serve service => service.unbound "there is no socket to listen on"
    printAll report.output
    printAll (report.log.flatMap fun entry => entry.lines invocation.verbosity)
    return UInt32.ofNat report.code

end CommandLine

end OffchainNames

/-- Runs the program. -/
def main (words : List String) : IO UInt32 := OffchainNames.CommandLine.runWords words
