import Resumable.CommandLine.Execute

/-!
The command line: arguments, files, variables and streams of the process.
-/

namespace Resumable.CommandLine

/-- The variables that settings can be in. -/
def settingVariables : List String :=
  [configVariable] ++ ["COMPILER__TRANSFORM", "COMPILER__NEW", "COMPILER__JS_ARGS",
    "COMPILER__YIELD_INTERVAL", "RUNTIME__STACK_SIZE", "RUNTIME__RESTORE_FRAMES"].map ("JUMPER__" ++
    ·)

/-- The variables of the process. -/
def processVariables : IO Environment.Variables := do
  let found ← settingVariables.mapM fun name => do
    return (← IO.getEnv name).map fun value => (name, value)
  return found.filterMap id

/-- The text of a file, if it can be read. -/
def readProcessFile (file : String) : IO (Option String) := do
  try
    return some (← IO.FS.readFile file)
  catch _ => return none

/-- Write a file if possible. -/
def writeProcessFile (file text : String) : IO Bool := do
  try
    IO.FS.writeFile file text
    return true
  catch _ => return false

/-- The input stream up to its end. -/
partial def readProcessInput (stream : IO.FS.Stream) (read : String) : IO String := do
  let line ← stream.getLine
  if line.isEmpty then return read
  readProcessInput stream (read ++ line)

/-- The surroundings of the process. -/
def process : Surroundings IO where
  env := processVariables
  fileText := readProcessFile
  saveFile := writeProcessFile
  inputText := do readProcessInput (← IO.getStdin) ""

/-- How many steps of each kind a run may take. -/
def processBound : Nat :=
  1099511627776

end Resumable.CommandLine

def main (arguments : List String) : IO UInt32 := do
  match ← Resumable.CommandLine.execute Resumable.CommandLine.processBound
      Resumable.CommandLine.process arguments with
  | none =>
    IO.eprint Resumable.CommandLine.generalHelp
    return 2
  | some report =>
    IO.print report.output
    IO.eprint report.errors
    if let some failure := report.failure then IO.eprintln ("Error: " ++ failure.message)
    return report.exitCode.toUInt32
