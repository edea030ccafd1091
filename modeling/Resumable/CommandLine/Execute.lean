import Resumable.CommandLine.Help
import Resumable.Instrument.Compile
import Resumable.Json.Printer
import Resumable.Json.Reader
import Resumable.Machine.Host
import Resumable.Settings.Environment
import Resumable.Settings.Format
import Resumable.Settings.Read
import Resumable.Syntax.Json
import Resumable.Syntax.Load

/-!
Execution of commands.

A command needs files, variables and an input text; `Surroundings` provides them in any monad.  What
it prints is returned as a `Report`.
-/

namespace Resumable.CommandLine

/-- What a command needs from outside. -/
structure Surroundings (m : Type → Type) where
  /-- The environment variables. -/
  env : m Environment.Variables
  /-- The text of a file, if there is such a file. -/
  fileText : String → m (Option String)
  /-- Write a file; tells whether this was possible. -/
  saveFile : String → String → m Bool
  /-- The whole input text. -/
  inputText : m String

/-- Why a command failed. -/
inductive Failure where
  | settings (error : SettingsError)
  | cannotRead (file : String)
  | cannotWrite (file : String)
  | invalidProgram (input : String)
  | notNormalized (error : NotNormalized)
  | fault (fault : Fault)
  /-- The bound on the length of a run was reached. -/
  | cutOff

def Failure.message : Failure → String
  | .settings error => error.message
  | .cannotRead file => "failed to read " ++ file
  | .cannotWrite file => "failed to write " ++ file
  | .invalidProgram input => input ++ " is not a valid program"
  | .notNormalized error => error.message
  | .fault e => e.message
  | .cutOff => "the run takes too long"

/-- What a command prints, and how it ends. -/
structure Report where
  output : String := ""
  errors : String := ""
  /-- The command did what it was asked for, but what it looked at is bad. -/
  negative : Bool := false
  failure : Option Failure := none

/-- A command ends with zero unless something was wrong. -/
def Report.exitCode (r : Report) : Nat :=
  if r.negative || r.failure.isSome then 1 else 0

def Report.failed (failure : Failure) : Report :=
  { failure := some failure }

/-! ## Settings -/

/-- The variable that names a settings file. -/
def configVariable : String :=
  "JUMPER_CONFIG_PATH"

/-- The file that lists more variables. -/
def variablesFile : String :=
  ".env"

/-- The settings file that is looked for if none is named. -/
def defaultConfig : String :=
  "jumper"

/-- What is behind the last point of the last step of a file name, if something is in front of it.
-/
def ending (file : String) : String :=
  let base := (file.splitOn "/").getLastD ""
  match base.splitOn "." with
  | [] | [_] | ["", _] => ""
  | steps => steps.getLastD ""

/-- The steps of a file name without those at the end that stay where they are. -/
def trimSteps (steps : List String) : List String :=
  (steps.reverse.dropWhile fun step => step = "" || step = ".").reverse

/-- The names of the files that a settings file without an ending may be, each with its format.
There is none if the name does not end in the name of a file. -/
def candidates (name : String) : List (String × Settings.Format) :=
  let steps := trimSteps (name.splitOn "/")
  if steps.isEmpty || steps.getLast? = some ".." then []
  else Settings.Format.endings.map fun (ending, format) =>
    ("/".intercalate steps ++ "." ++ ending, format)

/-- The first of some files that is there. -/
def firstFile [Monad m] (s : Surroundings m) :
    List (String × Settings.Format) → m (Option (String × Settings.Format))
  | [] => return none
  | (name, format) :: rest => do
    match ← s.fileText name with
    | some text => return some (text, format)
    | none => firstFile s rest

/-- A settings file: the one of that very name, or one with the ending of a format.  `none` if there
is no such file or its format is not known. -/
def findConfig [Monad m] (s : Surroundings m) (name : String) :
    m (Option (String × Settings.Format)) := do
  match ← s.fileText name with
  | some text => return (Settings.Format.ofEnding? (ending name)).map fun format => (text, format)
  | none => firstFile s (candidates name)

/-- The layer of settings in a file.  A file that is asked for has to be there. -/
def configLayer [Monad m] (s : Surroundings m) (name : Option String) :
    m (Option (List (String × Setting))) := do
  match ← findConfig s (name.getD defaultConfig), name with
  | some (text, format), _ => return format.read? text
  | none, none => return some []
  | none, some _ => return none

/-- The settings: those of variables over those of a file. -/
def loadSettings [Monad m] (s : Surroundings m) (config : Option String) :
    m (Except SettingsError Settings) := do
  let env ← s.env
  let env := match config with
    | some name => (configVariable, name) :: env.filter (·.1 ≠ configVariable)
    | none => env
  let env := match ← s.fileText variablesFile with
    | some text => Environment.withFile env text
    | none => env
  match ← configLayer s (env.lookup configVariable) with
  | none => return .error .unreadable
  | some file => return Settings.ofLayers [file, Environment.layer env]

/-! ## Programs -/

/-- How deep a program text may be nested. -/
def maxNesting : Nat :=
  127

/-- A program from a file, or from the input text for a dash. -/
def readProgram [Monad m] (s : Surroundings m) (input : String) : m (Except Failure Program) := do
  let text ← if input = "-" then some <$> s.inputText else s.fileText input
  match text with
  | none => return .error (.cannotRead input)
  | some text =>
    match (Json.readShape? maxNesting Program.shape text).bind Program.ofJson? with
    | some program => return .ok program
    | none => return .error (.invalidProgram input)

/-! ## Commands -/

/-- What the violations of the normal form amount to. -/
def checkReport (input : String) (program : Program) : Report :=
  let violations := NormalForm.violations program
  if violations.isEmpty then { output := lines ["✓ " ++ input ++ " is in normal form"] }
  else
    let output := lines (violations.map ("  " ++ ·.display))
    if NormalForm.hasErrors program then
      { output, errors := lines [toString violations.length ++ " violation(s) found"],
        negative := true }
    else { output }

def rulesReport : Report :=
  { output := lines (NormalForm.Rule.all.map fun rule =>
      "  " ++ padded 18 rule.id ++ " " ++ rule.description) }

def compile [Monad m] (s : Surroundings m) (input : String) (options : CompileOptions)
    (output : Option String) (pretty : Bool) (program : Program) : m Report := do
  match program.compile options with
  | .error e => return .failed (.notNormalized e)
  | .ok program =>
    let text := if pretty then program.toJson.pretty else program.toJson.compact
    match output with
    | none => return { output := lines [text] }
    | some file =>
      if ← s.saveFile file text then
        let line := "✓ Compiled " ++ input ++ " (" ++ options.strategy.name ++ ") -> " ++ file
        return { output := lines [line] }
      else return .failed (.cannotWrite file)

/-- What a run amounts to: the lines that were printed, the result, and the statistics if they are
asked for. -/
def runReport (bound : Nat) (withStats : Bool) (result : Except Fault Value) (machine : Machine) :
    Report :=
  let printed := lines machine.output.toList
  match result with
  | .error fault => { output := printed, failure := some (.fault fault) }
  | .ok value =>
    match machine.store.toJson bound value with
    | none => { output := printed, failure := some .cutOff }
    | some json =>
      { output := printed ++ lines [json.compact]
        errors := if withStats then lines [machine.stats.toJson.pretty] else "" }

def run (bound : Nat) (compileOptions : CompileOptions) (options : RunOptions) (withStats : Bool)
    (program : Program) : Report :=
  let prepared : Except NotNormalized Program := match program.instrumented with
    | some _ => .ok program
    | none => program.compile compileOptions
  match prepared with
  | .error e => .failed (.notNormalized e)
  | .ok program =>
    match (Machine.forProgram program options).runProgram bound program.load with
    | none => .failed .cutOff
    | some (result, machine) => runReport bound withStats result machine

/-- Execute a command with these settings. -/
def Command.execute [Monad m] (bound : Nat) (s : Surroundings m) (settings : Settings) :
    Command → m Report
  | .check input => do
    match ← readProgram s input with
    | .ok program => return checkReport input program
    | .error failure => return .failed failure
  | .rules => return rulesReport
  | .compile input flags output pretty => do
    match ← readProgram s input with
    | .ok program =>
      CommandLine.compile s input (flags.apply settings.compiler) output pretty program
    | .error failure => return .failed failure
  | .run input flags stackSize restoreFrames stats => do
    let options : RunOptions :=
      { stackSize := stackSize <|> settings.runtime.stackSize
        restoreFrames := restoreFrames.getD settings.runtime.restoreFrames }
    match options.check with
    | .error e => return .failed (.settings (.budget e))
    | .ok () =>
      match ← readProgram s input with
      | .ok program =>
        return CommandLine.run bound (flags.apply settings.compiler) options stats program
      | .error failure => return .failed failure

/-- Do what the arguments ask for.  The settings are loaded before any command.  `none` if the
arguments cannot be understood. -/
def execute [Monad m] (bound : Nat) (s : Surroundings m) (arguments : List String) :
    m (Option Report) := do
  match parse? arguments with
  | none => return none
  | some (.help topic) => return some { output := help topic }
  | some (.execute config command) =>
    match ← loadSettings s config with
    | .error e => return some (.failed (.settings e))
    | .ok settings => return some (← command.execute bound s settings)

end Resumable.CommandLine
