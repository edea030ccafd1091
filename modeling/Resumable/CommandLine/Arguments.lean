import Resumable.Options.Basic
import Resumable.Text.Integer

/-!
The arguments of the command line.

Behind the name of a command there are its input and its options, in any order.  The value of an
option is the next argument, or stands behind an equals sign; behind a short name it may follow at
once.  An option is given at most once.  All arguments behind `--` are inputs.

Arguments are looked at from left to right, and the first one that asks for help or cannot be
understood decides.
-/

namespace Resumable.CommandLine

/-! ## What commands know -/

/-- An option that a command knows. -/
structure OptionSpec where
  name : String
  short : Option Char := none
  /-- The word for the value; an option without one takes no value. -/
  valueName : Option String := none
  about : String
  /-- The values that the option can have. -/
  accepts : String → Bool := fun _ => true

structure CommandSpec where
  name : String
  about : String
  takesInput : Bool := true
  options : List OptionSpec := []

/-- A count of at most 32 bits, which may have a sign. -/
def count? (text : String) : Option Nat := do
  let i ← Text.int? text.toList
  guard (0 ≤ i ∧ i < 4294967296)
  return i.toNat

def strategy? (text : String) : Option Strategy :=
  (Strategy.ofName text).toOption

def construction? (text : String) : Option Construction :=
  (Construction.ofName text).toOption

def fidelity? (text : String) : Option Fidelity :=
  (Fidelity.ofName text).toOption

/-- The option that stands before or behind the name of a command. -/
def configSpec : OptionSpec :=
  { name := "config", valueName := some "CONFIG"
    about := "Path to config file (overrides default search)" }

def helpSpec : OptionSpec :=
  { name := "help", short := some 'h', about := "Print help" }

/-- The options that are stronger than the settings of the instrumentation. -/
def flagSpecs : List OptionSpec :=
  [{ name := "transform", short := some 't', valueName := some "TRANSFORM"
     about := "Capture strategy: eager, lazy, retval, fudge"
     accepts := fun text => (strategy? text).isSome },
   { name := "new", valueName := some "NEW_METHOD"
     about := "Construction method: direct, wrapper"
     accepts := fun text => (construction? text).isSome },
   { name := "js-args", valueName := some "JS_ARGS"
     about := "Fidelity of `arguments`: simple, faithful, full"
     accepts := fun text => (fidelity? text).isSome },
   { name := "yield-interval", valueName := some "YIELD_INTERVAL"
     about := "Yield to the host every N safe points"
     accepts := fun text => (count? text).isSome }]

def checkSpec : CommandSpec :=
  { name := "check", about := "Check that a program is in normal form" }

def rulesSpec : CommandSpec :=
  { name := "rules", about := "List the normal-form rules", takesInput := false }

def compileSpec : CommandSpec :=
  { name := "compile", about := "Instrument a program and print (or write) the result"
    options := flagSpecs ++
      [{ name := "output", short := some 'o', valueName := some "OUTPUT"
         about := "Output file (default: stdout)" },
       { name := "pretty", about := "Pretty-print the output" }] }

def runSpec : CommandSpec :=
  { name := "run", about := "Run a program, instrumenting it first unless it already is"
    options := flagSpecs ++
      [{ name := "stack-size", valueName := some "STACK_SIZE"
         about := "Remaining-depth budget before the stack is captured and restored"
         accepts := fun text => (count? text).isSome },
       { name := "restore-frames", valueName := some "RESTORE_FRAMES"
         about := "Frames re-entered per restore under a depth budget"
         accepts := fun text => (count? text).isSome },
       { name := "stats", about := "Print capture statistics after the result" }] }

def commandSpecs : List CommandSpec :=
  [checkSpec, rulesSpec, compileSpec, runSpec]

/-! ## Sorting -/

/-- The arguments of a command, sorted. -/
structure Given where
  inputs : List String := []
  /-- Options by their names; those without a value have the empty one. -/
  options : List (String × String) := []

namespace Given

/-- One more input, if there may be as many. -/
def withInput (g : Given) (limit : Nat) (input : String) : Option Given :=
  if g.inputs.length < limit then some { g with inputs := g.inputs ++ [input] } else none

/-- One more option, unless it is given already or its value is not accepted. -/
def withOption (g : Given) (spec : OptionSpec) (value : String) : Option Given :=
  if (g.options.lookup spec.name).isSome || !spec.accepts value then none
  else some { g with options := g.options ++ [(spec.name, value)] }

def value? (g : Given) (name : String) : Option String :=
  g.options.lookup name

/-- The option is given. -/
def has (g : Given) (name : String) : Bool :=
  (g.value? name).isSome

end Given

/-- An argument is the name of an option, and not a value. -/
def isOption (argument : String) : Bool :=
  match argument.toList with
  | '-' :: _ :: _ => true
  | _ => false

/-- The two sides of the first equals sign. -/
def splitValue (text : List Char) : String × Option String :=
  match text.dropWhile (· ≠ '=') with
  | _ :: value => (String.ofList (text.takeWhile (· ≠ '=')), some (String.ofList value))
  | [] => (String.ofList text, none)

/-- The option that an argument names, and the value that is attached to it.  What is attached to a
short name that takes no value is not looked at: the only such name asks for help. -/
def named? (specs : List OptionSpec) (argument : String) : Option (OptionSpec × Option String) :=
  match argument.toList with
  | '-' :: '-' :: text => do
    let (name, value) := splitValue text
    return (← specs.find? (·.name = name), value)
  | '-' :: c :: attached => do
    let spec ← specs.find? (·.short = some c)
    match attached with
    | [] => return (spec, none)
    | '=' :: value | value => return (spec, spec.valueName.map fun _ => String.ofList value)
  | _ => none

/-- What a list of arguments amounts to. -/
inductive Sorted where
  | given (given : Given) (rest : List String)
  | help
  | rejected

/-- Sort arguments.  There may be `limit` inputs; the first argument that is no option and would be
one more is left over, with all behind it. -/
def sort (specs : List OptionSpec) (limit : Nat) (given : Given) : List String → Sorted
  | [] => .given given []
  | argument :: rest =>
    if isOption argument then
      match named? (specs ++ [configSpec, helpSpec]) argument with
      | none => .rejected
      | some (spec, attached) =>
        match spec.valueName, attached, rest with
        | none, some _, _ => .rejected
        | none, none, rest =>
          if spec.name = helpSpec.name then .help
          else match given.withOption spec "" with
            | some given => sort specs limit given rest
            | none => .rejected
        | some _, some value, rest =>
          match given.withOption spec value with
          | some given => sort specs limit given rest
          | none => .rejected
        | some _, none, [] => .rejected
        | some _, none, value :: rest =>
          if isOption value then .rejected
          else match given.withOption spec value with
            | some given => sort specs limit given rest
            | none => .rejected
    else match given.withInput limit argument with
      | some given => sort specs limit given rest
      | none => .given given (argument :: rest)

/-- Sort the arguments of a command, none of which may be left over. -/
def sortAll (spec : CommandSpec) (arguments : List String) : Sorted :=
  let limit := if spec.takesInput then 1 else 0
  let plain := arguments.takeWhile (· ≠ "--")
  let inputs := (arguments.dropWhile (· ≠ "--")).drop 1
  match sort spec.options limit {} plain with
  | .given given [] =>
    match inputs.foldlM (·.withInput limit ·) given with
    | some given => if given.inputs.length = limit then .given given [] else .rejected
    | none => .rejected
  | .given _ (_ :: _) => .rejected
  | other => other

/-! ## Commands -/

/-- Options that are stronger than the settings. -/
structure CompileFlags where
  strategy : Option Strategy := none
  construction : Option Construction := none
  fidelity : Option Fidelity := none
  yieldInterval : Option Nat := none

/-- The options with the flags put over them. -/
def CompileFlags.apply (flags : CompileFlags) (options : CompileOptions) : CompileOptions where
  strategy := flags.strategy.getD options.strategy
  construction := flags.construction.getD options.construction
  fidelity := flags.fidelity.getD options.fidelity
  yieldInterval := flags.yieldInterval <|> options.yieldInterval

inductive Command where
  /-- Check that a program is in normal form. -/
  | check (input : String)
  /-- List the rules of the normal form. -/
  | rules
  /-- Instrument a program, and print or write the result. -/
  | compile (input : String) (flags : CompileFlags) (output : Option String) (pretty : Bool)
  /-- Run a program, which is instrumented first unless it is already. -/
  | run (input : String) (flags : CompileFlags) (stackSize restoreFrames : Option Nat)
    (stats : Bool)

/-- What help can be on. -/
inductive Topic where
  /-- All commands. -/
  | general
  /-- Help itself. -/
  | help
  | command (spec : CommandSpec)

/-- What is asked for. -/
inductive Request where
  | help (topic : Topic)
  /-- A command, and the settings file to use. -/
  | execute (config : Option String) (command : Command)

def Given.flags (g : Given) : CompileFlags where
  strategy := (g.value? "transform").bind strategy?
  construction := (g.value? "new").bind construction?
  fidelity := (g.value? "js-args").bind fidelity?
  yieldInterval := (g.value? "yield-interval").bind count?

/-- The command of that name with its arguments. -/
def Given.command? (g : Given) (name : String) : Option Command :=
  let input := g.inputs.headD ""
  match name with
  | "check" => some (.check input)
  | "rules" => some .rules
  | "compile" => some (.compile input g.flags (g.value? "output") (g.has "pretty"))
  | "run" =>
    some (.run input g.flags ((g.value? "stack-size").bind count?)
      ((g.value? "restore-frames").bind count?) (g.has "stats"))
  | _ => none

/-- The command of that name. -/
def commandSpec? (name : String) : Option CommandSpec :=
  commandSpecs.find? (·.name = name)

/-- What help on the command of that name is on. -/
def topic? (name : String) : Option Topic :=
  if name = "help" then some .help else (commandSpec? name).map .command

/-- What the arguments ask for, if they can be understood.  A settings file may be named in front of
the command, but one that is named behind it counts. -/
def parse? (arguments : List String) : Option Request :=
  match sort [] 0 {} arguments with
  | .rejected | .given _ [] => none
  | .help | .given _ ["help"] => some (.help .general)
  | .given _ ["help", name] => (topic? name).map .help
  | .given outer (name :: rest) => do
    let spec ← commandSpec? name
    match sortAll spec rest with
    | .rejected => none
    | .help => return .help (.command spec)
    | .given inner _ =>
      return .execute (inner.value? "config" <|> outer.value? "config") (← inner.command? name)

end Resumable.CommandLine
