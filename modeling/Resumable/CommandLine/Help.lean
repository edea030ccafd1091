import Resumable.CommandLine.Arguments

/-!
Help on the command line.
-/

namespace Resumable.CommandLine

/-- Lines, each with its end. -/
def lines (texts : List String) : String :=
  String.join (texts.map (· ++ "\n"))

/-- A text filled up with blanks. -/
def padded (width : Nat) (text : String) : String :=
  text ++ String.ofList (List.replicate (width - text.length) ' ')

/-- Rows of two columns. -/
def columns (rows : List (String × String)) : List String :=
  let width := rows.foldl (fun width row => max width row.1.length) 0
  rows.map fun (left, right) => "  " ++ padded width left ++ "  " ++ right

/-- How an option is written with its long name. -/
def OptionSpec.longForm (spec : OptionSpec) : String :=
  let value := match spec.valueName with
    | some name => " <" ++ name ++ ">"
    | none => ""
  "--" ++ spec.name ++ value

/-- How an option is written. -/
def OptionSpec.form (spec : OptionSpec) : String :=
  let short := match spec.short with
    | some c => "-" ++ c.toString ++ ", "
    | none => "    "
  short ++ spec.longForm

/-- How long a line of the help should be at most. -/
def lineWidth : Nat :=
  100

/-- What options are for stands below them: the options take more than two fifths of a line, and
what one of them is for does not fit behind them. -/
def aboutBelow (specs : List OptionSpec) : Bool :=
  let taken := specs.foldl (fun width spec => max width spec.longForm.length) 0 + 12
  lineWidth * 2 < taken * 5 && specs.any fun spec => lineWidth < taken + spec.about.length

/-- The part of the help that lists options. -/
def optionLines (specs : List OptionSpec) : List String :=
  "Options:" ::
    if aboutBelow specs then
      specs.flatMap fun spec => ["  " ++ spec.form, padded 10 "" ++ spec.about]
    else columns (specs.map fun spec => (spec.form, spec.about))

/-- What help is for. -/
def helpAbout : String :=
  "Print this message or the help of the given subcommand(s)"

/-- Help on all commands. -/
def generalHelp : String :=
  let commands := commandSpecs.map (fun spec => (spec.name, spec.about)) ++ [("help", helpAbout)]
  lines <|
    ["Jumper - continuation instrumentation for guest programs", "",
      "Usage: jumper [OPTIONS] <COMMAND>", "", "Commands:"] ++
    columns commands ++ [""] ++ optionLines [configSpec, helpSpec]

/-- Help on one command. -/
def CommandSpec.help (spec : CommandSpec) : String :=
  let usage := "Usage: jumper " ++ spec.name ++ " [OPTIONS]"
  let input := if spec.takesInput then
      [usage ++ " <INPUT>", "", "Arguments:", "  <INPUT>  Program JSON file (\"-\" for stdin)"]
    else [usage]
  lines <|
    [spec.about, ""] ++ input ++ [""] ++ optionLines (configSpec :: spec.options ++ [helpSpec])

/-- Help on help. -/
def helpHelp : String :=
  lines [helpAbout, "", "Usage: jumper help [COMMAND]...", "", "Arguments:",
    "  [COMMAND]...  Print help for the subcommand(s)"]

/-- The help that is asked for. -/
def help : Topic → String
  | .general => generalHelp
  | .help => helpHelp
  | .command spec => spec.help

end Resumable.CommandLine
