import Resumable.Options.Basic
import Resumable.Toml.Document

/-!
Reading options from settings.

A document by itself is read strictly: an option has to be written as what it is.  In layers of
settings, some of which come from texts, a count may also be written as another number, a truth
value or a text.
-/

namespace Resumable

/-- Why there are no settings. -/
inductive SettingsError where
  /-- They cannot be read, or an option is not what it has to be. -/
  | unreadable
  | budget (error : BudgetError)
  deriving DecidableEq, Repr

def SettingsError.message : SettingsError → String
  | .unreadable => "the settings cannot be read"
  | .budget error => error.message

namespace Setting

/-- A count of at most 32 bits. -/
def boundedCount (n : Nat) : Option Nat :=
  if n < 4294967296 then some n else none

/-- A count that is written as an integer. -/
def strictCount? : Setting → Option Nat
  | .int i => if 0 ≤ i then boundedCount i.toNat else none
  | _ => none

/-- The count that a text stands for. -/
def countOfText? (text : String) : Option Nat :=
  let word := text.toLower
  if word = "true" || word = "on" || word = "yes" then some 1
  else if word = "false" || word = "off" || word = "no" then some 0
  else
    let digits := match text.toList with
      | '+' :: rest => rest
      | rest => rest
    if digits.isEmpty || !digits.all Char.isDigit then none else some (Double.digitsValue digits)

/-- A count that may be written as an integer, as another number, which is rounded, as a truth value
or as a text. -/
def looseCount? : Setting → Option Nat
  | .int i => if 0 ≤ i then boundedCount i.toNat else none
  | .real x => boundedCount x.round.toUInt64.toNat
  | .bool b => some (if b then 1 else 0)
  | .str text => (countOfText? text).bind boundedCount
  | _ => none

/-- An option given by its name. -/
def named (parse : String → Except ε α) : Setting → Option α
  | .str text => (parse text).toOption
  | _ => none

/-- A value that may be absent. -/
def orNull (read : Setting → Option α) : Setting → Option (Option α)
  | .null => some none
  | value => (read value).map some

/-- A part of a record that has a default. -/
def partD (read : Setting → Option α) (default : α) (name : String) (position : Nat)
    (record : Setting) : Option α :=
  match record.part? name position with
  | none => some default
  | some value => read value

/-- The options of instrumentation, with counts that `count?` understands. -/
def compileOptions? (count? : Setting → Option Nat) (record : Setting) : Option CompileOptions := do
  guard record.isRecord
  return {
    strategy := ← record.partD (named Strategy.ofName) .lazy "transform" 0
    construction := ← record.partD (named Construction.ofName) .wrapper "new" 1
    fidelity := ← record.partD (named Fidelity.ofName) .simple "js_args" 2
    yieldInterval := ← record.partD (orNull count?) none "yield_interval" 3
  }

/-- The options of the machine. -/
def runOptions? (count? : Setting → Option Nat) (record : Setting) : Option RunOptions := do
  guard record.isRecord
  return {
    stackSize := ← record.partD (orNull count?) none "stack_size" 0
    restoreFrames := ← record.partD count? 1 "restore_frames" 1
  }

/-- All options. -/
def settings? (count? : Setting → Option Nat) (record : Setting) : Option Settings := do
  return {
    compiler := ← record.partD (compileOptions? count?) {} "compiler" 0
    runtime := ← record.partD (runOptions? count?) {} "runtime" 1
  }

end Setting

namespace Settings

/-- Settings whose bounds can work. -/
def checked : Option Settings → Except SettingsError Settings
  | none => .error .unreadable
  | some settings =>
    match settings.runtime.check with
    | .ok () => .ok settings
    | .error e => .error (.budget e)

/-- The settings in a TOML document. -/
def ofToml (text : String) : Except SettingsError Settings :=
  checked do Setting.settings? Setting.strictCount? (.table (← Toml.read? text))

/-- The settings in layers, of which later ones are over earlier ones. -/
def ofLayers (layers : List (List (String × Setting))) : Except SettingsError Settings :=
  checked (Setting.settings? Setting.looseCount? (layers.foldl Setting.override (.table [])))

end Settings

end Resumable
