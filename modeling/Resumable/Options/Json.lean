import Resumable.Options.Basic
import Resumable.Json.Members

/-!
Options as JSON.

Options are written as an object.  They are read from an object too, or from an array that gives the
first of them in their order.  A missing option has its default, other members are ignored, and
`null` stands only for the absence of an interval or of a bound.
-/

namespace Resumable

namespace Json

/-- A record of at most `size` parts: an object or a short enough array. -/
def isRecord (size : Nat) : Json → Bool
  | .obj _ => true
  | .arr items => items.length ≤ size
  | _ => false

/-- A part of a record: the member of that name, or the item at that position. -/
def part? (name : String) (position : Nat) : Json → Option Json
  | .obj members => Members.only? name members
  | .arr items => items[position]?
  | _ => none

/-- A part of a record that has a default. -/
def partD (read : Json → Option α) (default : α) (name : String) (position : Nat) (record : Json) :
    Option α :=
  match record.part? name position with
  | none => some default
  | some value => read value

end Json

def CompileOptions.toJson (options : CompileOptions) : Json :=
  .obj [("transform", .str options.strategy.name),
    ("new", .str options.construction.name),
    ("js_args", .str options.fidelity.name),
    ("yield_interval", Json.ofOption (fun n : Nat => .int n) options.yieldInterval)]

def CompileOptions.ofJson? (value : Json) : Option CompileOptions := do
  guard (value.isRecord 4)
  return {
    strategy := ← value.partD (Members.named Strategy.ofName) .lazy "transform" 0
    construction := ← value.partD (Members.named Construction.ofName) .wrapper "new" 1
    fidelity := ← value.partD (Members.named Fidelity.ofName) .simple "js_args" 2
    yieldInterval := ← value.partD (Members.orNull Json.count?) none "yield_interval" 3
  }

def RunOptions.toJson (options : RunOptions) : Json :=
  .obj [("stack_size", Json.ofOption (fun n : Nat => .int n) options.stackSize),
    ("restore_frames", .int options.restoreFrames)]

def RunOptions.ofJson? (value : Json) : Option RunOptions := do
  guard (value.isRecord 2)
  return {
    stackSize := ← value.partD (Members.orNull Json.count?) none "stack_size" 0
    restoreFrames := ← value.partD Json.count? 1 "restore_frames" 1
  }

def Settings.toJson (settings : Settings) : Json :=
  .obj [("compiler", settings.compiler.toJson), ("runtime", settings.runtime.toJson)]

end Resumable
