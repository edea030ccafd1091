import Resumable.Instrument.SafePoint
import Resumable.Instrument.Cell
import Resumable.Instrument.DualMode

/-!
Compilation: a program in normal form becomes one that can be paused and resumed.
-/

namespace Resumable

/-- The program cannot be compiled: it is not in normal form. -/
structure NotNormalized where
  errors : List NormalForm.Violation

def NotNormalized.message (e : NotNormalized) : String :=
  "program is not in normal form:\n" ++
    "\n".intercalate (e.errors.map fun v => "  " ++ v.display)

/-- Safe points if there is an interval, cells for shared locals, then two modes. -/
def Program.compile (options : CompileOptions) (program : Program) : Except NotNormalized Program :=
  match NormalForm.errors program with
  | [] =>
    let source := if options.yieldInterval.isSome then SafePoint.insert program else program
    .ok ((Cell.insert source).instrument options)
  | errors => .error ⟨errors⟩

end Resumable
