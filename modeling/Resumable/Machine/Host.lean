import Resumable.Machine.Drive

/-!
The host: it runs a program to its end, and does the queued tasks in between, in the order in which
they were queued.
-/

namespace Resumable.Machine

/-- The oldest task. -/
def nextTask? (m : Machine) : Option (Task × Machine) :=
  match m.tasks with
  | [] => none
  | task :: rest => some (task, { m with tasks := rest })

/-- Do work of the host. -/
def doWork (lines : List String) (queued : List Task) (m : Machine) : Machine :=
  { m with output := m.output ++ lines, tasks := m.tasks ++ queued }

/-- The slice that is done last has the result. -/
def latest (previous : Option Value) : Outcome → Option Value
  | .done value => some value
  | .suspended => previous

/-- Do the tasks in their order until none is left, at most that many. -/
def service (bound : Nat) : Nat → Option Value → Machine → Option (Except Fault Value × Machine)
  | 0, _, _ => none
  | turns + 1, result, m =>
    match m.nextTask? with
    | none => some (match result with
      | some value => (.ok value, m)
      | none => (.error .stalled, m))
    | some (.host lines queued, m) => service bound turns result (m.doWork lines queued)
    | some (.resume stack, m) =>
      match m.continueWith bound stack with
      | none => none
      | some (.error fault, m) => some (.error fault, m)
      | some (.ok outcome, m) => service bound turns (latest result outcome) m

/-- Run a program and all tasks that it leaves behind. -/
def runProgram (bound : Nat) (program : Program) (m : Machine) :
    Option (Except Fault Value × Machine) :=
  match m.run bound program with
  | none => none
  | some (.error fault, m) => some (.error fault, m)
  | some (.ok outcome, m) => m.service bound bound (latest none outcome)

end Resumable.Machine
