import Resumable.Machine.Perform

/-!
Slices of execution.

Captures, restores and discards unwind to `Machine.drive`, which decides what is done next, so that
it is never nested.  A slice ends when the program is done, fails or yields to the host.

Where the depth is limited, a saved stack is built up in segments: the inner frames first, while the
outer ones are pending until the segment returns or throws.
-/

namespace Resumable

/-- What is done in the next turn. -/
inductive Next where
  | run (action : Action)
  | restore (stack : Stack)

/-- How a slice ended. -/
inductive Outcome where
  | done (value : Value)
  /-- A task is queued that resumes the program. -/
  | suspended
  deriving Inhabited

/-- What follows from a turn. -/
inductive Turn where
  | next (next : Next)
  | ended (result : Except Fault Outcome)

namespace Machine

/-! ## Building up -/

/-- Keep back the outer frames of a stack that is too long for one segment.  Frames that are entered
again do not count against the depth budget. -/
def segment (stack : Stack) (m : Machine) : Stack × Machine :=
  match m.options.stackSize with
  | none => (stack, m)
  | some size =>
    let (inner, outer) := stack.splitOuter (m.options.restoreFrames + 1)
    (inner, { m with
      pending := outer.appendOuter m.pending
      remaining := some (size + inner.length) })

/-- Make a stack the one that is built up. -/
def install (stack : Stack) (m : Machine) : Machine :=
  let (stack, m) := m.segment stack
  { m with
    stack
    shadow := .empty
    mode := .restoring
    stats.restores := m.stats.restores + 1 }

end Machine

namespace Eval

/-- Build up a stack from its outer end. -/
def restore (g : Engine) (stack : Stack) : Eval Value := do
  if stack.isEmpty then Run.fault .emptyStack
  Run.modify (·.install stack)
  reenterNext g

/-- Begin a turn. -/
def start (g : Engine) (next : Next) : Eval Value := do
  Run.modify fun m => { m with remaining := m.options.stackSize.map Int.ofNat }
  match next with
  | .run action =>
    Run.modify ({ · with mode := .normal, stack := .empty, shadow := .empty })
    g.perform action
  | .restore stack => restore g stack

end Eval

namespace Machine

/-! ## Turns -/

/-- Go on with the pending frames, which are entered through `top`. -/
def nextSegment (top : Action) (m : Machine) : Turn × Machine :=
  (.next (.restore (m.pending.pushInner (.top top))), { m with pending := .empty })

/-- What follows from a capture. -/
def afterCapture (handler : CaptureHandler) (stack : Stack) (m : Machine) : Turn × Machine :=
  let stack := stack.appendOuter m.pending
  let m := { m with
    capturing := false
    pending := .empty
    stats.captures := m.stats.captures + 1 }
  match handler with
  | .guest func =>
    let (id, store) := m.store.newContinuation stack
    let top := .call func .undefined [.continuation id]
    (.next (.restore (stack.pushInner (.top top))), { m with store })
  | .reenter action => (.next (.restore (stack.pushInner (.top action))), m)
  | .yield =>
    let m := m.enqueue (.resume (stack.pushInner (.top (.value .undefined))))
    (.ended (.ok .suspended), { m with stats.yields := m.stats.yields + 1 })

/-- What is run in place of what was discarded: a function is called, and any other value is the
result. -/
def replacementAction (replacement : Value) : Action :=
  if replacement.isCallable then .call replacement .undefined [] else .value replacement

/-- What follows from a signal. -/
def afterSignal (signal : Signal) (m : Machine) : Turn × Machine :=
  match signal with
  | .capture handler stack => m.afterCapture handler stack
  | .restore stack => (.next (.restore stack), { m with pending := .empty })
  | .discard replacement =>
    (.next (.run (replacementAction replacement)),
      { m with pending := .empty, stats.discards := m.stats.discards + 1 })

/-- What follows from a result.  While frames are collected on the way of returns, the result of the
outermost call ends the capture. -/
def afterResult (value : Value) (m : Machine) : Turn × Machine :=
  if m.capturing && m.strategy = .retval then
    { m with pendingHandler := none, stack := .empty }.afterCapture
      (m.pendingHandler.getD .yield) m.stack
  else if m.pending.isEmpty then (.ended (.ok (.done value)), m)
  else m.nextSegment (.value value)

/-- What follows from an exception.  It fails the program if there is no frame left that could catch
it. -/
def afterThrow (depth : Nat) (value : Value) (m : Machine) : Option (Turn × Machine) :=
  if m.pending.isEmpty then
    (m.store.display depth value).map fun shown => (.ended (.error (.uncaught shown)), m)
  else some (m.nextSegment (.throw value))

/-- Do one turn within a bound. -/
def turn (bound : Nat) (next : Next) (m : Machine) : Option (Turn × Machine) :=
  match Eval.start (engine bound) next m with
  | .ok value m => some (m.afterResult value)
  | .unwind (.throw value) m => m.afterThrow bound value
  | .unwind (.signal signal) m => some (m.afterSignal signal)
  | .unwind (.fault fault) m => some (.ended (.error fault), m)
  | .cutOff => none

/-- Do turn after turn until the slice ends, at most that many. -/
def drive (bound : Nat) : Nat → Next → Machine → Option (Except Fault Outcome × Machine)
  | 0, _, _ => none
  | turns + 1, next, m =>
    match m.turn bound next with
    | none => none
    | some (.ended result, m) => some (result, m)
    | some (.next next, m) => drive bound turns next m

/-! ## Slices -/

/-- The top level of a program as a function. -/
def top (program : Program) : Func :=
  { name := some "<top>", body := program.body, frame := program.instrumented.map (·.frame) }

/-- Set the interval of yields for a program.  One that is not instrumented leaves it as it is. -/
def setInterval (program : Program) (m : Machine) : Machine :=
  let yieldInterval := match program.instrumented with
    | some header => header.yieldInterval.filter (· > 0)
    | none => m.yieldInterval
  { m with yieldInterval, countdown := yieldInterval.getD 0 }

/-- Run a program until it ends or yields. -/
def run (bound : Nat) (program : Program) (m : Machine) : Option (Except Fault Outcome × Machine) :=
  let compiled := (program.instrumented.map (·.strategy)).getD m.strategy
  if compiled ≠ m.strategy then some (.error (.strategyMismatch compiled m.strategy), m)
  else (m.setInterval program).drive bound bound (.run (.enterTop (top program)))

/-- Build up a saved stack, and go on until the program ends or yields. -/
def continueWith (bound : Nat) (stack : Stack) (m : Machine) :
    Option (Except Fault Outcome × Machine) :=
  m.drive bound bound (.restore stack)

/-- Call a value outside of any slice. -/
def call (bound : Nat) (func this : Value) (args : List Value) : Eval Value :=
  (engine bound).perform (.call func this args)

end Machine

end Resumable
