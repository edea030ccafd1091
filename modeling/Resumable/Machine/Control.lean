import Resumable.Machine.Show
import Resumable.Options.Basic

/-!
The state of a machine, and computations on it.

A computation ends with a result, unwinds for a reason, or is cut off because its bound was too
small.  The first two leave a state behind.
-/

namespace Resumable

/-! ## Reasons to unwind -/

/-- Who is given a finished capture. -/
inductive CaptureHandler where
  /-- A guest function, which is called with the continuation. -/
  | guest (func : Value)
  /-- A call that was cut off for want of depth, to be made again. -/
  | reenter (action : Action)
  /-- The host, which resumes the program later. -/
  | yield
  deriving Inhabited

/-- Transfers of control; guest programs cannot catch them. -/
inductive Signal where
  /-- Pause here. -/
  | capture (handler : CaptureHandler) (stack : Stack)
  /-- Give up what is running and build up this stack. -/
  | restore (stack : Stack)
  /-- Give up what is running, and run this instead. -/
  | discard (replacement : Value)
  deriving Inhabited

def Signal.name : Signal → String
  | .capture .. => "capture"
  | .restore _ => "restore"
  | .discard _ => "discard"

/-- Who is given a capture, in words. -/
def Store.debugHandler (s : Store) (depth : Nat) : CaptureHandler → Option String
  | .guest func => do return "Guest(" ++ (← s.debug depth func) ++ ")"
  | .reenter _ => some "Reenter"
  | .yield => some "Yield"

/-- The parts of a signal. -/
def Store.debugSignal (s : Store) (depth : Nat) : Signal → Option String
  | .capture handler stack => do
    return "Capture \x7b handler: " ++ (← s.debugHandler depth handler) ++ ", stack: " ++
      (← s.debugStack depth stack) ++ " \x7d"
  | .restore stack => do
    return "Restore \x7b stack: " ++ (← s.debugStack depth stack) ++ " \x7d"
  | .discard replacement => do
    return "Discard \x7b replacement: " ++ (← s.debug depth replacement) ++ " \x7d"

/-- Failures of a run. -/
inductive Fault where
  /-- A guest exception that nobody caught. -/
  | uncaught (shown : String)
  /-- A saved frame does not fit the function that takes it. -/
  | frameShape (function : String) (expected found : Nat)
  /-- There is a top frame where a call frame is expected. -/
  | unexpectedTop (function : String)
  | emptyStack
  | strategyMismatch (compiled runtime : Strategy)
  /-- A jump out of its function. -/
  | strayJump (jump : String)
  /-- The program is suspended, and nothing is left to resume it. -/
  | stalled
  deriving DecidableEq, Repr, Inhabited

def Fault.message : Fault → String
  | .uncaught shown => s!"uncaught exception: {shown}"
  | .frameShape function expected found =>
    s!"frame shape mismatch in {function}: expected {expected} locals, found {found}"
  | .unexpectedTop function =>
    s!"frame shape mismatch in {function}: expected a call frame, found the top frame"
  | .emptyStack => "restore requested with an empty stack"
  | .strategyMismatch compiled runtime =>
    s!"bad runtime: program was instrumented for {compiled.name}, runtime uses {runtime.name}"
  | .strayJump jump => s!"{jump} escaped its enclosing function"
  | .stalled => "program suspended with nothing left to resume it"

/-- Why a computation has no result. -/
inductive Unwind where
  /-- A guest exception. -/
  | throw (value : Value)
  | signal (signal : Signal)
  | fault (fault : Fault)
  deriving Inhabited

/-- How a statement ended. -/
inductive Completion where
  | normal
  | break (label : Option String)
  | continue (label : Option String)
  | return (value : Value)
  deriving Inhabited

/-! ## The machine -/

inductive Mode where
  | normal
  /-- Building up a saved stack. -/
  | restoring
  deriving DecidableEq, Repr

def Mode.name : Mode → String
  | .normal => "normal"
  | .restoring => "restoring"

/-- Work that waits for the host. -/
inductive Task where
  /-- Build up a stack. -/
  | resume (stack : Stack)
  /-- Work of the host: print lines, and queue further tasks.  If that depends on the machine, they
  are what it comes to in its turn. -/
  | host (lines : List String) (queued : List Task)
  deriving Inhabited

/-- Work that prints a line and queues itself again until it is done `times` times. -/
def Task.printing (line : String) : Nat → Task
  | 0 | 1 => .host [line] []
  | times + 2 => .host [line] [printing line (times + 1)]

/-- What a machine has done. -/
structure Stats where
  captures : Nat := 0
  restores : Nat := 0
  yields : Nat := 0
  discards : Nat := 0
  deriving DecidableEq, Repr

def Stats.toJson (stats : Stats) : Json :=
  .obj [("captures", .int stats.captures), ("restores", .int stats.restores),
    ("yields", .int stats.yields), ("discards", .int stats.discards)]

structure Machine where
  strategy : Strategy
  options : RunOptions := {}
  mode : Mode := .normal
  /-- The frames that are being built up, or that are collected on the way of returns. -/
  stack : Stack := {}
  /-- A frame for every call in progress, where the strategy keeps them. -/
  shadow : Stack := {}
  /-- Outer frames that are not entered again yet. -/
  pending : Stack := {}
  /-- How many more calls may be nested. -/
  remaining : Option Int := none
  /-- Frames are being collected. -/
  capturing : Bool := false
  /-- Who is given the frames that are collected on the way of returns. -/
  pendingHandler : Option CaptureHandler := none
  yieldInterval : Option Nat := none
  /-- How many safe points are left before the next yield. -/
  countdown : Nat := 0
  store : Store
  tasks : List Task := []
  /-- The lines printed. -/
  output : Array String := #[]
  stats : Stats := {}

/-! ## Computations -/

/-- How a computation on a state `σ` ends. -/
inductive Ending (σ α : Type) where
  | ok (result : α) (state : σ)
  | unwind (reason : Unwind) (state : σ)
  /-- The bound was too small. -/
  | cutOff

/-- A computation on a state `σ`. -/
def Run (σ α : Type) : Type :=
  σ → Ending σ α

namespace Run

@[inline]
def pure (a : α) : Run σ α :=
  fun s => .ok a s

@[inline]
def bind (x : Run σ α) (f : α → Run σ β) : Run σ β :=
  fun s => match x s with
    | .ok a s => f a s
    | .unwind reason s => .unwind reason s
    | .cutOff => .cutOff

instance : Monad (Run σ) where
  pure := Run.pure
  bind := Run.bind

/-- Unwind for this reason. -/
@[inline]
def unwind (reason : Unwind) : Run σ α :=
  fun s => .unwind reason s

/-- Raise a guest exception. -/
@[inline]
def throw (value : Value) : Run σ α :=
  unwind (.throw value)

@[inline]
def signal (signal : Signal) : Run σ α :=
  unwind (.signal signal)

@[inline]
def fault (fault : Fault) : Run σ α :=
  unwind (.fault fault)

@[inline]
def cutOff : Run σ α :=
  fun _ => .cutOff

/-- A result that a bound may have kept from being found. -/
@[inline]
def ofOption : Option α → Run σ α
  | some a => pure a
  | none => cutOff

/-- Something about the state. -/
@[inline]
def read (f : σ → α) : Run σ α :=
  fun s => .ok (f s) s

@[inline]
def modify (f : σ → σ) : Run σ Unit :=
  fun s => .ok () (f s)

/-- Change the state, and answer something about the change. -/
@[inline]
def change (f : σ → α × σ) : Run σ α :=
  fun s => match f s with
    | (a, s) => .ok a s

/-- The computation, with its unwinding as a result. -/
@[inline]
def attempt (x : Run σ α) : Run σ (Except Unwind α) :=
  fun s => match x s with
    | .ok a s => .ok (.ok a) s
    | .unwind reason s => .ok (.error reason) s
    | .cutOff => .cutOff

/-- Go on with what `attempt` found. -/
@[inline]
def settle : Except Unwind α → Run σ α
  | .ok a => pure a
  | .error reason => unwind reason

end Run

/-- A computation on a machine. -/
abbrev Eval := Run Machine

/-! ## Guest errors -/

/-- What a guest program can do wrong.  Values are given by their texts. -/
inductive GuestError where
  | notFunction (shown : String)
  | notConstructor (shown : String)
  | notCallable (shown : String)
  | unbound (name : String)
  | readOf (shown property : String)
  | writeOf (property shown : String)
  | tooFar (index : String) (length : Nat)
  | fudged (shown : String)
  | captureNeedsFunction (shown : String)
  | notArray (method : String)

def GuestError.info : GuestError → ErrorInfo
  | .notFunction shown => ⟨"TypeError", s!"{shown} is not a function"⟩
  | .notConstructor shown => ⟨"TypeError", s!"{shown} is not a constructor"⟩
  | .notCallable shown =>
    ⟨"TypeError", s!"right-hand side of instanceof is not callable: {shown}"⟩
  | .unbound name => ⟨"ReferenceError", s!"{name} is not defined"⟩
  | .readOf shown property =>
    ⟨"TypeError", s!"cannot read properties of {shown} (reading '{property}')"⟩
  | .writeOf property shown => ⟨"TypeError", s!"cannot set property '{property}' on {shown}"⟩
  | .tooFar index length =>
    ⟨"RangeError", s!"index {index} is too far past the end of an array of length {length}"⟩
  | .fudged shown => ⟨"FudgedContinuationError", s!"FudgedContinuationError({shown})"⟩
  | .captureNeedsFunction shown => ⟨"TypeError", s!"captureCC expects a function, got {shown}"⟩
  | .notArray method => ⟨"TypeError", s!"{method} called on a non-array"⟩

namespace Eval

/-- Raise a guest error. -/
def raise (e : GuestError) : Eval α :=
  Run.throw (.error e.info)

/-- The text of a value. -/
def display (depth : Nat) (value : Value) : Eval String := do
  Run.ofOption (← Run.read fun m => m.store.display depth value)

/-- Change the store, and answer something about the change.  The machine lets go of its store
meanwhile, so that it can be changed in place. -/
@[inline]
def changeStore (f : Store → α × Store) : Eval α :=
  Run.change fun m =>
    let store := m.store
    let m := { m with store := {} }
    match f store with
    | (a, store) => (a, { m with store })

@[inline]
def modifyStore (f : Store → Store) : Eval Unit :=
  Run.modify fun m =>
    let store := m.store
    let m := { m with store := {} }
    { m with store := f store }

end Eval

namespace Machine

/-- The store of a new machine, in which the natives are global.  Its only object is the prototype
of closures that do not exist. -/
def initialStore : Store :=
  let (globals, store) := ({ objects := #[{}] } : Store).newScope none
  store.declareAll globals (Native.globals.map fun native => (native.name, .native native))

def new (strategy : Strategy) (options : RunOptions) : Machine :=
  { strategy, options, store := initialStore }

/-- A machine for the strategy that a program was instrumented for. -/
def forProgram (program : Program) (options : RunOptions) : Machine :=
  new ((program.instrumented.map (·.strategy)).getD .lazy) options

def print (m : Machine) (line : String) : Machine :=
  { m with output := m.output.push line }

def global? (m : Machine) (name : String) : Option Value :=
  m.store.local? Store.globals name

def setGlobal (m : Machine) (name : String) (value : Value) : Machine :=
  { m with store := m.store.declare Store.globals name value }

/-- Queue a task behind all others. -/
def enqueue (m : Machine) (task : Task) : Machine :=
  { m with tasks := m.tasks ++ [task] }

/-- Queue the delivery of a value to a continuation. -/
def resume (m : Machine) (continuation : ContinuationId) (value : Value) : Machine :=
  m.enqueue (.resume ((m.store.continuation continuation).pushInner (.top (.value value))))

end Machine

end Resumable
