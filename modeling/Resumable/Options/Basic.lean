/-!
Options of instrumentation and of the machine.

* `CompileOptions` say how a program is made resumable: the capture strategy, how objects are
  constructed, how much of `arguments` survives a pause, and whether safe points are inserted.
* `RunOptions` bound how deep the machine nests calls.  `RunOptions.check` names what is wrong with
  a bound that cannot work.
-/

namespace Resumable

/-- How the frames of a paused program are collected. -/
inductive Strategy where
  /-- A shadow stack is kept on every call. -/
  | eager
  /-- Frames are appended while a capture unwinds. -/
  | lazy
  /-- Frames are collected on the way of ordinary returns. -/
  | retval
  /-- There are no continuations; handlers are given a sentinel. -/
  | fudge
  deriving DecidableEq, Repr, Inhabited

/-- How `new` is compiled. -/
inductive Construction where
  /-- Constructors keep track of `new.target` themselves. -/
  | direct
  /-- The machine mediates the construction. -/
  | wrapper
  deriving DecidableEq, Repr, Inhabited

/-- How faithfully `arguments` survives a pause. -/
inductive Fidelity where
  | simple
  | faithful
  | full
  deriving DecidableEq, Repr, Inhabited

/-- An option name that is none. -/
inductive UnknownOption where
  | strategy (name : String)
  | construction (name : String)
  | fidelity (name : String)
  deriving DecidableEq, Repr

def UnknownOption.message : UnknownOption → String
  | .strategy name => s!"bad runtime: {name}"
  | .construction name => s!"unknown construction method: {name} (expected direct or wrapper)"
  | .fidelity name => s!"unknown argument fidelity: {name} (expected simple, faithful or full)"

namespace Strategy

def name : Strategy → String
  | .eager => "eager"
  | .lazy => "lazy"
  | .retval => "retval"
  | .fudge => "fudge"

def all : List Strategy :=
  [.eager, .lazy, .retval, .fudge]

def ofName : String → Except UnknownOption Strategy
  | "eager" => .ok .eager
  | "lazy" => .ok .lazy
  | "retval" => .ok .retval
  | "fudge" => .ok .fudge
  | other => .error (.strategy other)

end Strategy

namespace Construction

def name : Construction → String
  | .direct => "direct"
  | .wrapper => "wrapper"

def ofName : String → Except UnknownOption Construction
  | "direct" => .ok .direct
  | "wrapper" => .ok .wrapper
  | other => .error (.construction other)

end Construction

namespace Fidelity

def name : Fidelity → String
  | .simple => "simple"
  | .faithful => "faithful"
  | .full => "full"

def ofName : String → Except UnknownOption Fidelity
  | "simple" => .ok .simple
  | "faithful" => .ok .faithful
  | "full" => .ok .full
  | other => .error (.fidelity other)

end Fidelity

/-- What the instrumentation is told. -/
structure CompileOptions where
  strategy : Strategy := .lazy
  construction : Construction := .wrapper
  fidelity : Fidelity := .simple
  /-- With `some n`, a safe point stands at every function entry and every loop iteration, and every
  `n`-th of them that is reached yields to the host. -/
  yieldInterval : Option Nat := none
  deriving DecidableEq, Repr

/-- What the machine is told. -/
structure RunOptions where
  /-- How many calls may be nested; without a bound there is no limit. -/
  stackSize : Option Nat := none
  /-- How many call frames are entered again at a time when the depth is bounded. -/
  restoreFrames : Nat := 1
  deriving DecidableEq, Repr

/-- A bound on the depth that cannot work. -/
inductive BudgetError where
  | stackTooSmall (size : Nat)
  | restoreFrames (frames size : Nat)
  deriving DecidableEq, Repr

def BudgetError.message : BudgetError → String
  | .stackTooSmall size => s!"stack_size must be at least 2, got {size}"
  | .restoreFrames frames size =>
    s!"restore_frames ({frames}) must be between 1 and stack_size ({size})"

/-- A bounded depth leaves room for two calls, and for more frames than are entered again at a time.
-/
def RunOptions.check (options : RunOptions) : Except BudgetError Unit :=
  match options.stackSize with
  | none => .ok ()
  | some size =>
    if size < 2 then .error (.stackTooSmall size)
    else if options.restoreFrames = 0 ∨ size ≤ options.restoreFrames then
      .error (.restoreFrames options.restoreFrames size)
    else .ok ()

/-- All options together. -/
structure Settings where
  compiler : CompileOptions := {}
  runtime : RunOptions := {}
  deriving DecidableEq, Repr

end Resumable
