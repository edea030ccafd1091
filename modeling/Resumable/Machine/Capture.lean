import Resumable.Machine.Activation

/-!
The beginning of captures, and what begins them without being asked: safe points and the depth
budget.

`perform` makes the machine do something; it is used where captures are not supported, to call the
function that waits for a continuation.
-/

namespace Resumable

/-- What evaluation relies on to leave an activation. -/
structure Engine where
  /-- Bounds the turns of a loop, and how deep values are shown. -/
  bound : Nat
  perform : Action → Eval Value

namespace Eval

/-- Begin a capture in the way of the machine's strategy: by unwinding with the frames that are kept
already, by unwinding with none, or by returning. -/
def raiseCapture (g : Engine) (handler : CaptureHandler) : Eval Value := do
  match ← Run.read (·.strategy) with
  | .eager =>
    Run.modify ({ · with capturing := true })
    Run.signal (.capture handler (← Run.read (·.shadow)))
  | .lazy =>
    Run.modify ({ · with capturing := true })
    Run.signal (.capture handler .empty)
  | .retval =>
    Run.modify ({ · with capturing := true, pendingHandler := some handler, stack := .empty })
    return .undefined
  | .fudge =>
    match handler with
    | .guest func => g.perform (.call func .undefined [.fudged])
    | .reenter _ | .yield => return .undefined

/-- Yield to the host if as many safe points were passed as the interval says. -/
def safePoint (g : Engine) : Eval Value := do
  match ← Run.read (·.yieldInterval) with
  | none => return .undefined
  | some interval =>
    let left := (← Run.read (·.countdown)) - 1
    if left > 0 then
      Run.modify ({ · with countdown := left })
      return .undefined
    else
      Run.modify ({ · with countdown := interval })
      raiseCapture g .yield

/-- Count a call that begins.  If no depth is left a capture is begun which makes the call `again`.
The answer tells whether to return for it. -/
def countCall (g : Engine) (again : Action) : Eval Bool := do
  match ← Run.read (·.remaining) with
  | none => return false
  | some remaining =>
    let left := remaining - 1
    Run.modify ({ · with remaining := some left })
    let strategy ← Run.read (·.strategy)
    let mode ← Run.read (·.mode)
    if left > 0 || mode ≠ .normal || strategy = .fudge then return false
    discard <| raiseCapture g (.reenter again)
    return true

/-- Count a call that is over. -/
def countReturn : Eval Unit :=
  Run.modify fun m => { m with remaining := m.remaining.map (· + 1) }

/-- Take the outermost frame, which has to be a call frame, for the function of that name. -/
def takeFrame (function : String) : Eval CallFrame := do
  match ← Run.read (·.stack.outermost?) with
  | none => Run.fault .emptyStack
  | some frame =>
    Run.modify fun m => { m with stack := m.stack.dropOuter }
    match frame with
    | .top _ => Run.fault (.unexpectedTop function)
    | .call frame => return frame

/-- Enter the outermost frame.  A call frame stays until its function takes it; a top frame ends the
building up. -/
def reenterNext (g : Engine) : Eval Value := do
  match ← Run.read (·.stack.outermost?) with
  | none => Run.fault .emptyStack
  | some (.top action) =>
    Run.modify ({ · with stack := .empty, mode := .normal })
    g.perform action
  | some (.call frame) => g.perform frame.resume

end Eval

end Resumable
