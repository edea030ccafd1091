import Resumable.Machine.Exec

/-!
Calls, constructions and all else that a machine can be asked to do.

`perform` does an action within two bounds: on the turns of a loop, and on the depth to which
actions are nested.  An action that is begun by another one, a call within a call for example, has
one less of that depth, and nothing else takes from it.
-/

namespace Resumable

namespace Eval

/-! ## Natives -/

/-- The first argument, undefined if there is none. -/
def firstArg (args : List Value) : Value :=
  args.headD .undefined

/-- The texts of values with blanks between them. -/
def displayList (depth : Nat) (values : List Value) : Eval String := do
  return " ".intercalate (← values.mapM (display depth))

def callNative (g : Engine) (native : Native) (this : Value) (args : List Value) : Eval Value :=
  match native with
  | .print => do
    let line ← displayList g.bound args
    Run.modify (·.print line)
    return .undefined
  | .captureCC | .callCC => do
    let handler := firstArg args
    if handler.isCallable then raiseCapture g (.guest handler)
    else raise (.captureNeedsFunction (← display g.bound handler))
  | .abortCC => Run.signal (.discard (firstArg args))
  | .object => makeObject {}
  | .array => makeArray args
  | .error => do
    let message ← match args with
      | [] => pure ""
      | value :: _ => display g.bound value
    return .error ⟨"Error", message⟩
  | .push =>
    match this with
    | .array id => do
      modifyStore fun store => store.modifyItems id (· ++ args)
      Run.read fun m => .num (Float.ofNat (m.store.items id).size)
    | _ => raise (.notArray native.name)
  | .pop =>
    match this with
    | .array id => do
      let popped ← Run.read fun m => (m.store.items id).back?
      modifyStore fun store => store.modifyItems id (·.pop)
      return popped.getD .undefined
    | _ => raise (.notArray native.name)

/-! ## Calls -/

/-- The text of a jump that left its function. -/
def jumpText (kind : String) : Option String → String
  | some label => kind ++ " " ++ label
  | none => kind

/-- The result of a call whose body ended in that way. -/
def finish : Completion → Eval Value
  | .return value => return value
  | .normal => return .undefined
  | .break label => Run.fault (.strayJump (jumpText "break" label))
  | .continue label => Run.fault (.strayJump (jumpText "continue" label))

/-- Run a body in a new activation. -/
def runBody (g : Engine) (act : Activation) (body : List Stmt) : Eval Value := fun m =>
  match Stmt.execList g body ⟨act, m⟩ with
  | .ok completion l => finish completion l.machine
  | .unwind reason l => .unwind reason l.machine
  | .cutOff => .cutOff

/-- Call a guest function. -/
def enter (g : Engine) (closure : ClosureId) (this : Value) (args : List Value)
    (newTarget : Value) : Eval Value := do
  let { func, env, .. } ← Run.read fun m => m.store.closure closure
  let scope ← changeStore fun store => store.enterScope func env args
  let act : Activation :=
    { scope, this, func, callee := some closure, args, argCount := args.length, newTarget }
  runBody g act func.body

/-- Run the top level of a program.  Its bindings are the global ones. -/
def enterTop (g : Engine) (top : Func) : Eval Value := do
  modifyStore fun store => store.hoist Store.globals top.body
  runBody g { scope := Store.globals, func := top } top.body

/-- Call any value. -/
def call (g : Engine) (func this : Value) (args : List Value) : Eval Value :=
  match func with
  | .closure id => enter g id this args .undefined
  | .native native => callNative g native this args
  | .continuation id => do
    let stack ← Run.read fun m => m.store.continuation id
    Run.signal (.restore (stack.pushInner (.top (.value (firstArg args)))))
  | .fudged => do raise (.fudged (← display g.bound (firstArg args)))
  | other => do raise (.notFunction (← display g.bound other))

/-! ## Constructions -/

/-- A new object that is an instance of the closure. -/
def makeInstance (closure : ClosureId) : Eval Value := do
  let proto ← Run.read fun m => (m.store.closure closure).prototype
  makeObject { proto := some proto }

/-- What a construction makes of the result of the constructor. -/
def constructed (this result : Value) : Value :=
  if result.isObject then result else this

/-- Construct an object without a frame for the construction. -/
def construct (g : Engine) (callee : Value) (args : List Value) : Eval Value :=
  match callee with
  | .closure id => do
    let this ← makeInstance id
    return constructed this (← enter g id this args callee)
  | .native native => do
    if native.isConstructor then callNative g native .undefined args
    else raise (.notConstructor (← display g.bound callee))
  | other => do raise (.notConstructor (← display g.bound other))

/-- The object of a construction that is entered again. -/
def takeInstance (function : String) : Eval Value := do
  let frame ← takeFrame function
  match frame.locals with
  | [this] => return this
  | locals => Run.fault (.frameShape function 1 locals.length)

/-- Construct an object by a closure.  The object is kept in a frame of its own, so that a
construction that is entered again goes on with the same object. -/
def constructFramed (g : Engine) (closure : ClosureId) (args : List Value) : Eval Value := do
  let callee := .closure closure
  let name ← Run.read fun m => (m.store.closure closure).func.displayName
  let function := "new " ++ name
  let restoring := (← Run.read (·.mode)) = .restoring
  let this ← if restoring then takeInstance function else makeInstance closure
  let frame := .call { resume := .handleNew callee args, function, locals := [this], label := 0 }
  let strategy ← Run.read (·.strategy)
  if strategy = .eager then Run.modify fun m => { m with shadow := m.shadow.pushInner frame }
  let result ← Run.attempt <|
    if restoring then reenterNext g else enter g closure this args callee
  if strategy = .eager then Run.modify fun m => { m with shadow := m.shadow.dropInner }
  match result with
  | .error (.signal (.capture handler stack)) =>
    Run.signal (.capture handler (if strategy = .lazy then stack.pushOuter frame else stack))
  | .error reason => Run.unwind reason
  | .ok value =>
    if strategy = .retval && (← Run.read (·.capturing)) then
      Run.modify fun m => { m with stack := m.stack.pushOuter frame }
      return .undefined
    else return constructed this value

/-- Construct an object, with a frame for the construction if it can be paused. -/
def handleNew (g : Engine) (callee : Value) (args : List Value) : Eval Value := do
  match callee with
  | .closure id =>
    if (← Run.read (·.strategy)) = .fudge then construct g callee args
    else constructFramed g id args
  | _ => construct g callee args

end Eval

/-! ## Actions -/

/-- Do an action; what it begins in turn is done by `g`. -/
def Action.performWith (g : Engine) : Action → Eval Value
  | .value v => return v
  | .throw v => Run.throw v
  | .call func this args => Eval.call g func this args
  | .enter closure this args newTarget => Eval.enter g closure this args newTarget
  | .enterTop top => Eval.enterTop g top
  | .construct callee args => Eval.construct g callee args
  | .handleNew callee args => Eval.handleNew g callee args
  | .safePoint => Eval.safePoint g
  | .reenterNext => Eval.reenterNext g
  | .sequence actions => actions.foldlM (fun _ action => g.perform action) .undefined

/-- Do an action, with at most `depth` actions inside one another. -/
def perform (bound : Nat) : Nat → Action → Eval Value
  | 0, _ => Run.cutOff
  | depth + 1, action => action.performWith ⟨bound, perform bound depth⟩

/-- An engine with one bound for everything. -/
def engine (bound : Nat) : Engine :=
  ⟨bound, perform bound bound⟩

end Resumable
