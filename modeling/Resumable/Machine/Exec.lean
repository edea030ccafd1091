import Resumable.Machine.Eval

/-!
Execution of statements.

It is recursive in the statement, and a loop turns a bounded number of times.  The state is the
activation together with the machine, and what a statement has done to the activation stays when it
unwinds.
-/

namespace Resumable

/-- An activation and the machine it runs on. -/
structure Local where
  act : Activation
  machine : Machine

/-- A computation in an activation. -/
abbrev Exec := Run Local

namespace Exec

/-- A computation that leaves the activation as it is. -/
@[inline]
def ofEval (x : Activation → Eval α) : Exec α :=
  fun ⟨act, m⟩ => match x act m with
    | .ok a m => .ok a ⟨act, m⟩
    | .unwind reason m => .unwind reason ⟨act, m⟩
    | .cutOff => .cutOff

/-- Change the activation. -/
@[inline]
def modifyAct (f : Activation → Activation) : Exec Unit :=
  Run.modify fun l => { l with act := f l.act }

/-- Bind a name in the scope of the activation. -/
def declare (name : String) (value : Value) : Exec Unit :=
  ofEval fun act => Eval.modifyStore fun store => store.declare act.scope name value

/-! ## Loops and jumps -/

/-- A jump to `target` is meant for the loop with that label.  A jump without a target is meant for
the innermost loop. -/
def isOurs (label target : Option String) : Bool :=
  target.isNone || target == label

/-- Repeat a body while the test holds, at most that many times. -/
def loop (label : Option String) (test : Exec Bool) (body : Exec Completion) : Nat → Exec Completion
  | 0 => Run.cutOff
  | turns + 1 => do
    if ← test then
      match ← body with
      | .normal => loop label test body turns
      | .continue target =>
        if isOurs label target then loop label test body turns else return .continue target
      | .break target => return if isOurs label target then .normal else .break target
      | .return value => return .return value
    else return .normal

/-- End a jump to the label. -/
def landing (label : String) : Completion → Completion
  | .break (some target) => if target = label then .normal else .break (some target)
  | completion => completion

/-! ## Handlers -/

/-- Run a handler for what unwinds the body.  An exception is bound to the parameter.  A signal is
held for the handler, which is expected to raise it again, and nothing is bound.  Faults pass. -/
def handle (body : Exec Completion) (param : String) (handler : Exec Completion) :
    Exec Completion := do
  match ← body.attempt with
  | .ok completion => return completion
  | .error (.throw value) =>
    declare param value
    handler
  | .error (.signal signal) =>
    let outer ← Run.read (·.act.caught)
    modifyAct ({ · with caught := some signal })
    let result ← handler.attempt
    modifyAct ({ · with caught := outer })
    Run.settle result
  | .error (.fault fault) => Run.fault fault

/-- Run `final` however the body ends; the end of the body stands unless `final` ends otherwise. -/
def withFinal (body final : Exec Completion) : Exec Completion := do
  let result ← body.attempt
  match ← final with
  | .normal => Run.settle result
  | abrupt => return abrupt

/-- Raise the signal that the handler was entered for. -/
def rethrow : Exec Completion := do
  match ← Run.read (·.act.caught) with
  | some signal =>
    modifyAct ({ · with caught := none })
    Run.signal signal
  | none => return .normal

/-! ## Frames -/

def captureFrame (label : Nat) : Exec Frame :=
  Run.read fun l => l.act.captureFrame l.machine.store label

/-- Add a frame of this activation to a capture that passes. -/
def recording (label : Nat) (body : Exec Completion) : Exec Completion := do
  match ← body.attempt with
  | .error (.signal (.capture handler stack)) =>
    Run.signal (.capture handler (stack.pushOuter (← captureFrame label)))
  | result => Run.settle result

/-- Change the frames that are kept for calls in progress. -/
def modifyShadow (f : Stack → Stack) : Exec Unit :=
  ofEval fun _ => Run.modify fun m => { m with shadow := f m.shadow }

/-- Keep a frame of this activation while the body runs. -/
def shadowing (label : Nat) (body : Exec Completion) : Exec Completion := do
  let frame ← captureFrame label
  modifyShadow (·.pushInner frame)
  let result ← body.attempt
  modifyShadow (·.dropInner)
  Run.settle result

/-- While frames are collected on the way of returns, add one of this activation and return. -/
def returnIfCapturing (label : Nat) : Exec Completion := do
  if ← Run.read (·.machine.capturing) then
    let frame ← captureFrame label
    ofEval fun _ => Run.modify fun m => { m with stack := m.stack.pushOuter frame }
    return .return .undefined
  else return .normal

/-- Take the outermost frame into this activation. -/
def takeFrame : Exec Unit := do
  let frame ← ofEval fun act => Eval.takeFrame act.func.displayName
  let act ← Run.read (·.act)
  let names := act.layoutLocals
  if names.length ≠ frame.locals.length then
    Run.fault (.frameShape act.func.displayName names.length frame.locals.length)
  ofEval fun act => Eval.modifyStore fun store =>
    let store := store.declareAll act.scope (names.zip frame.locals)
    store.declareAll act.scope (act.func.params.zip (frame.formals.getD []))
  modifyAct fun act =>
    { act with argCount := frame.argCount.getD act.argCount, target := some frame.label }

/-- When restoring, take the outermost frame into this activation. -/
def restoreFrame : Exec Unit := do
  if (← Run.read (·.machine.mode)) = .restoring then takeFrame

end Exec

/-! ## Statements -/

/-- Evaluate the value, and give it to the target.  The parts of the target are evaluated before. -/
def Target.assign (g : Engine) (value : Expr) : Target → Activation → Eval Unit
  | .ident name, act => do
    let value ← value.eval g act
    Eval.modifyStore fun store => store.assign act.scope name value
  | .member base property, act => do
    let base ← base.eval g act
    let value ← value.eval g act
    Eval.setProperty g.bound base property value
  | .index base key, act => do
    let base ← base.eval g act
    let key ← key.eval g act
    let value ← value.eval g act
    Eval.setIndex g.bound base key value

/-- The value of an expression that may be left out. -/
def Expr.evalOption (g : Engine) (act : Activation) : Option Expr → Eval Value
  | none => return .undefined
  | some e => e.eval g act

/-- The truth of an expression. -/
def Expr.test (g : Engine) (e : Expr) : Exec Bool :=
  Exec.ofEval fun act => return (← e.eval g act).isTruthy

mutual

def Stmt.exec (g : Engine) : Stmt → Exec Completion
  | .block body => Stmt.execList g body
  | .letS name init => do
    let value ← Exec.ofEval fun act => Expr.evalOption g act init
    Exec.declare name value
    return .normal
  | .assign target value => do
    Exec.ofEval fun act => target.assign g value act
    return .normal
  | .expr e => do
    discard <| Exec.ofEval fun act => e.eval g act
    return .normal
  | .ifS test thenS elseS => do
    if ← test.test g then thenS.exec g else Stmt.execOption g elseS
  | .whileS test body => Exec.loop none (test.test g) (body.exec g) g.bound
  | .labeled label (.whileS test body) =>
    Exec.loop (some label) (test.test g) (body.exec g) g.bound
  | .labeled label body => do return Exec.landing label (← body.exec g)
  | .breakS label => return .break label
  | .continueS label => return .continue label
  | .returnS value => return .return (← Exec.ofEval fun act => Expr.evalOption g act value)
  | .throwS value => do Run.throw (← Exec.ofEval fun act => value.eval g act)
  | .tryS body handler final =>
    Exec.withFinal (Handler.execOption g (body.exec g) handler) (Stmt.execOption g final)
  | .decl f => do
    Exec.ofEval fun act => Eval.modifyStore fun store => store.declareFunc act.scope f
    return .normal
  | .restoreFrame => do
    Exec.restoreFrame
    return .normal
  | .stackDec => do
    let isCutOff ← Exec.ofEval fun act => Eval.countCall g act.startAgain
    return if isCutOff then .return .undefined else .normal
  | .stackInc => do
    Exec.ofEval fun _ => Eval.countReturn
    return .normal
  | .recordOnCapture label body => Exec.recording label (body.exec g)
  | .shadowFrame label body => Exec.shadowing label (body.exec g)
  | .returnIfCapturing label => Exec.returnIfCapturing label
  | .rethrowSignal _ => Exec.rethrow

/-- Statements one after the other, until one does not end normally. -/
def Stmt.execList (g : Engine) : List Stmt → Exec Completion
  | [] => return .normal
  | s :: rest => do
    match ← s.exec g with
    | .normal => Stmt.execList g rest
    | abrupt => return abrupt

def Stmt.execOption (g : Engine) : Option Stmt → Exec Completion
  | none => return .normal
  | some s => s.exec g

/-- The body with its handler, if there is one. -/
def Handler.execOption (g : Engine) (body : Exec Completion) : Option Handler → Exec Completion
  | none => body
  | some ⟨param, handler⟩ => Exec.handle body param (handler.exec g)

end

end Resumable
