import Resumable.Machine.Control

/-!
Activations: calls in progress.

All locals of an activation live in one scope.  A frame saves the values of the locals that the
layout of the function names, and how to call the function again.
-/

namespace Resumable

/-- A running call of a guest function, or the running top level of a program. -/
structure Activation where
  scope : ScopeId
  this : Value := .undefined
  func : Func
  /-- Absent at the top level. -/
  callee : Option ClosureId := none
  /-- The arguments as passed. -/
  args : List Value := []
  argCount : Nat := 0
  /-- The label to continue at. -/
  target : Option Nat := none
  newTarget : Value := .undefined
  /-- The signal that a handler is entered for. -/
  caught : Option Signal := none

namespace Activation

/-- The values that the parameters have. -/
def paramValues (act : Activation) (store : Store) : List Value :=
  act.func.params.map (store.localD act.scope)

/-- The names of the locals in the order in which a frame stores them. -/
def layoutLocals (act : Activation) : List String :=
  (act.func.frame.map (·.locals)).getD []

/-- The elements of `arguments`: parameters by the values they have, other arguments as passed. -/
def argumentValues (act : Activation) (store : Store) : List Value :=
  let params := act.paramValues store
  (List.range act.argCount).map fun i => (params[i]? <|> act.args[i]?).getD .undefined

/-- Call the function of the activation with these arguments. -/
def invoke (act : Activation) (args : List Value) (newTarget : Value) : Action :=
  match act.callee with
  | some closure => .enter closure act.this args newTarget
  | none => .enterTop act.func

/-- The arguments to call a paused activation with. -/
def reentryArgs (act : Activation) (store : Store) : List Value :=
  match (act.func.frame.map (·.reentry)).getD .params with
  | .params => act.paramValues store
  | .arguments false => act.args
  | .arguments true =>
    let params := act.paramValues store
    params ++ act.args.drop params.length

/-- Call a paused activation again. -/
def reenter (act : Activation) (store : Store) : Action :=
  act.invoke (act.reentryArgs store) .undefined

/-- Make the call again as it was made. -/
def startAgain (act : Activation) : Action :=
  act.invoke act.args act.newTarget

/-- The activation as a frame that continues at `label`. -/
def captureFrame (act : Activation) (store : Store) (label : Nat) : Frame :=
  let saveFormals := (act.func.frame.map (·.saveFormals)).getD false
  .call {
    resume := act.reenter store
    function := act.func.displayName
    locals := act.layoutLocals.map (store.localD act.scope)
    label
    formals := if saveFormals then some (act.paramValues store) else none
    argCount := if saveFormals then some act.argCount else none }

end Activation

/-! ## Declared functions -/

mutual

/-- The functions that a statement declares, without those inside of other functions. -/
def Stmt.declared : Stmt → List Func
  | .decl f => [f]
  | .block body => Stmt.declaredList body
  | .ifS _ thenS elseS => thenS.declared ++ Stmt.declaredOption elseS
  | .whileS _ body | .labeled _ body | .recordOnCapture _ body | .shadowFrame _ body =>
    body.declared
  | .tryS body handler final =>
    body.declared ++ Handler.declaredOption handler ++ Stmt.declaredOption final
  | _ => []

def Stmt.declaredList : List Stmt → List Func
  | [] => []
  | s :: rest => s.declared ++ Stmt.declaredList rest

def Stmt.declaredOption : Option Stmt → List Func
  | none => []
  | some s => s.declared

def Handler.declaredOption : Option Handler → List Func
  | none => []
  | some ⟨_, body⟩ => body.declared

end

namespace Store

/-- The value is a closure with the code of `f`. -/
def isClosureOf (s : Store) (f : Func) : Value → Bool
  | .closure id => (s.closure id).func.site = f.site
  | _ => false

/-- Bind the name of a function to a closure of it, unless it is bound to one already. -/
def declareFunc (s : Store) (scope : ScopeId) (f : Func) : Store :=
  match f.name with
  | none => s
  | some name =>
    if ((s.local? scope name).map (s.isClosureOf f)).getD false then s
    else
      let (id, s) := s.newClosure f scope
      s.declare scope name (.closure id)

/-- Bind all functions that are declared in a body. -/
def hoist (s : Store) (scope : ScopeId) (body : List Stmt) : Store :=
  (Stmt.declaredList body).foldl (fun s f => s.declareFunc scope f) s

/-- The scope of a call: parameters, then the other locals of the layout, then declared functions.
-/
def enterScope (s : Store) (func : Func) (env : ScopeId) (args : List Value) : ScopeId × Store :=
  let (scope, s) := s.newScope (some env)
  let params := func.params.zipIdx.map fun (param, i) => (param, args.getD i .undefined)
  let s := s.declareAll scope params
  let missing := ((func.frame.map (·.locals)).getD []).filter fun name => !func.params.contains name
  let s := s.declareAll scope (missing.map (·, .undefined))
  (scope, s.hoist scope func.body)

end Store

end Resumable
