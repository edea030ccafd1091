import Resumable.Options.Basic

/-!
Guest programs.

A program is a list of statements.  The statements and expressions in the second half of each type
are put there by instrumentation: they save an activation in a frame, build it up again from one,
and keep count of the calls that are nested.
-/

namespace Resumable

inductive BinaryOp where
  | add | sub | mul | div | mod | eq | notEq | lt | le | gt | ge | and | or | instanceOf
  deriving DecidableEq, Repr

inductive UnaryOp where
  | not | neg | typeOf
  deriving DecidableEq, Repr

/-- How a paused activation is called again. -/
inductive Reentry where
  /-- With the values its parameters have. -/
  | params
  /-- With its list of arguments, brought up to date with the parameters if `sync` holds. -/
  | arguments (sync : Bool)
  deriving DecidableEq, Repr

/-- What is needed to save an activation and to build it up again. -/
structure Layout where
  /-- The locals, in the order in which a frame stores them. -/
  locals : List String := []
  reentry : Reentry := .params
  /-- The parameters and the number of arguments are saved along with the locals. -/
  saveFormals : Bool := false
  deriving DecidableEq, Repr

mutual

inductive Expr where
  | num (value : Float)
  | str (value : String)
  | bool (value : Bool)
  | null
  | undefined
  | ident (name : String)
  | binary (op : BinaryOp) (left right : Expr)
  | unary (op : UnaryOp) (arg : Expr)
  | cond (test thenE elseE : Expr)
  | member (object : Expr) (property : String)
  | index (object index : Expr)
  | call (callee : Expr) (args : List Expr)
  | new (callee : Expr) (args : List Expr)
  | func (func : Func)
  | array (elements : List Expr)
  | object (props : List (String × Expr))
  | this
  | arguments
  /-- The machine is not building up a saved stack. -/
  | isNormal
  | isRestoring
  /-- The activation is to be continued at one of these labels. -/
  | targetIn (labels : List Nat)
  | capturing
  /-- Enter the outermost saved frame. -/
  | reenterNext
  | newTarget
  /-- A safe point. -/
  | suspend
  /-- A construction that the machine mediates. -/
  | handleNew (callee : Expr) (args : List Expr)

/-- What can be assigned to. -/
inductive Target where
  | ident (name : String)
  | member (object : Expr) (property : String)
  | index (object index : Expr)

inductive Stmt where
  | block (body : List Stmt)
  | letS (name : String) (init : Option Expr)
  | assign (target : Target) (value : Expr)
  | expr (expr : Expr)
  | ifS (test : Expr) (thenS : Stmt) (elseS : Option Stmt)
  | whileS (test : Expr) (body : Stmt)
  | labeled (label : String) (body : Stmt)
  | breakS (label : Option String)
  | continueS (label : Option String)
  | returnS (value : Option Expr)
  | throwS (value : Expr)
  | tryS (body : Stmt) (handler : Option Handler) (final : Option Stmt)
  | decl (func : Func)
  /-- When restoring, take the outermost frame into this activation. -/
  | restoreFrame
  /-- Count this call; it is cut off when no depth is left. -/
  | stackDec
  /-- The call is over. -/
  | stackInc
  /-- Add a frame of this activation to a capture that passes through the body. -/
  | recordOnCapture (label : Nat) (body : Stmt)
  /-- Keep a frame of this activation on the shadow stack while the body runs. -/
  | shadowFrame (label : Nat) (body : Stmt)
  /-- While a capture is collecting frames, add one of this activation and return. -/
  | returnIfCapturing (label : Nat)
  /-- In a handler, raise a caught signal again. -/
  | rethrowSignal (name : String)

/-- The `catch` part of a `try` statement. -/
structure Handler where
  param : String
  body : Stmt

structure Func where
  name : Option String := none
  params : List String := []
  body : List Stmt
  /-- Present once the function can be resumed. -/
  frame : Option Layout := none
  /-- Where the function stands in loaded code.  Two functions are the same code exactly when they
  have the same site; the functions of a program that is not loaded have none, written 0. -/
  site : Nat := 0

end

instance : Inhabited Expr := ⟨.undefined⟩
instance : Inhabited Stmt := ⟨.block []⟩

/-- What a program was instrumented for. -/
structure Instrumentation where
  strategy : Strategy
  construction : Construction
  fidelity : Fidelity
  yieldInterval : Option Nat := none
  /-- The layout of the top level, whose bindings are global and need not be saved. -/
  frame : Layout
  deriving DecidableEq, Repr

structure Program where
  body : List Stmt
  instrumented : Option Instrumentation := none

/-- The name a function is shown by. -/
def Func.displayName (f : Func) : String :=
  f.name.getD "<anonymous>"

namespace Expr

/-- Expressions that may pause. -/
def isApplication : Expr → Bool
  | .call .. | .new .. | .handleNew .. | .suspend => true
  | _ => false

/-- Names, literals and other expressions without effects. -/
def isAtomic : Expr → Bool
  | .num _ | .str _ | .bool _ | .null | .undefined | .ident _ | .this | .arguments | .func _ => true
  | _ => false

/-- Expressions that only instrumentation writes. -/
def isInstrumentation : Expr → Bool
  | .isNormal | .isRestoring | .targetIn _ | .capturing | .reenterNext | .newTarget | .suspend
  | .handleNew .. => true
  | _ => false

end Expr

namespace Stmt

/-- An `if` without `else`. -/
def guarded (test : Expr) (thenS : Stmt) : Stmt :=
  .ifS test thenS none

/-- The application that makes up the whole value of a statement. -/
def application : Stmt → Option Expr
  | .letS _ (some e) | .assign _ e | .expr e => if e.isApplication then some e else none
  | _ => none

/-- Statements that only instrumentation writes. -/
def isInstrumentation : Stmt → Bool
  | .restoreFrame | .stackDec | .stackInc | .recordOnCapture .. | .shadowFrame ..
  | .returnIfCapturing _ | .rethrowSignal _ => true
  | _ => false

end Stmt

end Resumable
