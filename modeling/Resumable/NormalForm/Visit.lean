import Resumable.Syntax.Basic
import Resumable.NormalForm.Violation

/-!
The parts of a program in the order in which they are written, each with its location.

The statements of a function are numbered from 1 in the order in which they begin, a statement
before the statements inside of it.  Nested functions are entered, and number their own statements.
-/

namespace Resumable.NormalForm

/-- A part of a program. -/
inductive Node where
  /-- A statement, and whether it is the body of a labeled statement. -/
  | stmt (stmt : Stmt) (isLabeled : Bool)
  | expr (expr : Expr)
  | func (func : Func)

/-- A part of a program at its place. -/
structure Visit where
  location : Location
  node : Node

mutual

/-- How many statements begin in a statement, nested functions apart. -/
def countStmt : Stmt → Nat
  | .block body => countStmts body + 1
  | .ifS _ thenS elseS => countStmt thenS + countOption elseS + 1
  | .whileS _ body | .labeled _ body | .recordOnCapture _ body | .shadowFrame _ body =>
    countStmt body + 1
  | .tryS body handler final => countStmt body + countHandler handler + countOption final + 1
  | _ => 1

def countStmts : List Stmt → Nat
  | [] => 0
  | s :: rest => countStmt s + countStmts rest

def countOption : Option Stmt → Nat
  | none => 0
  | some s => countStmt s

def countHandler : Option Handler → Nat
  | none => 0
  | some ⟨_, body⟩ => countStmt body

end

mutual

/-- The parts of a statement in which `before` statements of the function have begun already. -/
def visitStmt (scope : List String) (before : Nat) (isLabeled : Bool) (s : Stmt) : List Visit :=
  let here := Location.statement scope (before + 1)
  ⟨here, .stmt s isLabeled⟩ :: match s with
    | .block body => visitStmts scope (before + 1) body
    | .letS _ init => visitOption scope here init
    | .assign target value => visitTarget scope here target ++ visitExpr scope here value
    | .expr e | .throwS e => visitExpr scope here e
    | .returnS value => visitOption scope here value
    | .ifS test thenS elseS =>
      visitExpr scope here test ++ visitStmt scope (before + 1) false thenS ++
        visitElse scope (before + 1 + countStmt thenS) elseS
    | .whileS test body => visitExpr scope here test ++ visitStmt scope (before + 1) false body
    | .labeled _ body => visitStmt scope (before + 1) true body
    | .recordOnCapture _ body | .shadowFrame _ body => visitStmt scope (before + 1) false body
    | .tryS body handler final =>
      visitStmt scope (before + 1) false body ++
        visitHandler scope (before + 1 + countStmt body) handler ++
        visitElse scope (before + 1 + countStmt body + countHandler handler) final
    | .decl f => visitFunc scope here f
    | .breakS _ | .continueS _ | .restoreFrame | .stackDec | .stackInc | .returnIfCapturing _
    | .rethrowSignal _ => []

def visitStmts (scope : List String) (before : Nat) : List Stmt → List Visit
  | [] => []
  | s :: rest => visitStmt scope before false s ++ visitStmts scope (before + countStmt s) rest

def visitElse (scope : List String) (before : Nat) : Option Stmt → List Visit
  | none => []
  | some s => visitStmt scope before false s

def visitHandler (scope : List String) (before : Nat) : Option Handler → List Visit
  | none => []
  | some ⟨_, body⟩ => visitStmt scope before false body

def visitTarget (scope : List String) (here : Location) : Target → List Visit
  | .ident _ => []
  | .member object _ => visitExpr scope here object
  | .index object index => visitExpr scope here object ++ visitExpr scope here index

/-- The parts of an expression of the statement at `here`. -/
def visitExpr (scope : List String) (here : Location) (e : Expr) : List Visit :=
  ⟨here, .expr e⟩ :: match e with
    | .binary _ left right => visitExpr scope here left ++ visitExpr scope here right
    | .unary _ arg => visitExpr scope here arg
    | .cond test thenE elseE =>
      visitExpr scope here test ++ visitExpr scope here thenE ++ visitExpr scope here elseE
    | .member object _ => visitExpr scope here object
    | .index object index => visitExpr scope here object ++ visitExpr scope here index
    | .call callee args | .new callee args | .handleNew callee args =>
      visitExpr scope here callee ++ visitExprs scope here args
    | .array elements => visitExprs scope here elements
    | .object props => visitProps scope here props
    | .func f => visitFunc scope here f
    | _ => []

def visitExprs (scope : List String) (here : Location) : List Expr → List Visit
  | [] => []
  | e :: rest => visitExpr scope here e ++ visitExprs scope here rest

def visitProps (scope : List String) (here : Location) : List (String × Expr) → List Visit
  | [] => []
  | (_, e) :: rest => visitExpr scope here e ++ visitProps scope here rest

def visitOption (scope : List String) (here : Location) : Option Expr → List Visit
  | none => []
  | some e => visitExpr scope here e

/-- A function of the statement at `here`, and the parts of its body. -/
def visitFunc (scope : List String) (here : Location) : Func → List Visit
  | ⟨name, params, body, frame, site⟩ =>
    ⟨here, .func ⟨name, params, body, frame, site⟩⟩ ::
      visitStmts (scope ++ [name.getD "<anonymous>"]) 0 body

end

/-- All parts of a program. -/
def visits (program : Program) : List Visit :=
  visitStmts ["program"] 0 program.body

end Resumable.NormalForm
