import Resumable.Syntax.Basic

/-!
Transformation of programs from the inside out.

A `Transform` says what becomes of an expression, a statement and a function once their parts are
transformed.  It may depend on the surroundings, which change where a function is entered.
-/

namespace Resumable

/-- What becomes of the parts of a program, given the surroundings `ε`. -/
structure Transform (ε : Type) where
  expr : ε → Expr → Expr := fun _ e => e
  stmt : ε → Stmt → Stmt := fun _ s => s
  func : ε → Func → Func := fun _ f => f
  /-- The surroundings of the body of a function. -/
  enter : ε → Func → ε := fun env _ => env

mutual

def Expr.transform (r : Transform ε) (env : ε) (e : Expr) : Expr :=
  r.expr env <| match e with
    | .binary op left right => .binary op (left.transform r env) (right.transform r env)
    | .unary op arg => .unary op (arg.transform r env)
    | .cond test thenE elseE =>
      .cond (test.transform r env) (thenE.transform r env) (elseE.transform r env)
    | .member base property => .member (base.transform r env) property
    | .index base key => .index (base.transform r env) (key.transform r env)
    | .call callee args => .call (callee.transform r env) (Expr.transformList r env args)
    | .new callee args => .new (callee.transform r env) (Expr.transformList r env args)
    | .handleNew callee args => .handleNew (callee.transform r env) (Expr.transformList r env args)
    | .func f => .func (f.transform r env)
    | .array elements => .array (Expr.transformList r env elements)
    | .object props => .object (Expr.transformProps r env props)
    | .num v => .num v
    | .str v => .str v
    | .bool v => .bool v
    | .null => .null
    | .undefined => .undefined
    | .ident name => .ident name
    | .this => .this
    | .arguments => .arguments
    | .isNormal => .isNormal
    | .isRestoring => .isRestoring
    | .targetIn labels => .targetIn labels
    | .capturing => .capturing
    | .reenterNext => .reenterNext
    | .newTarget => .newTarget
    | .suspend => .suspend

def Expr.transformList (r : Transform ε) (env : ε) : List Expr → List Expr
  | [] => []
  | e :: rest => e.transform r env :: Expr.transformList r env rest

def Expr.transformProps (r : Transform ε) (env : ε) : List (String × Expr) → List (String × Expr)
  | [] => []
  | (key, e) :: rest => (key, e.transform r env) :: Expr.transformProps r env rest

def Expr.transformOption (r : Transform ε) (env : ε) : Option Expr → Option Expr
  | none => none
  | some e => some (e.transform r env)

def Target.transform (r : Transform ε) (env : ε) : Target → Target
  | .ident name => .ident name
  | .member base property => .member (base.transform r env) property
  | .index base key => .index (base.transform r env) (key.transform r env)

def Stmt.transform (r : Transform ε) (env : ε) (s : Stmt) : Stmt :=
  r.stmt env <| match s with
    | .block body => .block (Stmt.transformList r env body)
    | .letS name init => .letS name (Expr.transformOption r env init)
    | .assign target value => .assign (target.transform r env) (value.transform r env)
    | .expr e => .expr (e.transform r env)
    | .ifS test thenS elseS =>
      .ifS (test.transform r env) (thenS.transform r env) (Stmt.transformOption r env elseS)
    | .whileS test body => .whileS (test.transform r env) (body.transform r env)
    | .labeled label body => .labeled label (body.transform r env)
    | .breakS label => .breakS label
    | .continueS label => .continueS label
    | .returnS value => .returnS (Expr.transformOption r env value)
    | .throwS value => .throwS (value.transform r env)
    | .tryS body handler final =>
      .tryS (body.transform r env) (Handler.transformOption r env handler)
        (Stmt.transformOption r env final)
    | .decl f => .decl (f.transform r env)
    | .recordOnCapture label body => .recordOnCapture label (body.transform r env)
    | .shadowFrame label body => .shadowFrame label (body.transform r env)
    | .restoreFrame => .restoreFrame
    | .stackDec => .stackDec
    | .stackInc => .stackInc
    | .returnIfCapturing label => .returnIfCapturing label
    | .rethrowSignal name => .rethrowSignal name

def Stmt.transformList (r : Transform ε) (env : ε) : List Stmt → List Stmt
  | [] => []
  | s :: rest => s.transform r env :: Stmt.transformList r env rest

def Stmt.transformOption (r : Transform ε) (env : ε) : Option Stmt → Option Stmt
  | none => none
  | some s => some (s.transform r env)

def Handler.transformOption (r : Transform ε) (env : ε) : Option Handler → Option Handler
  | none => none
  | some ⟨param, body⟩ => some ⟨param, body.transform r env⟩

def Func.transform (r : Transform ε) (env : ε) : Func → Func
  | ⟨name, params, body, frame, site⟩ =>
    let inner := r.enter env ⟨name, params, body, frame, site⟩
    r.func env ⟨name, params, Stmt.transformList r inner body, frame, site⟩

end

end Resumable
