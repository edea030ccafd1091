import Resumable.Syntax.Basic

/-!
Short forms for writing guest programs by hand.
-/

namespace Resumable.Build

/-- `object.name(args)` -/
def method (receiver : Expr) (name : String) (args : List Expr) : Expr :=
  .call (.member receiver name) args

/-- A function that is not yet instrumented. -/
def function (name : Option String) (params : List String) (body : List Stmt) : Func :=
  { name, params, body }

/-- A function without a name. -/
def lambda (params : List String) (body : List Stmt) : Expr :=
  .func (function none params body)

/-- `let name = init` -/
def bind (name : String) (init : Expr) : Stmt :=
  .letS name (some init)

/-- `name = value` -/
def assign (name : String) (value : Expr) : Stmt :=
  .assign (.ident name) value

/-- `object.property = value` -/
def set (receiver : Expr) (property : String) (value : Expr) : Stmt :=
  .assign (.member receiver property) value

/-- `object[index] = value` -/
def setAt (receiver index value : Expr) : Stmt :=
  .assign (.index receiver index) value

/-- `if (test) { body }` -/
def when (test : Expr) (body : List Stmt) : Stmt :=
  .guarded test (.block body)

/-- `if (test) { thenS } else { elseS }` -/
def ifElse (test : Expr) (thenS elseS : List Stmt) : Stmt :=
  .ifS test (.block thenS) (some (.block elseS))

/-- The one form of loops: `label: while (test) { body }` -/
def loop (label : String) (test : Expr) (body : List Stmt) : Stmt :=
  .labeled label (.whileS test (.block body))

/-- `break label` -/
def leave (label : String) : Stmt :=
  .breakS (some label)

/-- `return value` -/
def ret (value : Expr) : Stmt :=
  .returnS (some value)

/-- `try { body } catch (param) { handler }` -/
def tryCatch (body : List Stmt) (param : String) (handler : List Stmt) : Stmt :=
  .tryS (.block body) (some ⟨param, .block handler⟩) none

/-- `try { body } finally { final }` -/
def tryFinally (body final : List Stmt) : Stmt :=
  .tryS (.block body) none (some (.block final))

/-- `function name(params) { body }` -/
def declare (name : String) (params : List String) (body : List Stmt) : Stmt :=
  .decl (function (some name) params body)

end Resumable.Build
