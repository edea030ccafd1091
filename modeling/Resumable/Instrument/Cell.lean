import Resumable.Syntax.Transform

/-!
Cells for locals that closures share.

An activation that is built up again has a new scope, while the closures that were made before the
pause keep the old one.  A parameter or `let` that a nested function reads or writes, and that
changes after it is bound, is therefore kept in an object with a single property: frames save the
object, and both scopes see the same cell.  Bindings of the top level are global and need no cells.
-/

namespace Resumable

/-! ## Uses of names -/

/-- The names a function binds and uses.  Nested functions contribute only the names they do not
bind. -/
structure Uses where
  lets : List String := []
  /-- Names of catch parameters and of declared functions. -/
  others : List String := []
  reads : List String := []
  writes : List String := []
  nestedReads : List String := []
  nestedWrites : List String := []

namespace Uses

instance : Append Uses where
  append a b :=
    { lets := a.lets ++ b.lets
      others := a.others ++ b.others
      reads := a.reads ++ b.reads
      writes := a.writes ++ b.writes
      nestedReads := a.nestedReads ++ b.nestedReads
      nestedWrites := a.nestedWrites ++ b.nestedWrites }

/-- The function with these parameters and uses binds the name. -/
def binds (uses : Uses) (params : List String) (name : String) : Bool :=
  params.contains name || uses.lets.contains name || uses.others.contains name

/-- What a function with these parameters and uses contributes to the one around it. -/
def asNested (uses : Uses) (params : List String) : Uses :=
  { nestedReads := (uses.reads ++ uses.nestedReads).filter fun n => !uses.binds params n
    nestedWrites := (uses.writes ++ uses.nestedWrites).filter fun n => !uses.binds params n }

end Uses

mutual

def Expr.uses : Expr → Uses
  | .ident name => { reads := [name] }
  | .binary _ left right => left.uses ++ right.uses
  | .unary _ arg => arg.uses
  | .cond test thenE elseE => test.uses ++ thenE.uses ++ elseE.uses
  | .member base _ => base.uses
  | .index base key => base.uses ++ key.uses
  | .call callee args | .new callee args | .handleNew callee args =>
    callee.uses ++ Expr.listUses args
  | .func f => f.usesInside
  | .array elements => Expr.listUses elements
  | .object props => Expr.propsUses props
  | _ => {}

def Expr.listUses : List Expr → Uses
  | [] => {}
  | e :: rest => e.uses ++ Expr.listUses rest

def Expr.propsUses : List (String × Expr) → Uses
  | [] => {}
  | (_, e) :: rest => e.uses ++ Expr.propsUses rest

def Expr.optionUses : Option Expr → Uses
  | none => {}
  | some e => e.uses

def Target.uses : Target → Uses
  | .ident name => { writes := [name] }
  | .member base _ => base.uses
  | .index base key => base.uses ++ key.uses

/-- The uses in a statement.  In a loop, a `let` is a write as well: every turn binds it anew. -/
def Stmt.uses (inLoop : Bool) : Stmt → Uses
  | .block body => Stmt.listUses inLoop body
  | .letS name init =>
    { lets := [name], writes := if inLoop then [name] else [] } ++ Expr.optionUses init
  | .assign target value => target.uses ++ value.uses
  | .expr e | .throwS e => e.uses
  | .ifS test thenS elseS => test.uses ++ thenS.uses inLoop ++ Stmt.optionUses inLoop elseS
  | .whileS test body => test.uses ++ body.uses true
  | .labeled _ body | .recordOnCapture _ body | .shadowFrame _ body => body.uses inLoop
  | .returnS value => Expr.optionUses value
  | .tryS body handler final =>
    body.uses inLoop ++ Handler.optionUses inLoop handler ++ Stmt.optionUses inLoop final
  | .decl f => f.declaration ++ f.usesInside
  | .breakS _ | .continueS _ | .restoreFrame | .stackDec | .stackInc | .returnIfCapturing _
  | .rethrowSignal _ => {}

def Stmt.listUses (inLoop : Bool) : List Stmt → Uses
  | [] => {}
  | s :: rest => s.uses inLoop ++ Stmt.listUses inLoop rest

def Stmt.optionUses (inLoop : Bool) : Option Stmt → Uses
  | none => {}
  | some s => s.uses inLoop

def Handler.optionUses (inLoop : Bool) : Option Handler → Uses
  | none => {}
  | some ⟨param, body⟩ => { others := [param] } ++ body.uses inLoop

/-- The name that a declaration binds. -/
def Func.declaration : Func → Uses
  | ⟨name, _, _, _, _⟩ => { others := name.toList }

/-- What a nested function contributes. -/
def Func.usesInside : Func → Uses
  | ⟨_, params, body, _, _⟩ => (Stmt.listUses false body).asNested params

end

/-- The function's own bindings and uses. -/
def Func.uses (f : Func) : Uses :=
  Stmt.listUses false f.body

/-- A list of names as a set: sorted, each name once. -/
def nameSet (names : List String) : List String :=
  (names.mergeSort fun a b => a ≤ b).eraseReps

/-- The locals that have to live in cells. -/
def Func.cellLocals (f : Func) : List String :=
  let uses := f.uses
  nameSet <| (f.params ++ uses.lets).filter fun name =>
    !uses.others.contains name &&
      (uses.nestedReads.contains name || uses.nestedWrites.contains name) &&
      (uses.writes.contains name || uses.nestedWrites.contains name)

namespace Cell

/-! ## Access through cells -/

/-- The property of a cell that holds the value. -/
def property : String :=
  "box"

/-- A new cell. -/
def make (value : Expr) : Expr :=
  .object [(property, value)]

/-- The value in the cell of that name. -/
def get (cell : String) : Expr :=
  .index (.ident cell) (.str property)

/-- The locals in cells, each with the name of the local that holds its cell. -/
abbrev Names := List (String × String)

/-- Every use of a local in a cell goes through its cell.  A `let` of a call stays one: its value is
put into a cell by a second statement. -/
def access : Transform Names where
  expr cells
    | .ident name => match cells.lookup name with
      | some cell => get cell
      | none => .ident name
    | e => e
  stmt cells
    | .letS name init =>
      if (cells.lookup name).isNone then .letS name init
      else match init with
        | none => .letS name (some (make .undefined))
        | some e =>
          if e.isApplication then
            .block [.letS name (some e), .assign (.ident name) (make (.ident name))]
          else .letS name (some (make e))
    | .assign (.ident name) value => match cells.lookup name with
      | some cell => .assign (.index (.ident cell) (.str property)) value
      | none => .assign (.ident name) value
    | s => s
  enter cells f := cells.filter fun (name, _) => !f.uses.binds f.params name

/-- A parameter keeps its value, and its cell is a local of its own. -/
def nameFor (params : List String) (name : String) : String :=
  if params.contains name then "$box_" ++ name else name

/-- The function with cells for its own locals. -/
def inFunc (f : Func) : Func :=
  let cells : Names := f.cellLocals.map fun name => (name, nameFor f.params name)
  if cells.isEmpty then f
  else
    let opening := f.params.filterMap fun p =>
      (cells.lookup p).map fun cell => Stmt.letS cell (some (make (.ident p)))
    { f with body := opening ++ Stmt.transformList access cells f.body }

/-- Cells in every function, innermost first. -/
def inserting : Transform Unit where
  func _ f := inFunc f

/-- The program with cells for all locals that need them. -/
def insert (program : Program) : Program :=
  { program with body := Stmt.transformList inserting () program.body }

end Cell

end Resumable
