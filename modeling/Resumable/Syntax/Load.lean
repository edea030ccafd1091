import Resumable.Syntax.Basic

/-!
Loading of programs.

Loading gives a site of its own to every function of a program, so that a machine can tell whether
two closures have the same code.  Programs that are loaded one after the other have no site in
common.
-/

namespace Resumable

/-- Numbering of functions; the state is the next number. -/
abbrev Numbering := StateM Nat

namespace Numbering

/-- A number that was not used before. -/
def fresh : Numbering Nat :=
  fun next => (next, next + 1)

end Numbering

mutual

def Expr.load : Expr → Numbering Expr
  | .binary op left right => return .binary op (← left.load) (← right.load)
  | .unary op arg => return .unary op (← arg.load)
  | .cond test thenE elseE => return .cond (← test.load) (← thenE.load) (← elseE.load)
  | .member base property => return .member (← base.load) property
  | .index base key => return .index (← base.load) (← key.load)
  | .call callee args => return .call (← callee.load) (← Expr.loadList args)
  | .new callee args => return .new (← callee.load) (← Expr.loadList args)
  | .handleNew callee args => return .handleNew (← callee.load) (← Expr.loadList args)
  | .func f => return .func (← f.load)
  | .array elements => return .array (← Expr.loadList elements)
  | .object props => return .object (← Expr.loadProps props)
  | e => return e

def Expr.loadList : List Expr → Numbering (List Expr)
  | [] => return []
  | e :: rest => return (← e.load) :: (← Expr.loadList rest)

def Expr.loadProps : List (String × Expr) → Numbering (List (String × Expr))
  | [] => return []
  | (key, e) :: rest => return (key, ← e.load) :: (← Expr.loadProps rest)

def Expr.loadOption : Option Expr → Numbering (Option Expr)
  | none => return none
  | some e => return some (← e.load)

def Target.load : Target → Numbering Target
  | .ident name => return .ident name
  | .member base property => return .member (← base.load) property
  | .index base key => return .index (← base.load) (← key.load)

def Stmt.load : Stmt → Numbering Stmt
  | .block body => return .block (← Stmt.loadList body)
  | .letS name init => return .letS name (← Expr.loadOption init)
  | .assign target value => return .assign (← target.load) (← value.load)
  | .expr e => return .expr (← e.load)
  | .ifS test thenS elseS => return .ifS (← test.load) (← thenS.load) (← Stmt.loadOption elseS)
  | .whileS test body => return .whileS (← test.load) (← body.load)
  | .labeled label body => return .labeled label (← body.load)
  | .returnS value => return .returnS (← Expr.loadOption value)
  | .throwS value => return .throwS (← value.load)
  | .tryS body handler final =>
    return .tryS (← body.load) (← Handler.loadOption handler) (← Stmt.loadOption final)
  | .decl f => return .decl (← f.load)
  | .recordOnCapture label body => return .recordOnCapture label (← body.load)
  | .shadowFrame label body => return .shadowFrame label (← body.load)
  | s => return s

def Stmt.loadList : List Stmt → Numbering (List Stmt)
  | [] => return []
  | s :: rest => return (← s.load) :: (← Stmt.loadList rest)

def Stmt.loadOption : Option Stmt → Numbering (Option Stmt)
  | none => return none
  | some s => return some (← s.load)

def Handler.loadOption : Option Handler → Numbering (Option Handler)
  | none => return none
  | some ⟨param, body⟩ => return some ⟨param, ← body.load⟩

def Func.load : Func → Numbering Func
  | ⟨name, params, body, frame, _⟩ => do
    let site ← Numbering.fresh
    return ⟨name, params, ← Stmt.loadList body, frame, site⟩

end

theorem Stmt.loadList_append (body rest : List Stmt) :
    Stmt.loadList (body ++ rest) = (do
      let body ← Stmt.loadList body
      let rest ← Stmt.loadList rest
      return body ++ rest) := by
  induction body with
  | nil => rfl
  | cons s body ih =>
    funext next
    rw [List.cons_append, Stmt.loadList, ih]
    rfl

namespace Program

/-- The program with numbered functions. -/
def number (p : Program) : Numbering Program :=
  return { p with body := ← Stmt.loadList p.body }

/-- The first site that is given to a function. -/
def firstSite : Nat :=
  1

/-- The program as a machine runs it. -/
def load (p : Program) : Program :=
  (p.number firstSite).1

/-- Several programs for one machine. -/
def loadAll (programs : List Program) : List Program :=
  (programs.mapM number firstSite).1

end Program

end Resumable
