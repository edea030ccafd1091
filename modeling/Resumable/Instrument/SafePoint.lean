import Resumable.Syntax.Transform

/-!
Safe points: places at which a program may yield to its host.

One stands first in the program, in every function body and in every loop body.  It is an
application like any other, so a yield there is an ordinary capture.
-/

namespace Resumable.SafePoint

/-- The statement that may yield. -/
def stmt : Stmt :=
  .expr .suspend

/-- A loop body with a safe point in front. -/
def inLoop : Stmt → Stmt
  | .block body => .block (stmt :: body)
  | body => .block [stmt, body]

/-- Safe points for functions and loops. -/
def inserting : Transform Unit where
  stmt _
    | .whileS test body => .whileS test (inLoop body)
    | s => s
  func _ f := { f with body := stmt :: f.body }

/-- The program with all its safe points. -/
def insert (program : Program) : Program :=
  { program with body := stmt :: Stmt.transformList inserting () program.body }

end Resumable.SafePoint
