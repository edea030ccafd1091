import Resumable.Syntax.Basic

/-!
Capture points: statements that a paused activation can be continued at.

In normal mode the statement runs as it is.  When the activation is built up again to be continued
at its label, the statement runs with its application replaced by the entry into the next saved
frame.  Strategies differ in how a frame of the activation gets onto a stack.
-/

namespace Resumable

/-- The statement with its application replaced by the entry into the next frame. -/
def Stmt.restoring : Stmt → Stmt
  | .letS name _ => .letS name (some .reenterNext)
  | .assign target _ => .assign target .reenterNext
  | .expr _ => .expr .reenterNext
  | s => s

/-- The statement in both modes. -/
def Stmt.dual (label : Nat) (s : Stmt) : Stmt :=
  .ifS .isNormal s (some (.guarded (.targetIn [label]) s.restoring))

/-- The capture point of a statement with that label. -/
def capturePoint (strategy : Strategy) (label : Nat) (s : Stmt) : List Stmt :=
  match strategy with
  | .eager => [.shadowFrame label (s.dual label)]
  | .lazy => [.recordOnCapture label (s.dual label)]
  | .retval => [s.dual label, .returnIfCapturing label]
  | .fudge => [.guarded .isNormal s]

end Resumable
