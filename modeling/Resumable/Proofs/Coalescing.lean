import Resumable.Proofs.Walk
import Resumable.Proofs.TwinExec

/-!
Guards that are shared.

A run of statements under guards of their own tests the mode before each of them, and the same run
under one guard tests it once.  The two agree because the mode cannot change in between from normal
to restoring: no statement does that, nor any expression or action in it, however it ends.
-/

namespace Resumable

/-! ## Normal mode -/

/-- The end, of whatever kind, is in normal mode. -/
def Ending.EndsNormal (machine : σ → Machine) : Ending σ α → Prop :=
  Ending.Meets (fun _ s => (machine s).mode = .normal) fun _ s => (machine s).mode = .normal

theorem Observed.Follows.endsNormal {seat : Seat σ} {x : Observed σ α} (follows : x.Follows seat)
    {s : σ} (normal : (seat.machine s).mode = .normal) : (x.erase s).EndsNormal seat.machine :=
  (follows s).ends.weaken (fun _ _ ends => ends.course.normal normal) fun _ _ ends =>
    ends.2.course.normal normal

section

variable {bound depth : Nat}

theorem perform_endsNormal (action : Action) {m : Machine} (normal : m.mode = .normal) :
    (perform bound depth action m).EndsNormal id := by
  have ends : (((observer bound depth).1.perform [] action).erase m).EndsNormal id :=
    ((observer_follows bound depth).perform Store.globals [] action).endsNormal normal
  rwa [(observer bound depth).1.faithful, (observer bound depth).2] at ends

theorem Expr.eval_endsNormal (e : Expr) (act : Activation) {m : Machine}
    (normal : m.mode = .normal) : (e.eval ⟨bound, perform bound depth⟩ act m).EndsNormal id := by
  have ends : ((e.observe (observer bound depth).1 [] act).erase m).EndsNormal id :=
    ((Observed.Follows.walk bound).expr (observer_follows bound depth) e).endsNormal normal
  rwa [Expr.erase_observe, (observer bound depth).2] at ends

theorem Stmt.exec_endsNormal (s : Stmt) {l : Local} (normal : l.machine.mode = .normal) :
    (s.exec ⟨bound, perform bound depth⟩ l).EndsNormal Local.machine := by
  have ends : ((s.observe (observer bound depth).1 []).erase l).EndsNormal Local.machine :=
    ((Observed.Follows.walk bound).runs (observer_follows bound depth) s []).endsNormal normal
  rwa [Stmt.erase_observe, (observer bound depth).2] at ends

end

/-! ## Guards -/

section Guards

variable {g : Engine}

/-- What is done in normal mode only. -/
def Exec.inNormal (x : Exec Completion) : Exec Completion := fun l =>
  if l.machine.mode = .normal then x l else .ok .normal l

theorem Stmt.exec_guarded_isNormal (s : Stmt) : (Stmt.guarded .isNormal s).exec g =
    Exec.inNormal (s.exec g) := by
  funext l
  have read : Expr.isNormal.eval g l.act l.machine = .ok (.bool (decide (l.machine.mode = .normal)))
      l.machine := by
    simp only [Expr.eval]
    rfl
  rw [Stmt.guarded, Stmt.exec, Exec.inNormal]
  show Run.bind (Expr.isNormal.test g) _ l = _
  unfold Run.bind
  rw [Expr.test_of_eval read]
  cases l.machine.mode with
  | normal => rfl
  | restoring => rfl

theorem Stmt.execList_shareGuard (run : List Stmt) :
    Stmt.execList g (shareGuard run) = Exec.inNormal (Stmt.execList g run) := by
  match run with
  | [] =>
    funext l
    exact (ite_self _).symm
  | [s] =>
    rw [shareGuard, Stmt.execList_singleton, Stmt.execList_singleton, Stmt.exec_guarded_isNormal]
  | s :: t :: rest =>
    show Stmt.execList g [.guarded .isNormal (.block (s :: t :: rest))] = _
    rw [Stmt.execList_singleton, Stmt.exec_guarded_isNormal, Stmt.exec]

end Guards

section Coalescing

variable {bound depth : Nat}

/-- Statements under guards of their own: once the mode is normal, it is for all of them. -/
theorem Stmt.execList_guards (run : List Stmt) :
    Stmt.execList ⟨bound, perform bound depth⟩ (run.map (.guarded .isNormal)) =
      Exec.inNormal (Stmt.execList ⟨bound, perform bound depth⟩ run) := by
  induction run with
  | nil =>
    funext l
    exact (ite_self _).symm
  | cons s rest ih =>
    funext l
    rw [List.map_cons, Stmt.execList, Stmt.exec_guarded_isNormal, ih]
    cases mode : l.machine.mode with
    | restoring => simp [Exec.inNormal, mode, bind, Run.bind]
    | normal =>
      have ends : (s.exec ⟨bound, perform bound depth⟩ l).EndsNormal Local.machine :=
        s.exec_endsNormal mode
      simp only [Exec.inNormal, if_pos mode, Stmt.execList, bind, Run.bind]
      cases ending : s.exec ⟨bound, perform bound depth⟩ l with
      | ok completion l' =>
        have normal : l'.machine.mode = .normal := by
          rw [ending] at ends
          exact ends
        cases completion with
        | normal => exact if_pos normal
        | _ => rfl
      | unwind | cutOff => rfl

theorem Stmt.execList_coalesceRun (run stmts : List Stmt) :
    Stmt.execList ⟨bound, perform bound depth⟩ (coalesceRun run stmts) =
      Stmt.execList ⟨bound, perform bound depth⟩ (run.reverse.map (.guarded .isNormal) ++
        stmts) := by
  induction stmts generalizing run with
  | nil => rw [coalesceRun, List.append_nil, Stmt.execList_shareGuard, Stmt.execList_guards]
  | cons s rest ih =>
    rw [coalesceRun]
    cases only : s.normalOnly? with
    | some body =>
      simp only [ih, Stmt.normalOnly?_eq_some only, List.reverse_cons, List.map_append,
        List.map_cons, List.map_nil, List.append_assoc, List.singleton_append]
    | none =>
      simp only [Stmt.execList_append, Stmt.execList_shareGuard, Stmt.execList_guards,
        Stmt.execList, ih, List.reverse_nil, List.map_nil, List.nil_append]

/-- **Guards may be shared.**  A list of statements does the same with and without shared guards,
from every state in either mode.  And what that rests on: no action, expression or statement leaves
normal mode. -/
theorem coalesce_exec (bound depth : Nat) :
    (∀ stmts, Stmt.execList ⟨bound, perform bound depth⟩ (coalesce stmts) =
      Stmt.execList ⟨bound, perform bound depth⟩ stmts) ∧
    (∀ action m, m.mode = .normal → (perform bound depth action m).EndsNormal id) ∧
    (∀ (e : Expr) act m, m.mode = .normal → (e.eval ⟨bound, perform bound depth⟩ act m).EndsNormal
      id) ∧
    ∀ (s : Stmt) l, l.machine.mode = .normal →
      (s.exec ⟨bound, perform bound depth⟩ l).EndsNormal Local.machine :=
  ⟨fun stmts => Stmt.execList_coalesceRun [] stmts, fun action _ => perform_endsNormal action,
    fun e act _ => e.eval_endsNormal act, fun s _ => s.exec_endsNormal⟩

end Coalescing

end Resumable
