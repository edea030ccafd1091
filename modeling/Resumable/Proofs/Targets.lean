import Resumable.Instrument.CapturePoint
import Resumable.Proofs.Chronicle
import Resumable.Syntax.Load

/-!
Statements that give a value to a target.

A `let`, an assignment and an expression statement evaluate the parts of the target first, then the
value, and then they give it to the target.  `Stmt.Restores` says that a statement differs from such
a one by its value only, which is that of the next frame.  Loading numbers the functions in the two
on their own, and keeps the relation.
-/

namespace Resumable

/-- What is evaluated of the target before the value. -/
def Target.parts : Target → List Expr
  | .ident _ => []
  | .member base _ => [base]
  | .index base key => [base, key]

/-- Give the value to the target with these values of its parts. -/
def Target.give (bound : Nat) : Target → List Value → Value → Activation → Eval Unit
  | .ident name, [], value, act => Eval.modifyStore fun store => store.assign act.scope name value
  | .member _ property, [base], value, _ => Eval.setProperty bound base property value
  | .index .., [base, key], value, _ => Eval.setIndex bound base key value
  | _, _, _, _ => return

namespace Stmt

/-- The expression whose value the statement gives to its target. -/
def given? : Stmt → Option Expr
  | .letS _ init => init
  | .assign _ value => some value
  | .expr e => some e
  | _ => none

/-- The parts of the target. -/
def parts : Stmt → List Expr
  | .assign target _ => target.parts
  | _ => []

/-- Give the value to the target of the statement. -/
def give (bound : Nat) : Stmt → List Value → Value → Exec Unit
  | .letS name _, _, value => Exec.declare name value
  | .assign target _, parts, value => Exec.ofEval fun act => target.give bound parts value act
  | _, _, _ => return

/-- What is left of the statement when the parts of its target have these values. -/
def finish (bound : Nat) (s : Stmt) (parts : List Value) (value : Activation → Eval Value) :
    Exec Completion := do
  let value ← Exec.ofEval value
  s.give bound parts value
  return .normal

end Stmt

theorem Exec.ofEval_bind {α β : Type} (x : Activation → Eval α) (f : α → Activation → Eval β) :
    (Exec.ofEval fun act => x act >>= fun a => f a act) = (do
      let a ← Exec.ofEval x
      Exec.ofEval (f a)) := by
  funext l
  obtain ⟨act, m⟩ := l
  show Exec.ofEval (fun act => Run.bind (x act) fun a => f a act) ⟨act, m⟩ =
    Run.bind (Exec.ofEval x) _ ⟨act, m⟩
  simp only [Exec.ofEval, Run.bind]
  cases x act m <;> rfl

/-- An assignment evaluates the parts of the target, and the value after them. -/
theorem Target.assign_eq (g : Engine) (value : Expr) (target : Target) (act : Activation) :
    target.assign g value act = (do
      let parts ← Expr.evalList g act target.parts
      let value ← value.eval g act
      target.give g.bound parts value act) := by
  cases target with
  | ident name | member base property =>
    simp [Target.assign, Target.parts, Target.give, Expr.evalList]
  | index base key => simp [Target.assign, Target.parts, Target.give, Expr.evalList]

namespace Stmt

/-- The parts of the target are evaluated before the value. -/
theorem exec_eq_finish (g : Engine) {s : Stmt} {e : Expr} (given : s.given? = some e) :
    s.exec g = (do
      let parts ← Exec.ofEval fun act => Expr.evalList g act s.parts
      s.finish g.bound parts fun act => e.eval g act) := by
  cases s with
  | letS name init =>
    obtain rfl : init = some e := given
    rfl
  | assign target value =>
    obtain rfl : value = e := Option.some.inj given
    simp only [exec, finish, parts, give, Target.assign_eq]
    rw [Exec.ofEval_bind, bind_assoc]
    refine bind_congr fun parts => ?_
    rw [Exec.ofEval_bind, bind_assoc]
  | expr e' =>
    obtain rfl : e' = e := Option.some.inj given
    have none : (Exec.ofEval fun act => Expr.evalList g act []) = pure [] := rfl
    simp [exec, finish, parts, give, none, discard, map_const]
  | _ => exact nomatch given

/-- Where the parts of the target have values, the rest is left. -/
theorem exec_of_parts {g : Engine} {s : Stmt} {e : Expr} {l : Local} {values : List Value}
    (given : s.given? = some e) (evaluated : Expr.evalList g l.act s.parts l.machine =
      .ok values l.machine) :
    s.exec g l = s.finish g.bound values (fun act => e.eval g act) l := by
  rw [exec_eq_finish g given]
  show Run.bind (Exec.ofEval fun act => Expr.evalList g act s.parts) _ l = _
  simp only [Run.bind, Exec.ofEval, evaluated]

end Stmt

/-! ## Statements with another value -/

/-- Names, literals and `this`. -/
def Expr.isPlain : Expr → Bool
  | .num _ | .str _ | .bool _ | .null | .undefined | .ident _ | .this => true
  | _ => false

theorem Expr.load_isPlain (e : Expr) (next : Nat) : (e.load next).1.isPlain = e.isPlain := by
  cases e <;> rfl

theorem Expr.load_of_isPlain {e : Expr} (plain : e.isPlain = true) (next : Nat) :
    (e.load next).1 = e := by
  cases e with
  | num | str | bool | null | undefined | ident | this => rfl
  | _ => exact nomatch plain

/-- The statement gives the value of the next frame to the target of the other one.  Plain parts of
the target are the same in both. -/
structure Stmt.Restores (again s : Stmt) : Prop where
  given : s.given?.isSome = true
  next : again.given? = some .reenterNext
  give : ∀ bound, again.give bound = s.give bound
  parts : (∀ e ∈ s.parts, e.isPlain = true) → again.parts = s.parts

theorem Stmt.Restores.finish {s again : Stmt} (restores : again.Restores s) (bound : Nat) :
    again.finish bound = s.finish bound := by
  funext parts value
  simp only [Stmt.finish, restores.give]

theorem Stmt.restoring_restores {s : Stmt} (given : s.given?.isSome = true) :
    s.restoring.Restores s := by
  cases s with
  | letS name init => exact ⟨given, rfl, fun _ => rfl, fun _ => rfl⟩
  | assign target value => exact ⟨given, rfl, fun _ => rfl, fun _ => rfl⟩
  | expr e => exact ⟨given, rfl, fun _ => rfl, fun _ => rfl⟩
  | _ => exact nomatch given

theorem Stmt.given?_of_application {s : Stmt} (app : s.application.isSome = true) :
    s.given?.isSome = true := by
  unfold Stmt.application at app
  split at app
  · rfl
  · rfl
  · rfl
  · cases app

theorem Stmt.load_given? (s : Stmt) (next : Nat) : (s.load next).1.given?.isSome =
    s.given?.isSome := by
  cases s with
  | letS name init => cases init <;> rfl
  | _ => rfl

theorem Target.load_give (target : Target) (next bound : Nat) :
    (target.load next).1.give bound = target.give bound := by
  funext parts value act
  rcases parts with _ | ⟨_, _ | ⟨_, _ | _⟩⟩ <;> cases target <;> rfl

theorem Stmt.load_give (s : Stmt) (next bound : Nat) : (s.load next).1.give bound =
    s.give bound := by
  cases s with
  | assign target value =>
    show (fun parts value => Exec.ofEval fun act => (target.load next).1.give bound parts value
      act) = _
    rw [Target.load_give]
    rfl
  | _ => rfl

/-- Parts are plain as they are loaded, and then nothing happens to them. -/
theorem Stmt.load_parts (s : Stmt) (next : Nat) :
    ((∀ e ∈ (s.load next).1.parts, e.isPlain = true) ↔ ∀ e ∈ s.parts, e.isPlain = true) ∧
      ((∀ e ∈ s.parts, e.isPlain = true) → (s.load next).1.parts = s.parts) := by
  cases s with
  | assign target value =>
    cases target with
    | ident name => exact ⟨Iff.rfl, fun _ => rfl⟩
    | member base property =>
      show ((∀ e ∈ [(base.load next).1], _) ↔ ∀ e ∈ [base], _) ∧
        ((∀ e ∈ [base], _) → [(base.load next).1] = [base])
      simp only [List.forall_mem_singleton, Expr.load_isPlain, true_and]
      intro plain
      rw [Expr.load_of_isPlain plain]
    | index base key =>
      show ((∀ e ∈ [(base.load next).1, (key.load (base.load next).2).1], _) ↔
        ∀ e ∈ [base, key], _) ∧ ((∀ e ∈ [base, key], _) →
        [(base.load next).1, (key.load (base.load next).2).1] = [base, key])
      simp only [List.forall_mem_cons, Expr.load_isPlain, true_and]
      intro plain
      rw [Expr.load_of_isPlain plain.1, Expr.load_of_isPlain plain.2.1]
  | _ => exact ⟨Iff.rfl, fun _ => rfl⟩

theorem Stmt.Restores.load {s again : Stmt} (restores : again.Restores s) (next later : Nat) :
    (again.load later).1.Restores (s.load next).1 where
  given := (s.load_given? next).trans restores.given
  next := by
    have value := restores.next
    cases again with
    | letS name init =>
      obtain rfl : init = some .reenterNext := value
      rfl
    | assign target value' =>
      obtain rfl : value' = .reenterNext := Option.some.inj value
      rfl
    | expr e =>
      obtain rfl : e = .reenterNext := Option.some.inj value
      rfl
    | _ => exact nomatch value
  give bound := by rw [Stmt.load_give, Stmt.load_give, restores.give]
  parts plain := by
    replace plain := (s.load_parts next).1.mp plain
    have same := restores.parts plain
    rw [(s.load_parts next).2 plain, (again.load_parts later).2 (same ▸ plain), same]

end Resumable
