import Resumable.Proofs.Places
import Resumable.Proofs.Quiet

/-!
A walk through expressions.

`Reading` are the rules that a property of computations has to obey to hold of the evaluation of
expressions: one for each thing that an expression does by itself, and one for the actions that it
begins.  The functions that are written in an expression may be asked to be of a class.
`Reading.expr` is the induction over expressions, and those over the parts of statements follow from
it.
-/

namespace Resumable

/-- The action has code of its own. -/
def Action.carriesCode : Action → Bool
  | .enterTop _ | .sequence _ => true
  | _ => false

/-- A property of computations is kept by the evaluation of expressions in an activation. -/
structure Reading (code : Func → Prop) (w : Observer) (context : Context) (act : Activation)
    (holds : {α : Type} → Observed Machine α → Prop) : Prop where
  bind {α β : Type} {x : Observed Machine α} {f : α → Observed Machine β} : holds x →
    (∀ a, holds (f a)) → holds (x >>= f)
  still {α : Type} {x : Eval α} : x.Still → holds (.lift x)
  noted {e : Expr} {x : Observed Machine Value} : (∀ f ∈ e.functions, code f) → holds x →
    holds (Observed.note (.expr e act) >>= fun _ => x)
  closure {f : Func} : code f → holds (.lift (Eval.makeClosure act f))
  assign (name : String) (value : Value) :
    holds (.lift (Eval.modifyStore fun store => store.assign act.scope name value))
  perform {action : Action} : action.carriesCode = false → holds (w.perform context action)

namespace Reading

variable {code : Func → Prop} {w : Observer} {context : Context} {act : Activation}
  {holds : {α : Type} → Observed Machine α → Prop} (reading : Reading code w context act holds)

include reading

theorem pure {α : Type} (a : α) : holds (Pure.pure a : Observed Machine α) :=
  reading.still (.pure a)

omit reading in
theorem ite {α : Type} {p : Prop} [Decidable p] {x y : Observed Machine α} (yes : holds x)
    (no : holds y) : holds (if p then x else y) := by
  split
  · exact yes
  · exact no

/-- Evaluation of the expression, and of a call to it. -/
def Reads (code : Func → Prop) (w : Observer) (context : Context) (act : Activation)
    (holds : {α : Type} → Observed Machine α → Prop) (e : Expr) : Prop :=
  holds (e.observe w context act) ∧ ∀ args, (∀ f ∈ Expr.listFunctions args, code f) →
    holds (Expr.observeList w context act args) → holds ((Expr.call e args).observe w context act)

/-- Only a call to a member does not evaluate the callee as a whole. -/
theorem of_not_member {e : Expr} (ofCode : ∀ f ∈ e.functions, code f)
    (notMember : ∀ base property, e ≠ .member base property)
    (rest : holds (e.observe w context act)) :
    Reads code w context act holds e := by
  refine ⟨rest, fun args argsCode argsHold => ?_⟩
  rw [Expr.observe]
  · exact reading.noted (List.forall_mem_append.mpr ⟨ofCode, argsCode⟩)
      (reading.bind rest fun _ => reading.bind argsHold fun _ => reading.perform rfl)
  · exact notMember

mutual

theorem reads : (e : Expr) → (∀ f ∈ e.functions, code f) → Reads code w context act holds e
  | .binary op left right, ofCode => by
    have both := List.forall_mem_append.mp ofCode
    have hl := (reads left both.1).1
    have hr := (reads right both.2).1
    refine reading.of_not_member ofCode nofun ?_
    cases op with
    | and =>
      rw [Expr.observe]
      exact reading.noted ofCode (reading.bind hl fun _ => ite hr (reading.pure _))
    | or =>
      rw [Expr.observe]
      exact reading.noted ofCode (reading.bind hl fun _ => ite (reading.pure _) hr)
    | _ =>
      simp only [Expr.observe]
      exact reading.noted ofCode (reading.bind hl fun _ => reading.bind hr fun _ =>
        reading.still (Eval.still.binary _ _ _))
  | .unary op arg, ofCode => by
    have h := (reads arg ofCode).1
    refine reading.of_not_member ofCode nofun ?_
    cases op with
    | typeOf =>
      by_cases named : ∃ name, arg = .ident name
      · obtain ⟨name, rfl⟩ := named
        rw [Expr.observe]
        exact reading.noted ofCode (reading.still (.read _))
      · rw [Expr.observe]
        · exact reading.noted ofCode (reading.bind h fun _ => reading.pure _)
        · exact fun name h => named ⟨name, h⟩
    | not | neg =>
      rw [Expr.observe]
      exact reading.noted ofCode (reading.bind h fun _ => reading.pure _)
  | .cond test thenE elseE, ofCode => by
    have both := List.forall_mem_append.mp ofCode
    have tested := List.forall_mem_append.mp both.1
    refine reading.of_not_member ofCode nofun ?_
    rw [Expr.observe]
    exact reading.noted ofCode (reading.bind (reads test tested.1).1 fun _ =>
      ite (reads thenE tested.2).1 (reads elseE both.2).1)
  | .member base property, ofCode => by
    have h := (reads base ofCode).1
    have get : ∀ value, holds (.lift (Eval.getProperty w.engine.bound value property)) :=
      fun value => reading.still (Eval.still.getProperty value property)
    refine ⟨?_, fun args argsCode argsHold => ?_⟩
    · rw [Expr.observe]
      exact reading.noted ofCode (reading.bind h get)
    · rw [Expr.observe]
      exact reading.noted (List.forall_mem_append.mpr ⟨ofCode, argsCode⟩) (reading.bind h fun _ =>
        reading.bind (get _) fun _ => reading.bind argsHold fun _ => reading.perform rfl)
  | .index base key, ofCode => by
    have both := List.forall_mem_append.mp ofCode
    refine reading.of_not_member ofCode nofun ?_
    rw [Expr.observe]
    exact reading.noted ofCode (reading.bind (reads base both.1).1 fun _ =>
      reading.bind (reads key both.2).1 fun _ => reading.still (Eval.still.getIndex _ _))
  | .call callee args, ofCode => by
    have both := List.forall_mem_append.mp ofCode
    exact reading.of_not_member ofCode nofun
      ((reads callee both.1).2 args both.2 (list args both.2))
  | .new callee args, ofCode | .handleNew callee args, ofCode => by
    have both := List.forall_mem_append.mp ofCode
    refine reading.of_not_member ofCode nofun ?_
    rw [Expr.observe]
    exact reading.noted ofCode (reading.bind (reads callee both.1).1 fun _ =>
      reading.bind (list args both.2) fun _ => reading.perform rfl)
  | .array elements, ofCode => by
    refine reading.of_not_member ofCode nofun ?_
    rw [Expr.observe]
    exact reading.noted ofCode (reading.bind (list elements ofCode) fun _ =>
      reading.still (Eval.makeArray_still _))
  | .object members, ofCode => by
    refine reading.of_not_member ofCode nofun ?_
    rw [Expr.observe]
    exact reading.noted ofCode (reading.bind (props members ofCode) fun _ =>
      reading.still (Eval.makeObject_still rfl))
  | .reenterNext, ofCode | .suspend, ofCode => by
    refine reading.of_not_member ofCode nofun ?_
    rw [Expr.observe]
    exact reading.noted ofCode (reading.perform rfl)
  | .ident _, ofCode => by
    refine reading.of_not_member ofCode nofun ?_
    rw [Expr.observe]
    exact reading.noted ofCode (reading.still (Eval.lookup_still act _))
  | .func f, ofCode => by
    refine reading.of_not_member ofCode nofun ?_
    rw [Expr.observe]
    exact reading.noted ofCode (reading.closure (ofCode f (List.mem_singleton_self f)))
  | .arguments, ofCode => by
    refine reading.of_not_member ofCode nofun ?_
    rw [Expr.observe]
    exact reading.noted ofCode (reading.still (Eval.makeArguments_still act))
  | .num _, ofCode | .str _, ofCode | .bool _, ofCode | .null, ofCode | .undefined,
      ofCode | .this, ofCode
  | .isNormal, ofCode | .isRestoring, ofCode | .targetIn _, ofCode | .capturing,
      ofCode | .newTarget, ofCode => by
    refine reading.of_not_member ofCode nofun ?_
    rw [Expr.observe]
    exact reading.noted ofCode (reading.still fun m => .refl m)

theorem list : (es : List Expr) → (∀ f ∈ Expr.listFunctions es, code f) →
    holds (Expr.observeList w context act es)
  | [], _ => reading.pure _
  | e :: rest, ofCode => by
    have both := List.forall_mem_append.mp ofCode
    rw [Expr.observeList]
    exact reading.bind (reads e both.1).1 fun _ => reading.bind (list rest both.2) fun _ =>
    reading.pure _

theorem props : (members : List (String × Expr)) → (∀ f ∈ Expr.propsFunctions members, code f) →
    holds (Expr.observeProps w context act members)
  | [], _ => reading.pure _
  | (_, e) :: rest, ofCode => by
    have both := List.forall_mem_append.mp ofCode
    rw [Expr.observeProps]
    exact reading.bind (reads e both.1).1 fun _ => reading.bind (props rest both.2) fun _ =>
    reading.pure _

end

/-- **Evaluation of an expression** has every property that the rules keep. -/
theorem expr (e : Expr) (ofCode : ∀ f ∈ e.functions, code f) : holds (e.observe w context act) :=
  (reading.reads e ofCode).1

theorem option (value : Option Expr) (ofCode : ∀ f ∈ Expr.optionFunctions value, code f) :
    holds (Expr.observeOption w context act value) := by
  cases value with
  | none => exact reading.pure _
  | some e => exact reading.expr e ofCode

theorem target (value : Expr) (target : Target) (valueCode : ∀ f ∈ value.functions, code f)
    (ofCode : ∀ f ∈ target.functions, code f) : holds (target.observe w context value act) := by
  have given : holds (value.observe w context act) := reading.expr value valueCode
  cases target with
  | ident name => exact reading.bind given fun _ => reading.assign name _
  | member base property =>
    refine reading.bind (reading.expr base ofCode) fun _ => reading.bind given fun _ => ?_
    exact reading.still (Eval.still.giveProperty _ _ _)
  | index base key =>
    have both := List.forall_mem_append.mp ofCode
    refine reading.bind (reading.expr base both.1) fun _ => reading.bind (reading.expr key both.2)
      fun _ => ?_
    exact reading.bind given fun _ => reading.still (Eval.still.setIndex _ _ _)

end Reading

end Resumable
