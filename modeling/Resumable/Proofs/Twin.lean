import Mathlib.Data.List.Forall2
import Resumable.Machine.Activation
import Resumable.Proofs.Code

/-!
Code that does the same in normal mode.

`Stmt.Twins` relates the statements of a function to those that instrumentation makes of them.  The
second list does in normal mode what the first one does: it has tests that hold then, marks that
have no effect then, blocks and guards around what stands on its own in the first, and a local of
its own for a call that is returned inside of a `try`.  That local is the only name that the first
list must not use.

The relation is made to be read off the output of instrumentation, statement by statement, and to
survive loading.  Functions stand for one another if their sites do; which sites do is a parameter.
-/

namespace Resumable

/-- Which sites of functions stand for one another. -/
abbrev Sites := Nat → Nat → Prop

/-- Every site stands for one other at most, in both directions. -/
def Sites.OneToOne (sites : Sites) : Prop :=
  ∀ ⦃a a' b b'⦄, sites a a' → sites b b' → (a = b ↔ a' = b')

/-- What stood for one another still does. -/
def Sites.Extends (sites' sites : Sites) : Prop :=
  ∀ a a', sites a a' → sites' a a'

/-- The locals that a call of the function binds at its beginning. -/
def Func.layoutLocals (f : Func) : List String :=
  (f.frame.map (·.locals)).getD []

/-- The test holds in normal mode while no frames are collected. -/
def Expr.holdsNormally : Expr → Bool
  | .isNormal | .unary .not .capturing | .binary .or .isNormal (.binary .and .isRestoring
      (.targetIn _)) =>
    true
  | _ => false

/-- The statement has no effect in normal mode while calls are not counted and no frames are
collected. -/
def Stmt.isSilent : Stmt → Bool
  | .stackDec | .stackInc | .restoreFrame | .returnIfCapturing _ | .rethrowSignal _
  | .ifS (.binary .and .isRestoring (.targetIn _)) (.throwS (.ident _)) none => true
  | _ => false

/-- A statement that is entered in restoring mode only. -/
def Stmt.isReentry : Stmt → Bool
  | .ifS _ (.letS ..) none | .ifS _ (.assign ..) none | .ifS _ (.expr _) none => true
  | _ => false

mutual

inductive Expr.Twin (sites : Sites) : Expr → Expr → Prop
  | num {value : Float} : Expr.Twin sites (.num value) (.num value)
  | str {value : String} : Expr.Twin sites (.str value) (.str value)
  | bool {value : Bool} : Expr.Twin sites (.bool value) (.bool value)
  | null : Expr.Twin sites .null .null
  | undefined : Expr.Twin sites .undefined .undefined
  | ident {name : String} : name ≠ tailResult → Expr.Twin sites (.ident name) (.ident name)
  | binary {op : BinaryOp} {left right left' right' : Expr} :
      Expr.Twin sites left left' → Expr.Twin sites right right' →
      Expr.Twin sites (.binary op left right) (.binary op left' right')
  | unary {op : UnaryOp} {arg arg' : Expr} :
      Expr.Twin sites arg arg' → Expr.Twin sites (.unary op arg) (.unary op arg')
  | cond {test thenE elseE test' thenE' elseE' : Expr} :
      Expr.Twin sites test test' → Expr.Twin sites thenE thenE' → Expr.Twin sites elseE elseE' →
      Expr.Twin sites (.cond test thenE elseE) (.cond test' thenE' elseE')
  | member {base base' : Expr} {property : String} :
      Expr.Twin sites base base' → Expr.Twin sites (.member base property) (.member base' property)
  | index {base key base' key' : Expr} :
      Expr.Twin sites base base' → Expr.Twin sites key key' →
      Expr.Twin sites (.index base key) (.index base' key')
  | call {callee callee' : Expr} {args args' : List Expr} :
      Expr.Twin sites callee callee' → Expr.TwinList sites args args' →
      Expr.Twin sites (.call callee args) (.call callee' args')
  | new {callee callee' : Expr} {args args' : List Expr} :
      Expr.Twin sites callee callee' → Expr.TwinList sites args args' →
      Expr.Twin sites (.new callee args) (.handleNew callee' args')
  | func {f f' : Func} : Func.Twin sites f f' → Expr.Twin sites (.func f) (.func f')
  | array {elements elements' : List Expr} :
      Expr.TwinList sites elements elements' → Expr.Twin sites (.array elements) (.array elements')
  | object {props props' : List (String × Expr)} :
      Expr.TwinProps sites props props' → Expr.Twin sites (.object props) (.object props')
  | this : Expr.Twin sites .this .this
  | arguments : Expr.Twin sites .arguments .arguments

inductive Expr.TwinList (sites : Sites) : List Expr → List Expr → Prop
  | nil : Expr.TwinList sites [] []
  | cons {e e' : Expr} {rest rest' : List Expr} :
      Expr.Twin sites e e' → Expr.TwinList sites rest rest' →
      Expr.TwinList sites (e :: rest) (e' :: rest')

inductive Expr.TwinProps (sites : Sites) : List (String × Expr) → List (String × Expr) → Prop
  | nil : Expr.TwinProps sites [] []
  | cons {key : String} {e e' : Expr} {rest rest' : List (String × Expr)} :
      Expr.Twin sites e e' → Expr.TwinProps sites rest rest' →
      Expr.TwinProps sites ((key, e) :: rest) ((key, e') :: rest')

inductive Expr.TwinOption (sites : Sites) : Option Expr → Option Expr → Prop
  | none : Expr.TwinOption sites none none
  | some {e e' : Expr} : Expr.Twin sites e e' → Expr.TwinOption sites (some e) (some e')

/-- The second test is the first one in normal mode. -/
inductive Expr.TwinTest (sites : Sites) : Expr → Expr → Prop
  | normal {test test' : Expr} :
      Expr.Twin sites test test' → Expr.TwinTest sites test (.binary .and .isNormal test')
  | orRestoring {test test' : Expr} {labels : List Nat} :
      Expr.Twin sites test test' → Expr.TwinTest sites test
        (.binary .or (.binary .and .isNormal test') (.binary .and .isRestoring (.targetIn labels)))
  | restoringOr {test test' : Expr} {labels : List Nat} :
      Expr.Twin sites test test' → Expr.TwinTest sites test
        (.binary .or (.binary .and .isRestoring (.targetIn labels)) (.binary .and .isNormal test'))

inductive Target.Twin (sites : Sites) : Target → Target → Prop
  | ident {name : String} : name ≠ tailResult → Target.Twin sites (.ident name) (.ident name)
  | member {base base' : Expr} {property : String} :
      Expr.Twin sites base base' → Target.Twin sites (.member base property)
        (.member base' property)
  | index {base key base' key' : Expr} :
      Expr.Twin sites base base' → Expr.Twin sites key key' →
      Target.Twin sites (.index base key) (.index base' key')

/-- One statement that does in normal mode what some others do. -/
inductive Stmt.Twin (sites : Sites) : List Stmt → Stmt → Prop
  | silent {s : Stmt} : s.isSilent = true → Stmt.Twin sites [] s
  | splice {body body' : List Stmt} :
      Stmt.Twins sites body body' → Stmt.Twin sites body (.block body')
  | guarded {body : List Stmt} {test : Expr} {s : Stmt} {elseS : Option Stmt} :
      test.holdsNormally = true → Stmt.Twin sites body s → (∀ r ∈ elseS, r.isReentry = true) →
      Stmt.Twin sites body (.ifS test s elseS)
  | recorded {body : List Stmt} {label : Nat} {s : Stmt} :
      Stmt.Twin sites body s → Stmt.Twin sites body (.recordOnCapture label s)
  | shadowed {body : List Stmt} {label : Nat} {s : Stmt} :
      Stmt.Twin sites body s → Stmt.Twin sites body (.shadowFrame label s)
  | block {body body' : List Stmt} :
      Stmt.Twins sites body body' → Stmt.Twin sites [.block body] (.block body')
  | letS {name : String} {init init' : Option Expr} :
      name ≠ tailResult → Expr.TwinOption sites init init' →
      Stmt.Twin sites [.letS name init] (.letS name init')
  | assign {target target' : Target} {value value' : Expr} :
      Target.Twin sites target target' → Expr.Twin sites value value' →
      Stmt.Twin sites [.assign target value] (.assign target' value')
  | expr {e e' : Expr} : Expr.Twin sites e e' → Stmt.Twin sites [.expr e] (.expr e')
  | ifS {test test' : Expr} {thenS thenS' : Stmt} {elseS elseS' : Option Stmt} :
      Expr.TwinTest sites test test' → Stmt.Twin sites [thenS] thenS' →
      Stmt.TwinOption sites elseS elseS' →
      Stmt.Twin sites [.ifS test thenS elseS] (.ifS test' thenS' elseS')
  | whileS {test test' : Expr} {body body' : Stmt} :
      Expr.TwinTest sites test test' → Stmt.Twin sites [body] body' →
      Stmt.Twin sites [.whileS test body] (.whileS test' body')
  | loop {label : String} {test test' : Expr} {body body' : Stmt} :
      Expr.TwinTest sites test test' → Stmt.Twin sites [body] body' →
      Stmt.Twin sites [.labeled label (.whileS test body)] (.labeled label (.whileS test' body'))
  | labeled {label : String} {body body' : Stmt} :
      body.isLoop = false → body'.isLoop = false → Stmt.Twin sites [body] body' →
      Stmt.Twin sites [.labeled label body] (.labeled label body')
  | breakS {label : Option String} : Stmt.Twin sites [.breakS label] (.breakS label)
  | returnS {value value' : Option Expr} :
      Expr.TwinOption sites value value' → Stmt.Twin sites [.returnS value] (.returnS value')
  /-- A call that is returned inside of a `try`. -/
  | tail {strategy : Strategy} {label : Nat} {e e' : Expr} :
      Expr.Twin sites e e' → Stmt.Twin sites [.returnS (some e)]
        (.block (capturePoint strategy label (.letS tailResult (some e')) ++
          [.stackInc, .returnS (some (.ident tailResult))]))
  | throwS {value value' : Expr} :
      Expr.Twin sites value value' → Stmt.Twin sites [.throwS value] (.throwS value')
  | tryS {body body' : Stmt} {handler handler' : Option Handler} {final final' : Option Stmt} :
      Stmt.Twin sites [body] body' → Handler.TwinOption sites handler handler' →
      Stmt.TwinOption sites final final' →
      Stmt.Twin sites [.tryS body handler final] (.tryS body' handler' final')
  | decl {f f' : Func} : Func.Twin sites f f' → Stmt.Twin sites [.decl f] (.decl f')

/-- Statements that do in normal mode what others do. -/
inductive Stmt.Twins (sites : Sites) : List Stmt → List Stmt → Prop
  | nil : Stmt.Twins sites [] []
  | cons {body rest rest' : List Stmt} {s : Stmt} :
      Stmt.Twin sites body s → Stmt.Twins sites rest rest' →
      Stmt.Twins sites (body ++ rest) (s :: rest')

inductive Stmt.TwinOption (sites : Sites) : Option Stmt → Option Stmt → Prop
  | none : Stmt.TwinOption sites none none
  | some {s s' : Stmt} : Stmt.Twin sites [s] s' → Stmt.TwinOption sites (some s) (some s')

inductive Handler.TwinOption (sites : Sites) : Option Handler → Option Handler → Prop
  | none : Handler.TwinOption sites none none
  | some {param : String} {body body' : Stmt} :
      param ≠ tailResult → Stmt.Twin sites [body] body' →
      Handler.TwinOption sites (some ⟨param, body⟩) (some ⟨param, body'⟩)

inductive Func.Twin (sites : Sites) : Func → Func → Prop
  | intro {f f' : Func} :
      f'.name = f.name → f'.params = f.params → f'.layoutLocals = f.layoutLocals →
      tailResult ∉ f.name.toList ++ f.params → sites f.site f'.site →
      Stmt.Twins sites f.body f'.body → Func.Twin sites f f'

end

/-! ## Lists -/

section Lists

variable {sites : Sites} {body rest body' rest' : List Stmt} {s : Stmt}

theorem Stmt.Twin.twins (twin : Stmt.Twin sites body s) : Stmt.Twins sites body [s] := by
  rw [← List.append_nil body]
  exact .cons twin .nil

theorem Stmt.Twins.of_singleton (twins : Stmt.Twins sites body [s]) : Stmt.Twin sites body s := by
  cases twins with
  | cons twin rest =>
    cases rest
    rw [List.append_nil]
    exact twin

theorem Stmt.Twins.append (first : Stmt.Twins sites body body')
    (second : Stmt.Twins sites rest rest') : Stmt.Twins sites (body ++ rest) (body' ++ rest') := by
  induction body' generalizing body with
  | nil =>
    cases first
    exact second
  | cons s body' ih =>
    cases first with
    | cons twin first =>
      rw [List.append_assoc]
      exact .cons twin (ih first)

/-- A list as one statement. -/
theorem Stmt.Twins.ofList (twins : Stmt.Twins sites body body') :
    Stmt.Twin sites body (.ofList body') := by
  unfold Stmt.ofList
  split
  · exact twins.of_singleton
  · exact .splice twins

/-- One guard for a run of statements. -/
theorem Stmt.Twins.shareGuard (twins : Stmt.Twins sites body body') :
    Stmt.Twins sites body (shareGuard body') := by
  have guarded {s : Stmt} (twin : Stmt.Twin sites body s) :
      Stmt.Twins sites body [.guarded .isNormal s] :=
    Stmt.Twin.twins (.guarded rfl twin (by simp))
  unfold Resumable.shareGuard
  split
  · exact twins
  · exact guarded twins.of_singleton
  · exact guarded (.splice twins)

/-- What stands under a guard does the same without it. -/
theorem Stmt.Twin.under_guard {inner : Stmt} (twin : Stmt.Twin sites body s)
    (guarded : s.normalOnly? = some inner) : Stmt.Twin sites body inner := by
  unfold Stmt.normalOnly? at guarded
  split at guarded
  · cases guarded
    cases twin with
    | silent silent => cases silent
    | guarded _ twin _ => exact twin
    | ifS test _ _ => cases test
  · cases guarded

/-- Merging guards, with a run of statements that waits for its guard. -/
theorem Stmt.Twins.coalesceRun {run : List Stmt} (waiting : Stmt.Twins sites body run.reverse)
    (twins : Stmt.Twins sites rest rest') :
    Stmt.Twins sites (body ++ rest) (coalesceRun run rest') := by
  induction rest' generalizing body rest run with
  | nil =>
    cases twins
    rw [List.append_nil]
    exact waiting.shareGuard
  | cons s rest' ih =>
    cases twins with
    | @cons first rest _ _ twin twins =>
      unfold Resumable.coalesceRun
      split
      · rename_i inner guarded
        rw [← List.append_assoc]
        refine ih ?_ twins
        rw [List.reverse_cons]
        exact waiting.append (twin.under_guard guarded).twins
      · have none : Stmt.Twins sites [] ([] : List Stmt).reverse := .nil
        exact waiting.shareGuard.append (.cons twin (ih none twins))

theorem Stmt.Twins.coalesce (twins : Stmt.Twins sites body body') :
    Stmt.Twins sites body (coalesce body') :=
  have none : Stmt.Twins sites [] ([] : List Stmt).reverse := .nil
  none.coalesceRun twins

end Lists

/-! ## More sites -/

section Mono

variable {sites sites' : Sites}

section

variable (more : sites'.Extends sites)

include more

set_option linter.unusedSectionVars false in
mutual

theorem Expr.Twin.mono {e e' : Expr} : e.Twin sites e' → e.Twin sites' e'
  | .num => .num
  | .str => .str
  | .bool => .bool
  | .null => .null
  | .undefined => .undefined
  | .ident own => .ident own
  | .binary left right => .binary (left.mono) (right.mono)
  | .unary arg => .unary (arg.mono)
  | .cond test thenE elseE => .cond (test.mono) (thenE.mono) (elseE.mono)
  | .member base => .member (base.mono)
  | .index base key => .index (base.mono) (key.mono)
  | .call callee args => .call (callee.mono) (args.mono)
  | .new callee args => .new (callee.mono) (args.mono)
  | .func f => .func (f.mono)
  | .array elements => .array (elements.mono)
  | .object props => .object (props.mono)
  | .this => .this
  | .arguments => .arguments

theorem Expr.TwinList.mono {es es' : List Expr} :
    Expr.TwinList sites es es' → Expr.TwinList sites' es es'
  | .nil => .nil
  | .cons e rest => .cons (e.mono) (rest.mono)

theorem Expr.TwinProps.mono {props props' : List (String × Expr)} :
    Expr.TwinProps sites props props' → Expr.TwinProps sites' props props'
  | .nil => .nil
  | .cons e rest => .cons (e.mono) (rest.mono)

theorem Expr.TwinOption.mono {o o' : Option Expr} :
    Expr.TwinOption sites o o' → Expr.TwinOption sites' o o'
  | .none => .none
  | .some e => .some (e.mono)

theorem Expr.TwinTest.mono {test test' : Expr} :
    test.TwinTest sites test' → test.TwinTest sites' test'
  | .normal test => .normal (test.mono)
  | .orRestoring test => .orRestoring (test.mono)
  | .restoringOr test => .restoringOr (test.mono)

theorem Target.Twin.mono {target target' : Target} :
    target.Twin sites target' → target.Twin sites' target'
  | .ident own => .ident own
  | .member base => .member (base.mono)
  | .index base key => .index (base.mono) (key.mono)

theorem Stmt.Twin.mono {body : List Stmt} {s : Stmt} :
    Stmt.Twin sites body s → Stmt.Twin sites' body s
  | .silent silent => .silent silent
  | .splice twins => .splice (twins.mono)
  | .guarded holds twin reentry => .guarded holds (twin.mono) reentry
  | .recorded twin => .recorded (twin.mono)
  | .shadowed twin => .shadowed (twin.mono)
  | .block twins => .block (twins.mono)
  | .letS own init => .letS own (init.mono)
  | .assign target value => .assign (target.mono) (value.mono)
  | .expr e => .expr (e.mono)
  | .ifS test thenS elseS => .ifS (test.mono) (thenS.mono) (elseS.mono)
  | .whileS test body => .whileS (test.mono) (body.mono)
  | .loop test body => .loop (test.mono) (body.mono)
  | .labeled notLoop notLoop' body => .labeled notLoop notLoop' (body.mono)
  | .breakS => .breakS
  | .returnS value => .returnS (value.mono)
  | .tail e => .tail (e.mono)
  | .throwS value => .throwS (value.mono)
  | .tryS body handler final => .tryS (body.mono) (handler.mono) (final.mono)
  | .decl f => .decl (f.mono)

theorem Stmt.Twins.mono {body body' : List Stmt} :
    Stmt.Twins sites body body' → Stmt.Twins sites' body body'
  | .nil => .nil
  | .cons twin rest => .cons (twin.mono) (rest.mono)

theorem Stmt.TwinOption.mono {o o' : Option Stmt} :
    Stmt.TwinOption sites o o' → Stmt.TwinOption sites' o o'
  | .none => .none
  | .some twin => .some (twin.mono)

theorem Handler.TwinOption.mono {o o' : Option Handler} :
    Handler.TwinOption sites o o' → Handler.TwinOption sites' o o'
  | .none => .none
  | .some own twin => .some own (twin.mono)

theorem Func.Twin.mono {f f' : Func} : f.Twin sites f' → f.Twin sites' f'
  | .intro name params locals own site body =>
    .intro name params locals own (more _ _ site) (body.mono)

end

end

end Mono

/-! ## Declared functions -/

theorem Stmt.declaredList_append (body rest : List Stmt) :
    Stmt.declaredList (body ++ rest) = Stmt.declaredList body ++ Stmt.declaredList rest := by
  induction body with
  | nil => rfl
  | cons s body ih =>
    rw [List.cons_append, Stmt.declaredList, Stmt.declaredList, ih, List.append_assoc]

theorem Stmt.declared_of_isSilent {s : Stmt} (silent : s.isSilent = true) : s.declared = [] := by
  unfold Stmt.isSilent at silent
  split at silent <;> first | rfl | cases silent

theorem Stmt.declaredOption_of_isReentry {elseS : Option Stmt}
    (reentry : ∀ r ∈ elseS, r.isReentry = true) : Stmt.declaredOption elseS = [] := by
  cases elseS with
  | none => rfl
  | some r =>
    have shape := reentry r rfl
    unfold Stmt.isReentry at shape
    split at shape <;> first | rfl | cases shape

section Declared

variable {sites : Sites}

mutual

/-- The functions that are declared stand for one another in their order. -/
theorem Stmt.Twin.declared {body : List Stmt} {s : Stmt} :
    Stmt.Twin sites body s → List.Forall₂ (Func.Twin sites) (Stmt.declaredList body) s.declared
  | .silent silent => by
    rw [Stmt.declared_of_isSilent silent]
    exact .nil
  | .splice twins => twins.declared
  | .guarded _ twin reentry => by
    rw [Stmt.declared, Stmt.declaredOption_of_isReentry reentry, List.append_nil]
    exact twin.declared
  | .recorded twin => twin.declared
  | .shadowed twin => twin.declared
  | .block twins => by
    rw [Stmt.declaredList, Stmt.declaredList, List.append_nil]
    exact twins.declared
  | .letS _ _ => .nil
  | .assign _ _ => .nil
  | .expr _ => .nil
  | .ifS _ thenS elseS => by
    have first := thenS.declared
    rw [Stmt.declaredList, Stmt.declaredList, List.append_nil] at first ⊢
    exact List.rel_append first elseS.declared
  | .whileS _ body => body.declared
  | .loop _ body => body.declared
  | .labeled _ _ body => body.declared
  | .breakS => .nil
  | .returnS _ => .nil
  | @Stmt.Twin.tail _ strategy _ _ _ _ => by cases strategy <;> exact .nil
  | .throwS _ => .nil
  | .tryS body handler final => by
    have first := body.declared
    rw [Stmt.declaredList, Stmt.declaredList, List.append_nil] at first ⊢
    exact List.rel_append (List.rel_append first handler.declared) final.declared
  | .decl f => .cons f .nil

theorem Stmt.Twins.declared {body body' : List Stmt} : Stmt.Twins sites body body' →
    List.Forall₂ (Func.Twin sites) (Stmt.declaredList body) (Stmt.declaredList body')
  | .nil => .nil
  | .cons twin rest => by
    rw [Stmt.declaredList_append]
    exact List.rel_append twin.declared rest.declared

theorem Stmt.TwinOption.declared {o o' : Option Stmt} : Stmt.TwinOption sites o o' →
    List.Forall₂ (Func.Twin sites) (Stmt.declaredOption o) (Stmt.declaredOption o')
  | .none => .nil
  | .some twin => by
    have declared := twin.declared
    rw [Stmt.declaredList, Stmt.declaredList, List.append_nil] at declared
    exact declared

theorem Handler.TwinOption.declared {o o' : Option Handler} : Handler.TwinOption sites o o' →
    List.Forall₂ (Func.Twin sites) (Handler.declaredOption o) (Handler.declaredOption o')
  | .none => .nil
  | .some _ twin => by
    have declared := twin.declared
    rw [Stmt.declaredList, Stmt.declaredList, List.append_nil] at declared
    exact declared

end

end Declared

end Resumable
