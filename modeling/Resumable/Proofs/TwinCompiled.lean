import Resumable.Proofs.Compiled
import Resumable.Proofs.TwinLoaded

/-!
Instrumentation and normal mode.

`Program.withLayouts` gives the functions of a program the layouts that instrumentation computes for
them and leaves their code alone, so that a call binds the same locals at its beginning.  For a
program that the checker accepts, what instrumentation makes of it does in normal mode what that
program does.
-/

namespace Resumable

open NormalForm

/-! ## Layouts alone -/

/-- Layouts for all functions. -/
def attachingLayouts (options : CompileOptions) : Transform Unit where
  func _ f := { f with frame := some ((analyze f.body).layout options) }

/-- The program with the layouts that instrumentation computes. -/
def Program.withLayouts (options : CompileOptions) (program : Program) : Program :=
  { program with body := Stmt.transformList (attachingLayouts options) () program.body }

/-- The transformation keeps statements, names of functions and kinds of expressions. -/
structure Transform.Tame (r : Transform Unit) : Prop where
  stmt : ∀ s, r.stmt () s = s
  name : ∀ f, (r.func () f).name = f.name
  application : ∀ e, (r.expr () e).isApplication = e.isApplication
  arguments : ∀ e, (r.expr () e).readsArguments = e.readsArguments

theorem attachingLayouts_tame (options : CompileOptions) : (attachingLayouts options).Tame where
  stmt _ := rfl
  name _ := rfl
  application _ := rfl
  arguments _ := rfl

theorem instrumenting_tame (options : CompileOptions) : (instrumenting options).Tame where
  stmt _ := rfl
  name _ := rfl
  application e := by
    cases e with
    | new callee args =>
      simp only [instrumenting]
      split <;> rfl
    | _ => rfl
  arguments e := by
    cases e with
    | new callee args =>
      simp only [instrumenting]
      split <;> rfl
    | _ => rfl

section Tame

variable {r : Transform Unit}

theorem Transform.Tame.boundNames (tame : r.Tame) (inTry : Bool) (s : Stmt) :
    (r.stmt () s).boundNames inTry = s.boundNames inTry := by
  rw [tame.stmt]

theorem Transform.Tame.readsArguments (tame : r.Tame) (s : Stmt) :
    (r.stmt () s).readsArguments = s.readsArguments := by
  rw [tame.stmt]

theorem Expr.transform_isApplication (tame : r.Tame) (e : Expr) :
    (e.transform r ()).isApplication = e.isApplication := by
  unfold Expr.transform
  rw [tame.application]
  cases e <;> rfl

theorem Stmt.isLoop_transform (tame : r.Tame) (s : Stmt) : (s.transform r ()).isLoop =
    s.isLoop := by
  unfold Stmt.transform
  rw [tame.stmt]
  cases s <;> rfl

theorem Func.boundName_eq (f : Func) : f.boundName = f.name.toList := by
  cases f
  rfl

theorem Func.transform_boundName (tame : r.Tame) (f : Func) : (f.transform r ()).boundName =
    f.boundName := by
  have same : (f.transform r ()).name = f.name := by
    cases f
    exact tame.name _
  rw [Func.boundName_eq, same, Func.boundName_eq]

mutual

theorem Stmt.transform_boundNames (tame : r.Tame) (inTry : Bool) :
    (s : Stmt) → (s.transform r ()).boundNames inTry = s.boundNames inTry
  | .block body => by
    rw [Stmt.transform, tame.stmt]
    exact Stmt.transformList_boundNames tame inTry body
  | .returnS (some e) => by
    rw [Stmt.transform, tame.stmt]
    show (if inTry && (e.transform r ()).isApplication then [tailResult] else []) = _
    rw [Expr.transform_isApplication tame]
    rfl
  | .ifS _ thenS elseS => by
    rw [Stmt.transform, tame.stmt]
    exact congrArg₂ (· ++ ·) (thenS.transform_boundNames tame inTry)
      (Stmt.transformOption_boundNames tame inTry elseS)
  | .whileS _ body | .labeled _ body => by
    rw [Stmt.transform, tame.stmt]
    exact body.transform_boundNames tame inTry
  | .tryS body handler final => by
    rw [Stmt.transform, tame.stmt]
    exact congrArg₂ (· ++ ·) (congrArg₂ (· ++ ·) (body.transform_boundNames tame true)
      (Handler.transformOption_boundNames tame handler))
        (Stmt.transformOption_boundNames tame true final)
  | .decl f => by
    rw [Stmt.transform, tame.stmt]
    exact f.transform_boundName tame
  | .letS .. | .assign .. | .expr _ | .breakS _ | .continueS _ | .returnS none | .throwS _
  | .restoreFrame | .stackDec | .stackInc | .recordOnCapture .. | .shadowFrame
      .. | .returnIfCapturing _
  | .rethrowSignal _ => tame.boundNames inTry _

theorem Stmt.transformList_boundNames (tame : r.Tame) (inTry : Bool) : (body : List Stmt) →
    Stmt.boundNamesList inTry (Stmt.transformList r () body) = Stmt.boundNamesList inTry body
  | [] => rfl
  | s :: rest => congrArg₂ (· ++ ·) (s.transform_boundNames tame inTry)
      (Stmt.transformList_boundNames tame inTry rest)

theorem Stmt.transformOption_boundNames (tame : r.Tame) (inTry : Bool) : (o : Option Stmt) →
    Stmt.boundNamesOption inTry (Stmt.transformOption r () o) = Stmt.boundNamesOption inTry o
  | none => rfl
  | some s => s.transform_boundNames tame inTry

theorem Handler.transformOption_boundNames (tame : r.Tame) : (o : Option Handler) →
    Handler.boundNamesOption (Handler.transformOption r () o) = Handler.boundNamesOption o
  | none => rfl
  | some ⟨param, body⟩ => congrArg (param :: ·) (body.transform_boundNames tame true)

end

mutual

theorem Expr.transform_readsArguments (tame : r.Tame) :
    (e : Expr) → (e.transform r ()).readsArguments = e.readsArguments
  | .binary _ left right => by
    rw [Expr.transform, tame.arguments]
    exact congrArg₂ or (left.transform_readsArguments tame) (right.transform_readsArguments tame)
  | .unary _ arg => by
    rw [Expr.transform, tame.arguments]
    exact arg.transform_readsArguments tame
  | .cond test thenE elseE => by
    rw [Expr.transform, tame.arguments]
    exact congrArg₂ or (congrArg₂ or (test.transform_readsArguments tame)
      (thenE.transform_readsArguments tame)) (elseE.transform_readsArguments tame)
  | .member base _ => by
    rw [Expr.transform, tame.arguments]
    exact base.transform_readsArguments tame
  | .index base key => by
    rw [Expr.transform, tame.arguments]
    exact congrArg₂ or (base.transform_readsArguments tame) (key.transform_readsArguments tame)
  | .call callee args | .new callee args | .handleNew callee args => by
    rw [Expr.transform, tame.arguments]
    exact congrArg₂ or (callee.transform_readsArguments tame) (Expr.transformList_readsArguments
      tame args)
  | .array elements => by
    rw [Expr.transform, tame.arguments]
    exact Expr.transformList_readsArguments tame elements
  | .object props => by
    rw [Expr.transform, tame.arguments]
    exact Expr.transformProps_readsArguments tame props
  | .num _ | .str _ | .bool _ | .null | .undefined | .ident _ | .func
      _ | .this | .arguments | .isNormal
  | .isRestoring | .targetIn _ | .capturing | .reenterNext | .newTarget | .suspend =>
    tame.arguments _

theorem Expr.transformList_readsArguments (tame : r.Tame) : (es : List Expr) →
    Expr.anyReadsArguments (Expr.transformList r () es) = Expr.anyReadsArguments es
  | [] => rfl
  | e :: rest => congrArg₂ or (e.transform_readsArguments tame)
    (Expr.transformList_readsArguments tame rest)

theorem Expr.transformProps_readsArguments (tame : r.Tame) : (props : List (String × Expr)) →
    Expr.anyPropReadsArguments (Expr.transformProps r () props) = Expr.anyPropReadsArguments props
  | [] => rfl
  | (_, e) :: rest =>
    congrArg₂ or (e.transform_readsArguments tame) (Expr.transformProps_readsArguments tame rest)

end

theorem Target.transform_readsArguments (tame : r.Tame) (target : Target) :
    (target.transform r ()).readsArguments = target.readsArguments := by
  cases target with
  | ident name => rfl
  | member base property => exact base.transform_readsArguments tame
  | index base key =>
    exact congrArg₂ or (base.transform_readsArguments tame) (key.transform_readsArguments tame)

mutual

theorem Stmt.transform_readsArguments (tame : r.Tame) :
    (s : Stmt) → (s.transform r ()).readsArguments = s.readsArguments
  | .letS _ (some e) | .expr e | .throwS e | .returnS (some e) => by
    rw [Stmt.transform, tame.stmt]
    exact e.transform_readsArguments tame
  | .assign target value => by
    rw [Stmt.transform, tame.stmt]
    exact congrArg₂ or (value.transform_readsArguments tame) (target.transform_readsArguments tame)
  | .block body => by
    rw [Stmt.transform, tame.stmt]
    exact Stmt.transformList_readsArguments tame body
  | .ifS test thenS elseS => by
    rw [Stmt.transform, tame.stmt]
    exact congrArg₂ or (congrArg₂ or (test.transform_readsArguments tame)
      (thenS.transform_readsArguments tame)) (Stmt.transformOption_readsArguments tame elseS)
  | .whileS test body => by
    rw [Stmt.transform, tame.stmt]
    exact congrArg₂ or (test.transform_readsArguments tame) (body.transform_readsArguments tame)
  | .labeled _ body => by
    rw [Stmt.transform, tame.stmt]
    exact body.transform_readsArguments tame
  | .tryS body handler final => by
    rw [Stmt.transform, tame.stmt]
    exact congrArg₂ or (congrArg₂ or (body.transform_readsArguments tame)
      (Handler.transformOption_readsArguments tame handler))
      (Stmt.transformOption_readsArguments tame final)
  | .letS _ none | .breakS _ | .continueS _ | .returnS none | .decl
      _ | .restoreFrame | .stackDec | .stackInc
  | .recordOnCapture .. | .shadowFrame .. | .returnIfCapturing _ | .rethrowSignal _ =>
    tame.readsArguments _

theorem Stmt.transformList_readsArguments (tame : r.Tame) : (body : List Stmt) →
    Stmt.anyReadsArguments (Stmt.transformList r () body) = Stmt.anyReadsArguments body
  | [] => rfl
  | s :: rest =>
    congrArg₂ or (s.transform_readsArguments tame) (Stmt.transformList_readsArguments tame rest)

theorem Stmt.transformOption_readsArguments (tame : r.Tame) : (o : Option Stmt) →
    Stmt.optionReadsArguments (Stmt.transformOption r () o) = Stmt.optionReadsArguments o
  | none => rfl
  | some s => s.transform_readsArguments tame

theorem Handler.transformOption_readsArguments (tame : r.Tame) : (o : Option Handler) →
    Handler.optionReadsArguments (Handler.transformOption r () o) = Handler.optionReadsArguments o
  | none => rfl
  | some ⟨_, body⟩ => body.transform_readsArguments tame

end

/-- The layout of a function does not depend on what becomes of the functions inside of it. -/
theorem analyze_layout (tame : r.Tame) (options : CompileOptions) (body : List Stmt) :
    (analyze (Stmt.transformList r () body)).layout options = (analyze body).layout options := by
  simp only [analyze, Analysis.layout, Stmt.transformList_boundNames tame,
    Stmt.transformList_readsArguments tame]
  rfl

end Tame

/-! ## Names -/

/-- The normal form keeps the names of instrumentation out of programs. -/
theorem Unreserved.own {name : String} (unreserved : Unreserved name) : name ≠ tailResult := by
  have reserved : tailResult.startsWith "$" = true := by decide +kernel
  rintro rfl
  exact unreserved reserved

/-! ## Segments -/

section Segments

variable {sites : Sites} {mode : DualMode} {body body' : List Stmt} {s s' : Stmt}

theorem Stmt.Twin.underGuard {test : Expr} (holds : test.holdsNormally = true)
    (twin : Stmt.Twin sites body s) : Stmt.Twin sites body (.guarded test s) :=
  .guarded holds twin (by simp)

/-- A guard for restoring runs. -/
theorem orRestoring_holdsNormally (labels : List Nat) :
    (orRestoring .isNormal labels).holdsNormally = true := by
  unfold orRestoring restoringInto
  split
  · rename_i found
    split at found
    · cases found
    · cases found
      rfl
  · rfl

theorem Expr.Twin.orRestoring {test test' : Expr} (twin : test.Twin sites test')
    (labels : List Nat) : test.TwinTest sites (orRestoring (.binary .and .isNormal test')
      labels) := by
  unfold Resumable.orRestoring restoringInto
  split
  · rename_i found
    split at found
    · cases found
    · cases found
      exact .orRestoring twin
  · exact .normal twin

theorem Expr.Twin.restoringOr {test test' : Expr} (twin : test.Twin sites test')
    (labels : List Nat) : test.TwinTest sites (match restoringInto labels with
      | some restoring => .binary .or restoring (.binary .and .isNormal test')
      | none => .binary .and .isNormal test') := by
  unfold restoringInto
  split
  · rename_i found
    split at found
    · cases found
    · cases found
      exact .restoringOr twin
  · exact .normal twin

/-- The two modes of a statement with an application. -/
theorem Stmt.Twin.dual {label : Nat} (twin : Stmt.Twin sites [s] s')
    (restoring : (Stmt.guarded (.targetIn [label]) s'.restoring).isReentry = true) :
    Stmt.Twin sites [s] (s'.dual label) :=
  .guarded rfl twin fun _ mem => Option.some.inj mem ▸ restoring

theorem Stmt.Twin.capturePoint {strategy : Strategy} {label : Nat} (twin : Stmt.Twin sites [s] s')
    (restoring : (Stmt.guarded (.targetIn [label]) s'.restoring).isReentry = true) :
    Stmt.Twins sites [s] (capturePoint strategy label s') := by
  cases strategy with
  | eager => exact Stmt.Twin.twins (.shadowed (twin.dual restoring))
  | «lazy» => exact Stmt.Twin.twins (.recorded (twin.dual restoring))
  | retval => exact .cons (twin.dual restoring) (.cons (.silent rfl) .nil)
  | fudge => exact (twin.underGuard rfl).twins

/-- A `let`, an assignment or an expression statement, labeled or not. -/
theorem Stmt.Twin.leaf {next : Nat} (twin : Stmt.Twin sites [s] s')
    (restoring : (Stmt.guarded (.targetIn [next]) s'.restoring).isReentry = true)
    (plain : DualMode.plain s' = .guarded .isNormal s') :
    Stmt.Twins sites [s] (mode.segment (Stmt.leaf next s').1) := by
  unfold Stmt.leaf
  split
  · exact twin.capturePoint restoring
  · rw [DualMode.segment, plain]
    exact (twin.underGuard rfl).twins

theorem Stmt.Twin.ret {value value' : Option Expr} (twin : Expr.TwinOption sites value value')
    (wrapped : mode.constructorReturns = false) (app : AppType) :
    Stmt.Twins sites [.returnS value] (mode.segment (.ret value' app)) := by
  have answer : Stmt.Twin sites [.returnS value] (.returnS value') := .returnS twin
  rw [DualMode.segment]
  cases app with
  | none =>
    rw [DualMode.ret, wrapped]
    exact .cons (.silent rfl) answer.twins
  | mixed => exact answer.twins
  | tail => exact .cons (.silent rfl) (answer.underGuard rfl).twins

/-- What stands before the body of a `try` does nothing in normal mode. -/
theorem Stmt.Twins.intoHandler {param : String} {labels : List Nat}
    (twins : Stmt.Twins sites body body') : Stmt.Twins sites body
    (DualMode.intoHandler param labels ++ body') := by
  unfold DualMode.intoHandler restoringInto
  split
  · rename_i found
    split at found
    · cases found
    · cases found
      exact .cons (.silent rfl) twins
  · exact twins

/-- A returned call inside of a `try`: the guards of its two statements cannot be merged. -/
theorem DualMode.segment_tail {next : Nat} {e : Expr} (app : e.isApplication = true) :
    mode.segment (.block [(Stmt.leaf next (.letS tailResult (some e))).1,
      .ret (some (.ident tailResult)) .none]) =
        [.block (coalesce (Resumable.capturePoint mode.strategy next (.letS tailResult (some e)) ++
          (mode.ret (some (.ident tailResult)) .none ++ [])))] := by
  have labeled : (Stmt.leaf next (.letS tailResult (some e))).1 = .capture next
      (.letS tailResult (some e)) := by
    simp [Stmt.leaf, Stmt.application, app]
  rw [labeled]
  rfl

theorem Stmt.Twin.returnTail {next : Nat} {e e' : Expr} (twin : e.Twin sites e')
    (wrapped : mode.constructorReturns = false) (app : e'.isApplication = true) :
    Stmt.Twins sites [.returnS (some e)] (mode.segment (.block
      [(Stmt.leaf next (.letS tailResult (some e'))).1, .ret (some (.ident tailResult)) .none])) :=
      by
  have merged : coalesce (Resumable.capturePoint mode.strategy next (.letS tailResult (some e')) ++
      (mode.ret (some (.ident tailResult)) .none ++ [])) =
        Resumable.capturePoint mode.strategy next (.letS tailResult (some e')) ++
          [.stackInc, .returnS (some (.ident tailResult))] := by
    rw [DualMode.ret, wrapped]
    cases mode.strategy <;> rfl
  rw [DualMode.segment_tail app, merged]
  exact Stmt.Twin.twins (.tail twin)

/-- A label on a statement and on what stands for it. -/
theorem Stmt.Twin.underLabel {label : String} (twin : Stmt.Twin sites [s] s')
    (same : s'.isLoop = s.isLoop) : Stmt.Twin sites [.labeled label s] (.labeled label s') := by
  cases isLoop : s'.isLoop with
  | false => exact .labeled (same.symm.trans isLoop) isLoop twin
  | true =>
    cases s' with
    | whileS test body =>
      cases twin with
      | whileS test body => exact .loop test body
    | _ => cases isLoop

theorem DualMode.segment_isLoop_eq {inTry : Bool} {next : Nat} :
    (Stmt.ofList (mode.segment (s.segment inTry next).1)).isLoop = s.isLoop := by
  cases isLoop : s.isLoop with
  | false => exact DualMode.segment_isLoop isLoop
  | true =>
    cases s with
    | whileS test body => rfl
    | _ => cases isLoop

end Segments

/-! ## Accepted programs -/

section Accepted

variable {options : CompileOptions}

/-- All sites stand for one another: nothing is loaded yet. -/
def Sites.any : Sites :=
  fun _ _ => True

/-- How segments are transformed where the machine mediates constructions. -/
abbrev CompileOptions.wrapped (options : CompileOptions) : DualMode :=
  ⟨options.strategy, false⟩

/-- A function once the statements of its body stand for one another. -/
theorem Func.twin_of_body {f : Func} (wrapper : options.construction = .wrapper)
    (own : tailResult ∉ f.name.toList ++ f.params)
    (twins : Stmt.Twins .any (Stmt.transformList (attachingLayouts options) () f.body)
      (options.wrapped.segments
        (Stmt.segments false 0 (Stmt.transformList (instrumenting options) () f.body)).1)) :
    (f.transform (attachingLayouts options) ()).Twin .any (f.transform (instrumenting options)
      ()) := by
  obtain ⟨name, params, body, frame, site⟩ := f
  have notDirect : options.construction ≠ .direct := by rw [wrapper]; nofun
  have bodyEq : (Func.transform (instrumenting options) () ⟨name, params, body, frame, site⟩).body =
      .stackDec :: .restoreFrame :: (coalesce (options.wrapped.segments (Stmt.segments false 0
        (Stmt.transformList (instrumenting options) () body)).1) ++ [.stackInc]) := by
    simp [Func.transform, instrumenting, Func.dualMode, notDirect, DualMode.body, analyze]
  refine .intro rfl rfl ?_ own trivial ?_
  · show ((analyze _).layout options).locals = ((analyze _).layout options).locals
    rw [analyze_layout (instrumenting_tame options), analyze_layout (attachingLayouts_tame options)]
  · rw [bodyEq]
    have closing : Stmt.Twins .any [] [.stackInc] := Stmt.Twin.twins (.silent rfl)
    have counted := twins.coalesce.append closing
    rw [List.append_nil] at counted
    exact .cons (.silent rfl) (.cons (.silent rfl) counted)

/-- What instrumentation makes of the expression does what the expression does. -/
def Expr.Doubles (options : CompileOptions) (e : Expr) : Prop :=
  (e.transform (attachingLayouts options) ()).Twin .any (e.transform (instrumenting options) ())

/-- The statements of the two-mode form do in normal mode what the statement does. -/
def Stmt.Doubles (options : CompileOptions) (s : Stmt) : Prop :=
  ∀ inTry next, Stmt.Twins .any [s.transform (attachingLayouts options) ()]
    (options.wrapped.segment ((s.transform (instrumenting options) ()).segment inTry next).1)

theorem Expr.twinList_of_doubles {es : List Expr} (doubles : ∀ e ∈ es, e.Doubles options) :
    Expr.TwinList .any (Expr.transformList (attachingLayouts options) () es)
      (Expr.transformList (instrumenting options) () es) := by
  induction es with
  | nil => exact .nil
  | cons e rest ih =>
    rw [List.forall_mem_cons] at doubles
    exact .cons doubles.1 (ih doubles.2)

theorem Expr.twinProps_of_doubles {props : List (String × Expr)}
    (doubles : ∀ p ∈ props, p.2.Doubles options) :
      Expr.TwinProps .any (Expr.transformProps (attachingLayouts options) () props)
      (Expr.transformProps (instrumenting options) () props) := by
  induction props with
  | nil => exact .nil
  | cons p rest ih =>
    rw [List.forall_mem_cons] at doubles
    exact .cons doubles.1 (ih doubles.2)

theorem Expr.twinOption_of_doubles {value : Option Expr}
    (doubles : ∀ e ∈ value, e.Doubles options) : Expr.TwinOption .any
      (Expr.transformOption (attachingLayouts options) () value)
      (Expr.transformOption (instrumenting options) () value) := by
  cases value with
  | none => exact .none
  | some e => exact .some (doubles e rfl)

theorem Stmt.twins_of_doubles {body : List Stmt} (doubles : ∀ s ∈ body, s.Doubles options)
    (inTry : Bool) (next : Nat) : Stmt.Twins .any (Stmt.transformList (attachingLayouts options)
      () body) (options.wrapped.segments
        (Stmt.segments inTry next (Stmt.transformList (instrumenting options) () body)).1) := by
  induction body generalizing next with
  | nil => exact .nil
  | cons s rest ih =>
    rw [List.forall_mem_cons] at doubles
    exact (doubles.1 inTry next).append (ih doubles.2 _)

section

variable {e test value : Expr} {s body : Stmt} {elseS final : Option Stmt}
  {handler : Option Handler}

theorem Stmt.Doubles.labeled (doubles : body.Doubles options) (label : String) :
    (Stmt.labeled label body).Doubles options := by
  intro inTry next
  have same : (Stmt.ofList (options.wrapped.segment
      ((body.transform (instrumenting options) ()).segment inTry next).1)).isLoop =
        (body.transform (attachingLayouts options) ()).isLoop := by
    rw [DualMode.segment_isLoop_eq, Stmt.isLoop_transform (instrumenting_tame options),
      Stmt.isLoop_transform (attachingLayouts_tame options)]
  exact (Stmt.Twin.underGuard (orRestoring_holdsNormally _) ((doubles inTry next).ofList.underLabel
    same)).twins

theorem Stmt.Doubles.whileS (tested : test.Doubles options) (doubles : body.Doubles options) :
    (Stmt.whileS test body).Doubles options :=
  fun inTry next => Stmt.Twin.twins (.whileS (tested.restoringOr _) (doubles inTry next).ofList)

theorem Stmt.Doubles.ifS (tested : test.Doubles options) (doubles : s.Doubles options)
    (others : ∀ s ∈ elseS, s.Doubles options) : (Stmt.ifS test s elseS).Doubles options := by
  refine fun inTry next => Stmt.Twin.twins (.ifS (tested.orRestoring _)
    (doubles inTry next).ofList ?_)
  cases elseS with
  | none => exact .none
  | some s =>
    exact .some (Stmt.Twin.underGuard (orRestoring_holdsNormally _) (others s rfl inTry _).ofList)

/-- A call that is returned is made in a statement of its own. -/
theorem Stmt.Doubles.returnS {value : Option Expr} (doubles : ∀ e ∈ value, e.Doubles options) :
    (Stmt.returnS value).Doubles options := by
  intro inTry next
  cases value with
  | none => exact Stmt.Twin.ret .none rfl _
  | some e =>
    show Stmt.Twins .any _ (options.wrapped.segment (if _ then _ else _ : Segment × Nat).1)
    split
    · rename_i tail
      exact Stmt.Twin.returnTail (doubles e rfl) rfl (Bool.and_eq_true_iff.mp tail).2
    · exact Stmt.Twin.ret (.some (doubles e rfl)) rfl _

theorem Stmt.Doubles.tryS (doubles : body.Doubles options)
    (named : ∀ h ∈ handler, ¬ Reserved h.param) (handled : ∀ h ∈ handler, h.body.Doubles options)
    (last : ∀ s ∈ final, s.Doubles options) :
    (Stmt.tryS body handler final).Doubles options := by
  intro inTry next
  have twins := doubles true next
  refine Stmt.Twin.twins (.tryS (.splice ?_) ?_ ?_)
  · rcases handler with _ | ⟨param, handler⟩
    · exact twins
    · exact twins.intoHandler
  · rcases handler with _ | ⟨param, handler⟩
    · exact .none
    · exact .some (Unreserved.own (named _ rfl))
        (.splice (.cons (.silent rfl) (handled _ rfl true _)))
  · cases final with
    | none => exact .none
    | some s => exact .some (Stmt.Twin.underGuard rfl (last s rfl true _).ofList)

end

section

variable (wrapper : options.construction = .wrapper)

include wrapper

set_option linter.unusedSectionVars false in
mutual

theorem Expr.Atom.doubles {e : Expr} : e.IsAtom → e.Doubles options
  | .num => .num
  | .str => .str
  | .bool => .bool
  | .null => .null
  | .undefined => .undefined
  | .ident unreserved => .ident unreserved.own
  | .this => .this
  | .arguments => .arguments
  | .func normal => .func normal.twin

theorem Expr.Simple.doubles {e : Expr} : e.IsSimple → e.Doubles options
  | .atom atom => atom.doubles
  | .binary left right => .binary left.doubles right.doubles
  | .unary arg => .unary arg.doubles
  | .cond test thenE elseE => .cond test.doubles thenE.doubles elseE.doubles
  | .member base => .member base.doubles
  | .index base key => .index base.doubles key.doubles
  | .array atoms => .array (Expr.twinList_of_doubles fun e mem => (atoms e mem).doubles)
  | .object atoms => .object (Expr.twinProps_of_doubles fun p mem => (atoms p mem).doubles)

theorem Expr.Whole.doubles {e : Expr} : e.IsWhole → e.Doubles options
  | .simple simple => simple.doubles
  | .call callee args =>
    .call callee.doubles (Expr.twinList_of_doubles fun e mem => (args e mem).doubles)
  | .method base args =>
    .call (.member base.doubles) (Expr.twinList_of_doubles fun e mem => (args e mem).doubles)
  | .new callee args => by
    have mediated : ∀ callee args, (instrumenting options).expr () (.new callee args) =
    .handleNew callee args :=
      fun _ _ => if_pos wrapper
    rw [Expr.Doubles, Expr.transform, Expr.transform, mediated]
    exact .new callee.doubles (Expr.twinList_of_doubles fun e mem => (args e mem).doubles)

theorem Target.Normal.twin {target : Target} : target.Normal Unreserved NormalCode →
    (target.transform (attachingLayouts options) ()).Twin .any
    (target.transform (instrumenting options) ())
  | .ident unreserved => .ident unreserved.own
  | .member base => .member base.doubles
  | .index base key => .index base.doubles key.doubles

theorem Stmt.Normal.doubles {s : Stmt} : s.IsNormal → s.Doubles options
  | .block body => fun inTry next => Stmt.Twin.twins
      (.block (Stmt.twins_of_doubles (fun s mem => (body s mem).doubles) inTry next).coalesce)
  | .letS named init => fun _ _ => Stmt.Twin.leaf
      (.letS (Unreserved.own named) (Expr.twinOption_of_doubles fun e mem => (init e mem).doubles))
        rfl rfl
  | .assign target value => fun _ _ => Stmt.Twin.leaf (.assign target.twin value.doubles) rfl rfl
  | .expr e => fun _ _ => Stmt.Twin.leaf (.expr e.doubles) rfl rfl
  | .ifS test thenS elseS => .ifS test.doubles thenS.doubles fun s mem => (elseS s mem).doubles
  | .loop _ test body => (Stmt.Doubles.whileS test.doubles body.doubles).labeled _
  | .labeled _ body => body.doubles.labeled _
  | .breakS => fun _ _ => (Stmt.Twin.underGuard rfl .breakS).twins
  | .returnS value => .returnS fun e mem => (value e mem).doubles
  | .throwS value => fun _ _ => (Stmt.Twin.underGuard rfl (.throwS value.doubles)).twins
  | .tryS body named handler final =>
    .tryS body.doubles named (fun h mem => (handler h mem).doubles) fun s mem =>
    (final s mem).doubles
  | .decl normal => fun _ _ => (Stmt.Twin.underGuard rfl (.decl normal.twin)).twins

theorem Func.Normal.twin {f : Func} : NormalCode f →
    (f.transform (attachingLayouts options) ()).Twin .any (f.transform (instrumenting options) ())
  | .intro _ named params body => by
    refine Func.twin_of_body wrapper (fun mem => ?_)
      (Stmt.twins_of_doubles (fun s mem => (body s mem).doubles) false 0)
    rcases List.mem_append.mp mem with mem | mem
    · exact Unreserved.own (named _ (Option.mem_toList.mp mem)) rfl
    · exact Unreserved.own (params _ mem) rfl

end

end

/-- What instrumentation makes of an accepted program does in normal mode what the program does, at
the top level and in every function. -/
theorem Program.top_twin (wrapper : options.construction = .wrapper) {program : Program}
    (accepted : NormalForm.errors program = []) :
    Stmt.Twins .any (program.withLayouts options).body (program.instrument options).body := by
  have normal := (Program.normal_of_accepted accepted).2
  have twins := Stmt.twins_of_doubles (fun s mem => (normal s mem).doubles wrapper) false 0
  have closing : Stmt.Twins .any [] [.stackInc] := Stmt.Twin.twins (.silent rfl)
  have counted := twins.coalesce.append closing
  rw [List.append_nil] at counted
  exact .cons (.silent rfl) (.cons (.silent rfl) counted)

end Accepted

end Resumable
