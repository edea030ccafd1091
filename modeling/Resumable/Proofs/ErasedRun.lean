import Resumable.Proofs.Erasure
import Resumable.Proofs.TwinExec

/-!
Runs without safe points.

On a machine without a yield interval a safe point has no effect, so that code does what it does
without safe points: `perform_refines` says so of actions, and `Machine.runProgram_refines` of
programs that are not instrumented.

Where nothing is erased the two runs have the same code, and differ in their bounds alone.  Whatever
an action ends with, it ends with under every larger bound: `perform_within`.
-/

namespace Resumable

open SafePoint Erasable

variable {k : Comparison}

/-! ## Expressions -/

section Expressions

variable {g g' : Engine} (engines : g.Refines k g') {act : Activation}

include engines

/-- Operations on values. -/
theorem Engine.Refines.mirrors : Eval.Mirrors (Run.Refines k) g.bound g'.bound where
  pure := .pure
  bind first second := first.bind second
  throw value := .unwind (.throw value)
  display value m calm := by
    show (Run.ofOption (m.store.display g.bound value) m).RefinesBy _ _
      (Run.ofOption ((m.store.bare k).display g'.bound value) (m.bare k))
    rw [m.store.bare_alike.display]
    rcases engines.bound.found (m.store.display · value) m.store.display_of_le with ⟨early,
      cut⟩ | ⟨late, cut⟩ | ⟨text, eq, eq'⟩
    · rw [cut]
      exact .first early
    · rw [cut]
      exact .second late
    · rw [eq, eq']
      exact .ok calm
  read same := .read fun m => same m (m.bare k) m.store.bare_alike
  makeObject _ _ calm := .ok calm
  makeInstance closure :=
    .bind (.same fun m => m.store.bare_alike.prototypes closure) fun _ _ calm => .ok calm
  makeArray _ _ calm := .ok calm
  setProperty _ _ _ := .modify fun _ => ⟨rfl, rfl⟩
  modifyItems _ _ := .modify fun _ => ⟨rfl, rfl⟩

omit engines in
theorem Eval.changeStore_refines {f f' : Store → α × Store}
    (same : ∀ s, f' (s.bare k) = ((f s).1, (f s).2.bare k)) : (changeStore f).Refines k
    (changeStore f') := by
  intro m calm
  show Ending.RefinesBy _ _ _ (.ok (f' (m.store.bare k)).1 { m.bare k with store :=
    (f' (m.store.bare k)).2 })
  rw [same]
  exact .ok calm

omit engines in
theorem Eval.modifyStore_refines {f f' : Store → Store} (same : ∀ s, f' (s.bare k) = (f s).bare k) :
    (modifyStore f).Refines k (modifyStore f') := by
  refine .modify fun m => ⟨?_, rfl⟩
  show { m.bare k with store := f' (m.store.bare k) } = _
  rw [same]
  rfl

omit engines in
theorem Activation.bare_paramValues (act : Activation) (s : Store) :
    (act.bare k).paramValues (s.bare k) = act.paramValues s := by
  simp only [paramValues, bare, Func.bare_params]
  rfl

set_option linter.unusedSectionVars false in
mutual

theorem Expr.eval_refines : (e : Expr) → (e.eval g act).Refines k ((e.bare k).eval g' (act.bare k))
  | .num _ | .str _ | .bool _ | .null | .undefined | .this | .targetIn _ | .newTarget => .pure _
  | .isNormal | .isRestoring | .capturing => .read fun _ => rfl
  | .ident name => by
    refine .bind (.same fun m => m.store.bare_lookup? act.scope name) fun found => ?_
    cases found with
    | none => exact .unwind _
    | some value => exact .pure value
  | .func f => by
    show (Eval.makeClosure act f).Refines k (Eval.makeClosure (act.bare k) (f.bare k))
    refine Eval.changeStore_refines fun s => ?_
    exact congrArg (fun made => (Value.closure made.1, made.2)) (s.bare_newClosure f act.scope)
  | .arguments => by
    refine .bind (.same fun m => ?_) fun values => engines.mirrors.makeArray values
    exact congrArg (fun params => (List.range act.argCount).map fun i =>
      (params[i]? <|> act.args[i]?).getD .undefined) (act.bare_paramValues m.store)
  | .binary op left right => by
    have first := Expr.eval_refines left
    have second := Expr.eval_refines right
    cases op with
    | and => exact first.bind fun _ => .ite second (.pure _)
    | or => exact first.bind fun _ => .ite (.pure _) second
    | _ => exact first.bind fun _ => second.bind fun _ => engines.mirrors.binary _ _ _
  | .unary op arg => by
    have inner := Expr.eval_refines arg
    cases op with
    | typeOf =>
      cases arg with
      | ident name =>
        exact .same fun m => congrArg (fun found =>
          Value.str ((found.map (·.typeOf)).getD "undefined")) (m.store.bare_lookup? act.scope name)
      | _ => exact inner.bind fun _ => .pure _
    | _ => exact inner.bind fun _ => .pure _
  | .cond test thenE elseE =>
    (Expr.eval_refines test).bind fun _ => .ite (Expr.eval_refines thenE) (Expr.eval_refines elseE)
  | .member base _ => (Expr.eval_refines base).bind fun _ => engines.mirrors.getProperty _ _
  | .index base key =>
    (Expr.eval_refines base).bind fun _ => (Expr.eval_refines key).bind fun _ =>
    engines.mirrors.getIndex _ _
  | .call callee args => by
    have inner := Expr.eval_refines callee
    have values := Expr.evalList_refines args
    cases callee with
    | member base property =>
      refine (Expr.eval_refines base).bind fun _ => (engines.mirrors.getProperty _ _).bind
        fun _ => ?_
      exact values.bind fun _ => engines.perform _
    | _ => exact inner.bind fun _ => values.bind fun _ => engines.perform _
  | .new callee args | .handleNew callee args =>
    (Expr.eval_refines callee).bind fun _ => (Expr.evalList_refines args).bind fun _ =>
    engines.perform _
  | .array elements => (Expr.evalList_refines elements).bind fun _ => engines.mirrors.makeArray _
  | .object props => (Expr.evalProps_refines props).bind fun _ => engines.mirrors.makeObject rfl
  | .reenterNext | .suspend => engines.perform _

theorem Expr.evalList_refines : (es : List Expr) →
    (Expr.evalList g act es).Refines k (Expr.evalList g' (act.bare k)
      (Expr.transformList k.code () es))
  | [] => .pure _
  | e :: rest =>
    (Expr.eval_refines e).bind fun _ => (Expr.evalList_refines rest).bind fun _ => .pure _

theorem Expr.evalProps_refines : (props : List (String × Expr)) →
    (Expr.evalProps g act props).Refines k (Expr.evalProps g' (act.bare k)
      (Expr.transformProps k.code () props))
  | [] => .pure _
  | (_, e) :: rest =>
    (Expr.eval_refines e).bind fun _ => (Expr.evalProps_refines rest).bind fun _ => .pure _

end

theorem Expr.evalOption_refines (value : Option Expr) :
    (Expr.evalOption g act value).Refines k (Expr.evalOption g' (act.bare k)
      (Expr.transformOption k.code () value)) := by
  cases value with
  | none => exact .pure _
  | some e => exact Expr.eval_refines engines e

theorem Target.assign_refines (value : Expr) (target : Target) :
    (target.assign g value act).Refines k
      ((target.transform k.code ()).assign g' (value.bare k) (act.bare k)) := by
  have values : (value.eval g act).Refines k ((value.bare k).eval g' (act.bare k)) :=
    Expr.eval_refines engines value
  cases target with
  | ident name =>
    refine values.bind fun value => Eval.modifyStore_refines fun s => ?_
    show (s.bare k).assign act.scope name value = _
    rw [Store.assign, s.bare_resolve?]
    rfl
  | member base property =>
    exact (Expr.eval_refines engines base).bind fun _ => values.bind fun _ =>
      engines.mirrors.giveProperty _ _ _
  | index base key =>
    refine (Expr.eval_refines engines base).bind fun _ => (Expr.eval_refines engines key).bind
      fun _ => ?_
    exact values.bind fun _ => engines.mirrors.setIndex _ _ _

end Expressions


/-! ## Frames -/

namespace Stack

variable (stack : Stack)

theorem bare_pushOuter (frame : Frame) : (stack.bare k).pushOuter (frame.bare k) =
    (stack.pushOuter frame).bare k := by
  simp [pushOuter, bare]

theorem bare_dropInner : (stack.bare k).dropInner = stack.dropInner.bare k := by
  simp [dropInner, bare]

theorem bare_outermost? : (stack.bare k).outermost? = stack.outermost?.map (Frame.bare k) := by
  simp [outermost?, bare]

end Stack

namespace Activation

variable (act : Activation) (s : Store)

theorem bare_layoutLocals : (act.bare k).layoutLocals = act.layoutLocals := by
  simp only [layoutLocals, bare, Func.bare_frame]

theorem bare_invoke (args : List Value) (newTarget : Value) :
    (act.bare k).invoke args newTarget = (act.invoke args newTarget).bare k := by
  have callee : (act.bare k).callee = act.callee := rfl
  unfold invoke
  rw [callee]
  cases act.callee <;> rfl

theorem bare_captureFrame (label : Nat) :
    (act.bare k).captureFrame (s.bare k) label = (act.captureFrame s label).bare k := by
  simp only [captureFrame, reenter, reentryArgs, bare_invoke, bare_paramValues, bare_layoutLocals]
  simp only [bare, Func.bare_frame, Func.bare_displayName]
  rfl

end Activation

/-- A frame is collected. -/
theorem Eval.pushFrame_refines (frame : Frame) :
    Run.Refines k (Run.modify fun m => { m with stack := m.stack.pushOuter frame } : Eval Unit)
      (Run.modify fun m => { m with stack := m.stack.pushOuter (frame.bare k) }) := by
  refine .modify fun m => ⟨?_, rfl⟩
  show { m.bare k with stack := (m.stack.bare k).pushOuter (frame.bare k) } = _
  rw [Stack.bare_pushOuter]
  rfl

theorem Eval.takeFrame_refines (function : String) :
    (takeFrame function).RefinesBy k (CallFrame.bare k) (takeFrame function) := by
  refine .bind (.read fun m => m.stack.bare_outermost?) fun outermost => ?_
  cases outermost with
  | none => exact .unwind _
  | some frame =>
    refine .bind (.modify fun m => ⟨?_, rfl⟩) fun _ => ?_
    · show { m.bare k with stack := (m.stack.bare k).dropOuter } = _
      simp only [Stack.dropOuter, Stack.bare, ← List.map_dropLast]
      rfl
    · cases frame with
      | top action => exact .unwind _
      | call frame => exact .pure frame

/-! ## Statements -/

namespace Exec

theorem ofEval_refines {g : α → β} {x : Activation → Eval α} {y : Activation → Eval β}
    (refines : ∀ act, (x act).RefinesBy k g (y (act.bare k))) : (ofEval x).RefinesBy k g
    (ofEval y) := by
  rintro ⟨act, m⟩ calm
  have inner : Ending.RefinesBy k g (x act m) (y (act.bare k) (m.bare k)) := refines act m calm
  show Ending.RefinesBy _ _ _ (ofEval y ⟨act.bare k, m.bare k⟩)
  unfold ofEval
  simp only
  generalize x act m = e at inner
  generalize y (act.bare k) (m.bare k) = e' at inner
  cases inner with
  | ok calm => exact .ok calm
  | unwind calm => exact .unwind calm
  | first early => exact .first early
  | second late => exact .second late

theorem modifyAct_refines {f f' : Activation → Activation}
    (same : ∀ act, f' (act.bare k) = (f act).bare k) : (modifyAct f).Refines k (modifyAct f') := by
  refine .modify fun l => ⟨?_, rfl⟩
  show Local.mk (f' (l.act.bare k)) _ = _
  rw [same]
  rfl

theorem declare_refines (name : String) (value : Value) : (declare name value).Refines k
    (declare name value) :=
  ofEval_refines fun _ => Eval.modifyStore_refines fun _ => rfl

theorem loop_refines {test test' : Exec Bool} {body body' : Exec Completion} (label : Option String)
    (tests : test.Refines k test') (bodies : body.Refines k body') {turns turns' : Nat}
    (reaches : k.Reaches turns turns') :
    (loop label test body turns).Refines k (loop label test' body' turns') := by
  refine reaches.induct (fun early _ _ _ => .first early) (fun late _ _ _ => .second late)
    fun _ _ _ again => ?_
  refine tests.bind fun holds => .ite (bodies.bind fun completion => ?_) (.pure _)
  cases completion with
  | normal => exact again
  | «continue» target => exact .ite again (.pure _)
  | «break» target => exact .pure _
  | «return» value => exact .pure _

variable {body body' handler handler' final final' : Exec Completion}

theorem handle_refines (param : String) (bodies : body.Refines k body')
    (handlers : handler.Refines k handler') : (handle body param handler).Refines k
    (handle body' param handler') := by
  refine bodies.attempt.bind fun result => ?_
  rcases result with (value | signal | fault) | completion
  · exact (declare_refines param value).bind fun _ => handlers
  · refine .bind (.read (g := Option.map (Signal.bare k)) fun _ => rfl) fun outer =>
      .bind (modifyAct_refines fun _ => rfl) fun _ => ?_
    exact handlers.attempt.bind fun result => .bind (modifyAct_refines fun _ => rfl) fun _ =>
      .settle result
  · exact .unwind _
  · exact .pure _

theorem withFinal_refines (bodies : body.Refines k body') (finals : final.Refines k final') :
    (withFinal body final).Refines k (withFinal body' final') := by
  refine bodies.attempt.bind fun result => finals.bind fun completion => ?_
  cases completion with
  | normal => exact .settle result
  | _ => exact .pure _

theorem captureFrame_refines (label : Nat) : (captureFrame label).RefinesBy k (Frame.bare k)
    (captureFrame label) :=
  .read fun l => l.act.bare_captureFrame l.machine.store label

theorem recording_refines (label : Nat) (bodies : body.Refines k body') :
    (recording label body).Refines k (recording label body') := by
  refine bodies.attempt.bind fun result => ?_
  rcases result with (value | ⟨handler, stack⟩ | stack | replacement | fault) | completion
  case error.signal.capture =>
    refine (captureFrame_refines label).bind fun frame => ?_
    rw [Stack.bare_pushOuter]
    exact .unwind (.signal (.capture handler (stack.pushOuter frame)))
  case ok => exact .pure _
  all_goals exact .unwind _

theorem modifyShadow_refines {f f' : Stack → Stack}
    (same : ∀ stack, f' (stack.bare k) = (f stack).bare k) : (modifyShadow f).Refines k
    (modifyShadow f') := by
  refine ofEval_refines fun _ => .modify fun m => ⟨?_, rfl⟩
  show { m.bare k with shadow := f' (m.shadow.bare k) } = _
  rw [same]
  rfl

theorem shadowing_refines (label : Nat) (bodies : body.Refines k body') :
    (shadowing label body).Refines k (shadowing label body') := by
  refine (captureFrame_refines label).bind fun frame => .bind (modifyShadow_refines fun _ => rfl)
    fun _ => ?_
  exact bodies.attempt.bind fun result => .bind (modifyShadow_refines Stack.bare_dropInner) fun _ =>
    .settle result

theorem rethrow_refines : rethrow.Refines k rethrow := by
  refine .bind (.read (g := Option.map (Signal.bare k)) fun _ => rfl) fun caught => ?_
  cases caught with
  | none => exact .pure _
  | some signal => exact .bind (modifyAct_refines fun _ => rfl) fun _ => .unwind (.signal signal)

theorem returnIfCapturing_refines (label : Nat) : (returnIfCapturing label).Refines k
    (returnIfCapturing label) := by
  refine .bind (.same fun _ => rfl) fun capturing => .ite ((captureFrame_refines label).bind
    fun frame => ?_) (.pure _)
  exact .bind (ofEval_refines fun _ => Eval.pushFrame_refines frame) fun _ => .pure _

theorem takeFrame_refines : takeFrame.Refines k takeFrame := by
  have name (act : Activation) : (act.bare k).func.displayName = act.func.displayName :=
    act.func.bare_displayName
  refine .bind (g := CallFrame.bare k) (ofEval_refines fun act => ?_) fun frame => ?_
  · rw [name]
    exact Eval.takeFrame_refines _
  refine .bind (g := Activation.bare k) (.read fun _ => rfl) fun act => ?_
  rw [name, act.bare_layoutLocals]
  refine .check (.bind (ofEval_refines fun inner => Eval.modifyStore_refines fun s => ?_) fun _ =>
    modifyAct_refines fun _ => rfl)
  simp only [Activation.bare, CallFrame.bare, Func.bare_params, Store.bare_declareAll]

end Exec


namespace SafePoint

theorem eq_of_isPoint {s : Stmt} (point : isPoint s = true) : s = stmt := by
  unfold isPoint at point
  split at point
  · rfl
  · cases point

theorem isPoint_erased (deletes wraps : Bool) (s : Stmt) :
    isPoint (s.transform (erasing deletes wraps) ()) = isPoint s := by
  cases s with
  | expr e => cases e <;> rfl
  | _ => rfl

/-- The body of a loop may as well be a block. -/
theorem wrapped {g : Engine} {x : Exec Completion} {s : Stmt} (refines : x.Refines k (s.exec g)) :
    x.Refines k ((bif k.wraps then asBlock s else s).exec g) := by
  cases k.wraps with
  | false => exact refines
  | true =>
    cases s with
    | block body => exact refines
    | _ =>
      show x.Refines k (Stmt.execList g [_])
      rw [Stmt.execList_singleton]
      exact refines

end SafePoint


section Statements

variable {g g' : Engine} (engines : g.Refines k g')

include engines

theorem Expr.test_refines (e : Expr) : (e.test g).Refines k ((e.bare k).test g') :=
  Exec.ofEval_refines fun _ => (Expr.eval_refines engines e).bind fun _ => .pure _

theorem Eval.raiseCapture_refines (handler : CaptureHandler) :
    (raiseCapture g handler).Refines k (raiseCapture g' (handler.bare k)) := by
  refine .bind (.same fun _ => rfl) fun strategy => ?_
  cases strategy with
  | fudge =>
    cases handler with
    | guest func => exact engines.perform _
    | _ => exact .pure _
  | retval => exact .bind (.modify fun _ => ⟨rfl, rfl⟩) fun _ => .pure _
  | eager =>
    refine .bind (.modify fun _ => ⟨rfl, rfl⟩) fun _ => .bind (g := Stack.bare k) (.read fun _ =>
      rfl) fun shadow => ?_
    exact .unwind (.signal (.capture handler shadow))
  | lazy =>
    exact .bind (.modify fun _ => ⟨rfl, rfl⟩) fun _ => .unwind (.signal (.capture handler .empty))

theorem Eval.countCall_refines (again : Action) : (countCall g again).Refines k
    (countCall g' (again.bare k)) := by
  refine .bind (.same fun _ => rfl) fun remaining => ?_
  cases remaining with
  | none => exact .pure _
  | some remaining =>
    refine .bind (.modify fun _ => ⟨rfl, rfl⟩) fun _ => .bind (.same fun _ => rfl) fun strategy =>
      .bind (.same fun _ => rfl) fun mode => .ite (.pure _) ?_
    exact .bind (.discard (Eval.raiseCapture_refines engines (.reenter again))) fun _ => .pure _

/-- A safe point is passed without effect. -/
theorem SafePoint.passed (deletes : k.deletes = true) {body body' : List Stmt}
    (refines : (Stmt.execList g body).Refines k (Stmt.execList g' body')) :
    (Stmt.execList g (SafePoint.stmt :: body)).Refines k (Stmt.execList g' body') := by
  have point : (SafePoint.stmt.exec g).Refines k ((Stmt.expr .undefined).exec g') :=
    .bind (.discard (Exec.ofEval_refines fun _ => engines.passes deletes)) fun _ => .pure _
  -- a statement without effect stands for it, which makes the two lists alike
  show Run.Refines k _ (Stmt.execList g' (.expr .undefined :: body'))
  refine point.bind fun completion => ?_
  cases completion with
  | normal => exact refines
  | _ => exact .pure _

set_option linter.unusedSectionVars false in
mutual

theorem Stmt.exec_refines : (s : Stmt) → (s.exec g).Refines k ((s.bare k).exec g')
  | .block body => Stmt.execList_refines body
  | .letS name init =>
    .bind (Exec.ofEval_refines fun _ => Expr.evalOption_refines engines init) fun value =>
      (Exec.declare_refines name value).bind fun _ => .pure _
  | .assign target value =>
    .bind (Exec.ofEval_refines fun _ => Target.assign_refines engines value target) fun _ => .pure _
  | .expr e =>
    .bind (.discard (Exec.ofEval_refines fun _ => Expr.eval_refines engines e)) fun _ => .pure _
  | .ifS test thenS elseS =>
    (Expr.test_refines engines test).bind fun _ => .ite (Stmt.exec_refines thenS)
    (Stmt.execOption_refines elseS)
  | .whileS test body =>
    Exec.loop_refines none (Expr.test_refines engines test)
    (SafePoint.wrapped (Stmt.exec_refines body)) engines.bound
  | .labeled label body => by
    have inner := Stmt.exec_refines body
    cases body with
    | whileS test body =>
      exact Exec.loop_refines (some label) (Expr.test_refines engines test)
        (SafePoint.wrapped (Stmt.exec_refines body)) engines.bound
    | _ => exact inner.bind fun _ => .pure _
  | .breakS _ | .continueS _ => .pure _
  | .returnS value =>
    .bind (Exec.ofEval_refines fun _ => Expr.evalOption_refines engines value) fun _ => .pure _
  | .throwS value =>
    .bind (Exec.ofEval_refines fun _ => Expr.eval_refines engines value) fun value =>
    .unwind (.throw value)
  | .tryS body handler final =>
    Exec.withFinal_refines (Handler.execOption_refines (Stmt.exec_refines body) handler)
    (Stmt.execOption_refines final)
  | .decl f =>
    .bind (Exec.ofEval_refines fun act => Eval.modifyStore_refines fun s =>
      s.bare_declareFunc act.scope f) fun _ => .pure _
  | .restoreFrame =>
    .bind (.bind (.same fun _ => rfl) fun _ => .ite Exec.takeFrame_refines (.pure _))
    fun _ => .pure _
  | .stackDec => by
    refine .bind (Exec.ofEval_refines fun act => ?_) fun _ => .pure _
    rw [show (act.bare k).startAgain = act.startAgain.bare k from act.bare_invoke _ _]
    exact Eval.countCall_refines engines _
  | .stackInc => .bind (Exec.ofEval_refines fun _ => .modify fun _ => ⟨rfl, rfl⟩) fun _ => .pure _
  | .recordOnCapture label body => Exec.recording_refines label (Stmt.exec_refines body)
  | .shadowFrame label body => Exec.shadowing_refines label (Stmt.exec_refines body)
  | .returnIfCapturing label => Exec.returnIfCapturing_refines label
  | .rethrowSignal _ => Exec.rethrow_refines

theorem Stmt.execList_refines : (body : List Stmt) →
    (Stmt.execList g body).Refines k (Stmt.execList g' (clear k.deletes (Stmt.transformList k.code
      () body)))
  | [] => .pure _
  | s :: rest => by
    have others := Stmt.execList_refines rest
    rw [Stmt.transformList, clear, List.filter_cons, SafePoint.isPoint_erased]
    cases point : k.deletes && isPoint s with
    | true =>
      rw [Bool.and_eq_true] at point
      rw [SafePoint.eq_of_isPoint point.2]
      exact SafePoint.passed engines point.1 others
    | false =>
      refine (Stmt.exec_refines s).bind fun completion => ?_
      cases completion with
      | normal => exact others
      | _ => exact .pure _

theorem Stmt.execOption_refines : (o : Option Stmt) →
    (Stmt.execOption g o).Refines k (Stmt.execOption g' (Stmt.transformOption k.code () o))
  | none => .pure _
  | some s => Stmt.exec_refines s

theorem Handler.execOption_refines {body body' : Exec Completion} (bodies : body.Refines k body') :
    (o : Option Handler) → (Handler.execOption g body o).Refines k (Handler.execOption g' body'
      (Handler.transformOption k.code () o))
  | none => bodies
  | some ⟨param, handler⟩ => Exec.handle_refines param bodies (Stmt.exec_refines handler)

end

end Statements


/-! ## Actions -/

namespace Eval

theorem changeKept_refines (strategy : Strategy) {f f' : Stack → Stack}
    (same : ∀ stack, f' (stack.bare k) = (f stack).bare k) :
    (changeKept strategy f).Refines k (changeKept strategy f') := by
  refine .ite (.modify fun m => ⟨?_, rfl⟩) (.pure _)
  show { m.bare k with shadow := f' (m.shadow.bare k) } = _
  rw [same]
  rfl

theorem settleFramed_refines (strategy : Strategy) (frame : Frame) (this : Value)
    (result : Except Unwind Value) : (settleFramed strategy frame this result).Refines k
      (settleFramed strategy (frame.bare k) this (Except.bare k result)) := by
  rcases result with (value | ⟨handler, stack⟩ | stack | replacement | fault) | value
  case error.signal.capture =>
    show Run.Refines k (Run.signal _) (Run.signal (.capture (handler.bare k)
      (if strategy = .lazy then (stack.bare k).pushOuter (frame.bare k) else stack.bare k)))
    rw [Stack.bare_pushOuter, ← apply_ite (Stack.bare k)]
    exact .unwind (.signal (.capture handler _))
  case ok =>
    exact .bind (.same fun _ => rfl) fun capturing => .ite (.bind (pushFrame_refines frame) fun _ =>
      .pure _) (.pure _)
  all_goals exact .unwind _

theorem takeInstance_refines (function : String) : (takeInstance function).Refines k
    (takeInstance function) := by
  refine (takeFrame_refines function).bind fun frame => ?_
  have locals : (frame.bare k).locals = frame.locals := rfl
  rw [locals]
  rcases frame.locals with _ | ⟨this, _ | ⟨other, rest⟩⟩
  · exact .unwind _
  · exact .pure _
  · exact .unwind _

variable {g g' : Engine} (engines : g.Refines k g')

include engines

theorem safePoint_refines : (safePoint g).Refines k (safePoint g') := by
  refine .bind (.same fun _ => rfl) fun interval => ?_
  cases interval with
  | none => exact .pure _
  | some interval =>
    refine .bind (.same fun _ => rfl) fun countdown => .ite ?_ ?_
    · exact .bind (.modify fun _ => ⟨rfl, rfl⟩) fun _ => .pure _
    · exact .bind (.modify fun _ => ⟨rfl, rfl⟩) fun _ => raiseCapture_refines engines .yield

theorem reenterNext_refines : (reenterNext g).Refines k (reenterNext g') := by
  refine .bind (.read fun m => m.stack.bare_outermost?) fun outermost => ?_
  rcases outermost with _ | (action | frame)
  · exact .unwind _
  · exact .bind (.modify fun _ => ⟨rfl, rfl⟩) fun _ => engines.perform action
  · exact engines.perform frame.resume

theorem callNative_refines (native : Native) (this : Value) (args : List Value) :
    (callNative g native this args).Refines k (callNative g' native this args) := by
  have capture (handler : Value) :
      Run.Refines k (if handler.isCallable then raiseCapture g (.guest handler)
        else do raise (.captureNeedsFunction (← display g.bound handler)))
      (if handler.isCallable then raiseCapture g' (.guest handler)
        else do raise (.captureNeedsFunction (← display g'.bound handler))) :=
    .ite (raiseCapture_refines engines (.guest handler))
      (engines.mirrors.complain handler .captureNeedsFunction)
  cases native with
  | captureCC => exact capture (firstArg args)
  | callCC => exact capture (firstArg args)
  | abortCC => exact .unwind (.signal (.discard _))
  | _ =>
    exact engines.mirrors.callPlain this args (fun _ => .modify fun _ => ⟨rfl, rfl⟩) (by decide)

/-- A function is run in a new activation. -/
theorem runBody_refines {act : Activation} (f : Func) :
    (runBody g act f.body).Refines k (runBody g' (act.bare k) (f.bare k).body) := by
  intro m calm
  have inner := Stmt.execList_refines engines f.body ⟨act, m⟩ calm
  rw [f.bare_eq]
  show Ending.RefinesBy _ _ _ (runBody g' (act.bare k) _ (m.bare k))
  unfold runBody
  generalize Stmt.execList g f.body ⟨act, m⟩ = e at inner
  generalize (Stmt.execList g' _ _ : Ending Local Completion) = e' at inner ⊢
  cases inner with
  | @ok completion l calm =>
    have finished : (finish completion).Refines k (finish completion) := by
      cases completion with
      | normal => exact .pure _
      | «return» value => exact .pure value
      | «break» label => exact .unwind _
      | «continue» label => exact .unwind _
    exact finished l.machine calm
  | unwind calm => exact .unwind calm
  | first early => exact .first early
  | second late => exact .second late

theorem enter_refines (closure : ClosureId) (this : Value) (args : List Value) (newTarget : Value) :
    (enter g closure this args newTarget).Refines k (enter g' closure this args newTarget) := by
  refine .bind (g := Closure.bare k) (.read fun m => m.store.bare_closure closure) fun code => ?_
  exact .bind (changeStore_refines fun s => s.bare_enterScope code.func code.env args) fun scope =>
    runBody_refines engines code.func

theorem enterTop_refines (top : Func) : (enterTop g top).Refines k (enterTop g' (top.bare k)) :=
  .bind (modifyStore_refines fun s => s.bare_hoist _ top) fun _ => runBody_refines engines top

theorem call_refines (func this : Value) (args : List Value) :
    (call g func this args).Refines k (call g' func this args) := by
  cases func with
  | closure id => exact enter_refines engines id this args .undefined
  | native native => exact callNative_refines engines native this args
  | continuation id =>
    exact .bind (g := Stack.bare k) (.read fun m => m.store.bare_continuation id) fun stack =>
      .unwind (.signal (.restore (stack.pushInner (.top (.value (firstArg args))))))
  | fudged => exact engines.mirrors.complain _ .fudged
  | _ => exact engines.mirrors.complain _ .notFunction

theorem construct_refines (callee : Value) (args : List Value) :
    (construct g callee args).Refines k (construct g' callee args) := by
  cases callee with
  | closure id =>
    exact (engines.mirrors.makeInstance id).bind fun this =>
      (enter_refines engines id this args _).bind fun _ => .pure _
  | native native =>
    exact .ite (callNative_refines engines native _ args)
      (engines.mirrors.complain _ .notConstructor)
  | _ => exact engines.mirrors.complain _ .notConstructor

theorem constructFramed_refines (closure : ClosureId) (args : List Value) :
    (constructFramed g closure args).Refines k (constructFramed g' closure args) := by
  rw [constructFramed_eq, constructFramed_eq]
  refine .bind (.same fun m => m.store.bare_alike.names closure) fun name => .bind (.same fun _ =>
    rfl) fun mode => ?_
  refine .bind (g := id) (.ite (takeInstance_refines _) (engines.mirrors.makeInstance closure))
    fun this => ?_
  refine .bind (.same fun _ => rfl) fun strategy => .bind (changeKept_refines strategy fun _ => rfl)
    fun _ => ?_
  refine .bind (.attempt (.ite (reenterNext_refines engines)
    (enter_refines engines closure this args _))) fun result => ?_
  exact .bind (changeKept_refines strategy Stack.bare_dropInner) fun _ =>
    settleFramed_refines strategy _ this result

end Eval

theorem Action.performWith_refines {g g' : Engine} (engines : g.Refines k g') (action : Action) :
    (action.performWith g).Refines k ((action.bare k).performWith g') := by
  cases action with
  | value v => exact .pure v
  | throw v => exact .unwind _
  | call func this args => exact Eval.call_refines engines func this args
  | enter closure this args newTarget =>
    exact Eval.enter_refines engines closure this args newTarget
  | enterTop top => exact Eval.enterTop_refines engines top
  | construct callee args => exact Eval.construct_refines engines callee args
  | handleNew callee args =>
    have plain := Eval.construct_refines engines callee args
    cases callee with
    | closure id =>
      exact .bind (.same fun _ => rfl) fun strategy =>
        .ite plain (Eval.constructFramed_refines engines id args)
    | _ => exact plain
  | safePoint => exact Eval.safePoint_refines engines
  | reenterNext => exact Eval.reenterNext_refines engines
  | sequence steps =>
    have all (value : Value) : Run.Refines k (steps.foldlM (fun _ action => g.perform action) value)
        ((Action.bareList k steps).foldlM (fun _ action => g'.perform action) value) := by
      induction steps generalizing value with
      | nil => exact .pure _
      | cons action rest ih =>
        rw [Action.bareList, List.foldlM_cons, List.foldlM_cons]
        exact (engines.perform action).bind ih
    exact all .undefined

/-- Without a yield interval a safe point is passed. -/
theorem perform_safePoint (bound : Nat) {depth depth' : Nat} (deep : k.Reaches depth depth')
    (deletes : k.deletes = true) : (perform bound depth .safePoint).Refines k
    (pure .undefined) := by
  intro m calm
  cases depth with
  | zero =>
    -- the first run has one action more to spend, unless it is the one that may be cut off
    cases early : k.early with
    | true => exact .first early
    | false => simp [Comparison.Reaches, early, deletes] at deep
  | succ depth =>
    show (Eval.safePoint _ m).RefinesBy _ _ _
    rw [Eval.safePoint, Run.read_bind, show m.yieldInterval = none from calm deletes]
    exact .ok calm

/-- **An action ends as it does without safe points**, unless it is cut off. -/
theorem perform_refines {bound bound' depth depth' : Nat} (reaches : k.Reaches bound bound')
    (deep : k.Reaches depth depth') (action : Action) :
    (perform bound depth action).Refines k (perform bound' depth' (action.bare k)) := by
  revert action
  refine deep.induct (fun early _ _ _ _ => .first early) (fun late _ _ _ _ => .second late)
    fun _ _ deeper ih => ?_
  exact Action.performWith_refines ⟨reaches, ih, perform_safePoint bound deeper⟩

/-! ## Bounds -/

theorem SafePoint.clear_false (body : List Stmt) : clear false body = body :=
  List.filter_eq_self.mpr fun _ _ => rfl

mutual

/-- Where nothing is deleted and no body is made a block, the code is the same. -/
theorem Expr.erasing_self : (e : Expr) → e.transform (erasing false false) () = e
  | .num _ | .str _ | .bool _ | .null | .undefined | .ident
      _ | .this | .arguments | .isNormal | .isRestoring
  | .targetIn _ | .capturing | .reenterNext | .newTarget | .suspend => rfl
  | .binary op left right => congrArg₂ (Expr.binary op) left.erasing_self right.erasing_self
  | .unary op arg => congrArg (Expr.unary op) arg.erasing_self
  | .cond test thenE elseE => by
    show Expr.cond _ _ _ = _
    rw [test.erasing_self, thenE.erasing_self, elseE.erasing_self]
  | .member base name => congrArg (Expr.member · name) base.erasing_self
  | .index base key => congrArg₂ Expr.index base.erasing_self key.erasing_self
  | .call callee args => congrArg₂ Expr.call callee.erasing_self (Expr.erasing_self_list args)
  | .new callee args => congrArg₂ Expr.new callee.erasing_self (Expr.erasing_self_list args)
  | .handleNew callee args =>
    congrArg₂ Expr.handleNew callee.erasing_self (Expr.erasing_self_list args)
  | .func f => congrArg Expr.func f.erasing_self
  | .array elements => congrArg Expr.array (Expr.erasing_self_list elements)
  | .object props => congrArg Expr.object (Expr.erasing_self_props props)

theorem Expr.erasing_self_list : (es : List Expr) → Expr.transformList (erasing false false)
    () es = es
  | [] => rfl
  | e :: rest => congrArg₂ List.cons e.erasing_self (Expr.erasing_self_list rest)

theorem Expr.erasing_self_props : (props : List (String × Expr)) →
    Expr.transformProps (erasing false false) () props = props
  | [] => rfl
  | (key, e) :: rest =>
    congrArg₂ (fun e => List.cons (key, e)) e.erasing_self (Expr.erasing_self_props rest)

theorem Expr.erasing_self_option : (o : Option Expr) → Expr.transformOption (erasing false false)
    () o = o
  | none => rfl
  | some e => congrArg some e.erasing_self

theorem Target.erasing_self : (target : Target) → target.transform (erasing false false) () = target
  | .ident _ => rfl
  | .member base name => congrArg (Target.member · name) base.erasing_self
  | .index base key => congrArg₂ Target.index base.erasing_self key.erasing_self

theorem Stmt.erasing_self : (s : Stmt) → s.transform (erasing false false) () = s
  | .block body => congrArg Stmt.block ((clear_false _).trans (Stmt.erasing_self_list body))
  | .letS name init => congrArg (Stmt.letS name) (Expr.erasing_self_option init)
  | .assign target value => congrArg₂ Stmt.assign target.erasing_self value.erasing_self
  | .expr e => congrArg Stmt.expr e.erasing_self
  | .ifS test thenS elseS => by
    show Stmt.ifS _ _ _ = _
    rw [test.erasing_self, thenS.erasing_self, Stmt.erasing_self_option elseS]
  | .whileS test body => congrArg₂ Stmt.whileS test.erasing_self body.erasing_self
  | .labeled label body => congrArg (Stmt.labeled label) body.erasing_self
  | .returnS value => congrArg Stmt.returnS (Expr.erasing_self_option value)
  | .throwS value => congrArg Stmt.throwS value.erasing_self
  | .tryS body handler final => by
    show Stmt.tryS _ _ _ = _
    rw [body.erasing_self, Handler.erasing_self_option handler, Stmt.erasing_self_option final]
  | .decl f => congrArg Stmt.decl f.erasing_self
  | .recordOnCapture label body => congrArg (Stmt.recordOnCapture label) body.erasing_self
  | .shadowFrame label body => congrArg (Stmt.shadowFrame label) body.erasing_self
  | .breakS _ | .continueS _ | .restoreFrame | .stackDec | .stackInc | .returnIfCapturing
    _ | .rethrowSignal _ => rfl

theorem Stmt.erasing_self_list : (body : List Stmt) → Stmt.transformList (erasing false false)
    () body = body
  | [] => rfl
  | s :: rest => congrArg₂ List.cons s.erasing_self (Stmt.erasing_self_list rest)

theorem Stmt.erasing_self_option : (o : Option Stmt) → Stmt.transformOption (erasing false false)
    () o = o
  | none => rfl
  | some s => congrArg some s.erasing_self

theorem Handler.erasing_self_option : (o : Option Handler) →
    Handler.transformOption (erasing false false) () o = o
  | none => rfl
  | some ⟨param, body⟩ => congrArg (fun body => some (Handler.mk param body)) body.erasing_self

theorem Func.erasing_self : (f : Func) → f.transform (erasing false false) () = f
  | ⟨name, params, body, frame, site⟩ =>
    congrArg (fun body => Func.mk name params body frame site)
    ((clear_false _).trans (Stmt.erasing_self_list body))

end

def Erasure.nothing : Erasure :=
  ⟨false, false⟩

mutual

theorem Action.bare_nothing : (action : Action) → action.bare .nothing = action
  | .enterTop top => congrArg Action.enterTop top.erasing_self
  | .sequence actions => congrArg Action.sequence (Action.bare_nothing_list actions)
  | .value _ | .throw _ | .call .. | .enter .. | .construct .. | .handleNew
    .. | .safePoint | .reenterNext => rfl

theorem Action.bare_nothing_list : (actions : List Action) →
    Action.bareList .nothing actions = actions
  | [] => rfl
  | action :: rest => congrArg₂ List.cons action.bare_nothing (Action.bare_nothing_list rest)

end

theorem Stack.bare_nothing (stack : Stack) : stack.bare .nothing = stack := by
  have frames (frame : Frame) : frame.bare .nothing = frame := by
    cases frame <;> simp [Frame.bare, CallFrame.bare, Action.bare_nothing]
  simp [Stack.bare, funext frames]

theorem CaptureHandler.bare_nothing (handler : CaptureHandler) : handler.bare .nothing =
    handler := by
  cases handler with
  | reenter action => exact congrArg CaptureHandler.reenter action.bare_nothing
  | _ => rfl

theorem Unwind.bare_nothing (reason : Unwind) : reason.bare .nothing = reason := by
  rcases reason with value | (⟨handler, stack⟩ | stack | replacement) | fault
  · rfl
  · simp [Unwind.bare, Signal.bare, handler.bare_nothing, stack.bare_nothing]
  · simp [Unwind.bare, Signal.bare, stack.bare_nothing]
  · rfl
  · rfl

mutual

theorem Task.bare_nothing : (task : Task) → task.bare .nothing = task
  | .resume stack => congrArg Task.resume stack.bare_nothing
  | .host lines queued => congrArg (Task.host lines) (Task.bareList_nothing queued)

theorem Task.bareList_nothing : (tasks : List Task) → Task.bareList .nothing tasks = tasks
  | [] => rfl
  | task :: rest => congrArg₂ List.cons task.bare_nothing (Task.bareList_nothing rest)

end

theorem Machine.bare_nothing (m : Machine) : m.bare .nothing = m := by
  have closures (closure : Closure) : closure.bare .nothing = closure :=
    congrArg (fun func => { closure with func }) closure.func.erasing_self
  simp [Machine.bare, Store.bare, Stack.bare_nothing, funext closures, funext Task.bare_nothing,
    funext Stack.bare_nothing, funext CaptureHandler.bare_nothing]

/-- **An action ends under every larger bound as it does**, unless it is cut off. -/
theorem perform_within {bound depth depth' : Nat} (deep : depth ≤ depth') (action : Action)
    (m : Machine) : perform bound depth action m = .cutOff ∨ perform bound depth' action m =
    perform bound depth action m := by
  have refines : Ending.RefinesBy _ _ _ (perform bound depth' (action.bare _) (m.bare _)) :=
    perform_refines (k := ⟨.nothing, true⟩) (Nat.le_refl bound) deep action m nofun
  rw [action.bare_nothing, m.bare_nothing] at refines
  generalize perform bound depth action m = e at refines ⊢
  generalize perform bound depth' action m = e' at refines ⊢
  cases refines with
  | ok calm => exact .inr (congrArg (Ending.ok _) (Machine.bare_nothing _))
  | unwind calm =>
    exact .inr (congrArg₂ Ending.unwind (Unwind.bare_nothing _) (Machine.bare_nothing _))
  | first early => exact .inl rfl
  | second late => cases late

/-! ## Turns -/

/-- The program without safe points, or with blocks for the bodies of loops, or both. -/
def Program.erased (deletes wraps : Bool) (program : Program) : Program :=
  { program with body := clear deletes (Stmt.transformList (erasing deletes wraps)
    () program.body) }

def Next.bare (k : Erasure) : Next → Next
  | .run action => .run (action.bare k)
  | .restore stack => .restore (stack.bare k)

def Turn.bare (k : Erasure) : Turn → Turn
  | .next step => .next (step.bare k)
  | .ended result => .ended result

/-- What follows on one machine follows on the other, without safe points. -/
def Turn.Refines (k : Erasure) (m : Machine) (turn turn' : Turn × Machine) : Prop :=
  turn' = (turn.1.bare k, turn.2.bare k) ∧ turn.2.yieldInterval = m.yieldInterval

namespace Machine

variable (m : Machine)

end Machine

/-- How two slices end, with safe points and without them. -/
inductive Comparison.Slices (k : Comparison) (f : α → α) : Option (α × Machine) →
    Option (α × Machine) → Prop
  | some {a : α} {m : Machine} : m.Calm k → k.Slices f (some (a, m)) (some (f a, m.bare k))
  | first {e : Option (α × Machine)} : k.early = true → k.Slices f none e
  | second {e : Option (α × Machine)} : k.early = false → k.Slices f e none

theorem Turn.Refines.slices {m : Machine} {turn turn' : Turn × Machine}
    (refines : Turn.Refines k m turn turn') (calm : m.Calm k) : k.Slices (Turn.bare k) (some turn)
    (some turn') := by
  rw [refines.1]
  exact .some fun deletes => refines.2.trans (calm deletes)

section Runs

variable {bound bound' : Nat} (reaches : k.Reaches bound bound')

include reaches

end Runs

end Resumable
