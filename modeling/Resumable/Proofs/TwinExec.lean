import Resumable.Proofs.TwinRun

/-!
Statements of a pair of code in lockstep.

Statements of the second code that stand for nothing in the first have no effect at rest: in normal
mode, with no signal held, no calls counted and no frames collected.  What a capture point adds
around a statement is not seen from outside, since no signal passes.  So a list of statements and
the one that stands for it end alike (`Stmt.Twin.observe`).
-/

namespace Resumable

section Statements

variable {sites : Sites} {floor : Nat}

/-! ## At rest -/

/-- An activation in normal mode that holds no signal, where no calls are counted and no frames
collected. -/
structure Local.AtRest (l : Local) : Prop where
  normal : l.machine.mode = .normal
  uncounted : l.machine.remaining = none
  idle : l.machine.capturing = false
  caught : l.act.caught = none

theorem Local.Twin.atRest {l l' : Local} (twin : l.Twin sites floor l') : l'.AtRest :=
  ⟨twin.machine.normal', twin.machine.uncounted', twin.machine.idle', twin.act.caught'⟩

section AtRest

variable {g : Engine} {l : Local}

theorem Expr.test_of_eval {e : Expr} {value : Value}
    (found : e.eval g l.act l.machine = .ok value l.machine) :
    e.test g l = .ok value.isTruthy l := by
  show Exec.ofEval (fun act => Run.bind (e.eval g act) fun v => pure v.isTruthy) l = _
  unfold Exec.ofEval Run.bind
  simp only [found]
  rfl

theorem Stmt.exec_ifS {test : Expr} {b : Bool} (holds : test.test g l = .ok b l) (thenS : Stmt)
    (elseS : Option Stmt) :
    (Stmt.ifS test thenS elseS).exec g l = if b then thenS.exec g l else Stmt.execOption g
    elseS l := by
  rw [Stmt.exec]
  show Run.bind (test.test g) _ l = _
  unfold Run.bind
  rw [holds]
  cases b <;> rfl

theorem Expr.test_of_holdsNormally (rest : l.AtRest) {test : Expr}
    (holds : test.holdsNormally = true) : test.test g l = .ok true l := by
  unfold Expr.holdsNormally at holds
  split at holds
  · exact Expr.test_of_eval (Expr.eval_isNormal rest.normal)
  · have found : (Expr.unary .not .capturing).eval g l.act l.machine =
        .ok (.bool true) l.machine := by
      show Ending.ok (Value.bool (!l.machine.capturing)) l.machine = _
      rw [rest.idle]
      rfl
    exact Expr.test_of_eval found
  · exact Expr.test_of_eval (Expr.eval_or (Expr.eval_isNormal rest.normal) _)
  · cases holds

/-- A statement that has no effect in normal mode has none at rest. -/
theorem Stmt.exec_of_isSilent (rest : l.AtRest) {s : Stmt} (silent : s.isSilent = true) :
    s.exec g l = .ok .normal l := by
  obtain ⟨act, m⟩ := l
  unfold Stmt.isSilent at silent
  split at silent
  · have uncounted : Eval.countCall g act.startAgain m = .ok false m := by
      rw [Eval.countCall, Run.read_bind, rest.uncounted]
      rfl
    show Run.bind (Exec.ofEval fun act => Eval.countCall g act.startAgain) _ _ = _
    unfold Run.bind Exec.ofEval
    simp only [uncounted]
    rfl
  · show Ending.ok Completion.normal (⟨act, { m with remaining := m.remaining.map (· + 1) }⟩ :
      Local) = _
    rw [rest.uncounted]
    exact congrArg (fun r => Ending.ok Completion.normal (⟨act, { m with remaining := r }⟩ : Local))
      rest.uncounted.symm
  · show Run.bind (if m.mode = .restoring then Exec.takeFrame else pure ()) _ _ = _
    rw [rest.normal]
    rfl
  · rw [Stmt.exec, Exec.returnIfCapturing, Run.read_bind, rest.idle]
    rfl
  · rw [Stmt.exec, Exec.rethrow, Run.read_bind, rest.caught]
    rfl
  · exact Stmt.exec_ifS (Expr.test_of_eval (Expr.eval_and (Expr.eval_isRestoring rest.normal) _)) _
      none
  · cases silent

end AtRest

/-! ## Capture points of the second code -/

/-- The activation with other frames kept for the calls in progress. -/
def Local.withShadow (l : Local) (shadow : Stack) : Local :=
  { l with machine := { l.machine with shadow } }

/-- A property that no signal has, and that does not look at the frames kept for the calls in
progress. -/
structure Ending.Calm (ends : Ending Local Completion → Prop) : Prop where
  signal : ∀ signal l, ¬ ends (.unwind (.signal signal) l)
  ok : ∀ {completion l} shadow, ends (.ok completion l) →
    ends (.ok completion (l.withShadow shadow))
  unwind : ∀ {reason l} shadow, ends (.unwind reason l) →
    ends (.unwind reason (l.withShadow shadow))

section Calm

variable {ends : Ending Local Completion → Prop} {y : Exec Completion} {l : Local}

theorem Ending.Calm.recording (calm : Ending.Calm ends) (label : Nat) (inner : ends (y l)) :
    ends (Exec.recording label y l) := by
  show ends (Run.bind y.attempt _ l)
  unfold Run.bind Run.attempt
  generalize y l = e at inner
  cases e with
  | ok completion l' => exact inner
  | unwind reason l' =>
    cases reason with
    | throw value => exact inner
    | signal signal => exact absurd inner (calm.signal signal l')
    | fault fault => exact inner
  | cutOff => exact inner

theorem Ending.Calm.shadowing (calm : Ending.Calm ends) (label : Nat)
    (inner : ∀ shadow, ends (y (l.withShadow shadow))) : ends (Exec.shadowing label y l) := by
  have pushed := inner (l.machine.shadow.pushInner (l.act.captureFrame l.machine.store label))
  show ends (Run.bind y.attempt _ (l.withShadow (l.machine.shadow.pushInner _)))
  unfold Run.bind Run.attempt
  generalize y _ = e at pushed
  cases e with
  | ok completion l' => exact calm.ok _ pushed
  | unwind reason l' => exact calm.unwind _ pushed
  | cutOff => exact pushed

end Calm

theorem Local.AtRest.withShadow {l : Local} (rest : l.AtRest) (shadow : Stack) :
    (l.withShadow shadow).AtRest :=
  ⟨rest.normal, rest.uncounted, rest.idle, rest.caught⟩

theorem Local.Twin.withShadow {l l' : Local} (twin : l.Twin sites floor l') (shadow : Stack) :
    l.Twin sites floor (l'.withShadow shadow) :=
  ⟨twin.act, twin.scope, { twin.machine with }⟩

theorem Ending.Twin.calm (e : Ending Local Completion) :
    Ending.Calm (e.Twin (Local.Twin sites floor)) where
  signal signal l twin := by
    cases twin with
    | unwind notSignal related => exact notSignal signal rfl
  ok shadow twin := by
    cases twin with
    | ok related => exact .ok (related.withShadow shadow)
  unwind shadow twin := by
    cases twin with
    | unwind notSignal related => exact .unwind notSignal (related.withShadow shadow)

/-! ## Lists -/

section Lists

variable {w : Observer} {g : Engine}

theorem Stmt.execList_singleton (s : Stmt) : Stmt.execList g [s] = s.exec g := by
  rw [Stmt.execList]
  conv_rhs => rw [← bind_pure (s.exec g)]
  refine bind_congr fun completion => ?_
  cases completion <;> rfl

theorem Stmt.execList_append (body rest : List Stmt) :
    Stmt.execList g (body ++ rest) = (do
      match ← Stmt.execList g body with
      | .normal => Stmt.execList g rest
      | abrupt => return abrupt) := by
  induction body with
  | nil => rfl
  | cons s body ih =>
    rw [List.cons_append, Stmt.execList, Stmt.execList, bind_assoc, ih]
    refine bind_congr fun completion => ?_
    cases completion <;> rfl

end Lists

/-! ## Combinators -/

namespace Observed.Twin

theorem loop {test : Observed Local Bool} {test' : Exec Bool} {body : Observed Local Completion}
    {body' : Exec Completion} (label : Option String)
    (tests : test.Twin (Local.Twin sites floor) test')
    (bodies : body.Twin (Local.Twin sites floor) body') (turns : Nat) :
    (Observed.loop label test body turns).Twin (Local.Twin sites floor)
      (Exec.loop label test' body' turns) :=
  Lockstep.loop label tests bodies turns

theorem declare (name : String) (value : Value) :
    (Exec.declare name value).Twin (Local.Twin sites floor) (Exec.declare name value) := by
  intro l l' related
  have stores : (l.machine.store.declare l.act.scope name value).Twin sites floor
      (l'.machine.store.declare l'.act.scope name value) := by
    rw [related.act.scope]
    exact related.machine.store.declare l.act.scope name value
  exact .ok { related with machine := { related.machine with store := stores } }

theorem settle {result : Except Unwind α} {states : σ → σ → Prop}
    (notSignal : ∀ signal, result ≠ .error (.signal signal)) :
    (Observed.lift (Run.settle result)).Twin states (Run.settle result) :=
  Lockstep.settle notSignal

theorem handle {body handler : Observed Local Completion} {body' handler' : Exec Completion}
    (param : String) (bodies : body.Twin (Local.Twin sites floor) body')
    (handlers : handler.Twin (Local.Twin sites floor) handler') :
    (Observed.handle body param handler).Twin (Local.Twin sites floor)
      (Exec.handle body' param handler') :=
  Lockstep.handle bodies (declare param) handlers

theorem withFinal {body final : Observed Local Completion} {body' final' : Exec Completion}
    (bodies : body.Twin (Local.Twin sites floor) body')
    (finals : final.Twin (Local.Twin sites floor) final') :
    (Observed.withFinal body final).Twin (Local.Twin sites floor) (Exec.withFinal body' final') :=
  Lockstep.withFinal bodies finals

end Observed.Twin

/-! ## Returned calls -/

/-- The first end returns a value, which the second has in its local for returned calls. -/
inductive Ending.Held (sites : Sites) (floor : Nat) : Ending Local Completion →
    Ending Local Completion → Prop
  | held {value : Value} {l l' : Local} :
      l.Twin sites floor l' → l'.machine.store.lookup? l'.act.scope tailResult = some value →
      Ending.Held sites floor (.ok (.return value) l) (.ok .normal l')
  | unwind {reason : Unwind} {l l' : Local} :
      (∀ signal, reason ≠ .signal signal) → l.Twin sites floor l' →
      Ending.Held sites floor (.unwind reason l) (.unwind reason l')
  | cutOff : Ending.Held sites floor .cutOff .cutOff

theorem Ending.Held.calm (e : Ending Local Completion) : Ending.Calm (e.Held sites floor) where
  signal signal l held := by
    cases held with
    | unwind notSignal related => exact notSignal signal rfl
  ok shadow held := by
    cases held with
    | held related found => exact .held (related.withShadow shadow) found
  unwind shadow held := by
    cases held with
    | unwind notSignal related => exact .unwind notSignal (related.withShadow shadow)

section Held

variable {w : Observer} {g : Engine} {l l' : Local}

/-- Keep the value of an expression in the local instead of returning it. -/
theorem Expr.Twin.held (engines : w.Twin sites g) (context : Context)
    {e e' : Expr} (twin : e.Twin sites e') (related : l.Twin sites floor l')
    (calm : ∀ event ∈ (e.observe w context l.act).told l.machine, event.isTransfer = false) :
    Ending.Held sites floor
      ((do return .return (← .ofEval fun act => Expr.observeOption w context act (some e)) :
        Observed Local Completion).erase l)
      ((Stmt.letS tailResult (some e')).exec g l') := by
  have inner := twin.observe engines related.act context l.machine l'.machine related.machine calm
  rw [Observed.erase_bind, Observed.erase_ofEval, Stmt.exec]
  show Ending.Held sites floor (Run.bind (Exec.ofEval _) _ l) (Run.bind (Exec.ofEval _) _ l')
  unfold Run.bind Exec.ofEval
  simp only [Expr.observeOption, Expr.evalOption]
  generalize (e.observe w context l.act).erase l.machine = found at inner
  generalize e'.eval g l'.act l'.machine = found' at inner
  cases inner with
  | @ok value m m' machines =>
    have exists_ : l'.act.scope.index < m'.store.scopes.size := by
      rw [machines.store.scopes, related.act.scope]
      exact Nat.lt_of_lt_of_le related.scope machines.store.floor
    refine .held ⟨related.act, related.scope,
      { machines with store := machines.store.declareTail _ value }⟩ ?_
    refine Store.lookup?_of_local? ?_ ?_
    · rw [Store.scopes_declare_size]
      exact exists_
    · rw [Store.local?_declare, if_pos ⟨⟨rfl, exists_⟩, rfl⟩]
  | unwind notSignal machines => exact .unwind notSignal ⟨related.act, related.scope, machines⟩
  | cutOff => exact .cutOff

theorem Stmt.exec_dual (rest : l'.AtRest) (label : Nat) (s : Stmt) : (s.dual label).exec g l' =
    s.exec g l' :=
  Stmt.exec_ifS (Expr.test_of_holdsNormally rest rfl) s _

/-- A capture point does not change what the local has. -/
theorem Ending.Held.capturePoint {e : Ending Local Completion} {s : Stmt} (rest : l'.AtRest)
    (held : ∀ shadow, e.Held sites floor (s.exec g (l'.withShadow shadow))) (strategy : Strategy)
    (label : Nat) :
    e.Held sites floor (Stmt.execList g (capturePoint strategy label s) l') := by
  have dual (shadow : Stack) : e.Held sites floor ((s.dual label).exec g
      (l'.withShadow shadow)) := by
    rw [Stmt.exec_dual (rest.withShadow shadow)]
    exact held shadow
  cases strategy with
  | eager =>
    rw [Resumable.capturePoint, Stmt.execList_singleton, Stmt.exec]
    exact (Ending.Held.calm e).shadowing label dual
  | lazy =>
    rw [Resumable.capturePoint, Stmt.execList_singleton, Stmt.exec]
    exact (Ending.Held.calm e).recording label (dual l'.machine.shadow)
  | retval =>
    have here : e.Held sites floor ((s.dual label).exec g l') := dual l'.machine.shadow
    rw [Resumable.capturePoint, Stmt.execList]
    show e.Held sites floor (Run.bind ((s.dual label).exec g) _ l')
    unfold Run.bind
    generalize (s.dual label).exec g l' = e' at here
    cases here with
    | held related found =>
      show Ending.Held sites floor _ (Stmt.execList g [.returnIfCapturing label] _)
      rw [Stmt.execList_singleton, Stmt.exec_of_isSilent related.atRest rfl]
      exact .held related found
    | unwind notSignal related => exact .unwind notSignal related
    | cutOff => exact .cutOff
  | fudge =>
    rw [Resumable.capturePoint, Stmt.execList_singleton, Stmt.guarded,
      Stmt.exec_ifS (Expr.test_of_holdsNormally rest rfl)]
    exact held l'.machine.shadow

/-- What is in the local is returned. -/
theorem Stmt.execList_returned {value : Value} (rest : l'.AtRest)
    (found : l'.machine.store.lookup? l'.act.scope tailResult = some value) :
    Stmt.execList g [.stackInc, .returnS (some (.ident tailResult))] l' = .ok (.return value)
    l' := by
  have read : Eval.lookup l'.act tailResult l'.machine = .ok value l'.machine := by
    rw [Eval.lookup, Run.read_bind, found]
    rfl
  have returned : (Stmt.returnS (some (.ident tailResult))).exec g l' = .ok (.return value) l' := by
    show Run.bind (Exec.ofEval fun act => Eval.lookup act tailResult) _ l' = _
    unfold Run.bind Exec.ofEval
    simp only [read]
    rfl
  rw [Stmt.execList, Stmt.execList_singleton]
  show Run.bind (Stmt.stackInc.exec g) _ l' = _
  unfold Run.bind
  rw [Stmt.exec_of_isSilent rest rfl]
  exact returned

theorem Expr.Twin.tail (engines : w.Twin sites g) (context : Context) {e e' : Expr}
    (twin : e.Twin sites e') (strategy : Strategy) (label : Nat) :
    (Stmt.observeList w context [.returnS (some e)]).Twin (Local.Twin sites floor)
      ((Stmt.block (capturePoint strategy label (.letS tailResult (some e')) ++
        [.stackInc, .returnS (some (.ident tailResult))])).exec g) := by
  rw [Stmt.observeList_singleton, Stmt.observe, Stmt.exec, Stmt.execList_append]
  refine .noted fun l l' related calm => ?_
  have inner : ∀ event ∈ (e.observe w context l.act).told l.machine, event.isTransfer = false := by
    change ∀ event ∈ (Observed.bind _ _).told l, _ at calm
    rw [Observed.told_of_bind, List.forall_mem_append] at calm
    exact calm.1
  have held := Ending.Held.capturePoint related.atRest
    (fun shadow => twin.held engines context (related.withShadow shadow) inner) strategy label
  show Ending.Twin _ _ (Run.bind (Stmt.execList g _) _ l')
  unfold Run.bind
  generalize Stmt.execList g (capturePoint _ _ _) l' = point at held
  generalize Observed.erase _ l = e at held
  cases held with
  | held related found =>
    show Ending.Twin _ _ (Stmt.execList g [.stackInc, _] _)
    rw [Stmt.execList_returned related.atRest found]
    exact .ok related
  | unwind notSignal related => exact .unwind notSignal related
  | cutOff => exact .cutOff

end Held

/-! ## Statements -/

section Pairs

variable {w : Observer} {g : Engine}

section

variable (oneToOne : sites.OneToOne) (engines : w.Twin sites g) (context : Context)

include oneToOne engines context

set_option linter.unusedSectionVars false in
mutual

theorem Stmt.Twin.observe {body : List Stmt} {s : Stmt} : Stmt.Twin sites body s →
    (Stmt.observeList w context body).Twin (Local.Twin sites floor) (s.exec g)
  | .silent silent =>
    .congr (.pure Completion.normal) fun _ _ related => Stmt.exec_of_isSilent related.atRest silent
  | .splice twins => by
    rw [Stmt.exec]
    exact twins.observe
  | .guarded holds twin _ =>
    .congr (twin.observe) fun _ _ related =>
      Stmt.exec_ifS (Expr.test_of_holdsNormally related.atRest holds) _ _
  | .recorded twin => by
    intro l l' related calm
    rw [Stmt.exec]
    exact (Ending.Twin.calm _).recording _ (twin.observe l l' related calm)
  | .shadowed twin => by
    intro l l' related calm
    rw [Stmt.exec]
    exact (Ending.Twin.calm _).shadowing _ fun shadow =>
      twin.observe l _ (related.withShadow shadow) calm
  | .block twins => by
    rw [Stmt.observeList_singleton, Stmt.observe, Stmt.exec]
    exact .noted (twins.observe)
  | .letS _ init => by
    rw [Stmt.observeList_singleton, Stmt.observe, Stmt.exec]
    exact .noted (.bind (Observed.ofEval_twin fun act act' acts _ =>
      init.observe engines acts context) fun value =>
        Observed.Lockstep.bind (.lift (Observed.Twin.declare _ value)) fun _ => .pure _)
  | .assign target value => by
    rw [Stmt.observeList_singleton, Stmt.observe, Stmt.exec]
    exact .noted (.bind (Observed.ofEval_twin fun act act' acts _ =>
      target.observe engines acts context value) fun _ => .pure _)
  | .expr e => by
    rw [Stmt.observeList_singleton, Stmt.observe, Stmt.exec]
    exact .noted (.bind (.bind (Observed.ofEval_twin fun act act' acts _ =>
      e.observe engines acts context) fun _ => .pure _) fun _ => .pure _)
  | .ifS test thenS elseS => by
    have first := thenS.observe
    rw [Stmt.observeList_singleton] at first ⊢
    rw [Stmt.observe, Stmt.exec]
    exact .noted ((test.observe engines context).bind fun _ =>
      .ite first (elseS.observe))
  | .whileS test body => by
    have inner := body.observe
    rw [Stmt.observeList_singleton] at inner ⊢
    rw [Stmt.observe, Stmt.exec, engines.bound]
    exact .noted (.loop none (test.observe engines context) inner _)
  | .loop test body => by
    have inner := body.observe
    rw [Stmt.observeList_singleton] at inner ⊢
    rw [Stmt.observe, Stmt.exec, engines.bound]
    exact .noted (.loop (some _) (test.observe engines context) inner _)
  | .labeled notLoop notLoop' body => by
    have inner := body.observe
    rw [Stmt.observeList_singleton] at inner ⊢
    rw [Stmt.observe, Stmt.exec]
    · exact .noted (inner.bind fun _ => .pure _)
    · rintro test inner rfl
      cases notLoop'
    · rintro test inner rfl
      cases notLoop
  | .breakS => by
    rw [Stmt.observeList_singleton, Stmt.observe]
    exact .noted (.lift (.pure _))
  | .returnS value => by
    rw [Stmt.observeList_singleton, Stmt.observe, Stmt.exec]
    exact .noted (.bind (Observed.ofEval_twin fun act act' acts _ =>
      value.observe engines acts context) fun _ => .pure _)
  | .tail e => e.tail engines context _ _
  | .throwS value => by
    rw [Stmt.observeList_singleton, Stmt.observe, Stmt.exec]
    exact .noted (.bind (Observed.ofEval_twin fun act act' acts _ =>
      value.observe engines acts context) fun _ => .lift (.throw _))
  | .tryS body handler final => by
    have inner := body.observe
    rw [Stmt.observeList_singleton] at inner ⊢
    rw [Stmt.observe, Stmt.exec]
    exact .noted (.withFinal (handler.observe inner)
      (final.observe))
  | .decl f => by
    rw [Stmt.observeList_singleton, Stmt.observe]
    refine .noted ?_
    rw [Stmt.exec, Stmt.exec, Observed.lift_bind, Observed.lift_ofEval]
    refine .bind (Observed.ofEval_twin fun act act' acts _ => ?_) fun _ => .pure _
    rw [acts.scope]
    exact .lift (Eval.modifyStore_twin fun s s' stores => stores.declareFunc oneToOne f act.scope)

theorem Stmt.Twins.observe {body body' : List Stmt} : Stmt.Twins sites body body' →
    (Stmt.observeList w context body).Twin (Local.Twin sites floor) (Stmt.execList g body')
  | .nil => .pure _
  | .cons twin rest => by
    rw [Stmt.observeList_append, Stmt.execList]
    refine (twin.observe).bind fun completion => ?_
    cases completion with
    | normal => exact rest.observe
    | _ => exact .pure _

theorem Stmt.TwinOption.observe {o o' : Option Stmt} : Stmt.TwinOption sites o o' →
    (Stmt.observeOption w context o).Twin (Local.Twin sites floor) (Stmt.execOption g o')
  | .none => .pure _
  | .some twin => by
    have inner := twin.observe
    rw [Stmt.observeList_singleton] at inner
    exact inner

theorem Handler.TwinOption.observe {body : Observed Local Completion} {body' : Exec Completion}
    (bodies : body.Twin (Local.Twin sites floor) body') {o o' : Option Handler} :
    Handler.TwinOption sites o o' →
    (Handler.observeOption w context body o).Twin (Local.Twin sites floor)
    (Handler.execOption g body' o')
  | .none => bodies
  | .some _ twin => by
    have inner := twin.observe
    rw [Stmt.observeList_singleton] at inner
    exact .handle _ bodies inner

end

end

end Pairs

end Statements

end Resumable
