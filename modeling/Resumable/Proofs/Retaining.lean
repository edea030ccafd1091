import Resumable.Proofs.Entry
import Resumable.Proofs.OwnScopes
import Resumable.Proofs.Reading

/-!
Runs that leave the scopes of others alone.

The walk through expressions, statements, calls and turns for `Activation.InScope`.
`Observed.Retains` is the judgment for computations on a machine: whatever was in the store when
they began is retained.  Within a function the scope of the activation is its own, and
`Observed.RetainsIn` says that it stays in scope.  `Stmt.retainsIn` has a case for each statement,
and `observer_retains` is the induction on the depth to which actions are nested.
-/

namespace Resumable

variable {m : Machine} {s : Stmt}

/-! ## Expressions -/

section Expressions

variable {strategy : Strategy} {options : RunOptions} {code : Func → Prop} {base : Store}
  {w : Observer} {context : Context} {act : Activation}

/-- Evaluation in a in scope activation retains what is in the earlier store. -/
theorem Activation.InScope.reading (inScope : act.InScope code base)
    (observes : w.Retains strategy options code) (nests : Func.Nests code) :
      Reading code w context act fun {_} x => ∀ m, m.Retains strategy options code base →
          x.Retains strategy options code base m where
  bind first second m retains := .bind (first m retains) fun a => second a
  still quiet _ retains := quiet.retains retains nests
  noted inner rest m retains := .noted ⟨inScope.later retains.retained, retains.here,
    inner⟩ (rest m retains)
  closure ofCode _ retains := .lift (retains.of_store nests
    ((Store.Retained.refl _).newClosure ofCode act.scope))
  assign name value _ retains := .lift (retains.of_store nests
    ((Store.Retained.refl _).assign act.scope name value))
  perform {action} carries m retains := by
    refine observes context action base m retains ?_
    cases action with
    | enterTop | sequence => cases carries
    | _ => trivial

end Expressions

/-! ## Activations at work -/

section Activations

variable {strategy : Strategy} {options : RunOptions} {code : Func → Prop} {base : Store} {f : Func}
  {l : Local}

namespace Local.InScope

section

variable (here : l.InScope strategy options code base f)

include here

/-- Something was done by others. -/
theorem of_machine (later : m.Retains strategy options code l.machine.store) :
    Local.InScope strategy options code base f ⟨l.act, m⟩ :=
  { here with
    machine := here.machine.since later
    act := here.act.later later.retained }

/-- The machine is changed, but not its store. -/
theorem of_hosts (store : m.store = l.machine.store)
    (hosts : m.Hosts strategy options (Func.Around code)) : Local.InScope strategy options code base
    f ⟨l.act, m⟩ :=
  { here with
    machine := here.machine.of_hosts store hosts
    act := store ▸ here.act }

/-- The activation has a signal in its hands. -/
theorem of_caught {caught : Option Signal} (ofCode : ∀ signal ∈ caught,
    signal.OfCode (Func.Around code)) : Local.InScope strategy options code base f
    { l with act := { l.act with caught } } :=
  { here with
    act := { here.act with ownScope := fun closure mem => { here.act.ownScope closure mem with } }
    caught := ofCode }

theorem captureFrame (store : Store) (label : Nat) :
    (l.act.captureFrame store label).action.OfCode (Func.Around code) :=
  Activation.invoke_ofCode here.act.around _ _

/-- A name of its own is bound in the scope of the activation. -/
theorem declare (nests : Func.Nests code) {name : String} (bound : name ∈ Stmt.listBinds f.body)
    (value : Value) : Local.InScope strategy options code base f
      ⟨l.act, { l.machine with store := l.machine.store.declare l.act.scope name value }⟩ :=
  { here with
    machine := here.machine.of_grown nests ((Store.Grows.refl _).declare _ _ _)
      (Store.declare_calm _ _ _ _) (here.machine.retained.declare (.inl here.outside) value)
    act := here.act.declare (fun called => here.act.owns nests called (here.func ▸ bound)) value }

theorem declareAll (nests : Func.Nests code) {bindings : List (String × Value)}
    (owned : ∀ binding ∈ bindings, l.act.func.Owns binding.1) :
    Local.InScope strategy options code base f
      ⟨l.act, { l.machine with store := l.machine.store.declareAll l.act.scope bindings }⟩ :=
  { here with
    machine := here.machine.of_grown nests ((Store.Grows.refl _).declareAll _ _)
      (Store.declareAll_calm _ _ _) (here.machine.retained.declareAll here.outside _)
    act := here.act.declareAll owned }

theorem declareFunc (nests : Func.Nests code) {g : Func} (written : g ∈ Stmt.listFunctions f.body)
    (bound : ∀ name ∈ g.name, name ∈ Stmt.listBinds f.body) :
    Local.InScope strategy options code base f
      ⟨l.act, { l.machine with store := l.machine.store.declareFunc l.act.scope g }⟩ := by
  have ofCode : code g := here.act.around g (here.func ▸ written)
  exact { here with
    machine := here.machine.of_grown nests ((Store.Grows.refl _).declareFunc _ _)
      (Store.declareFunc_calm _ _ ofCode) (here.machine.retained.declareFunc here.outside ofCode)
    act := here.act.declareFunc ofCode fun called name named =>
      here.act.owns nests called (here.func ▸ bound name named) }

/-- The functions in a statement that is reached are of the class. -/
theorem inner (reached : Stmt.Reached f.body s) : ∀ g ∈ s.functions, code g :=
  fun g mem => here.act.around g (here.func ▸ reached.functions mem)

/-- What the activation begins is told by one that is in scope. -/
theorem told (reached : Stmt.Reached f.body s) : Event.InScope strategy options code (.stmt s l) :=
  ⟨{ here with
    machine := here.machine.unscoped
    func := rfl
    outside := .inl (Nat.zero_le _) }, here.func ▸ reached⟩

end

end Local.InScope

/-- In the activation all that is told is told by activations that are in scope, and this one stays
so. -/
abbrev Observed.RetainsIn (strategy : Strategy) (options : RunOptions) (code : Func → Prop)
    (base : Store) (f : Func) (x : Observed Local Completion) (l : Local) : Prop :=
  x.Tells (Event.InScope strategy options code) l
    (Completion.Leaves (Local.InScope strategy options code base f)
      (Local.InScope strategy options code base f))
    (fun reason l' => l'.InScope strategy options code base f ∧ reason.OfCode (Func.Around code))

theorem Completion.leaves_same {stays : Local → Prop} {completion : Completion} {l : Local} :
    completion.Leaves stays stays l ↔ stays l := by
  cases completion <;> exact Iff.rfl

namespace Observed

/-- What is known of an end includes that it is the end. -/
theorem Tells.known {allowed : Event → Prop} {x : Observed σ α} {s : σ} {post : α → σ → Prop}
    {unwound : Unwind → σ → Prop} (tells : x.Tells allowed s post unwound) :
    x.Tells allowed s (fun a s' => post a s' ∧ x.erase s = .ok a s') unwound := by
  have ends := tells.ends
  refine ⟨tells.told, ?_⟩
  cases ending : x.erase s with
  | ok a s' =>
    rw [ending] at ends
    exact ⟨ends, rfl⟩
  | unwind reason s' =>
    rw [ending] at ends
    exact ends
  | cutOff => trivial

/-- A computation of others. -/
theorem Retains.ofEval {x : Activation → Observed Machine α}
    (here : l.InScope strategy options code base f)
    (retains : (x l.act).Retains strategy options code l.machine.store l.machine) :
    (ofEval x).Tells (Event.InScope strategy options code) l
      (fun _ => Local.InScope strategy options code base f)
      (fun reason l' => l'.InScope strategy options code base f ∧
          reason.OfCode (Func.Around code)) :=
  .ofEval (retains.weaken (fun _ _ ends => here.of_machine ends) fun _ _ ends =>
    ⟨here.of_machine ends.1, ends.2⟩)

/-- What unwinds the body goes to the handler, with an exception bound or a signal held. -/
theorem RetainsIn.handle (nests : Func.Nests code) {body handler : Observed Local Completion}
    {param : String} (bodyRetains : body.RetainsIn strategy options code base f l)
    (bound : param ∈ Stmt.listBinds f.body)
    (handlerRetains : ∀ l, l.InScope strategy options code base f →
      handler.RetainsIn strategy options code base f l) :
    (handle body param handler).RetainsIn strategy options code base f l := by
  refine .attempt bodyRetains (fun completion l₁ left => .pure left) fun reason l₁ ends => ?_
  cases reason with
  | throw value =>
    have declared : (lift (Exec.declare param value)).Tells (Event.InScope strategy options code) l₁
        (fun _ => Local.InScope strategy options code base f)
        (fun reason l' => l'.InScope strategy options code base f ∧
            reason.OfCode (Func.Around code)) :=
      .lift (ends.1.declare nests bound value)
    exact .bind declared fun _ l₂ here₂ => handlerRetains l₂ here₂
  | signal signal =>
    have held : Local.InScope strategy options code base f
        { l₁ with act := { l₁.act with caught := some signal } } :=
      ends.1.of_caught fun _ same => Option.some.inj same ▸ ends.2
    refine .read (.modify (.attempt (handlerRetains _ held) (fun completion l₂ left => ?_)
      fun reason l₂ ends₂ => ?_))
    · exact .modify (.pure (Completion.leaves_same.mpr ((Completion.leaves_same.mp left).of_caught
        ends.1.caught)))
    · exact .modify (.unwind ⟨ends₂.1.of_caught ends.1.caught, ends₂.2⟩)
  | fault fault => exact .unwind ends

end Observed

end Activations

/-! ## Captures -/

section Captures

variable {strategy : Strategy} {options : RunOptions} {code : Func → Prop} {base : Store}
  {w : Observer} {context : Context} {m : Machine}

section

variable (observes : w.Retains strategy options code)
  (retains : m.Retains strategy options code base)

include observes retains

/-- A capture is begun.  Where there are none the handler is called. -/
theorem Eval.observeCapture_retains {handler : CaptureHandler}
    (handlerCode : handler.OfCode (Func.Around code)) :
    (Eval.observeCapture w context handler).Retains strategy options code base m := by
  by_cases guest : ∃ func, m.strategy = .fudge ∧ handler = .guest func
  · obtain ⟨func, fudge, rfl⟩ := guest
    refine .noted trivial (.read ?_)
    rw [fudge]
    exact observes context _ base m retains trivial
  · have notGuest : ∀ func, m.strategy = .fudge → handler ≠ .guest func :=
      fun func fudge h => guest ⟨func, fudge, h⟩
    refine .of_eq (Eval.observeCapture_eq notGuest) (List.forall_mem_singleton.mpr trivial) ?_
    cases runs : m.strategy with
    | eager =>
      rw [Eval.raiseCapture_eager runs]
      exact ⟨{ retains with hosts := { retains.hosts with } }, handlerCode, retains.hosts.shadow⟩
    | «lazy» =>
      rw [Eval.raiseCapture_lazy runs]
      exact ⟨{ retains with hosts := { retains.hosts with } }, handlerCode, .empty⟩
    | retval =>
      rw [Eval.raiseCapture_retval runs]
      exact { retains with
        hosts := { retains.hosts with
          stack := .empty
          handler := fun held mem => Option.some.inj mem ▸ handlerCode } }
    | fudge =>
      rw [Eval.raiseCapture_fudge runs fun func => notGuest func runs]
      exact retains

theorem Eval.observeSafePoint_retains : (Eval.observeSafePoint w context).Retains strategy options
    code base m := by
  have counted : ∀ countdown, { m with countdown }.Retains strategy options code base :=
    fun _ => { retains with hosts := { retains.hosts with } }
  refine .read ?_
  split
  · exact .pure retains
  · refine .read ?_
    simp only
    split
    · exact .modify (.pure (counted _))
    · exact .modify (Eval.observeCapture_retains observes (counted _) trivial)

theorem Eval.observeCountCall_retains {again : Action}
    (againCode : again.OfCode (Func.Around code)) : (Eval.observeCountCall w context again).Retains
    strategy options code base m := by
  have counted : ∀ remaining, { m with remaining }.Retains strategy options code base :=
    fun _ => { retains with hosts := { retains.hosts with } }
  refine .read ?_
  split
  · exact .pure retains
  · refine .modify (.read (.read ?_))
    split
    · exact .pure (counted _)
    · refine .bind (.discard (Eval.observeCapture_retains observes (counted _) againCode))
        fun _ m₁ retains₁ => ?_
      exact .pure retains₁

theorem Eval.observeReenterNext_retains : (Eval.observeReenterNext w context).Retains strategy
    options code base m := by
  refine .noted trivial (.read ?_)
  cases outermost : m.stack.outermost? with
  | none => exact .lift ⟨retains, trivial⟩
  | some frame =>
    have frameCode := retains.hosts.stack frame (Stack.mem_of_outermost outermost)
    cases frame with
    | top action =>
      have topped : { m with stack := .empty, mode := .normal }.Retains strategy options
          code base :=
        { retains with hosts := { retains.hosts with stack := .empty } }
      exact .modify (observes context action base _ topped frameCode)
    | call frame => exact observes context _ base m retains frameCode

end

/-- The outermost frame is taken, if it is one of a call. -/
theorem Eval.takeFrame_retains (retains : m.Retains strategy options code base)
    (function : String) : (Observed.lift (Eval.takeFrame function)).Retains strategy options code
    base m := by
  have taken : { m with stack := m.stack.dropOuter }.Retains strategy options code base :=
    { retains with hosts := { retains.hosts with stack := retains.hosts.stack.dropOuter } }
  refine .lift ?_
  rw [Eval.takeFrame, Run.read_bind]
  rcases m.stack.outermost? with _ | (action | frame)
  · exact ⟨retains, trivial⟩
  · exact ⟨taken, trivial⟩
  · exact taken

end Captures

/-! ## Statements -/

section Statements

variable {strategy : Strategy} {options : RunOptions} {code : Func → Prop} {base : Store} {f : Func}
  {w : Observer} {context : Context} {l : Local}

/-- Only a loop is not executed as a whole under a label. -/
theorem Stmt.labeled_retainsIn {label : String} (notLoop : ∀ test body, s ≠ .whileS test body)
    (retains : (s.observe w context).RetainsIn strategy options code base f l)
    (reached : Stmt.Reached f.body (.labeled label s))
    (here : l.InScope strategy options code base f) :
    ((Stmt.labeled label s).observe w context).RetainsIn strategy options code base f l := by
  rw [Stmt.observe]
  · refine .noted (here.told reached) (.bind retains fun completion l₁ left => ?_)
    exact .pure (Completion.leaves_same.mpr (Completion.leaves_same.mp left))
  · exact notLoop

/-- The outermost frame is taken into the activation, which binds its locals and its parameters. -/
theorem Exec.takeFrame_retains (nests : Func.Nests code)
    (here : l.InScope strategy options code base f) : (Observed.lift Exec.takeFrame).Tells
      (Event.InScope strategy options code) l (fun _ => Local.InScope strategy options code base f)
      (fun reason l' => l'.InScope strategy options code base f ∧
          reason.OfCode (Func.Around code)) := by
  rw [Exec.takeFrame, Observed.lift_bind, Observed.lift_ofEval]
  refine .bind (Observed.Retains.ofEval here (Eval.takeFrame_retains here.machine.here _))
    fun frame l₁ here₁ => .lift ?_
  rw [Run.read_bind]
  split
  · exact ⟨here₁, trivial⟩
  · have locals : ∀ binding ∈ l₁.act.layoutLocals.zip frame.locals, l₁.act.func.Owns binding.1 :=
      fun binding mem => .inr (.inl (List.of_mem_zip mem).1)
    have formals : ∀ binding ∈ l₁.act.func.params.zip (frame.formals.getD []),
        l₁.act.func.Owns binding.1 :=
      fun binding mem => .inl (List.of_mem_zip mem).1
    have second := (here₁.declareAll nests locals).declareAll nests formals
    exact { second with act := { second.act with ownScope := fun closure mem =>
      { second.act.ownScope closure mem with } } }

theorem Stmt.restoreFrame_retains (nests : Func.Nests code)
    (reached : Stmt.Reached f.body .restoreFrame) (here : l.InScope strategy options code base f) :
    (Stmt.restoreFrame.observe w context).RetainsIn strategy options code base f l := by
  rw [Stmt.observe, Stmt.exec, Observed.lift_bind]
  have restored : (Observed.lift Exec.restoreFrame).Tells (Event.InScope strategy options code) l
      (fun _ => Local.InScope strategy options code base f)
      (fun reason l' => l'.InScope strategy options code base f ∧
          reason.OfCode (Func.Around code)) := by
    rw [Exec.restoreFrame, Observed.lift_bind]
    refine .read ?_
    split
    · exact Exec.takeFrame_retains nests here
    · exact .pure here
  exact .noted (here.told reached) (.bind restored fun _ l' here' => .pure here')

theorem Expr.observeTest_retains (observes : w.Retains strategy options code)
    (nests : Func.Nests code) (here : l.InScope strategy options code base f) {test : Expr}
    (inner : ∀ g ∈ test.functions, code g) :
    (test.observeTest w context).Tells (Event.InScope strategy options code) l
      (fun _ => Local.InScope strategy options code base f)
      (fun reason l' => l'.InScope strategy options code base f ∧
          reason.OfCode (Func.Around code)) := by
  refine Observed.Retains.ofEval here ?_
  exact .bind ((here.act.reading observes nests).expr test inner _ here.machine.here)
    fun _ _ retains => .pure retains

section

variable (observes : w.Retains strategy options code) (nests : Func.Nests code)

include observes nests

theorem Stmt.loop_retainsIn {label : Option String} {test : Expr} {body : Stmt}
    (bodies : ∀ l, Stmt.Reached f.body body → l.InScope strategy options code base f →
      (body.observe w context).RetainsIn strategy options code base f l)
    (reached : Stmt.Reached f.body (.whileS test body))
    (here : l.InScope strategy options code base f) :
    (Observed.loop label (test.observeTest w context) (body.observe w context)
      w.engine.bound).RetainsIn strategy options code base f l := by
  refine .loop (fun l₁ here₁ => ?_) (fun l₁ here₁ => bodies l₁ reached.loop here₁) _ here
  exact Expr.observeTest_retains observes nests here₁ fun g mem => here₁.inner reached g
    (List.mem_append_left _ mem)

set_option linter.unusedSectionVars false in
mutual

theorem Stmt.retainsIn : (s : Stmt) → ∀ context l, Stmt.Reached f.body s →
    l.InScope strategy options code base f → (s.observe w context).RetainsIn strategy options code
    base f l
  | .block body, context, l, reached, here => by
    rw [Stmt.observe]
    refine .noted (here.told reached) ?_
    exact Stmt.observeList_retainsIn body context l (fun s met => reached.block met) here
  | .letS name init, context, l, reached, here => by
    rw [Stmt.observe]
    refine .noted (here.told reached) ?_
    refine .bind (Observed.Retains.ofEval here ((here.act.reading observes nests).option init
      (here.inner reached) _ here.machine.here)) fun value l₁ here₁ => ?_
    have bound : name ∈ Stmt.listBinds f.body := reached.binds (List.mem_singleton_self name)
    have declared : (Observed.lift (Exec.declare name value)).Tells
        (Event.InScope strategy options code) l₁ (fun _ =>
          Local.InScope strategy options code base f)
        (fun reason l' => l'.InScope strategy options code base f ∧
            reason.OfCode (Func.Around code)) :=
      .lift (here₁.declare nests bound value)
    exact .bind declared fun _ l₂ here₂ => .pure here₂
  | .assign target value, context, l, reached, here => by
    rw [Stmt.observe]
    refine .noted (here.told reached) ?_
    have inner := List.forall_mem_append.mp (here.inner reached)
    exact .bind (Observed.Retains.ofEval here ((here.act.reading observes nests).target value target
      inner.2 inner.1 _ here.machine.here)) fun _ l₁ here₁ => .pure here₁
  | .expr e, context, l, reached, here => by
    rw [Stmt.observe]
    refine .noted (here.told reached) ?_
    exact .bind (.discard (Observed.Retains.ofEval here ((here.act.reading observes nests).expr e
      (here.inner reached) _ here.machine.here))) fun _ l₁ here₁ => .pure here₁
  | .ifS test thenS elseS, context, l, reached, here => by
    rw [Stmt.observe]
    refine .noted (here.told reached) ?_
    have inner := fun g mem => here.inner reached g (List.mem_append_left _
      (List.mem_append_left _ mem))
    refine .bind (Expr.observeTest_retains observes nests here inner) fun holds l₁ here₁ => ?_
    split
    · exact Stmt.retainsIn thenS context l₁ reached.thenS here₁
    · exact Stmt.observeOption_retainsIn elseS context l₁ (fun s mem => (mem ▸ reached).elseS) here₁
  | .whileS test body, context, l, reached, here => by
    rw [Stmt.observe]
    exact .noted (here.told reached) (Stmt.loop_retainsIn observes nests
      (Stmt.retainsIn body context) reached here)
  | .labeled label body, context, l, reached, here => by
    have whole := Stmt.retainsIn body context l
    cases body with
    | whileS test body =>
      rw [Stmt.observe]
      exact .noted (here.told reached)
        (Stmt.loop_retainsIn observes nests (Stmt.retainsIn body context) reached.labeled here)
    | _ => exact Stmt.labeled_retainsIn nofun (whole reached.labeled here) reached here
  | .returnS value, context, l, reached, here => by
    rw [Stmt.observe]
    refine .noted (here.told reached) ?_
    exact .bind (Observed.Retains.ofEval here ((here.act.reading observes nests).option value
      (here.inner reached) _ here.machine.here)) fun value l₁ here₁ => .pure here₁
  | .throwS value, context, l, reached, here => by
    rw [Stmt.observe]
    refine .noted (here.told reached) ?_
    exact .bind (Observed.Retains.ofEval here ((here.act.reading observes nests).expr value
      (here.inner reached) _ here.machine.here)) fun value l₁ here₁ => .unwind ⟨here₁, trivial⟩
  | .tryS body handler final, context, l, reached, here => by
    rw [Stmt.observe]
    refine .noted (here.told reached) (.withFinal ?_ (fun l₁ here₁ => ?_) (fun l₁ => .inl)
      (fun reason l₁ ends => ends.1) (fun l₁ => id) fun reason l₁ l₂ ends here₂ => ⟨here₂, ends.2⟩)
    · refine Handler.observeOption_retainsIn handler context l
        (Stmt.retainsIn body context l reached.tried here) fun h mem => ?_
      obtain ⟨param, handlerBody⟩ := h
      subst mem
      exact ⟨reached.handlerParam, reached.handler⟩
    · exact Stmt.observeOption_retainsIn final context l₁ (fun s mem => (mem ▸ reached).final) here₁
  | .stackDec, context, l, reached, here => by
    rw [Stmt.observe]
    refine .noted (here.told reached) ?_
    have againCode : l.act.startAgain.OfCode (Func.Around code) :=
      Activation.invoke_ofCode here.act.around _ _
    refine .bind (Observed.Retains.ofEval here (Eval.observeCountCall_retains observes
      here.machine.here againCode)) fun isCutOff l₁ here₁ => .pure ?_
    exact Completion.leaves_same.mpr here₁
  | .recordOnCapture label body, context, l, reached, here => by
    rw [Stmt.observe]
    refine .noted (here.told reached) (.atPoint (.recording ?_ fun handler stack l₁ ends => ?_))
    · exact Stmt.retainsIn body _ l reached.recorded here
    · exact ⟨ends.1, ends.2.1, ends.2.2.pushOuter (ends.1.captureFrame _ label)⟩
  | .shadowFrame label body, context, l, reached, here => by
    rw [Stmt.observe]
    have dropped : ∀ l : Local, l.InScope strategy options code base f →
        Local.InScope strategy options code base f
          ⟨l.act, { l.machine with shadow := l.machine.shadow.dropInner }⟩ :=
      fun l here => here.of_hosts rfl
        { here.machine.hosts with shadow := here.machine.hosts.shadow.dropInner }
    refine .noted (here.told reached)
      (.atPoint (.shadowing ?_ (fun completion l₁ left => ?_) fun reason l₁ ends => ?_))
    · refine Stmt.retainsIn body _ _ reached.shadowed (here.of_hosts rfl ?_)
      exact { here.machine.hosts with
        shadow := here.machine.hosts.shadow.pushInner (here.captureFrame _ label) }
    · exact Completion.leaves_same.mpr (dropped l₁ (Completion.leaves_same.mp left))
    · exact ⟨dropped l₁ ends.1, ends.2⟩
  | .decl g, context, l, reached, here => by
    rw [Stmt.observe]
    have bound : ∀ name ∈ g.name, name ∈ Stmt.listBinds f.body := fun name named =>
      reached.binds ((Stmt.declared_in (.decl g) g (List.mem_singleton_self g)).2 name named)
    exact .noted (here.told reached) (.lift
      (here.declareFunc nests (reached.functions (List.mem_singleton_self g)) bound))
  | .restoreFrame, context, l, reached, here => Stmt.restoreFrame_retains nests reached here
  | .breakS _, context, l, reached, here | .continueS _, context, l, reached, here => by
    rw [Stmt.observe]
    exact .noted (here.told reached) (.lift here)
  | .stackInc, context, l, reached, here => by
    rw [Stmt.observe]
    exact .noted (here.told reached) (.lift (here.of_hosts rfl { here.machine.hosts with }))
  | .returnIfCapturing label, context, l, reached, here => by
    rw [Stmt.observe, Stmt.exec]
    refine .noted (here.told reached) (.lift ?_)
    rw [Exec.returnIfCapturing, Run.read_bind]
    split
    · exact here.of_hosts rfl { here.machine.hosts with
        stack := here.machine.hosts.stack.pushOuter (here.captureFrame _ label) }
    · exact here
  | .rethrowSignal _, context, l, reached, here => by
    rw [Stmt.observe, Stmt.exec]
    refine .noted (here.told reached) (.lift ?_)
    rw [Exec.rethrow, Run.read_bind]
    cases caught : l.act.caught with
    | none => exact here
    | some signal => exact ⟨here.of_caught fun _ mem => (nomatch mem), here.caught signal caught⟩

theorem Stmt.observeList_retainsIn :
    (body : List Stmt) → ∀ context l, (∀ s : Stmt, s.Met body → Stmt.Reached f.body s) →
      l.InScope strategy options code base f →
      (Stmt.observeList w context body).RetainsIn strategy options code base f l
  | [], _, _, _, here => .pure here
  | s :: rest, context, l, reached, here => by
    rw [Stmt.observeList]
    have first := Stmt.retainsIn s context l (reached s .head) here
    refine .bind first.known fun completion l₁ left => ?_
    cases completion with
    | normal =>
      have goesOn : s.returns = false := by
        rw [Stmt.erase_observe] at left
        exact Bool.eq_false_iff.mpr fun returns => Stmt.exec_of_returns s returns l l₁ left.2
      exact Stmt.observeList_retainsIn rest context l₁
        (fun s met => reached s (.tail goesOn met)) left.1
    | _ => exact .pure left.1

theorem Stmt.observeOption_retainsIn :
    (o : Option Stmt) → ∀ context l, (∀ s, o = some s → Stmt.Reached f.body s) →
      l.InScope strategy options code base f →
      (Stmt.observeOption w context o).RetainsIn strategy options code base f l
  | none, _, _, _, here => .pure here
  | some s, context, l, reached, here => Stmt.retainsIn s context l (reached s rfl) here

theorem Handler.observeOption_retainsIn :
    (o : Option Handler) → ∀ context l {body : Observed Local Completion},
      body.RetainsIn strategy options code base f l →
      (∀ h, o = some h → h.param ∈ Stmt.listBinds f.body ∧ Stmt.Reached f.body h.body) →
      (Handler.observeOption w context body o).RetainsIn strategy options code base f l
  | none, _, _, _, bodyRetains, _ => bodyRetains
  | some ⟨_, handler⟩, context, _, _, bodyRetains, reached =>
    .handle nests bodyRetains (reached _ rfl).1 fun l₁ here₁ =>
      Stmt.retainsIn handler context l₁ (reached _ rfl).2 here₁

end

end

end Statements

/-! ## Calls -/

section Calls

variable {strategy : Strategy} {options : RunOptions} {code : Func → Prop} {base : Store}
  {w : Observer} {context : Context} {m : Machine}

section

variable (observes : w.Retains strategy options code) (nests : Func.Nests code)

include observes nests

/-- A body in a new activation. -/
theorem Eval.observeBody_retains {act : Activation}
    (here : Local.InScope strategy options code base act.func ⟨act, m⟩) :
    (Eval.observeBody w context act act.func.body).Retains strategy options code base m := by
  have walked := Stmt.observeList_retainsIn observes nests act.func.body context ⟨act, m⟩
    (fun _ met => .outer met) here
  refine .noted trivial (.inActivation (walked.weaken (fun completion l left => left)
    fun _ _ ends => ⟨ends.1.machine, ends.2⟩) fun completion l left => ?_)
  have kept := (Completion.leaves_same.mp left).machine
  cases completion with
  | normal | «return» value => exact kept
  | «break» label | «continue» label => exact ⟨kept, trivial⟩

/-- A closure is entered.  One that does not exist has no code. -/
theorem Eval.observeEnter_retains (retains : m.Retains strategy options code base)
    (closure : ClosureId) (this : Value) (args : List Value) (newTarget : Value) :
    (Eval.observeEnter w context closure this args newTarget).Retains strategy options code
    base m := by
  refine .read ?_
  rcases m.store.closure_cases retains.stocks.closures closure with ⟨coded, known⟩ | empty
  · have retained := m.store.enterScope_retained (nests.inner _ coded)
      (m.store.closure closure).env args
    let act : Activation :=
      { scope := ⟨m.store.scopes.size⟩, this, func := (m.store.closure closure).func,
        callee := some closure, args, argCount := args.length, newTarget }
    have ownScope : act.OwnScope code closure (m.store.enterScope act.func
        (m.store.closure closure).env args).2 :=
      Store.enterScope_ownScope nests retains.stocks.rooted known rfl coded args rfl
    refine .changeStore (Eval.observeBody_retains observes nests ?_)
    exact {
      machine := retains.of_store nests retained
      act := {
        around := nests.inner _ coded
        global := nofun
        ownScope := fun other same => Option.some.inj same ▸ ownScope }
      func := rfl
      outside := .inl retains.retained.size
      caught := fun _ mem => nomatch mem }
  · have around : (m.store.closure closure).func.Around code := by
      rw [Func.Around, empty]
      exact fun _ mem => nomatch mem
    have retained := m.store.enterScope_retained around (m.store.closure closure).env args
    have nothing : ∀ act m', (Observed.inActivation act
        (Stmt.observeList w context (m.store.closure closure).func.body)) m' = (.ok .undefined m',
        []) := by
      rw [empty]
      exact fun _ _ => rfl
    exact .changeStore
      (.noted trivial (.of_eq (nothing _ _) (fun _ mem => (nomatch mem))
        (retains.of_store nests retained)))

theorem Eval.observeTop_retains (retains : m.Retains strategy options code base) {top : Func}
    (around : top.Around code) : (Eval.observeTop w context top).Retains strategy options code
    base m := by
  have retained := (Store.Retained.refl m.store).hoist (.inr rfl) around
  refine .modify (Eval.observeBody_retains observes nests ?_)
  exact {
    machine := retains.of_store nests retained
    act := { around, global := fun _ => rfl, ownScope := fun _ mem => nomatch mem }
    func := rfl
    outside := .inr rfl
    caught := fun _ mem => nomatch mem }

theorem Eval.observeCall_retains (retains : m.Retains strategy options code base)
    (func this : Value) (args : List Value) : (Eval.observeCall w context func this args).Retains
    strategy options code base m := by
  refine Eval.observeCall_cases (·.Retains strategy options code base m) (fun still =>
    still.retains retains nests) (fun id => Eval.observeEnter_retains observes nests retains id
      this args _)
    (fun _ => Eval.observeCapture_retains observes retains trivial) ?_ (.unwind ⟨retains, trivial⟩)
    fun id => .lift ⟨retains, (retains.hosts.continuation id).pushInner trivial⟩
  show (Observed.lift (Eval.displayList w.engine.bound args >>= _)).Retains strategy options
    code base m
  rw [Observed.lift_bind]
  refine .bind ((Eval.still.displayList args).retains retains nests) fun line m₁ retains₁ => ?_
  exact .lift (show Machine.Retains strategy options code base _ from
    { retains₁ with hosts := { retains₁.hosts with } })

end

/-! ## Constructions -/

theorem Eval.observeConstruct_retains (observes : w.Retains strategy options code)
    (nests : Func.Nests code) (retains : m.Retains strategy options code base) (callee : Value)
    (args : List Value) :
    (Eval.observeConstruct w context callee args).Retains strategy options code base m := by
  refine Eval.observeConstruct_cases (·.Retains strategy options code base m) (fun still =>
    still.retains retains nests) fun id => ?_
  refine .bind ((Eval.makeInstance_still id).retains retains nests) fun this m₁ retains₁ => ?_
  exact .bind (Eval.observeEnter_retains observes nests retains₁ id this args _)
    fun _ m₂ retains₂ => .pure retains₂

theorem Eval.takeInstance_retains (retains : m.Retains strategy options code base)
    (function : String) : (Observed.lift (Eval.takeInstance function)).Retains strategy options code
    base m := by
  rw [Eval.takeInstance, Observed.lift_bind]
  refine .bind (Eval.takeFrame_retains retains function) fun frame m₁ retains₁ => .lift ?_
  rcases frame.locals with _ | ⟨this, _ | ⟨other, rest⟩⟩
  · exact ⟨retains₁, trivial⟩
  · exact retains₁
  · exact ⟨retains₁, trivial⟩

/-- A construction with a frame of its own. -/
theorem Eval.observeFramed_retains (observes : w.Retains strategy options
    code) (nests : Func.Nests code) (retains : m.Retains strategy options code base)
    (closure : ClosureId) (args : List Value) :
    (Eval.observeFramed w context closure args).Retains strategy options code base m := by
  have shadows : Machine.Shadows (Func.Around code) (Machine.Retains strategy options code base) :=
    ⟨fun _ retains => retains.hosts.shadow, fun _ _ retains shadow =>
      { retains with hosts := { retains.hosts with shadow } }⟩
  refine Eval.observeFramed_tells (fun _ => id) (fun m frame retains frameCode =>
    ?_) shadows shadows trivial (fun function => ?_) fun context this m₁ retains₁ => ?_
  · exact { retains with hosts :=
      { retains.hosts with stack := retains.hosts.stack.pushOuter frameCode } }
  · split
    · exact Eval.takeInstance_retains retains function
    · exact (Eval.makeInstance_still closure).retains retains nests
  · split
    · exact Eval.observeReenterNext_retains observes retains₁
    · exact Eval.observeEnter_retains observes nests retains₁ closure this args _

theorem Eval.observeNew_retains (observes : w.Retains strategy options code)
    (nests : Func.Nests code) (retains : m.Retains strategy options code base) (callee : Value)
    (args : List Value) :
    (Eval.observeNew w context callee args).Retains strategy options code base m := by
  cases callee with
  | closure id =>
    refine .read ?_
    split
    · exact Eval.observeConstruct_retains observes nests retains _ args
    · exact Eval.observeFramed_retains observes nests retains id args
  | _ =>
    rw [Eval.observeNew]
    · exact Eval.observeConstruct_retains observes nests retains _ args
    · simp

end Calls

/-! ## Actions and turns -/

section Actions

variable {strategy : Strategy} {options : RunOptions} {code : Func → Prop} {base : Store}
  {w : Observer} {m : Machine}

theorem Action.observe_retains (observes : w.Retains strategy options code)
    (nests : Func.Nests code) (context : Context) (retains : m.Retains strategy options code base)
    {action : Action}
    (actionCode : action.OfCode (Func.Around code)) :
    (action.observe w context).Retains strategy options code base m := by
  refine .noted trivial ?_
  cases action with
  | value v => exact .pure retains
  | throw v => exact .unwind ⟨retains, trivial⟩
  | call func this args => exact Eval.observeCall_retains observes nests retains func this args
  | enter closure this args newTarget =>
    exact Eval.observeEnter_retains observes nests retains closure this args newTarget
  | enterTop top => exact Eval.observeTop_retains observes nests retains actionCode
  | construct callee args => exact Eval.observeConstruct_retains observes nests retains callee args
  | handleNew callee args => exact Eval.observeNew_retains observes nests retains callee args
  | safePoint => exact Eval.observeSafePoint_retains observes retains
  | reenterNext => exact Eval.observeReenterNext_retains observes retains
  | sequence actions => exact actionCode.elim

/-- Whatever is begun within a bound retains what is in earlier stores. -/
theorem observer_retains (nests : Func.Nests code) (bound depth : Nat) :
    (observer bound depth).1.Retains strategy options code := by
  induction depth with
  | zero => exact fun _ _ _ _ _ _ => .lift trivial
  | succ depth ih =>
    exact fun context action base m retains actionCode => Action.observe_retains ih nests context
      retains actionCode

theorem Eval.observeStart_retains (observes : w.Retains strategy options code)
    (retains : m.Retains strategy options code base) {next : Next}
    (nextCode : next.OfCode (Func.Around code)) :
    (Eval.observeStart w next).Retains strategy options code base m := by
  have begun : { m with remaining := m.options.stackSize.map Int.ofNat }.Retains strategy options
      code base :=
    { retains with hosts := { retains.hosts with } }
  refine .modify ?_
  cases next with
  | run action =>
    refine .modify (observes [] action base _ ?_ nextCode)
    exact { begun with hosts := { begun.hosts with stack := .empty, shadow := .empty } }
  | restore stack =>
    simp only
    split
    · exact .lift ⟨begun, trivial⟩
    · refine .modify (Eval.observeReenterNext_retains observes ?_)
      exact begun.of_hosts Machine.install_store (begun.hosts.install nextCode)

end Actions

/-! ## Sessions -/

section Sessions

variable {strategy : Strategy} {options : RunOptions} {code : Func → Prop}
  {accepts : Program → Prop} {m m' : Machine} {next : Next}

theorem Store.Stocks.lasting : Store.Lasting (Store.Stocks code) where
  initial := by
    have hosts : (Machine.new .lazy {}).Hosts .lazy {} code := Machine.new_hosts
    exact ⟨hosts.closures, show 0 < Machine.initialStore.scopes.size by decide⟩
  continuations _ _ stocks := ⟨stocks.closures, stocks.rooted⟩
  globals s name value stocks := by
    refine ⟨stocks.closures, ?_⟩
    rw [Store.scopes_declare_size]
    exact stocks.rooted

/-- All that is told in a turn is told by activations that are in scope. -/
theorem Machine.observed_retains (nests : Func.Nests code)
    (hosts : m.Hosts strategy options (Func.Around code)) (stocks : m.store.Stocks code)
    (nextCode : next.OfCode (Func.Around code)) (bound : Nat) :
    (Machine.observed bound next).Retains strategy options code m.store m :=
  Eval.observeStart_retains (observer_retains nests bound bound) ⟨hosts, stocks, .refl _⟩ nextCode

theorem Machine.turnsWithin_stocks (nests : Func.Nests code) :
    Machine.TurnsWithin strategy options (Func.Around code) (Store.Stocks code) := by
  intro bound m next hosts stocks nextCode
  have ends := (Machine.observed_retains nests hosts stocks nextCode bound).ends
  rw [Machine.erase_observed] at ends
  exact ends.weaken (fun _ _ retains => ⟨retains.hosts, retains.stocks⟩) fun _ _ both =>
    ⟨⟨both.1.hosts, both.1.stocks⟩, both.2⟩

/-- Whatever begins in a slice of a session is begun by activations that are in scope. -/
theorem Machine.ReachesOf.inScope (nests : Func.Nests code)
    (yields : Program.Yields accepts strategy (Func.Around code))
    (session : SessionOf accepts strategy options m)
    (reaches : m.ReachesOf accepts next m') (bound : Nat) :
    ∀ event ∈ m'.chronicle bound next, event.InScope strategy options code := by
  have within : Machine.TurnsWithin strategy options (Func.Around code) (Store.Stocks code) :=
    Machine.turnsWithin_stocks nests
  have start := session.hosts yields within Store.Stocks.lasting
  obtain ⟨⟨hosts, stocks⟩, nextCode⟩ := reaches.hosts yields within Store.Stocks.lasting start
  exact (Machine.observed_retains nests hosts stocks nextCode bound).told

end Sessions

end Resumable
