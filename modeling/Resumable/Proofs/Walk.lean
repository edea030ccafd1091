import Resumable.Proofs.Course
import Resumable.Proofs.Reading

/-!
A walk through the interpreter.

`Walk` are the rules that a property of computations has to obey: one for each way in which the
interpreter puts computations together, and one for each of its operations that look at how another
computation ended.  A property that obeys them holds of everything a machine can be asked to do
(`Walk.observer`), whatever the code.  `Observed.Follows` is one of them, so that every turn takes
the machine along a course.
-/

namespace Resumable

variable {bound : Nat} {m : Machine}

/-! ## Rules -/

/-- A property of computations, each in its seat, is kept by all that the interpreter does within a
bound. -/
structure Walk (bound : Nat) (holds : {σ α : Type} → Seat σ → Observed σ α → Prop) : Prop where
  lift {σ α : Type} {seat : Seat σ} {x : Run σ α} : x.Leads seat → holds seat (.lift x)
  bind {σ α β : Type} {seat : Seat σ} {x : Observed σ α} {f : α → Observed σ β} : holds seat x →
    (∀ a, holds seat (f a)) → holds seat (x >>= f)
  /-- Something is told, but neither an action nor a capture. -/
  noted {σ α : Type} {seat : Seat σ} {x : Observed σ α} {event : σ → Event} :
    (∀ s, (event s).machine = seat.machine s ∧ (event s).isPlain = true ∧
      (event s).scope?.getD (seat.home s) = seat.home s ∧ (event s).isAction = false) →
      holds seat x →
    holds seat (Observed.note event >>= fun _ => x)
  moved {α β : Type} {home : ScopeId} {place : α → ScopeId} {x : Eval α} {f : α →
    Observed Machine β} : x.Leads (.outside home) → x.Places place →
    (∀ a, holds (.outside (place a)) (f a)) →
    holds (.outside home) (Observed.lift x >>= f)
  ofEval {α : Type} {x : Activation → Observed Machine α} :
    (∀ act, holds (.outside act.scope) (x act)) → holds .inside (.ofEval x)
  atPoint {context : Context} {label : Nat} {body : Context → Observed Local Completion} :
    (∀ context, holds .inside (body context)) → holds .inside (.atPoint context label body)
  inActivation {x : Observed Local Completion} (act : Activation) : holds .inside x →
    holds (.outside act.scope) (.inActivation act x)
  attempt {depth : Nat} {context : Context} {body : Stmt} {handler : Option Handler}
    {final : Option Stmt} : holds .inside (body.observe (observer bound depth).1 context) →
    (∀ h ∈ handler, holds .inside (h.body.observe (observer bound depth).1 context)) →
    holds .inside (Stmt.observeOption (observer bound depth).1 context final) →
    holds .inside ((Stmt.tryS body handler final).observe (observer bound depth).1 context)
  recording {label : Nat} {body : Observed Local Completion} : holds .inside body →
    holds .inside (.recording label body)
  shadowing {label : Nat} {body : Observed Local Completion} : holds .inside body →
    holds .inside (.shadowing label body)
  framed {home : ScopeId} {x : Observed Machine Value} (strategy : Strategy) (frame : Frame)
    (this : Value) : holds (.outside home) x → holds (.outside home) (do
      Observed.lift (Eval.changeKept strategy (·.pushInner frame))
      let result ← x.attempt
      Observed.lift (Eval.changeKept strategy (·.dropInner))
      Observed.lift (Eval.settleFramed strategy frame this result))
  capture {home : ScopeId} {w : Observer} {context : Context} {handler : CaptureHandler} :
    (∀ context action, holds (.outside home) (w.perform context action)) → handler ≠ .yield →
    holds (.outside home) (Eval.observeCapture w context handler)
  /-- An action is told. -/
  action {home : ScopeId} {action : Action} {x : Observed Machine Value} {depth : Nat} :
    action ≠ .safePoint → (∀ m, x.erase m = perform bound depth action m) →
    holds (.outside home) x →
    holds (.outside home) (Observed.note (.action action) >>= fun _ => x)
  safePoint {home : ScopeId} {depth : Nat} {context : Context} :
    holds (.outside home)
      (Observed.note (.action .safePoint) >>= fun _ =>
        Eval.observeSafePoint (observer bound depth).1 context)

/-- Whatever is begun outside of an activation has the property. -/
structure Observer.Walks (bound : Nat) (holds : {σ α : Type} → Seat σ → Observed σ α → Prop)
    (w : Observer) : Prop where
  observes : ∃ depth, w = (observer bound depth).1
  perform : ∀ home context action, holds (.outside home) (w.perform context action)

namespace Walk

variable {bound : Nat} {holds : {σ α : Type} → Seat σ → Observed σ α → Prop}
  (walk : Walk bound holds) {w : Observer} {σ α β : Type} {seat : Seat σ} {home : ScopeId}
  {context : Context} {act : Activation}

include walk

theorem pure (a : α) : holds seat (Pure.pure a) :=
  walk.lift (.pure a)

theorem read (f : σ → α) : holds seat (Observed.lift (Run.read f)) :=
  walk.lift (.read f)

theorem unwind {reason : Unwind} (moving : reason ≠ .fault .stalled) :
    holds seat (Observed.lift (Run.unwind reason) : Observed σ α) :=
  walk.lift (.unwind moving)

theorem still {x : Eval α} (still : x.Still) : holds (.outside home) (Observed.lift x) :=
  walk.lift (.still still)

theorem liftBind {x : Run σ α} {f : α → Run σ β} (first : holds seat (Observed.lift x))
    (second : ∀ a, holds seat (Observed.lift (f a))) : holds seat (Observed.lift (x >>= f)) := by
  rw [Observed.lift_bind]
  exact walk.bind first second

theorem discard {x : Observed σ α} (first : holds seat x) : holds seat (Functor.discard x) :=
  walk.bind first fun _ => walk.pure ()

/-- A check before what follows. -/
theorem check {p : Prop} [Decidable p] {fault : Fault} {x : Run σ α} (moving : fault ≠ .stalled)
    (rest : holds seat (Observed.lift x)) :
    holds seat (Observed.lift (if p then Run.fault fault >>= fun (_ : Unit) => x else x)) := by
  split
  · exact walk.liftBind (walk.unwind fun same => moving (Unwind.fault.inj same)) fun _ => rest
  · exact rest

omit walk in
theorem ite {p : Prop} [Decidable p] {x y : Observed σ α} (yes : holds seat x) (no : holds seat y) :
    holds seat (if p then x else y) := by
  split
  · exact yes
  · exact no

/-! ## Expressions -/

section

variable (walks : w.Walks bound holds)

include walks

/-- Expressions ask nothing of the code in them. -/
theorem reading :
    Reading (fun _ => True) w context act fun {_} x => holds (.outside act.scope) x where
  bind := walk.bind
  still := walk.still
  noted _ rest := walk.noted (fun _ => ⟨rfl, rfl, rfl, rfl⟩) rest
  closure _ := walk.lift (.changeStore fun s => .newClosure s _)
  assign _ _ := walk.lift (.modifyStore fun s => .declare s _ _ _)
  perform _ := walks.perform _ context _

theorem expr (e : Expr) : holds (.outside act.scope) (e.observe w context act) :=
  (walk.reading walks).expr e fun _ _ => trivial

theorem exprOption (value : Option Expr) : holds (.outside act.scope)
    (Expr.observeOption w context act value) :=
  (walk.reading walks).option value fun _ _ => trivial

theorem test (e : Expr) : holds .inside (e.observeTest w context) :=
  walk.ofEval fun _ => walk.bind (walk.expr walks e) fun _ => walk.pure _

theorem target (value : Expr) (target : Target) : holds (.outside act.scope)
    (target.observe w context value act) :=
  (walk.reading walks).target value target (fun _ _ => trivial) fun _ _ => trivial

/-! ## Frames -/

theorem countCall (again : Action) : holds (.outside home)
    (Eval.observeCountCall w context again) := by
  refine walk.bind (walk.read _) fun remaining => ?_
  cases remaining with
  | none => exact walk.pure _
  | some remaining =>
    refine walk.bind (walk.lift (.modify fun m => .of_store (.count m _) rfl)) fun _ => ?_
    refine walk.bind (walk.read _) fun strategy => walk.bind (walk.read _) fun mode =>
      ite (walk.pure _) ?_
    exact walk.bind (walk.discard (walk.capture (walks.perform home) nofun)) fun _ => walk.pure _

theorem reenterNext : holds (.outside home) (Eval.observeReenterNext w context) := by
  refine walk.noted (fun _ => ⟨rfl, rfl, rfl, rfl⟩) (walk.bind (walk.read _) fun outermost => ?_)
  cases outermost with
  | none => exact walk.unwind nofun
  | some frame =>
    cases frame with
    | top action =>
      exact walk.bind (walk.lift (.modify fun m => .of_store (.top m) rfl)) fun _ =>
        walks.perform home context action
    | call frame => exact walks.perform home context frame.resume

end

theorem takeFrame (function : String) : holds (.outside home)
    (Observed.lift (Eval.takeFrame function)) := by
  refine walk.liftBind (walk.read _) fun outermost => ?_
  cases outermost with
  | none => exact walk.unwind nofun
  | some frame =>
    refine walk.liftBind (walk.lift (.modify fun m => .of_store (.stack m _) rfl)) fun _ => ?_
    cases frame with
    | top action => exact walk.unwind nofun
    | call frame => exact walk.pure _

/-! ## Statements -/

theorem modifyAct {f : Activation → Activation} (same : ∀ act, (f act).scope = act.scope) :
    holds .inside (Observed.lift (Exec.modifyAct f)) :=
  walk.lift (.modify fun l => ⟨.refl l.machine, same l.act, .refl _⟩)

/-- A change of the machine within an activation. -/
theorem quietIn {x : Activation → Eval α} (leads : ∀ act, (x act).Leads (.outside act.scope)) :
    holds .inside (Observed.lift (Exec.ofEval x)) := by
  rw [Observed.lift_ofEval]
  exact walk.ofEval fun act => walk.lift (leads act)

theorem loop {label : Option String} {test : Observed Local Bool} {body : Observed Local Completion}
    (testHolds : holds .inside test) (bodyHolds : holds .inside body) (turns : Nat) :
    holds .inside (Observed.loop label test body turns) := by
  induction turns with
  | zero => exact walk.lift fun _ => trivial
  | succ turns ih =>
    refine walk.bind testHolds fun tested => ite (walk.bind bodyHolds fun completion => ?_)
      (walk.pure _)
    cases completion with
    | normal => exact ih
    | «continue» target => exact ite ih (walk.pure _)
    | «break» target => exact walk.pure _
    | «return» value => exact walk.pure _

theorem rethrow : holds .inside (Observed.lift Exec.rethrow) := by
  refine walk.liftBind (walk.read _) fun caught => ?_
  cases caught with
  | none => exact walk.pure _
  | some signal => exact walk.liftBind (walk.modifyAct fun _ => rfl) fun _ => walk.unwind nofun

theorem returnIfCapturing (label : Nat) : holds .inside
    (Observed.lift (Exec.returnIfCapturing label)) := by
  refine walk.liftBind (walk.read _) fun capturing => ?_
  cases capturing with
  | false => exact walk.pure _
  | true =>
    refine walk.liftBind (walk.read _) fun frame => walk.liftBind ?_ fun _ => walk.pure _
    exact walk.quietIn fun _ => .modify fun m => .of_store (.stack m _) rfl

theorem restoreFrame : holds .inside (Observed.lift Exec.restoreFrame) := by
  refine walk.liftBind (walk.read _) fun mode => ?_
  split
  · refine walk.liftBind ?_ fun frame => walk.liftBind (walk.read _) fun act => ?_
    · rw [Observed.lift_ofEval]
      exact walk.ofEval fun act => walk.takeFrame _
    exact walk.check nofun (walk.liftBind (walk.quietIn fun act => .modifyStore fun s =>
      (Store.Orderly.declareAll s _ _).trans (.declareAll _ _ _)) fun _ => walk.modifyAct
        fun _ => rfl)
  · exact walk.pure _

theorem toldIn {s : Stmt} {x : Observed Local Completion} (rest : holds .inside x) :
    holds .inside (Observed.note (.stmt s) >>= fun _ => x) :=
  walk.noted (fun _ => ⟨rfl, rfl, rfl, rfl⟩) rest

/-- Only a loop is not executed as a whole under a label. -/
theorem labeled {s : Stmt} {label : String} (notLoop : ∀ test body, s ≠ .whileS test body)
    (rest : holds .inside (s.observe w context)) :
    holds .inside ((Stmt.labeled label s).observe w context) := by
  rw [Stmt.observe]
  · exact walk.toldIn (walk.bind rest fun _ => walk.pure _)
  · exact notLoop

theorem tryS (walks : w.Walks bound holds) {body : Stmt} {handler : Option Handler}
    {final : Option Stmt} (bodyHolds : holds .inside (body.observe w context))
    (handlerHolds : ∀ h ∈ handler, holds .inside (h.body.observe w context))
    (finalHolds : holds .inside (Stmt.observeOption w context final)) :
    holds .inside ((Stmt.tryS body handler final).observe w context) := by
  obtain ⟨depth, rfl⟩ := walks.observes
  exact walk.attempt bodyHolds handlerHolds finalHolds

mutual

theorem runs (walks : w.Walks bound holds) : (s : Stmt) → (context : Context) →
    holds .inside (s.observe w context)
  | .block body, context => by
    rw [Stmt.observe]
    exact walk.toldIn (list walks body context)
  | .letS name init, context => by
    rw [Stmt.observe]
    exact walk.toldIn (walk.bind (walk.ofEval fun _ => walk.exprOption walks init) fun value =>
      walk.bind (walk.quietIn fun act => .modifyStore fun s => .declare s act.scope name value)
        fun _ => walk.pure _)
  | .assign target value, context => by
    rw [Stmt.observe]
    exact walk.toldIn (walk.bind (walk.ofEval fun _ => walk.target walks value target) fun _ =>
      walk.pure _)
  | .expr e, context => by
    rw [Stmt.observe]
    exact walk.toldIn (walk.bind (walk.discard (walk.ofEval fun _ => walk.expr walks e)) fun _ =>
      walk.pure _)
  | .ifS test thenS elseS, context => by
    rw [Stmt.observe]
    exact walk.toldIn (walk.bind (walk.test walks test) fun _ =>
      ite (runs walks thenS context) (option walks elseS context))
  | .whileS test body, context => by
    rw [Stmt.observe]
    exact walk.toldIn (walk.loop (walk.test walks test) (runs walks body context) _)
  | .labeled label body, context => by
    have whole := runs walks body context
    cases body with
    | whileS test body =>
      rw [Stmt.observe]
      exact walk.toldIn (walk.loop (walk.test walks test) (runs walks body context) _)
    | _ => exact walk.labeled nofun whole
  | .returnS value, context => by
    rw [Stmt.observe]
    exact walk.toldIn (walk.bind (walk.ofEval fun _ => walk.exprOption walks value) fun _ =>
      walk.pure _)
  | .throwS value, context => by
    rw [Stmt.observe]
    exact walk.toldIn (walk.bind (walk.ofEval fun _ => walk.expr walks value) fun _ =>
      walk.unwind nofun)
  | .tryS body none final, context =>
    walk.tryS walks (runs walks body context) (fun _ mem => nomatch mem)
    (option walks final context)
  | .tryS body (some ⟨_, handler⟩) final, context =>
    walk.tryS walks (runs walks body context) (fun _ mem =>
      Option.some.inj mem ▸ (runs walks handler context)) (option walks final context)
  | .stackDec, context => by
    rw [Stmt.observe]
    exact walk.toldIn (walk.bind (walk.ofEval fun _ => walk.countCall walks _) fun _ => walk.pure _)
  | .recordOnCapture label body, context => by
    rw [Stmt.observe]
    exact walk.toldIn (walk.atPoint fun context => walk.recording (runs walks body context))
  | .shadowFrame label body, context => by
    rw [Stmt.observe]
    exact walk.toldIn (walk.atPoint fun context => walk.shadowing (runs walks body context))
  | .breakS _, context | .continueS _, context => by
    rw [Stmt.observe]
    exact walk.toldIn (walk.pure _)
  | .decl f, context => by
    rw [Stmt.observe]
    exact walk.toldIn (walk.liftBind (walk.quietIn fun act => .modifyStore fun s =>
      .declareFunc s f) fun _ => walk.pure _)
  | .restoreFrame, context => by
    rw [Stmt.observe]
    exact walk.toldIn (walk.liftBind walk.restoreFrame fun _ => walk.pure _)
  | .stackInc, context => by
    rw [Stmt.observe]
    exact walk.toldIn (walk.liftBind (walk.quietIn fun _ => .modify fun m =>
      .of_store (.count m _) rfl) fun _ => walk.pure _)
  | .returnIfCapturing label, context => by
    rw [Stmt.observe]
    exact walk.toldIn (walk.returnIfCapturing label)
  | .rethrowSignal _, context => by
    rw [Stmt.observe]
    exact walk.toldIn walk.rethrow

theorem list (walks : w.Walks bound holds) : (body : List Stmt) → (context : Context) →
    holds .inside (Stmt.observeList w context body)
  | [], _ => walk.pure _
  | s :: rest, context => by
    rw [Stmt.observeList]
    refine walk.bind (runs walks s context) fun completion => ?_
    cases completion with
    | normal => exact list walks rest context
    | _ => exact walk.pure _

theorem option (walks : w.Walks bound holds) : (o : Option Stmt) → (context : Context) →
    holds .inside (Stmt.observeOption w context o)
  | none, _ => walk.pure _
  | some s, context => runs walks s context

end

/-! ## Actions -/

section

variable (walks : w.Walks bound holds)

include walks

theorem body (act : Activation) (body : List Stmt) :
    holds (.outside act.scope) (Eval.observeBody w context act body) :=
  walk.noted (fun _ => ⟨rfl, rfl, rfl, rfl⟩) (walk.inActivation act (walk.list walks body context))

/-- A closure is entered, in a new scope. -/
theorem enter (closure : ClosureId) (this : Value) (args : List Value) (newTarget : Value) :
    holds (.outside home) (Eval.observeEnter w context closure this args newTarget) := by
  let opened : Eval (Closure × ScopeId) := fun m =>
    let code := m.store.closure closure
    .ok (code, (m.store.enterScope code.func code.env args).1)
      { m with store := (m.store.enterScope code.func code.env args).2 }
  have leads : opened.Leads (.outside home) := fun m =>
    have orderly := Store.Orderly.enterScope m.store closure args
    ⟨.store orderly.toCalm, rfl, orderly⟩
  have places : opened.Places Prod.snd := fun {m _ _} _ ran => by
    cases ran
    exact Store.Orderly.enterScope_known m.store _ _ args
  let act (entered : Closure × ScopeId) : Activation :=
    { scope := entered.2, this, func := entered.1.func, callee := some closure, args,
      argCount := args.length, newTarget }
  have entered : holds (.outside home)
      (Observed.lift opened >>= fun entered => Eval.observeBody w context
        (act entered) entered.1.func.body) :=
    walk.moved leads places fun entered => walk.body walks (act entered) entered.1.func.body
  exact entered

theorem top (top : Func) : holds (.outside home) (Eval.observeTop w context top) := by
  have orderly : ∀ s : Store, s.Orderly Store.globals (s.hoist Store.globals top.body) := fun s =>
    .hoist s top.body
  have places : (Eval.modifyStore fun s => s.hoist Store.globals top.body).Places fun _ =>
      Store.globals :=
    fun {m _ _} linked ran => by
      cases ran
      exact Nat.lt_of_lt_of_le linked.globals (orderly m.store).size
  let act : Activation := { scope := Store.globals, func := top }
  exact walk.moved (.modifyGlobals orderly) places fun _ => walk.body walks act top.body

theorem call (func this : Value) (args : List Value) :
    holds (.outside home) (Eval.observeCall w context func this args) := by
  refine Eval.observeCall_cases (holds (.outside home)) walk.still (fun _ =>
    walk.enter walks _ _ _ _) (fun _ => walk.capture (walks.perform home) nofun) ?_
      (walk.unwind nofun) fun _ => walk.liftBind (walk.read _) fun _ => walk.unwind nofun
  refine walk.liftBind (walk.still (Eval.still.displayList args)) fun line => ?_
  exact walk.liftBind (walk.lift (.modify fun m => .of_store (.print m _) rfl)) fun _ => walk.pure _

theorem construct (callee : Value) (args : List Value) :
    holds (.outside home) (Eval.observeConstruct w context callee args) := by
  refine Eval.observeConstruct_cases (holds (.outside home)) walk.still fun id => ?_
  refine walk.bind (walk.still (Eval.makeInstance_still id)) fun this => ?_
  exact walk.bind (walk.enter walks _ _ _ _) fun _ => walk.pure _

end

theorem takeInstance (function : String) : holds (.outside home)
    (Observed.lift (Eval.takeInstance function)) := by
  refine walk.liftBind (walk.takeFrame function) fun frame => ?_
  rcases frame.locals with _ | ⟨this, _ | ⟨other, rest⟩⟩
  · exact walk.unwind nofun
  · exact walk.pure _
  · exact walk.unwind nofun

theorem construction (walks : w.Walks bound holds) (closure : ClosureId) (args : List Value) :
    holds (.outside home) (Eval.observeFramed w context closure args) := by
  refine walk.noted (fun _ => ⟨rfl, rfl, rfl, rfl⟩) (walk.bind (walk.read _) fun name =>
    walk.bind (walk.read _) fun mode => ?_)
  refine walk.bind ?_ fun this => walk.bind (walk.read _) fun strategy =>
    walk.framed strategy _ _ ?_
  · split
    · exact walk.takeInstance _
    · exact walk.still (Eval.makeInstance_still closure)
  · exact ite (walk.reenterNext walks) (walk.enter walks _ _ _ _)

theorem new (walks : w.Walks bound holds) (callee : Value) (args : List Value) :
    holds (.outside home) (Eval.observeNew w context callee args) := by
  unfold Eval.observeNew
  split
  · refine walk.bind (walk.read _) fun strategy => ?_
    exact ite (walk.construct walks _ args) (walk.construction walks _ args)
  · exact walk.construct walks _ args

theorem perform (walks : w.Walks bound holds) (action : Action) :
    holds (.outside home) (action.observe w context) := by
  obtain ⟨depth, observes⟩ := walks.observes
  by_cases safePoint : action = .safePoint
  · rw [safePoint, observes]
    exact walk.safePoint
  have performed : ∀ m, (action.observe w context).erase m = Resumable.perform bound
      (depth + 1) action m := fun m => by
    rw [Action.erase_observe, observes, (observer bound depth).2]
    rfl
  refine walk.action safePoint performed ?_
  clear performed
  cases action with
  | value v => exact walk.pure v
  | throw v => exact walk.unwind nofun
  | call func this args => exact walk.call walks func this args
  | enter closure this args newTarget => exact walk.enter walks closure this args newTarget
  | enterTop top => exact walk.top walks top
  | construct callee args => exact walk.construct walks callee args
  | handleNew callee args => exact walk.new walks callee args
  | safePoint => exact absurd rfl safePoint
  | reenterNext => exact walk.reenterNext walks
  | sequence actions =>
    clear safePoint
    have each : ∀ value : Value,
        holds (.outside home) (actions.foldlM (fun _ action => w.perform context action)
          value) := by
      induction actions with
      | nil => exact fun value => walk.pure value
      | cons action rest ih => exact fun _ => walk.bind (walks.perform home context action) ih
    exact each _

/-- Whatever is done has the property, to every depth. -/
theorem observer (depth : Nat) : (Resumable.observer bound depth).1.Walks bound holds := by
  induction depth with
  | zero => exact ⟨⟨0, rfl⟩, fun _ _ _ => walk.lift fun _ => trivial⟩
  | succ depth ih => exact ⟨⟨depth + 1, rfl⟩, fun _ _ action => walk.perform ih action⟩

end Walk

/-! ## Turns -/

/-- Whatever the interpreter does takes the machine along a course. -/
theorem Observed.Follows.walk (bound : Nat) : Walk bound Observed.Follows where
  lift := .lift
  bind := .bind
  noted plain := .noted fun s => ⟨(plain s).1, (plain s).2.1, (plain s).2.2.1⟩
  moved := .moved
  ofEval := .ofEval
  atPoint := .atPoint
  inActivation := .inActivation
  attempt {depth context body handler final} bodyFollows handlerFollows finalFollows := by
    rw [Stmt.observe]
    refine .noted (fun _ => ⟨rfl, rfl, rfl⟩) (.withFinal ?_ finalFollows)
    cases handler with
    | none => exact bodyFollows
    | some handler =>
      obtain ⟨param, handler⟩ := handler
      exact .handle bodyFollows (handlerFollows ⟨param, handler⟩ rfl)
  recording := .recording
  shadowing := .shadowing
  framed := .framed
  capture := Eval.observeCapture_follows
  action {home action x depth} notSafe _ rest := by
    refine .noted (fun m => ⟨rfl, ?_, rfl⟩) rest
    cases action <;> first | rfl | exact absurd rfl notSafe
  safePoint := Eval.observeSafePoint_follows

theorem observer_follows (bound depth : Nat) : (observer bound depth).1.Walks bound
    Observed.Follows :=
  (Observed.Follows.walk bound).observer depth

namespace Machine

/-- The machine with which a turn begins. -/
def begin (next : Next) (m : Machine) : Machine :=
  let m := { m with remaining := m.options.stackSize.map Int.ofNat }
  match next with
  | .run _ => { m with mode := .normal, stack := .empty, shadow := .empty }
  | .restore stack => m.install stack

end Machine

/-- There is nothing to restore. -/
def Next.isVoid : Next → Bool
  | .run _ => false
  | .restore stack => stack.isEmpty

theorem Eval.start_void {next : Next} (isVoid : next.isVoid = true) (m : Machine) :
    Eval.start (engine bound) next m =
      .unwind (.fault .emptyStack) { m with remaining := m.options.stackSize.map Int.ofNat } := by
  cases next with
  | run action => cases isVoid
  | restore stack =>
    replace isVoid : stack.isEmpty = true := isVoid
    simp only [Eval.start, Eval.restore, isVoid, if_true]
    rfl

namespace Machine

variable {next : Next}

/-- A turn does what has every property that the rules keep. -/
theorem observed_body {holds : {σ α : Type} → Seat σ → Observed σ α → Prop}
    (walk : Walk bound holds) (notVoid : next.isVoid = false) (m : Machine) :
      ∃ body : Observed Machine Value, holds (.outside Store.globals) body ∧ observed bound next m =
      body (m.begin next) := by
  have walks := walk.observer bound
  cases next with
  | run action => exact ⟨_, walks.perform _ [] action, rfl⟩
  | restore stack =>
    refine ⟨Eval.observeReenterNext (observer bound bound).1 [], walk.reenterNext walks, ?_⟩
    unfold observed Eval.observeStart
    simp only [show stack.isEmpty = false from notVoid]
    rfl

/-- What becomes of the machine with which a turn begins, by the end of it. -/
theorem start_leads (bound : Nat) (notVoid : next.isVoid = false) (m : Machine) :
    (Eval.start (engine bound) next m).Leads (.outside Store.globals) (m.chronicle bound next)
    (m.begin next) := by
  obtain ⟨body, follows, ran⟩ := observed_body (Observed.Follows.walk bound) notVoid m
  rw [← erase_observed, chronicle, Observed.erase, Observed.told, ran]
  exact (follows _).ends

/-- No turn says that the program is stalled. -/
theorem start_moving (bound : Nat) (next : Next) (m : Machine) :
    (Eval.start (engine bound) next m).Meets (fun _ _ => True) fun reason _ =>
    reason ≠ .fault .stalled := by
  cases isVoid : next.isVoid with
  | true =>
    rw [Eval.start_void isVoid]
    exact nofun
  | false => exact (start_leads bound isVoid m).weaken (fun _ _ _ => trivial) fun _ _ ends => ends.1

/-- **The course of a turn** goes from the machine with which it begins to the one with which it
ends. -/
theorem start_course (bound : Nat) (notVoid : next.isVoid = false) (m : Machine) :
    (Eval.start (engine bound) next m).Meets (fun _ m' => Course (m.chronicle bound
      next) (m.begin next) m') (fun _ m' => Course (m.chronicle bound next) (m.begin next) m') :=
  (start_leads bound notVoid m).weaken (fun _ _ ends => ends.course) fun _ _ ends => ends.2.course

theorem begin_eq (next : Next) (m : Machine) : ∃ mode stack shadow pending remaining restores,
    m.begin next = { m with
      mode, stack, shadow, pending, remaining, stats.restores := restores } := by
  have installed : ∀ (m : Machine) stack, ∃ mode stack' shadow pending remaining restores,
      m.install stack =
        { m with
          mode, stack := stack', shadow, pending, remaining, stats.restores := restores } := by
    intro m stack
    unfold install segment
    cases m.options.stackSize with
    | none => exact ⟨_, _, _, m.pending, m.remaining, _, rfl⟩
    | some size => exact ⟨_, _, _, _, _, _, rfl⟩
  cases next with
  | run action => exact ⟨_, _, _, m.pending, _, m.stats.restores, rfl⟩
  | restore stack => exact installed { m with remaining := m.options.stackSize.map Int.ofNat } stack

/-- No turn changes the options. -/
theorem turn_options {step : Turn × Machine} (done :
    m.turn bound next = some step) : step.2.options = m.options := by
  obtain ⟨m₁, ended, _, _, _, _, _, _, _, eq⟩ := turn_eq done
  rw [eq]
  show m₁.options = m.options
  cases isVoid : next.isVoid with
  | true =>
    rw [Eval.start_void isVoid] at ended
    cases ended
    rfl
  | false =>
    have course := (start_course bound isVoid m).state ended
    obtain ⟨_, _, _, _, _, _, begun⟩ := m.begin_eq next
    rw [show m₁.options = (m.begin next).options from congrArg (·.2.1) course.fixed_eq, begun]

theorem chronicle_void (isVoid : next.isVoid = true) : m.chronicle bound next = [] := by
  cases next with
  | run action => cases isVoid
  | restore stack =>
    simp only [chronicle, observed, Eval.observeStart, show stack.isEmpty = true from isVoid]
    rfl

/-- A turn takes a course even if it is cut off. -/
theorem chronicle_goes (bound : Nat) (next : Next) (m : Machine) :
    ∃ m', Course (m.chronicle bound next) (m.begin next) m' := by
  cases isVoid : next.isVoid with
  | true =>
    rw [chronicle_void isVoid]
    exact ⟨_, .refl _⟩
  | false =>
    obtain ⟨body, follows, ran⟩ := observed_body (Observed.Follows.walk bound) isVoid m
    rw [chronicle, Observed.told, ran]
    exact (follows _).goes

/-- On the way the turn comes to all that begins, except for the frames that are kept. -/
theorem chronicle_course {before after : List Event} {event : Event}
    (told : m.chronicle bound next = before ++ event :: after) (notRaise : event.isRaise = false) :
    (∃ shadow, Course before (m.begin next) { event.machine with shadow }) ∧
      event.Orderly Store.globals (m.begin next).store := by
  cases isVoid : next.isVoid with
  | true =>
    rw [chronicle_void isVoid] at told
    simp at told
  | false =>
    obtain ⟨body, follows, ran⟩ := observed_body (Observed.Follows.walk bound) isVoid m
    rw [chronicle, Observed.told, ran] at told
    exact (follows _).passes before event after told notRaise

end Machine

/-- Every statement leaves the frames that are kept as they are. -/
theorem Stmt.exec_shadow (bound depth : Nat) (s : Stmt) (l : Local) :
    (s.exec ⟨bound, perform bound depth⟩ l).Meets (fun _ l' => l'.machine.shadow = l.machine.shadow)
      (fun _ l' => l'.machine.shadow = l.machine.shadow) := by
  have ends := ((Observed.Follows.walk bound).runs (observer_follows bound depth) s [] l).ends
  rw [Stmt.erase_observe, (observer bound depth).2] at ends
  have same : ∀ {told l'}, Seat.inside.Leads told l l' → l'.machine.shadow = l.machine.shadow :=
    fun leads => congrArg (·.2.2.1) leads.course.fixed_eq
  exact ends.weaken (fun _ _ => same) fun _ _ ends => same ends.2

end Resumable
