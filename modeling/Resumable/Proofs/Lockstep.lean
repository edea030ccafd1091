import Resumable.Proofs.Operations

/-!
Two runs in lockstep.

One run is under observation and the other as it is.  `Observed.Lockstep` says that they end alike
from related states, with the same result, unwinding for the same reason, or both cut off, as long
as the first one tells only what is allowed; no signal passes.  There is one rule for each
combinator.

What machines have to have in common for their values to look the same and to be changed alike is
`Machine.Mirrored`; the operators, the access to properties and elements, and the natives need no
more.
-/

namespace Resumable

variable {σ α : Type} {x : Observed σ α} {y : Run σ α} {m : Machine}

/-- The beginning of a transfer of control: a capture, where there are captures, or a call that
gives up what is running. -/
def Event.isTransfer : Event → Bool
  | .raise _ _ m => m.strategy ≠ .fudge
  | .action (.call (.native .abortCC) ..) _ | .action (.call (.continuation _) ..) _ => true
  | _ => false

/-! ## Ends in lockstep -/

/-- The same end, in states that are related.  It is not a signal. -/
inductive Ending.Twin (states : σ → σ → Prop) : Ending σ α → Ending σ α → Prop
  | ok {a : α} {s s' : σ} : states s s' → Ending.Twin states (.ok a s) (.ok a s')
  | unwind {reason : Unwind} {s s' : σ} :
      (∀ signal, reason ≠ .signal signal) → states s s' →
      Ending.Twin states (.unwind reason s) (.unwind reason s')
  | cutOff : Ending.Twin states .cutOff .cutOff

theorem Ending.Twin.mono {states weaker : σ → σ → Prop} (le : ∀ s s', states s s' → weaker s s')
    {x y : Ending σ α} (twin : x.Twin states y) : x.Twin weaker y := by
  cases twin with
  | ok related => exact .ok (le _ _ related)
  | unwind notSignal related => exact .unwind notSignal (le _ _ related)
  | cutOff => exact .cutOff

/-- The computations end alike from related states. -/
def Run.Twin (states : σ → σ → Prop) (x y : Run σ α) : Prop :=
  ∀ s s', states s s' → (x s).Twin states (y s')

/-- The computations end alike from related states, as long as the first tells only what is allowed.
-/
def Observed.Lockstep (allowed : Event → Prop) (states : σ → σ → Prop) (x : Observed σ α)
    (y : Run σ α) : Prop :=
  ∀ s s', states s s' → (∀ event ∈ x.told s, allowed event) → (x.erase s).Twin states (y s')

section Rules

variable {allowed : Event → Prop} {states : σ → σ → Prop}

namespace Run.Twin

theorem pure (a : α) : Run.Twin states (Pure.pure a : Run σ α) (Pure.pure a) :=
  fun _ _ related => .ok related

theorem bind {x : Run σ α} {f g : α → Run σ β} (first : x.Twin states y)
    (second : ∀ a, (f a).Twin states (g a)) : (x >>= f).Twin states (y >>= g) := by
  intro s s' related
  have twin := first s s' related
  show (Run.bind x f s).Twin states (Run.bind y g s')
  unfold Run.bind
  generalize x s = e at twin
  generalize y s' = e' at twin
  cases twin with
  | ok related => exact second _ _ _ related
  | unwind notSignal related => exact .unwind notSignal related
  | cutOff => exact .cutOff

theorem read {f g : σ → α} (same : ∀ s s', states s s' → g s' = f s) :
    Run.Twin states (Run.read f) (Run.read g) := by
  intro s s' related
  unfold Run.read
  rw [same s s' related]
  exact .ok related

theorem modify {f g : σ → σ} (keeps : ∀ s s', states s s' → states (f s) (g s')) :
    Run.Twin states (Run.modify f) (Run.modify g) :=
  fun s s' related => .ok (keeps s s' related)

theorem changeStore {states : Machine → Machine → Prop} {f f' : Store → α × Store}
    (keeps : ∀ m m', states m m' → (f' m'.store).1 = (f m.store).1 ∧
      states { m with store := (f m.store).2 } { m' with store := (f' m'.store).2 }) :
    (Eval.changeStore f).Twin states (Eval.changeStore f') := by
  intro m m' related
  obtain ⟨same, after⟩ := keeps m m' related
  show (Ending.ok (f m.store).1 { m with store := (f m.store).2 }).Twin states
    (Ending.ok (f' m'.store).1 { m' with store := (f' m'.store).2 })
  rw [same]
  exact .ok after

theorem throw (value : Value) : Run.Twin states (Run.throw value : Run σ α) (Run.throw value) :=
  fun _ _ related => .unwind nofun related

theorem fault (fault : Fault) : Run.Twin states (Run.fault fault : Run σ α) (Run.fault fault) :=
  fun _ _ related => .unwind nofun related

theorem ofOption (o : Option α) : Run.Twin states (Run.ofOption o : Run σ α) (Run.ofOption o) := by
  cases o with
  | none => exact fun _ _ _ => .cutOff
  | some a => exact .pure a

end Run.Twin

namespace Observed.Lockstep

theorem lift {x : Run σ α} (twin : x.Twin states y) : (Observed.lift x).Lockstep allowed states y :=
  fun s s' related _ => twin s s' related

theorem pure (a : α) : (Pure.pure a : Observed σ α).Lockstep allowed states (Pure.pure a) :=
  lift (.pure a)

theorem bind {f : α → Observed σ β} {g : α → Run σ β} (first : x.Lockstep allowed states y)
    (second : ∀ a, (f a).Lockstep allowed states (g a)) : (x >>= f).Lockstep allowed states
    (y >>= g) := by
  intro s s' related calm
  have told : ∀ event ∈ (x.bind f).told s, allowed event := calm
  rw [Observed.told_of_bind, List.forall_mem_append] at told
  have twin := first s s' related told.1
  show ((x.bind f).erase s).Twin states (Run.bind y g s')
  rw [Observed.erase_of_bind]
  unfold Run.bind
  replace told := told.2
  generalize x.erase s = e at twin told
  generalize y s' = e' at twin
  cases twin with
  | ok related => exact second _ _ _ related told
  | unwind notSignal related => exact .unwind notSignal related
  | cutOff => exact .cutOff

/-- An end is looked at; it is not a signal. -/
theorem attempt {f : Except Unwind α → Observed σ β} {g : Except Unwind α → Run σ β}
    (first : x.Lockstep allowed states y) (second : ∀ result,
      (∀ signal, result ≠ .error (.signal signal)) → (f result).Lockstep allowed states
      (g result)) :
    (x.attempt >>= f).Lockstep allowed states (y.attempt >>= g) := by
  intro s s' related calm
  have told : ∀ event ∈ (x.attempt.bind f).told s, allowed event := calm
  rw [Observed.told_of_bind, List.forall_mem_append] at told
  have twin := first s s' related told.1
  show ((x.attempt.bind f).erase s).Twin states (Run.bind y.attempt g s')
  rw [Observed.erase_of_bind, Observed.erase_attempt] at *
  replace told := told.2
  unfold Run.bind Run.attempt at *
  generalize x.erase s = e at twin told
  generalize y s' = e' at twin
  cases twin with
  | ok related =>
    refine second _ ?_ _ _ related told
    intro signal same
    cases same
  | unwind notSignal related =>
    refine second _ ?_ _ _ related told
    intro signal same
    exact notSignal signal (Except.error.inj same)
  | cutOff => exact .cutOff

/-- What is told first does not change how the computation ends. -/
theorem noted {event : σ → Event} (lockstep : x.Lockstep allowed states y) :
    (Observed.note event >>= fun _ => x).Lockstep allowed states y :=
  fun s s' related calm => lockstep s s' related fun e mem => calm e (List.mem_cons_of_mem _ mem)

/-- The second computation can be replaced by one that does the same where it is used. -/
theorem congr {y' : Run σ α} (lockstep : x.Lockstep allowed states y) (same : ∀ s s', states s s' →
    y' s' = y s') : x.Lockstep allowed states y' := by
  intro s s' related calm
  rw [same s s' related]
  exact lockstep s s' related calm

theorem ite {p : Prop} [Decidable p] {x₁ x₂ : Observed σ α} {y₁ y₂ : Run σ α}
    (first : x₁.Lockstep allowed states y₁) (second : x₂.Lockstep allowed states y₂) :
    (if p then x₁ else x₂).Lockstep allowed states (if p then y₁ else y₂) := by
  split
  · exact first
  · exact second

theorem settle {result : Except Unwind α} (notSignal : ∀ signal, result ≠ .error (.signal signal)) :
    (Observed.lift (Run.settle result)).Lockstep allowed states (Run.settle result) := by
  cases result with
  | ok a => exact pure a
  | error reason =>
    refine lift fun s s' related => .unwind (fun signal same => ?_) related
    exact notSignal signal (congrArg Except.error same)

end Observed.Lockstep

end Rules

/-! ## Activations -/

namespace Observed.Lockstep

/-- The machines of two activations go on as they do by themselves. -/
theorem ofEval {allowed : Event → Prop} {states : Local → Local → Prop} {machines : Machine →
    Machine → Prop} {x : Activation → Observed Machine α} {y : Activation → Eval α}
    (machine : ∀ l l', states l l' → machines l.machine l'.machine)
    (back : ∀ l l' m m', states l l' → machines m m' → states ⟨l.act, m⟩ ⟨l'.act, m'⟩)
    (lockstep : ∀ l l', states l l' → (x l.act).Lockstep allowed machines (y l'.act)) :
    (Observed.ofEval x).Lockstep allowed states (Exec.ofEval y) := by
  intro l l' related calm
  have inner := lockstep l l' related l.machine l'.machine (machine l l' related) calm
  show (Exec.ofEval (fun act => (x act).erase) l).Twin _ (Exec.ofEval y l')
  unfold Exec.ofEval
  simp only
  generalize (x l.act).erase l.machine = e at inner
  generalize y l'.act l'.machine = e' at inner
  cases inner with
  | ok after => exact .ok (back l l' _ _ related after)
  | unwind notSignal after => exact .unwind notSignal (back l l' _ _ related after)
  | cutOff => exact .cutOff

end Observed.Lockstep

/-! ## Loops and handlers -/

namespace Observed.Lockstep

variable {allowed : Event → Prop} {states : Local → Local → Prop}
  {body handler final : Observed Local Completion} {body' handler' final' : Exec Completion}

theorem loop {test : Observed Local Bool} {test' : Exec Bool} (label : Option String)
    (tests : test.Lockstep allowed states test') (bodies : body.Lockstep allowed states body')
    (turns : Nat) :
    (Observed.loop label test body turns).Lockstep allowed states
    (Exec.loop label test' body' turns) := by
  induction turns with
  | zero => exact lift fun _ _ _ => .cutOff
  | succ turns ih =>
    rw [Observed.loop, Exec.loop]
    refine tests.bind fun holds => ite (bodies.bind fun completion => ?_) (pure _)
    cases completion with
    | normal => exact ih
    | «continue» target => exact ite ih (pure _)
    | «break» target => exact pure _
    | «return» value => exact pure _

/-- A handler is entered with its parameter bound. -/
theorem handle {param : String} (bodies : body.Lockstep allowed states body')
    (declares : ∀ value, (Exec.declare param value).Twin states (Exec.declare param value))
    (handlers : handler.Lockstep allowed states handler') :
    (Observed.handle body param handler).Lockstep allowed states
    (Exec.handle body' param handler') := by
  refine bodies.attempt fun result notSignal => ?_
  match result with
  | .ok completion => exact pure completion
  | .error (.throw value) => exact (lift (declares value)).bind fun _ => handlers
  | .error (.signal signal) => exact absurd rfl (notSignal signal)
  | .error (.fault fault) => exact lift (.fault fault)

theorem withFinal (bodies : body.Lockstep allowed states body')
    (finals : final.Lockstep allowed states final') : (Observed.withFinal body final).Lockstep
    allowed states (Exec.withFinal body' final') := by
  refine bodies.attempt fun result notSignal => finals.bind fun completion => ?_
  cases completion with
  | normal => exact settle notSignal
  | _ => exact pure _

end Observed.Lockstep

/-! ## Values -/

/-- Related machines have one strategy and values that look the same, and stay related when objects
and arrays change alike and when the same line is printed. -/
class Machine.Mirrored (states : Machine → Machine → Prop) : Prop where
  strategy : ∀ {m m' : Machine}, states m m' → m'.strategy = m.strategy
  alike : ∀ {m m' : Machine}, states m m' → m.store.Alike m'.store
  objects : ∀ {m m' : Machine} (f : Array Object → Array Object), states m m' →
    states { m with store := { m.store with objects := f m.store.objects } }
      { m' with store := { m'.store with objects := f m'.store.objects } }
  arrays : ∀ {m m' : Machine} (f : Array (Array Value) → Array (Array Value)), states m m' →
    states { m with store := { m.store with arrays := f m.store.arrays } }
      { m' with store := { m'.store with arrays := f m'.store.arrays } }
  print : ∀ {m m' : Machine} (line : String), states m m' → states (m.print line) (m'.print line)

namespace Eval

open Machine.Mirrored

variable {states : Machine → Machine → Prop} [Machine.Mirrored states]

theorem makeObject_twin (object : Object) : (makeObject object).Twin states
    (makeObject object) := by
  intro m m' related
  show (Ending.ok (Value.object ⟨m.store.objects.size⟩) { m with store :=
    (m.store.newObject object).2 }).Twin states (Ending.ok (Value.object ⟨m'.store.objects.size⟩)
    { m' with store := (m'.store.newObject object).2 })
  rw [(alike related).objects]
  exact .ok (objects (·.push object) related)

theorem makeArray_twin (items : List Value) : (makeArray items).Twin states (makeArray items) := by
  intro m m' related
  show (Ending.ok (Value.array ⟨m.store.arrays.size⟩) { m with store :=
    (m.store.newArray items.toArray).2 }).Twin states
    (Ending.ok (Value.array ⟨m'.store.arrays.size⟩) { m' with store :=
      (m'.store.newArray items.toArray).2 })
  rw [(alike related).arrays]
  exact .ok (arrays (·.push items.toArray) related)

/-- A new object that is an instance of the closure. -/
theorem makeInstance_twin (closure : ClosureId) :
    (makeInstance closure).Twin states (makeInstance closure) :=
  Run.Twin.bind (.read fun _ _ related => (alike related).prototypes closure) fun _ =>
    makeObject_twin _

/-- Operations on values. -/
theorem mirrored {depth : Nat} : Mirrors (Run.Twin states) depth depth where
  pure := .pure
  bind first second := first.bind second
  throw := .throw
  display value m m' related := by
    show (Run.ofOption (m.store.display depth value) m).Twin _
      (Run.ofOption (m'.store.display depth value) m')
    rw [(alike related).display]
    exact Run.Twin.ofOption _ m m' related
  read same := .read fun m m' related => same m m' (alike related)
  makeObject _ := makeObject_twin _
  makeInstance := makeInstance_twin
  makeArray := makeArray_twin
  setProperty id name value := .modify fun _ _ related => objects
    (·.modify id.index fun object => { object with props := object.props.insert name value })
    related
  modifyItems id f := .modify fun _ _ related => arrays (·.modify id.index f) related

/-- The natives that leave the call in progress alone. -/
theorem callNative_twin {g g' : Engine} {native : Native}
    (quiet : native ∉ [.captureCC, .callCC, .abortCC]) (same : g'.bound = g.bound) (this : Value)
    (args : List Value) :
    (callNative g native this args).Twin states (callNative g' native this args) := by
  obtain ⟨bound, perform⟩ := g
  obtain rfl := same
  exact mirrored.callPlain this args (fun line => .modify fun _ _ related =>
    print line related) quiet

/-! ## Captures -/

section Captures

variable {allowed : Event → Prop} {w : Observer} {g : Engine}

/-- Without captures the handler is called. -/
theorem observeCapture_lockstep (calm : ∀ event, allowed event → event.isTransfer = false)
    (call : ∀ context func this args, (w.perform context (.call func this args)).Lockstep
      allowed states (g.perform (.call func this args))) (context : Context) (func : Value) :
    (observeCapture w context (.guest func)).Lockstep allowed states
    (raiseCapture g (.guest func)) := by
  intro m m' related told
  have fudge : m.strategy = .fudge := by
    have first := calm _ (told _ (List.mem_cons_self ..))
    simpa [Event.isTransfer] using first
  have toldEq : (observeCapture w context (.guest func)).told m =
      .raise context (.guest func) m :: (w.perform context (.call func .undefined
        [.fudged])).told m := by
    rw [told_observeCapture, fudge]
  rw [toldEq, List.forall_mem_cons] at told
  rw [erase_observeCapture, raiseCapture, raiseCapture, Run.read_bind, Run.read_bind,
    Machine.Mirrored.strategy related, fudge]
  show (w.engine.perform _ m).Twin _ _
  rw [← w.faithful context]
  exact call context func .undefined [.fudged] m m' related told.2

/-- An error whose message shows a value. -/
theorem liftShown_lockstep (bound : g.bound = w.engine.bound) (value : Value)
    (e : String → GuestError) : (Observed.lift (display w.engine.bound value >>= fun shown =>
      raise (e shown))).Lockstep allowed states (display g.bound value >>= fun shown =>
      (raise (e shown) : Eval Value)) := by
  rw [bound]
  exact .lift (mirrored.complain _ _)

theorem observeNative_lockstep (bound : g.bound = w.engine.bound)
    (calm : ∀ event, allowed event → event.isTransfer = false)
    (call : ∀ context func this args, (w.perform context (.call func this args)).Lockstep
      allowed states (g.perform (.call func this args))) (context : Context) {native : Native}
    (notAbort : native ≠ .abortCC) (this : Value) (args : List Value) :
    (observeNative w context native this args).Lockstep allowed states
    (callNative g native this args) := by
  have capture (handler : Value) :
      (if handler.isCallable then observeCapture w context (.guest handler)
        else do
          let shown ← .lift (display w.engine.bound handler)
          .lift (raise (.captureNeedsFunction shown))).Lockstep allowed states
      (if handler.isCallable then raiseCapture g (.guest handler)
        else do raise (.captureNeedsFunction (← display g.bound handler))) := by
    rw [bound]
    exact .ite (observeCapture_lockstep calm call context handler)
      (.bind (.lift (mirrored.display handler)) fun _ => .lift (.throw _))
  cases native with
  | captureCC => exact capture (firstArg args)
  | callCC => exact capture (firstArg args)
  | abortCC => exact absurd rfl notAbort
  | _ => exact .lift (callNative_twin (by decide) bound this args)

end Captures

/-! ## Bodies and turns -/

omit [Machine.Mirrored states] in
theorem finish_twin (completion : Completion) : (finish completion).Twin states
    (finish completion) := by
  cases completion with
  | normal => exact .pure _
  | «return» value => exact .pure value
  | «break» label => exact .fault _
  | «continue» label => exact .fault _

omit [Machine.Mirrored states] in
/-- A body in a new activation. -/
theorem observeBody_lockstep {allowed : Event → Prop} {w : Observer} {g : Engine}
    {context : Context} {locals : Local → Local → Prop} {act act' : Activation}
    {body body' : List Stmt}
    (begins : ∀ m m', states m m' → locals ⟨act, m⟩ ⟨act', m'⟩)
    (ends : ∀ l l', locals l l' → states l.machine l'.machine)
    (bodies : (Stmt.observeList w context body).Lockstep allowed locals (Stmt.execList g body')) :
    (observeBody w context act body).Lockstep allowed states (runBody g act' body') := by
  refine .noted fun m m' related calm => ?_
  have inner := bodies ⟨act, m⟩ ⟨act', m'⟩ (begins m m' related) calm
  rw [Observed.erase_inActivation]
  unfold runBody
  generalize (Stmt.observeList w context body).erase ⟨act, m⟩ = e at inner
  generalize Stmt.execList g body' ⟨act', m'⟩ = e' at inner
  cases inner with
  | ok related => exact finish_twin _ _ _ (ends _ _ related)
  | unwind notSignal related => exact .unwind notSignal (ends _ _ related)
  | cutOff => exact .cutOff

end Eval

namespace Machine

/-- No frames are collected and none are pending. -/
structure Idle (m : Machine) : Prop where
  capturing : m.capturing = false
  pending : m.pending = .empty

theorem Idle.afterResult (idle : m.Idle) (value : Value) :
    m.afterResult value = (.ended (.ok (.done value)), m) := by
  unfold Machine.afterResult
  rw [idle.capturing, idle.pending]
  rfl

theorem Idle.afterThrow (idle : m.Idle) (depth : Nat) (value : Value) : m.afterThrow depth value =
      (m.store.display depth value).map fun shown => (.ended (.error (.uncaught shown)), m) := by
  unfold Machine.afterThrow
  rw [idle.pending]
  rfl

/-- A slice whose first turn ends without a signal is over. -/
theorem drive_twin {states : Machine → Machine → Prop} [Mirrored states]
    (idle : ∀ m m', states m m' → m.Idle ∧ m'.Idle) {bound : Nat} {m' : Machine} {next next' : Next}
    (ends : (Eval.start (engine bound) next m).Twin states (Eval.start (engine bound) next' m')) :
    Option.Rel (fun slice slice' => slice'.1 = slice.1 ∧ states slice.2 slice'.2)
      (m.drive bound bound next) (m'.drive bound bound next') := by
  cases bound with
  | zero => exact .none
  | succ bound =>
    unfold drive turn
    generalize Eval.start (engine (bound + 1)) next m = e at ends
    generalize Eval.start (engine (bound + 1)) next' m' = e' at ends
    cases ends with
    | ok related =>
      simp only [(idle _ _ related).1.afterResult, (idle _ _ related).2.afterResult]
      exact .some ⟨rfl, related⟩
    | cutOff => exact .none
    | @unwind reason m m' notSignal related =>
      cases reason with
      | throw value =>
        simp only [(idle _ _ related).1.afterThrow, (idle _ _ related).2.afterThrow,
          (Mirrored.alike related).display]
        cases m.store.display (bound + 1) value with
        | none => exact .none
        | some shown => exact .some ⟨rfl, related⟩
      | signal signal => exact absurd rfl (notSignal signal)
      | fault fault => exact .some ⟨rfl, related⟩

end Machine

end Resumable
