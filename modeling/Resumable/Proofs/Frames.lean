import Resumable.Proofs.Outcome

/-!
Frames that fit.

Every frame on a machine that runs compiled code is a top frame or was recorded by an activation or
a construction, and enters the same function again.  Together with one more fact, that the innermost
frame of a stack that is being built up is a top frame, this is all that is needed for a restoring
run to find the frame it expects: the stack does not run out before the top frame is reached, and
what takes a call frame is what recorded it.  Nothing is assumed about how far a function gets
before it takes part in a capture again, so that the invariant holds along runs that lose their way
as well.
-/

namespace Resumable

variable {act : Activation} {m : Machine} {reason : Unwind} {label : Nat}
  {body : Observed Local Completion} {s : Stmt}

/-! ## What a frame has to do with the store -/

/-- The function of the activation is resumable, and is that of the closure which is called. -/
def Activation.Known (strategy : Strategy) (act : Activation) (store : Store) : Prop :=
  act.func.Resumes strategy ∧ ∀ closure ∈ act.callee,
    closure.index < store.closures.size ∧ (store.closure closure).func = act.func

/-- The frame of an activation, or of a construction. -/
inductive CallFrame.Recorded (strategy : Strategy) (store : Store) : CallFrame → Prop
  | activation {act : Activation} {saved : Store} {label : Nat} {frame : CallFrame} :
      act.Known strategy store → act.captureFrame saved label = .call frame →
      CallFrame.Recorded strategy store frame
  | construction {closure : ClosureId} {args : List Value} {function : String} {this : Value} :
      strategy ≠ .fudge → CallFrame.Recorded strategy store
        { resume := .handleNew (.closure closure) args, function, locals := [this], label := 0 }

/-- Actions that do not rely on a saved stack. -/
def Action.Startable (strategy : Strategy) : Action → Prop
  | .enterTop top => top.Resumes strategy
  | .reenterNext | .sequence _ => False
  | _ => True

def Frame.Fits (strategy : Strategy) (store : Store) : Frame → Prop
  | .top action => action.Startable strategy
  | .call frame => frame.Recorded strategy store

def Stack.Fits (strategy : Strategy) (store : Store) (stack : Stack) : Prop :=
  ∀ frame ∈ stack.frames, frame.Fits strategy store

/-- The innermost frame is a top frame. -/
def Stack.Topped (stack : Stack) : Prop :=
  ∃ action outer, stack.frames = .top action :: outer

/-- A call that is cut off is made again. -/
def CaptureHandler.Fits (strategy : Strategy) (store : Store) : CaptureHandler → Prop
  | .reenter action => ∃ act : Activation, act.Known strategy store ∧ action = act.startAgain
  | _ => True

/-- A capture is a signal only where captures unwind, and while the machine is capturing. -/
def Signal.Fits (strategy : Strategy) (m : Machine) : Signal → Prop
  | .capture handler stack =>
    (strategy.unwinds = true ∧ m.capturing = true) ∧ handler.Fits strategy m.store ∧
      stack.Fits strategy m.store
  | .restore stack => stack.Fits strategy m.store ∧ stack.Topped
  | .discard _ => True

/-- Faults of a run that does not find the frame it expects. -/
def Fault.isFrameFault : Fault → Bool
  | .frameShape .. | .unexpectedTop _ | .emptyStack => true
  | _ => false

def Fault.isStrayJump : Fault → Bool
  | .strayJump _ => true
  | _ => false

/-- Compiled code has one fault of its own. -/
def Unwind.Fits (strategy : Strategy) (m : Machine) : Unwind → Prop
  | .throw _ => True
  | .signal raised => raised.Fits strategy m
  | .fault raised => raised.isStrayJump = true

theorem Fault.not_frameFault_of_isStrayJump {fault : Fault}
    (isStrayJump : fault.isStrayJump = true) : fault.isFrameFault = false := by
  cases fault with
  | strayJump jump => rfl
  | _ => cases isStrayJump

section Mono

variable {strategy : Strategy} {store store' : Store}

theorem Activation.Known.mono {code : Func → Prop} (known : act.Known strategy store)
    (calm : store.Calm code store') : act.Known strategy store' := by
  refine ⟨known.1, fun closure mem => ?_⟩
  obtain ⟨inRange, same⟩ := known.2 closure mem
  exact ⟨Nat.lt_of_lt_of_le inRange calm.size_le, by rw [calm.closure_eq inRange, same]⟩

theorem CallFrame.Recorded.mono {frame : CallFrame} (recorded : frame.Recorded strategy store)
    (calm : store.Calm (Func.Resumes strategy) store') : frame.Recorded strategy store' := by
  cases recorded with
  | activation known eq => exact .activation (known.mono calm) eq
  | construction framed => exact .construction framed

theorem Frame.Fits.mono {frame : Frame} (fits : frame.Fits strategy store)
    (calm : store.Calm (Func.Resumes strategy) store') : frame.Fits strategy store' := by
  cases frame with
  | top action => exact fits
  | call frame => exact CallFrame.Recorded.mono fits calm

theorem Stack.Fits.mono {stack : Stack} (fits : stack.Fits strategy store)
    (calm : store.Calm (Func.Resumes strategy) store') : stack.Fits strategy store' :=
  fun frame mem => (fits frame mem).mono calm

theorem CaptureHandler.Fits.mono {handler : CaptureHandler} (fits : handler.Fits strategy store)
    (calm : store.Calm (Func.Resumes strategy) store') : handler.Fits strategy store' := by
  cases handler with
  | reenter action =>
    obtain ⟨act, known, again⟩ := fits
    exact ⟨act, known.mono calm, again⟩
  | guest func => trivial
  | yield => trivial

/-- The call of an activation can be made again. -/
theorem Activation.Known.startAgain (known : act.Known strategy store) :
    act.startAgain.Startable strategy := by
  unfold Activation.startAgain Activation.invoke
  split
  · trivial
  · exact known.1

end Mono

section Stacks

variable {strategy : Strategy} {store : Store} {stack outer : Stack} {frame : Frame}

theorem Stack.Fits.empty : Stack.empty.Fits strategy store :=
  fun _ mem => nomatch mem

section

variable (fits : stack.Fits strategy store)

include fits

theorem Stack.Fits.pushInner (frameFits : frame.Fits strategy store) :
    (stack.pushInner frame).Fits strategy store :=
  List.forall_mem_cons.mpr ⟨frameFits, fits⟩

theorem Stack.Fits.pushOuter (frameFits : frame.Fits strategy store) :
    (stack.pushOuter frame).Fits strategy store :=
  List.forall_mem_append.mpr ⟨fits, List.forall_mem_singleton.mpr frameFits⟩

theorem Stack.Fits.appendOuter (outerFits : outer.Fits strategy store) :
    (stack.appendOuter outer).Fits strategy store :=
  List.forall_mem_append.mpr ⟨fits, outerFits⟩

theorem Stack.Fits.dropInner : stack.dropInner.Fits strategy store :=
  fun frame mem => fits frame (List.mem_of_mem_tail mem)

theorem Stack.Fits.dropOuter : stack.dropOuter.Fits strategy store :=
  fun frame mem => fits frame ((List.dropLast_sublist _).subset mem)

end

theorem Stack.Topped.pushInner (stack : Stack) (action : Action) :
    (stack.pushInner (.top action)).Topped :=
  ⟨action, stack.frames, rfl⟩

theorem Stack.Topped.pushOuter (topped : stack.Topped) (frame : Frame) :
    (stack.pushOuter frame).Topped := by
  obtain ⟨action, outer, eq⟩ := topped
  exact ⟨action, outer ++ [frame], by simp [Stack.pushOuter, eq]⟩

/-- Below a call frame at the outer end there is still the top frame. -/
theorem Stack.Topped.dropOuter {frame : CallFrame} (topped : stack.Topped)
    (outermost : stack.outermost? = some (.call frame)) : stack.dropOuter.Topped := by
  obtain ⟨action, outer, eq⟩ := topped
  rw [Stack.outermost?, eq] at outermost
  cases outer with
  | nil => cases outermost
  | cons next outer => exact ⟨action, (next :: outer).dropLast, by simp [Stack.dropOuter, eq]⟩

theorem Stack.length_dropOuter (outermost : stack.outermost? = some frame) :
    stack.dropOuter.length + 1 = stack.length := by
  have notEmpty : 0 < stack.frames.length := List.length_pos_of_mem (List.mem_of_getLast? outermost)
  show stack.frames.dropLast.length + 1 = stack.frames.length
  rw [List.length_dropLast]
  omega

theorem Stack.Topped.outermost (topped : stack.Topped) : ∃ frame, stack.outermost? =
    some frame := by
  obtain ⟨action, outer, eq⟩ := topped
  rw [Stack.outermost?, eq]
  exact ⟨_, List.getLast?_eq_some_getLast (List.cons_ne_nil _ _)⟩

theorem Stack.Topped.isEmpty (topped : stack.Topped) : stack.isEmpty = false := by
  obtain ⟨action, outer, eq⟩ := topped
  rw [Stack.isEmpty, eq]
  rfl

theorem Stack.mem_of_outermost (outermost : stack.outermost? = some frame) : frame ∈ stack.frames :=
  List.mem_of_getLast? outermost

end Stacks

/-! ## What a stack tells of calls in progress -/

/-- Where the frame continues; a top frame does not continue anything. -/
def Frame.point? : Frame → Option Point
  | .top _ => none
  | .call frame => some ⟨frame.function, frame.label⟩

/-- The points of the frames, from the innermost to the outermost. -/
def Stack.points (stack : Stack) : List (Option Point) :=
  stack.frames.map Frame.point?

/-- The stack of a capture that was raised inside of the calls `raised`, where it has come as far as
the calls of the context: it has a frame for each of them already, or for those that it has passed.
-/
def Stack.Tells (strategy : Strategy) (context raised : Context) (stack : Stack) : Prop :=
  match strategy with
  | .lazy => raised.map some = stack.points ++ context.map some
  | _ => stack.points = raised.map some

/-- The capture leaves with its handler and its frames, and of the machine it was raised on only the
frames that were kept for calls in progress are others. -/
def Machine.Delivered (strategy : Strategy) (context : Context) : Delivery Machine :=
  fun raised handler m reason m' => ∃ stack shadow, reason = .signal (.capture handler stack) ∧
    m' = { m with capturing := true, shadow } ∧ stack.Tells strategy context raised

@[simp]
theorem Activation.captureFrame_point (act : Activation) (store : Store) (label : Nat) :
    (act.captureFrame store label).point? = some (act.point label) :=
  rfl

@[simp]
theorem Stack.points_pushInner (stack : Stack) (frame : Frame) :
    (stack.pushInner frame).points = frame.point? :: stack.points :=
  rfl

@[simp]
theorem Stack.points_pushOuter (stack : Stack) (frame : Frame) :
    (stack.pushOuter frame).points = stack.points ++ [frame.point?] := by
  simp [Stack.points, Stack.pushOuter]

@[simp]
theorem Stack.points_dropInner (stack : Stack) : stack.dropInner.points = stack.points.tail := by
  simp [Stack.points, Stack.dropInner]

/-! ## Machines -/

/-- All stacks that are built up by a task, or by the work that it queues, have the property. -/
inductive Task.All (p : Stack → Prop) : Task → Prop
  | resume {stack : Stack} : p stack → Task.All p (.resume stack)
  | host {lines : List String} {queued : List Task} : (∀ task ∈ queued, Task.All p task) →
      Task.All p (.host lines queued)

namespace Task.All

variable {p q : Stack → Prop} {task : Task}

theorem imp (holds : task.All p) (more : ∀ stack, p stack → q stack) : task.All q := by
  induction holds with
  | resume holds => exact .resume (more _ holds)
  | host _ ih => exact .host ih

theorem stack {stack : Stack} : (Task.resume stack).All p → p stack
  | .resume holds => holds

theorem queued {lines : List String} {queued : List Task} : (Task.host lines queued).All p →
    ∀ task ∈ queued, task.All p
  | .host holds => holds

end Task.All

/-- The invariant of machines that run code compiled for the strategy, inside of the calls in
progress at the points of the context. -/
structure Machine.Sound (strategy : Strategy) (context : Context) (m : Machine) : Prop where
  runs : m.strategy = strategy
  code : ∀ c ∈ m.store.closures, c.func.Resumes strategy
  continuations : ∀ stack ∈ m.store.continuations, stack.Fits strategy m.store
  stack : m.stack.Fits strategy m.store
  shadow : m.shadow.Fits strategy m.store
  pending : m.pending.Fits strategy m.store
  tasks : ∀ task ∈ m.tasks, task.All fun stack => stack.Fits strategy m.store ∧ stack.Topped
  handler : ∀ handler ∈ m.pendingHandler, handler.Fits strategy m.store
  topped : m.mode = .restoring → m.stack.Topped
  room : m.mode = .restoring → m.capturing = false → m.Roomy
  calls : strategy = .eager → m.shadow.points = context.map some

/-- What becomes of a machine within a turn. -/
structure Machine.Kept (strategy : Strategy) (context : Context) (m m' : Machine) : Prop where
  sound : m'.Sound strategy context
  calm : m.store.Calm (Func.Resumes strategy) m'.store
  normal : m.mode = .normal → m'.mode = .normal
  collecting : m.capturing = true → m'.capturing = true

namespace Machine

variable {strategy : Strategy} {context context' : Context} {m m' m'' : Machine}

theorem Kept.refl (sound : m.Sound strategy context) : m.Kept strategy context m :=
  ⟨sound, .refl _, id, id⟩

theorem Kept.trans (first : m.Kept strategy context' m') (second : m'.Kept strategy context m'') :
    m.Kept strategy context m'' :=
  ⟨second.sound, first.calm.trans second.calm, second.normal ∘ first.normal,
    second.collecting ∘ first.collecting⟩

/-- A closure that is called is resumable, or there is none and its code is empty. -/
theorem Sound.closure (sound : m.Sound strategy context) (id : ClosureId) :
    (m.store.closure id).func.Resumes strategy ∧ id.index < m.store.closures.size ∨
      (m.store.closure id).func.body = [] :=
  m.store.closure_cases sound.code id

/-- The invariant does not depend on more of the store than its closures and continuations. -/
theorem Sound.of_calm (sound : m.Sound strategy context) {store : Store}
    (calm : m.store.Calm (Func.Resumes strategy) store) :
    { m with store }.Sound strategy context where
  runs := sound.runs
  code := calm.closures_code sound.code
  continuations stack mem := (sound.continuations stack (calm.continuations ▸ mem)).mono calm
  stack := sound.stack.mono calm
  shadow := sound.shadow.mono calm
  pending := sound.pending.mono calm
  tasks task mem := (sound.tasks task mem).imp fun _ fits => ⟨fits.1.mono calm, fits.2⟩
  handler handler mem := (sound.handler handler mem).mono calm
  topped := sound.topped
  room := sound.room
  calls := sound.calls

theorem Undisturbed.kept (undisturbed : m.Undisturbed (Func.Resumes strategy) m')
    (sound : m.Sound strategy context) : m.Kept strategy context m' := by
  obtain ⟨store, rfl, calm⟩ := undisturbed
  exact ⟨sound.of_calm calm, calm, id, id⟩

/-- The frames that are kept for calls in progress may be others for a while, with another context.
-/
theorem Kept.shadow (sound : m.Sound strategy context) {shadow : Stack}
    (fits : shadow.Fits strategy m.store) (calls : strategy = .eager →
      shadow.points = context'.map some) :
    m.Kept strategy context' { m with shadow } :=
  ⟨{ sound with shadow := fits, calls }, .refl _, id, id⟩

/-- Calls are counted, and returns of calls.  In restoring mode the room has to stay. -/
theorem Kept.remaining (sound : m.Sound strategy context) {remaining : Option Int}
    (room : m.mode = .restoring → m.capturing = false → { m with remaining }.Roomy) :
    m.Kept strategy context { m with remaining } :=
  ⟨{ sound with room }, .refl _, id, id⟩

/-- A frame is collected on the way of returns. -/
theorem Kept.collect (sound : m.Sound strategy context) (capturing : m.capturing = true)
    {frame : Frame} (fits : frame.Fits strategy m.store) :
    m.Kept strategy context { m with stack := m.stack.pushOuter frame } :=
  ⟨{ sound with
      stack := sound.stack.pushOuter fits
      topped := fun restoring => (sound.topped restoring).pushOuter frame
      room := fun _ idle => nomatch capturing.symm.trans idle }, .refl _, id, id⟩

/-- A frame that is taken makes room. -/
theorem Roomy.dropOuter (roomy : m.Roomy) : { m with stack := m.stack.dropOuter }.Roomy := by
  intro size limited
  obtain ⟨left, counted, enough⟩ := roomy size limited
  refine ⟨left, counted, ?_⟩
  have shorter : m.stack.dropOuter.length ≤ m.stack.length :=
    (List.dropLast_sublist m.stack.frames).length_le
  show (size : Int) + m.stack.dropOuter.length ≤ left
  omega

end Machine

theorem Signal.Fits.mono {strategy : Strategy} {context : Context} {m' : Machine} {signal : Signal}
    (fits : signal.Fits strategy m) (kept : m.Kept strategy context m') :
    signal.Fits strategy m' := by
  cases signal with
  | capture handler stack =>
    obtain ⟨⟨unwinds, capturing⟩, handlerFits, stackFits⟩ := fits
    exact ⟨⟨unwinds, kept.collecting capturing⟩, handlerFits.mono kept.calm,
      stackFits.mono kept.calm⟩
  | restore stack => exact ⟨fits.1.mono kept.calm, fits.2⟩
  | discard replacement => trivial

theorem Unwind.Fits.mono {strategy : Strategy} {context : Context} {m' : Machine}
    (fits : reason.Fits strategy m) (kept : m.Kept strategy context m') :
    reason.Fits strategy m' := by
  cases reason with
  | throw value => trivial
  | signal signal => exact Signal.Fits.mono fits kept
  | fault fault => exact fits

/-- The invariant of an activation and its machine. -/
structure Local.Sound (strategy : Strategy) (context : Context) (l : Local) : Prop where
  machine : l.machine.Sound strategy context
  known : l.act.Known strategy l.machine.store
  caught : ∀ signal ∈ l.act.caught, signal.Fits strategy l.machine

/-- What becomes of an activation and its machine. -/
structure Local.Kept (strategy : Strategy) (context : Context) (l l' : Local) : Prop where
  machine : l.machine.Kept strategy context l'.machine
  func : l'.act.func = l.act.func
  callee : l'.act.callee = l.act.callee
  caught : ∀ signal ∈ l'.act.caught, signal.Fits strategy l'.machine

namespace Local

variable {strategy : Strategy} {context context' : Context} {l l' l'' : Local}

theorem Kept.refl (sound : l.Sound strategy context) : l.Kept strategy context l :=
  ⟨.refl sound.machine, rfl, rfl, sound.caught⟩

theorem Kept.trans (first : l.Kept strategy context' l') (second : l'.Kept strategy context l'') :
    l.Kept strategy context l'' :=
  ⟨first.machine.trans second.machine, second.func.trans first.func,
    second.callee.trans first.callee, second.caught⟩

theorem Kept.sound (kept : l.Kept strategy context l') (sound : l.Sound strategy context') :
    l'.Sound strategy context := by
  have known := sound.known.mono kept.machine.calm
  rw [Activation.Known, ← kept.func, ← kept.callee] at known
  exact ⟨kept.machine.sound, known, kept.caught⟩

/-- The activation stays as it is. -/
theorem Kept.of_machine (sound : l.Sound strategy context')
    (kept : l.machine.Kept strategy context m) : l.Kept strategy context ⟨l.act, m⟩ :=
  ⟨kept, rfl, rfl, fun signal mem => (sound.caught signal mem).mono kept⟩

end Local

/-! ## Safe computations -/

/-- The computation meets the invariant of machines. -/
def Observed.Safe (strategy : Strategy) (context : Context) (x : Observed Machine α) (m : Machine) :
    Prop :=
  x.Meets strategy (Machine.Delivered strategy context) m (fun _ m' => m.Kept strategy context m')
    (fun reason m' => m.Kept strategy context m' ∧ reason.Fits strategy m')

/-- A capture leaves an activation as it leaves the machine. -/
def Local.Delivered (strategy : Strategy) (context : Context) : Delivery Local :=
  fun raised handler m reason l => Machine.Delivered strategy context raised handler m reason
    l.machine

/-- The computation meets the invariant of activations. -/
def Observed.SafeIn (strategy : Strategy) (context : Context) (x : Observed Local α)
    (l : Local) : Prop :=
  x.Meets strategy (Local.Delivered strategy context) l (fun _ l' => l.Kept strategy context l')
    (fun reason l' => l.Kept strategy context l' ∧ reason.Fits strategy l'.machine)

/-- What an action relies on.  In restoring mode nothing is done but to enter the outermost frame.
-/
def Action.Performable (strategy : Strategy) (action : Action) (m : Machine) : Prop :=
  (m.mode = .normal ∧ action.Startable strategy) ∨
    (m.mode = .restoring ∧ (action = .reenterNext ∨
      ∃ frame, m.stack.outermost? = some (.call frame) ∧ action = frame.resume))

/-- Everything that leaves an activation is safe. -/
def Observer.Safe (strategy : Strategy) (w : Observer) : Prop :=
  ∀ context action m, Machine.Sound strategy context m → action.Performable strategy m →
    (w.perform context action).Safe strategy context m

namespace Observed

variable {strategy : Strategy} {context context' : Context} {α β : Type} {m : Machine} {l : Local}

/-- What is kept from a later machine on is kept from an earlier one on. -/
theorem Safe.after {x : Observed Machine α} {m₁ : Machine} (safe : x.Safe strategy context m₁)
    (kept : m.Kept strategy context' m₁) :
    x.Meets strategy (Machine.Delivered strategy context) m₁ (fun _ m' =>
      m.Kept strategy context m') (fun reason m' => m.Kept strategy context m' ∧
      reason.Fits strategy m') :=
  safe.weaken (fun _ _ kept' => kept.trans kept') fun _ _ ends => ⟨kept.trans ends.1, ends.2⟩

theorem SafeIn.after {x : Observed Local α} {l₁ : Local} (safe : x.SafeIn strategy context l₁)
    (kept : l.Kept strategy context' l₁) :
    x.Meets strategy (Local.Delivered strategy context) l₁ (fun _ l' => l.Kept strategy context l')
      (fun reason l' => l.Kept strategy context l' ∧ reason.Fits strategy l'.machine) :=
  safe.weaken (fun _ _ kept' => kept.trans kept') fun _ _ ends => ⟨kept.trans ends.1, ends.2⟩

theorem Safe.bind {x : Observed Machine α} {f : α → Observed Machine β}
    (first : x.Safe strategy context m) (second : ∀ a m', m.Kept strategy context m' →
      (f a).Safe strategy context m') : (x >>= f).Safe strategy context m :=
  Meets.bind first fun a m' kept => (second a m' kept).after kept

theorem SafeIn.bind {x : Observed Local α} {f : α → Observed Local β}
    (first : x.SafeIn strategy context l) (second : ∀ a l', l.Kept strategy context l' →
      (f a).SafeIn strategy context l') : (x >>= f).SafeIn strategy context l :=
  Meets.bind first fun a l' kept => (second a l' kept).after kept

theorem Safe.pure {a : α} (sound : m.Sound strategy context) :
    (Pure.pure a : Observed Machine α).Safe strategy context m :=
  Meets.pure (Machine.Kept.refl sound)

theorem Safe.read {f : Machine → β} {k : β → Observed Machine α}
    (safe : (k (f m)).Safe strategy context m) : (lift (Run.read f) >>= k).Safe strategy
    context m :=
  Meets.read safe

theorem Safe.modify {f : Machine → Machine} {k : Unit → Observed Machine α}
    (kept : m.Kept strategy context (f m)) (safe : (k ()).Safe strategy context (f m)) :
    (lift (Run.modify f) >>= k).Safe strategy context m :=
  Meets.modify (safe.after kept)

/-- A calm change of the store, whose answer is used. -/
theorem Safe.changeStore {f : Store → β × Store} {k : β → Observed Machine α}
    (sound : m.Sound strategy context) (calm : m.store.Calm (Func.Resumes strategy) (f m.store).2)
    (safe : (k (f m.store).1).Safe strategy context { m with store := (f m.store).2 }) :
    (lift (Eval.changeStore f) >>= k).Safe strategy context m :=
  have kept : m.Kept strategy context { m with store := (f m.store).2 } :=
    ⟨sound.of_calm calm, calm, id, id⟩
  ⟨(safe.after kept).told, (safe.after kept).ends, (safe.after kept).raised⟩

theorem Safe.discard {x : Observed Machine α} (safe : x.Safe strategy context m) :
    (Functor.discard x).Safe strategy context m := by
  show (x >>= fun _ => Pure.pure ()).Safe strategy context m
  exact .bind safe fun _ m' kept => .pure kept.sound

theorem Safe.unwind (sound : m.Sound strategy context) (fits : reason.Fits strategy m) :
    (lift (Run.unwind reason) : Observed Machine α).Safe strategy context m :=
  Meets.lift ⟨.refl sound, fits⟩

theorem Safe.noted {x : Observed Machine α} {event : Machine → Event} (fits : (event m).Expected)
    (quiet : (event m).isRaise = false) (safe : x.Safe strategy context m) :
    (note event >>= fun _ => x).Safe strategy context m :=
  Meets.noted fits quiet safe

theorem SafeIn.noted {x : Observed Local α} {event : Local → Event} (fits : (event l).Expected)
    (quiet : (event l).isRaise = false) (safe : x.SafeIn strategy context l) :
    (note event >>= fun _ => x).SafeIn strategy context l :=
  Meets.noted fits quiet safe

theorem SafeIn.ofEval {x : Activation → Observed Machine α} (sound : l.Sound strategy context)
    (safe : (x l.act).Safe strategy context l.machine) : (ofEval x).SafeIn strategy context l :=
  Meets.ofEval <| safe.weaken (fun _ _ kept => .of_machine sound kept)
    fun _ _ ends => ⟨.of_machine sound ends.1, ends.2⟩

/-- Quiet computations are safe, and leave all of the machine but the store as it is. -/
theorem Quiet.meets {x : Observed Machine α} (quiet : x.Quiet (Func.Resumes strategy))
    (sound : m.Sound strategy context) {delivery : Delivery Machine} :
    x.Meets strategy delivery m (fun _ m' => m.Undisturbed (Func.Resumes strategy) m')
      (fun reason m' => m.Kept strategy context m' ∧ reason.Fits strategy m') := by
  have ends := quiet.erase m
  refine .of_eq rfl (fun event mem => Event.expected_of_isExpr (quiet.told m event mem))
    (fun _ event mem => Event.not_raise_of_isExpr (quiet.told m event mem)) ?_
  show Ending.Meets _ _ (x.erase m)
  cases ending : x.erase m with
  | ok a m' =>
    rw [ending] at ends
    exact ends
  | unwind reason m' =>
    rw [ending] at ends
    obtain ⟨undisturbed, value, rfl⟩ := ends
    exact ⟨undisturbed.kept sound, trivial⟩
  | cutOff => trivial

theorem Quiet.safe {x : Observed Machine α} (quiet : x.Quiet (Func.Resumes strategy))
    (sound : m.Sound strategy context) : x.Safe strategy context m :=
  (quiet.meets sound).weaken (fun _ _ undisturbed => undisturbed.kept sound) fun _ _ ends => ends

end Observed

section Expressions

variable {strategy : Strategy} {w : Observer} {context : Context} {act : Activation} {m : Machine}

/-- In normal mode an application may leave the activation. -/
theorem Expr.Live.safe {e : Expr} (observerSafe : w.Safe strategy)
    (live : e.Live (Func.Resumes strategy)) (sound : m.Sound strategy context)
    (normal : m.mode = .normal) :
    (e.observe w context act).Safe strategy context m := by
  by_cases isApp : e.isApplication = true
  · rw [Expr.observe_application isApp]
    refine .noted ⟨trivial, trivial⟩ rfl ?_
    refine Observed.Safe.bind ((live.observeAction isApp).safe sound) fun action m' kept => ?_
    refine observerSafe context action m' kept.sound (.inl ⟨kept.normal normal, ?_⟩)
    obtain ⟨action, application⟩ := action
    cases action with
    | call | construct | handleNew | safePoint => trivial
    | _ => cases application
  · have quiet := live.quiet_of_not_application (by simpa using isApp)
    exact quiet.observe.safe sound

end Expressions

/-! ## Statements -/

namespace Local

variable {strategy : Strategy} {l : Local}

/-- The activation holds another signal, or none. -/
theorem Kept.hold (sound : l.Sound strategy context) {caught : Option Signal}
    (fits : ∀ signal ∈ caught, signal.Fits strategy l.machine) :
    l.Kept strategy context { l with act := { l.act with caught } } :=
  ⟨.refl sound.machine, rfl, rfl, fits⟩

/-- A frame of the activation. -/
theorem Sound.captureFrame (sound : l.Sound strategy context) (store : Store) (label : Nat) :
    (l.act.captureFrame store label).Fits strategy l.machine.store :=
  .activation sound.known rfl

end Local

namespace Observed

variable {strategy : Strategy} {context context' : Context} {α β : Type} {w : Observer} {l : Local}

section

variable (sound : l.Sound strategy context)

include sound

theorem SafeIn.pure {a : α} : (Pure.pure a : Observed Local α).SafeIn strategy context l :=
  Meets.pure (Local.Kept.refl sound)

theorem SafeIn.lift_quiet {x : Activation → Eval α} (quiet : Eval.Quiet (Func.Resumes strategy)
    (x l.act)) : (lift (Exec.ofEval x)).SafeIn strategy context l := by
  rw [lift_ofEval]
  exact SafeIn.ofEval sound ((Quiet.lift quiet).safe sound.machine)

theorem SafeIn.declare (name : String) (value : Value) :
    (lift (Exec.declare name value)).SafeIn strategy context l :=
  .lift_quiet sound (.modifyStore fun s => s.declare_calm _ name value)

theorem SafeIn.unwind (fits : reason.Fits strategy l.machine) :
    (lift (Run.unwind reason) : Observed Local α).SafeIn strategy context l :=
  Meets.lift ⟨.refl sound, fits⟩

end

theorem SafeIn.read {f : Local → β} {k : β → Observed Local α}
    (safe : (k (f l)).SafeIn strategy context l) : (lift (Run.read f) >>= k).SafeIn strategy
    context l :=
  Meets.read safe

/-- A change of the activation or of the machine. -/
theorem SafeIn.modify {f : Local → Local} (kept : l.Kept strategy context (f l)) :
    (lift (Run.modify f)).SafeIn strategy context l :=
  Meets.lift kept

theorem SafeIn.settle {result : Except Unwind α} (sound : l.Sound strategy context)
    (fits : ∀ reason, result = .error reason → reason.Fits strategy l.machine) :
    (lift (Run.settle result)).SafeIn strategy context l := by
  cases result with
  | ok a => exact .pure sound
  | error reason => exact .unwind sound (fits reason rfl)

/-- A computation whose end is looked at.  What is done with a capture that was raised in it is
known. -/
theorem SafeIn.attempt {x : Observed Local α} {f : Except Unwind α → Observed Local β}
    (first : x.SafeIn strategy context' l)
    (ok : ∀ a l', l.Kept strategy context' l' → (f (.ok a)).SafeIn strategy context l')
    (unwound : ∀ reason l', l.Kept strategy context' l' → reason.Fits strategy l'.machine →
      (f (.error reason)).SafeIn strategy context l')
    (passes : strategy.unwinds = true → ∀ raised handler stack l', l.Kept strategy context' l' →
      l'.machine.capturing = true → stack.Tells strategy context' raised →
      ∃ stack' act shadow events, f (.error (.signal (.capture handler stack))) l' =
          (.unwind (.signal (.capture handler stack')) ⟨act, { l'.machine with shadow }⟩, events) ∧
        (∀ event ∈ events, event.isGuard = true) ∧ stack'.Tells strategy context raised) :
    (x.attempt >>= f).SafeIn strategy context l := by
  refine Meets.attempt first (fun a l' kept => (ok a l' kept).after kept)
    (fun reason l' ends => (unwound reason l' ends.1 ends.2).after ends.1) ?_
  rintro unwinds raised handler m _ ⟨act, _⟩ ends ⟨stack, shadow, rfl, rfl, tells⟩
  obtain ⟨stack', act', shadow', events, eq, guards, tells'⟩ :=
    passes unwinds raised handler stack _ ends.1 rfl tells
  exact ⟨_, _, events, eq, guards, stack', shadow', rfl, rfl, tells'⟩

theorem SafeIn.discard {x : Observed Local α} (sound : l.Sound strategy context)
    (safe : x.SafeIn strategy context l) : (Functor.discard x).SafeIn strategy context l := by
  show (x >>= fun _ => Pure.pure ()).SafeIn strategy context l
  exact .bind safe fun _ l' kept => .pure (kept.sound sound)

/-- A loop keeps what its test and its body keep. -/
theorem SafeIn.loop {label : Option String} {test : Observed Local Bool}
    (sound : l.Sound strategy context) (testSafe : ∀ l', l.Kept strategy context l' →
      test.SafeIn strategy context l')
    (bodySafe : ∀ l', l.Kept strategy context l' → body.SafeIn strategy context l') (turns : Nat) :
    (Observed.loop label test body turns).SafeIn strategy context l := by
  have all : ∀ turns l', l.Kept strategy context l' →
      (Observed.loop label test body turns).SafeIn strategy context l' := by
    intro turns
    induction turns with
    | zero => exact fun _ _ => Meets.lift trivial
    | succ turns ih =>
      intro l₁ kept₁
      refine .bind (testSafe l₁ kept₁) fun holds l₂ kept₂ => ?_
      replace kept₂ := kept₁.trans kept₂
      cases holds with
      | false => exact .pure (kept₂.sound sound)
      | true =>
        refine .bind (bodySafe l₂ kept₂) fun completion l₃ kept₃ => ?_
        replace kept₃ := kept₂.trans kept₃
        cases completion with
        | normal => exact ih l₃ kept₃
        | «continue» target =>
          simp only
          split
          · exact ih l₃ kept₃
          · exact .pure (kept₃.sound sound)
        | «break» target => exact .pure (kept₃.sound sound)
        | «return» value => exact .pure (kept₃.sound sound)
  exact all turns l (.refl sound)

theorem SafeIn.handle {handler : Observed Local Completion} {param : String}
    (sound : l.Sound strategy context) (bodySafe : body.SafeIn strategy context l)
    (handlerSafe : ∀ l', l.Kept strategy context l' → handler.SafeIn strategy context l')
    (passes : ∀ l' signal, l'.act.caught = some signal → ∃ events,
      handler l' = (.unwind (.signal signal) { l' with act := { l'.act with caught := none } },
        events) ∧ ∀ event ∈ events, event.isGuard = true) :
        (handle body param handler).SafeIn strategy context l := by
  refine .attempt bodySafe (fun completion l₁ kept₁ => .pure (kept₁.sound sound))
    (fun reason l₁ kept₁ fits => ?_) ?_
  rotate_left
  · intro _ raised captureHandler stack l₁ _ _ tells
    obtain ⟨events, eq, guards⟩ := passes
      { l₁ with act := { l₁.act with caught := some (.capture captureHandler stack) } } _ rfl
    refine ⟨stack, l₁.act, l₁.machine.shadow, events, ?_, guards, tells⟩
    show (lift (Run.read _) >>= _) l₁ = _
    rw [read_bind]
    show (lift (Run.modify _) >>= _) l₁ = _
    rw [modify_bind, attempt_bind_of_unwind eq]
    exact Prod.ext rfl (List.append_nil events)
  have sound₁ := kept₁.sound sound
  cases reason with
  | throw value =>
    refine .bind (.declare sound₁ param value) fun _ l₂ kept₂ => ?_
    exact handlerSafe l₂ (kept₁.trans kept₂)
  | signal signal =>
    have held : l₁.Kept strategy context { l₁ with act := { l₁.act with caught := some signal } } :=
      .hold sound₁ fun held mem => Option.some.inj mem ▸ fits
    -- whatever the handler does, the activation holds again what it held before
    have released : ∀ l₂ (result : Except Unwind Completion), l₁.Kept strategy context l₂ →
        (∀ reason, result = .error reason → reason.Fits strategy l₂.machine) →
        (do
          lift (Exec.modifyAct ({ · with caught := l₁.act.caught }))
          lift (Run.settle result)).SafeIn strategy context l₂ := by
      intro l₂ result kept₂ resultFits
      have sound₂ := kept₂.sound sound₁
      refine .bind (.modify (.hold sound₂ fun held mem => ?_)) fun _ l₃ kept₃ => ?_
      · exact (sound₁.caught held mem).mono kept₂.machine
      · exact .settle (kept₃.sound sound₂) fun reason h => (resultFits reason h).mono kept₃.machine
    refine SafeIn.read (.bind (.modify held) fun _ l₂ kept₂ => ?_)
    refine .attempt (handlerSafe l₂ (kept₁.trans kept₂)) (fun completion l₃ kept₃ => ?_)
      (fun reason l₃ kept₃ fits₃ => ?_) ?_
    · exact released l₃ (.ok completion) (kept₂.trans kept₃) fun _ h => nomatch h
    · exact released l₃ (.error reason) (kept₂.trans kept₃) fun _ h => Except.error.inj h ▸ fits₃
    · intro _ raised captureHandler stack l₃ _ _ tells
      exact ⟨stack, _, l₃.machine.shadow, [], rfl, fun _ mem => (nomatch mem), tells⟩
  | fault fault => exact .unwind sound₁ fits

theorem SafeIn.withFinal {final : Observed Local Completion} (sound : l.Sound strategy context)
    (bodySafe : body.SafeIn strategy context l)
    (finalSafe : ∀ l', l.Kept strategy context l' → final.SafeIn strategy context l')
    (spares : ∀ l', l'.machine.capturing = true → ∃ events, final l' = (.ok .normal l', events) ∧
      ∀ event ∈ events, event.isGuard = true) : (withFinal body final).SafeIn strategy
      context l := by
  have finish : ∀ l₁ (result : Except Unwind Completion), l.Kept strategy context l₁ →
      (∀ reason, result = .error reason → reason.Fits strategy l₁.machine) →
      (settleAfter final result).SafeIn strategy context l₁ := by
    intro l₁ result kept₁ fits
    refine .bind (finalSafe l₁ kept₁) fun completion l₂ kept₂ => ?_
    have sound₂ := (kept₁.trans kept₂).sound sound
    cases completion with
    | normal => exact .settle sound₂ fun reason h => (fits reason h).mono kept₂.machine
    | _ => exact .pure sound₂
  refine .attempt bodySafe (fun completion l₁ kept₁ => ?_) (fun reason l₁ kept₁ fits => ?_) ?_
  · exact finish l₁ (.ok completion) kept₁ (by simp)
  · exact finish l₁ (.error reason) kept₁ fun _ h => Except.error.inj h ▸ fits
  · intro _ raised handler stack l₁ _ capturing tells
    obtain ⟨events, eq, guards⟩ := spares l₁ capturing
    refine ⟨stack, l₁.act, l₁.machine.shadow, events, ?_, guards, tells⟩
    rw [bind_of_ok eq]
    exact Prod.ext rfl (List.append_nil events)

/-- The frame of the activation is added to a capture. -/
theorem SafeIn.recording (isLazy : strategy = .lazy) (sound : l.Sound strategy context)
    (bodySafe : body.SafeIn strategy (l.act.point label :: context) l) :
    (Observed.recording label body).SafeIn strategy context l := by
  -- the frames that are kept for calls in progress do not matter here, and neither does the context
  have leave : ∀ {l₁}, l.Kept strategy (l.act.point label :: context) l₁ →
      l₁.Sound strategy context := by
    intro l₁ kept₁
    have sound₁ := kept₁.sound sound
    exact { sound₁ with
      machine := { sound₁.machine with calls := fun eager => nomatch isLazy.symm.trans eager } }
  refine .attempt bodySafe (fun completion l₁ kept₁ => .pure (leave kept₁))
    (fun reason l₁ kept₁ fits => ?_) ?_
  · have sound₁ := leave kept₁
    cases reason with
    | signal signal =>
      cases signal with
      | capture handler stack =>
        refine SafeIn.read (.unwind sound₁ ⟨fits.1, fits.2.1, fits.2.2.pushOuter ?_⟩)
        exact sound₁.captureFrame _ label
      | restore stack => exact .unwind sound₁ fits
      | discard replacement => exact .unwind sound₁ fits
    | throw value => exact .unwind sound₁ fits
    | fault fault => exact .unwind sound₁ fits
  · intro _ raised handler stack l₁ kept₁ _ tells
    refine ⟨_, l₁.act, l₁.machine.shadow, [], rfl, fun _ mem => (nomatch mem), ?_⟩
    have point : l₁.act.point label = l.act.point label := by rw [Activation.point, kept₁.func]; rfl
    subst isLazy
    rw [Stack.Tells, Stack.points_pushOuter, Activation.captureFrame_point, point]
    rw [Stack.Tells] at tells
    simpa using tells

/-- A frame of the activation is kept while the body runs. -/
theorem SafeIn.shadowing (eager : strategy = .eager) (sound : l.Sound strategy context)
    (bodySafe : ∀ l', l.Kept strategy (l.act.point label :: context) l' →
      body.SafeIn strategy (l.act.point label :: context) l') :
    (shadowing label body).SafeIn strategy context l := by
  let frame := l.act.captureFrame l.machine.store label
  have pushed : l.Kept strategy (l.act.point label :: context)
      ⟨l.act, { l.machine with shadow := l.machine.shadow.pushInner frame }⟩ := by
    refine .of_machine sound (.shadow sound.machine ?_ fun eager => ?_)
    · exact sound.machine.shadow.pushInner (sound.captureFrame _ label)
    · rw [Stack.points_pushInner, Activation.captureFrame_point, sound.machine.calls eager]
      rfl
  -- however the body ends, the frame is let go
  have finish : ∀ l₁ (result : Except Unwind Completion),
      l.Kept strategy (l.act.point label :: context) l₁ →
      (∀ reason, result = .error reason → reason.Fits strategy l₁.machine) →
      (do
        lift (Exec.modifyShadow (·.dropInner))
        lift (Run.settle result)).SafeIn strategy context l₁ := by
    intro l₁ result kept₁ fits
    have sound₁ := kept₁.sound sound
    have dropped : l₁.Kept strategy context
        ⟨l₁.act, { l₁.machine with shadow := l₁.machine.shadow.dropInner }⟩ := by
      refine .of_machine sound₁ (.shadow sound₁.machine sound₁.machine.shadow.dropInner fun eager =>
        ?_)
      rw [Stack.points_dropInner, sound₁.machine.calls eager]
      rfl
    refine Meets.modify ((SafeIn.settle (dropped.sound sound₁) ?_).after dropped)
    exact fun reason h => (fits reason h).mono dropped.machine
  refine SafeIn.read (Meets.modify (SafeIn.after ?_ pushed))
  refine .attempt (bodySafe _ pushed) (fun completion l₂ kept₂ => ?_) (fun reason l₂ kept₂ fits =>
    ?_) ?_
  · exact finish l₂ (.ok completion) (pushed.trans kept₂) fun _ h => nomatch h
  · exact finish l₂ (.error reason) (pushed.trans kept₂) fun _ h => Except.error.inj h ▸ fits
  · intro _ raised handler stack l₂ _ _ tells
    refine ⟨stack, l₂.act, _, [], rfl, fun _ mem => (nomatch mem), ?_⟩
    subst eager
    exact tells

theorem SafeIn.returnIfCapturing (sound : l.Sound strategy context) :
    (lift (Exec.returnIfCapturing label)).SafeIn strategy context l := by
  refine Meets.lift ?_
  unfold Exec.returnIfCapturing
  rw [Run.read_bind]
  split
  · rename_i capturing
    exact Local.Kept.of_machine sound (.collect sound.machine capturing
      (sound.captureFrame _ label))
  · exact Local.Kept.refl sound

theorem SafeIn.atPoint {body : Context → Observed Local Completion}
    (safe : (body (l.act.point label :: context)).SafeIn strategy context l) :
    (atPoint context label body).SafeIn strategy context l :=
  ⟨safe.told, safe.ends, safe.raised⟩

theorem SafeIn.countReturn (sound : l.Sound strategy context) :
    (lift (Stmt.stackInc.exec w.engine)).SafeIn strategy context l := by
  refine Meets.lift (Local.Kept.of_machine sound (.remaining sound.machine
    fun restoring idle size limited => ?_))
  obtain ⟨left, counted, enough⟩ := sound.machine.room restoring idle size limited
  exact ⟨left + 1, congrArg (Option.map (· + 1)) counted, Int.le_add_one enough⟩

theorem SafeIn.decl {f : Func} (sound : l.Sound strategy context) (ofCode : f.Resumes strategy) :
    (lift ((Stmt.decl f).exec w.engine)).SafeIn strategy context l := by
  have declared : (lift (Exec.ofEval fun act => Eval.modifyStore fun store =>
      store.declareFunc act.scope f)).SafeIn strategy context l :=
    .lift_quiet sound (.modifyStore fun s => s.declareFunc_calm _ ofCode)
  exact .bind declared fun _ l₁ kept₁ => .pure (kept₁.sound sound)

theorem SafeIn.rethrow (sound : l.Sound strategy context) :
    (lift Exec.rethrow).SafeIn strategy context l := by
  refine Meets.lift ?_
  unfold Exec.rethrow
  rw [Run.read_bind]
  cases caught : l.act.caught with
  | none => exact Local.Kept.refl sound
  | some signal =>
    exact ⟨.hold sound fun _ mem => (nomatch mem), sound.caught signal caught⟩

end Observed

section Statements

variable {strategy : Strategy} {w : Observer} {context : Context} {l : Local} {m : Machine}

/-- What follows a quiet computation begins in the same mode. -/
theorem Observed.Quiet.bind_safe {x : Observed Machine α} {k : α → Observed Machine β}
    (quiet : x.Quiet (Func.Resumes strategy)) (sound : m.Sound strategy context)
    (next : ∀ a m', m.Kept strategy context m' → m'.mode = m.mode →
      (k a).Safe strategy context m') :
    (x >>= k).Safe strategy context m := by
  refine Meets.bind (quiet.meets sound) fun a m' undisturbed => ?_
  have kept := undisturbed.kept sound
  have mode : m'.mode = m.mode := by
    obtain ⟨store, rfl, _⟩ := undisturbed
    rfl
  exact (next a m' kept mode).after kept

theorem Observed.Quiet.bind_safeIn {x : Activation → Observed Machine α} {k : α → Observed Local β}
    (quiet : (x l.act).Quiet (Func.Resumes strategy)) (sound : l.Sound strategy context)
    (next : ∀ a l', l.Kept strategy context l' → l'.machine.mode = l.machine.mode →
      (k a).SafeIn strategy context l') :
    (ofEval x >>= k).SafeIn strategy context l := by
  have first : (ofEval x).Meets strategy (Local.Delivered strategy context) l
      (fun _ l' => l.Kept strategy context l' ∧ l'.machine.mode = l.machine.mode)
      (fun reason l' => l.Kept strategy context l' ∧ reason.Fits strategy l'.machine) := by
    refine .ofEval ((quiet.meets sound.machine).weaken (fun a m' undisturbed => ?_)
      fun reason m' ends => ⟨.of_machine sound ends.1, ends.2⟩)
    refine ⟨.of_machine sound (undisturbed.kept sound.machine), ?_⟩
    obtain ⟨store, rfl, _⟩ := undisturbed
    rfl
  exact Meets.bind first fun a l' ends => (next a l' ends.1 ends.2).after ends.1

theorem Expr.Quiet.test_safe {e : Expr} {k : Bool → Observed Local α}
    (quiet : e.Quiet (Func.Resumes strategy)) (sound : l.Sound strategy context)
    (next : ∀ holds l', l.Kept strategy context l' → l'.machine.mode = l.machine.mode →
      (k holds).SafeIn strategy context l') :
    (e.observeTest w context >>= k).SafeIn strategy context l :=
  Observed.Quiet.bind_safeIn (.bind quiet.observe fun _ => .pure _) sound next

/-- The test for normal mode. -/
theorem Expr.isNormal_safe {k : Bool → Observed Local α}
    (whenNormal : l.machine.mode = .normal → (k true).SafeIn strategy context l)
    (whenRestoring : l.machine.mode = .restoring → (k false).SafeIn strategy context l) :
    (Expr.isNormal.observeTest w context >>= k).SafeIn strategy context l := by
  have test : (Expr.isNormal.observeTest w context).Meets strategy
      (Local.Delivered strategy context) l (fun holds l' => l' = l ∧
        holds = decide (l.machine.mode = .normal))
      (fun reason l' => l.Kept strategy context l' ∧ reason.Fits strategy l'.machine) := by
    exact .of_eq rfl (List.forall_mem_singleton.mpr ⟨trivial, trivial⟩)
      (fun _ => List.forall_mem_singleton.mpr rfl) ⟨rfl, rfl⟩
  refine Observed.Meets.bind test ?_
  rintro holds l' ⟨same, value⟩
  rw [same, value]
  cases mode : l.machine.mode with
  | normal => exact whenNormal mode
  | restoring => exact whenRestoring mode

/-- The value is evaluated once the parts of the target are, on the machine as it was but for the
store. -/
theorem Target.Quiet.safe {target : Target} {value : Expr}
    (quiet : target.Quiet (Func.Resumes strategy)) (sound : m.Sound strategy context) (valueSafe :
      ∀ m', m.Kept strategy context m' → m'.mode = m.mode →
      (value.observe w context act).Safe strategy context m') :
    (target.observe w context value act).Safe strategy context m := by
  cases quiet with
  | ident =>
    refine .bind (valueSafe m (.refl sound) rfl) fun value m₁ kept₁ => ?_
    exact (Observed.Quiet.lift (.modifyStore fun s => s.assign_calm _ _ value)).safe kept₁.sound
  | member base =>
    refine base.observe.bind_safe sound fun base m₁ kept₁ mode₁ => ?_
    refine .bind (valueSafe m₁ kept₁ mode₁) fun value m₂ kept₂ => ?_
    exact (Observed.Quiet.lift (Eval.still.giveProperty base _ value).quiet).safe kept₂.sound
  | index base key =>
    refine base.observe.bind_safe sound fun base m₁ kept₁ mode₁ => ?_
    refine key.observe.bind_safe kept₁.sound fun key m₂ kept₂ mode₂ => ?_
    refine .bind (valueSafe m₂ (kept₁.trans kept₂) (mode₂.trans mode₁)) fun value m₃ kept₃ => ?_
    exact (Observed.Quiet.lift (Eval.still.setIndex base key value).quiet).safe kept₃.sound

/-- A statement that waits for the value of the next frame. -/
theorem Stmt.Reentering.safe (observerSafe : w.Safe strategy)
    (reentering : s.Reentering (Func.Resumes strategy)) (sound : l.Sound strategy context)
    (restoring : l.machine.mode = .restoring) :
    (s.observe w context).SafeIn strategy context l := by
  have next : ∀ {act m}, m.Sound strategy context → m.mode = .restoring →
      (Expr.reenterNext.observe w context act).Safe strategy context m := by
    intro act m sound restoring
    rw [Expr.observe]
    exact .noted ⟨trivial, trivial⟩ rfl (observerSafe _ _ m sound (.inr ⟨restoring, .inl rfl⟩))
  induction reentering generalizing l with
  | letS =>
    rw [Stmt.observe]
    refine .noted ⟨trivial, trivial⟩ rfl (.bind (.ofEval sound (next sound.machine restoring))
      fun value l₁ kept₁ => ?_)
    have sound₁ := kept₁.sound sound
    exact .bind (.declare sound₁ _ value) fun _ l₂ kept₂ => .pure (kept₂.sound sound₁)
  | assign target =>
    rw [Stmt.observe]
    refine .noted ⟨trivial, trivial⟩ rfl (.bind (.ofEval sound ?_) fun _ l₁ kept₁ =>
      .pure (kept₁.sound sound))
    exact target.safe sound.machine fun m kept mode => next kept.sound (mode.trans restoring)
  | expr =>
    rw [Stmt.observe]
    refine .noted ⟨trivial, trivial⟩ rfl (.bind ?_ fun _ l₁ kept₁ => .pure (kept₁.sound sound))
    exact .discard sound (.ofEval sound (next sound.machine restoring))
  | guarded test _ ih =>
    rw [Stmt.guarded, Stmt.observe]
    refine .noted ⟨trivial, trivial⟩ rfl (test.test_safe sound fun holds l₁ kept₁ mode => ?_)
    cases holds with
    | false => exact .pure (kept₁.sound sound)
    | true => exact ih (kept₁.sound sound) (mode.trans restoring)

theorem Stmt.observeList_safe {body : List Stmt} (sound : l.Sound strategy context)
    (safe : ∀ s ∈ body, ∀ l', l.Kept strategy context l' →
      (s.observe w context).SafeIn strategy context l') :
    (Stmt.observeList w context body).SafeIn strategy context l := by
  induction body generalizing l with
  | nil => exact .pure sound
  | cons s rest ih =>
    rw [List.forall_mem_cons] at safe
    refine .bind (safe.1 l (.refl sound)) fun completion l₁ kept₁ => ?_
    have sound₁ := kept₁.sound sound
    cases completion with
    | normal => exact ih sound₁ fun s mem l' kept => safe.2 s mem l' (kept₁.trans kept)
    | _ => exact .pure sound₁

theorem Stmt.observeOption_safe {o : Option Stmt} (sound : l.Sound strategy context)
    (safe : ∀ s ∈ o, (s.observe w context).SafeIn strategy context l) :
    (Stmt.observeOption w context o).SafeIn strategy context l := by
  cases o with
  | none => exact .pure sound
  | some s => exact safe s rfl

/-- A handler that was entered for a signal raises it again before it does anything else. -/
theorem Stmt.observe_of_passesSignals (passes : s.passesSignals = true) {signal : Signal}
    (caught : l.act.caught = some signal) :
    ∃ events, s.observe w context l =
        (.unwind (.signal signal) { l with act := { l.act with caught := none } }, events) ∧
      ∀ event ∈ events, event.isGuard = true := by
  unfold Stmt.passesSignals at passes
  split at passes
  · rename_i name rest
    obtain ⟨act, m⟩ := l
    obtain ⟨scope, this, func, callee, args, argCount, target, newTarget, held⟩ := act
    cases caught
    refine ⟨[_, _], rfl, ?_⟩
    exact List.forall_mem_cons.mpr ⟨rfl, List.forall_mem_singleton.mpr rfl⟩
  · cases passes

/-- A `finally` part does nothing to a capture. -/
theorem Stmt.observe_of_sparesCaptures (spares : s.sparesCaptures = true)
    (capturing : l.machine.capturing = true) : ∃ events, s.observe w context l = (.ok .normal l,
      events) ∧ ∀ event ∈ events, event.isGuard = true := by
  unfold Stmt.sparesCaptures at spares
  split at spares
  · rename_i body
    have run : (Stmt.ifS (.unary .not .capturing) body none).observe w context l = (.ok .normal l,
        [.stmt (.ifS (.unary .not .capturing) body none) l, .expr (.unary .not .capturing) l.act
          l.machine, .expr .capturing l.act l.machine]) := by
      obtain ⟨act, m⟩ := l
      cases m
      cases capturing
      rfl
    refine ⟨_, run, ?_⟩
    simp [Event.isGuard]
  · cases spares

theorem Handler.observeOption_safe {o : Option Handler} (sound : l.Sound strategy context)
    (bodySafe : body.SafeIn strategy context l) (passes : ∀ h ∈ o, h.body.passesSignals = true)
    (safe : ∀ h ∈ o, ∀ l', l.Kept strategy context l' → (h.body.observe w context).SafeIn strategy
      context l') :
    (Handler.observeOption w context body o).SafeIn strategy context l := by
  cases o with
  | none => exact bodySafe
  | some h =>
    obtain ⟨param, handler⟩ := h
    refine .handle sound bodySafe (safe ⟨param, handler⟩ rfl) fun l' signal caught => ?_
    exact Stmt.observe_of_passesSignals (passes ⟨param, handler⟩ rfl) caught

/-- A `finally` part that may be left out. -/
theorem Stmt.observeOption_spares {final : Option Stmt}
    (spares : ∀ s ∈ final, s.sparesCaptures = true) (capturing : l.machine.capturing = true) :
    ∃ events, Stmt.observeOption w context final l = (.ok .normal l, events) ∧
      ∀ event ∈ events, event.isGuard = true := by
  cases final with
  | none => exact ⟨[], rfl, fun _ mem => nomatch mem⟩
  | some s => exact Stmt.observe_of_sparesCaptures (spares s rfl) capturing

/-- A value that is bound to a name. -/
theorem Stmt.letS_safe {name : String} {init : Option Expr} (sound : l.Sound strategy context)
    (safe : (Expr.observeOption w context l.act init).Safe strategy context l.machine) :
    ((Stmt.letS name init).observe w context).SafeIn strategy context l := by
  rw [Stmt.observe]
  refine .noted ⟨trivial, trivial⟩ rfl (.bind (.ofEval sound safe) fun value l₁ kept₁ => ?_)
  have sound₁ := kept₁.sound sound
  exact .bind (.declare sound₁ name value) fun _ l₂ kept₂ => .pure (kept₂.sound sound₁)

theorem Stmt.returnS_safe {value : Option Expr} (sound : l.Sound strategy context)
    (safe : (Expr.observeOption w context l.act value).Safe strategy context l.machine) :
    ((Stmt.returnS value).observe w context).SafeIn strategy context l := by
  rw [Stmt.observe]
  refine .noted ⟨trivial, trivial⟩ rfl (.bind (.ofEval sound safe) fun value l₁ kept₁ => ?_)
  exact .pure (kept₁.sound sound)

theorem Expr.observeOption_safe {value : Option Expr} (sound : m.Sound strategy context)
    (safe : ∀ e ∈ value, (e.observe w context act).Safe strategy context m) :
    (Expr.observeOption w context act value).Safe strategy context m := by
  cases value with
  | none => exact (Observed.Quiet.pure _).safe sound
  | some e => exact safe e rfl

/-- A statement in two modes.  The induction is on the grammar; that normal mode is not left again
lets the parts of a statement for normal mode be for normal mode. -/
theorem Stmt.Dual.safe (observerSafe : w.Safe strategy) {normal : Bool}
    (dual : s.Dual strategy (Func.Resumes strategy) normal) (sound : l.Sound strategy context)
    (mode : normal = true → l.machine.mode = .normal) :
    (s.observe w context).SafeIn strategy context l := by
  induction dual generalizing l context with
  | select inner reentering ih =>
    rw [Stmt.observe]
    refine .noted ⟨trivial, trivial⟩ rfl (Expr.isNormal_safe (fun isNormal => ?_) fun restoring =>
      ?_)
    · exact ih sound fun _ => isNormal
    · exact Stmt.observeOption_safe sound fun r mem =>
        (reentering r mem).safe observerSafe sound restoring
  | shadow eager _ ih =>
    rw [Stmt.observe]
    refine .noted ⟨trivial, trivial⟩ rfl (.atPoint (.shadowing eager sound fun l' kept => ?_))
    exact ih (kept.sound sound) fun h => kept.machine.normal (mode h)
  | record isLazy _ ih =>
    rw [Stmt.observe]
    refine .noted ⟨trivial, trivial⟩ rfl (.atPoint (.recording isLazy sound (ih ?_ mode)))
    exact { sound with
      machine := { sound.machine with calls := fun eager => nomatch isLazy.symm.trans eager } }
  | collect _ =>
    rw [Stmt.observe]
    exact .noted ⟨trivial, trivial⟩ rfl (.returnIfCapturing sound)
  | block _ ih =>
    rw [Stmt.observe]
    refine .noted ⟨trivial, trivial⟩ rfl (Stmt.observeList_safe sound fun s mem l' kept => ?_)
    exact ih s mem (kept.sound sound) fun h => kept.machine.normal (mode h)
  | branch test _ _ thenIH elseIH =>
    rw [Stmt.observe]
    refine .noted ⟨trivial, trivial⟩ rfl (test.test_safe sound fun holds l₁ kept₁ _ => ?_)
    have sound₁ := kept₁.sound sound
    have mode₁ := fun h => kept₁.machine.normal (mode h)
    cases holds with
    | true => exact thenIH sound₁ mode₁
    | false => exact Stmt.observeOption_safe sound₁ fun s mem => elseIH s mem sound₁ mode₁
  | loop test _ ih =>
    rw [Stmt.observe]
    refine .noted ⟨trivial, trivial⟩ rfl (.loop sound (fun l' kept => ?_) (fun l' kept => ?_) _)
    · exact .ofEval (kept.sound sound)
        ((Observed.Quiet.bind test.observe fun _ => .pure _).safe kept.machine.sound)
    · exact ih (kept.sound sound) fun h => kept.machine.normal (mode h)
  | labeled notLoop _ ih =>
    rw [Stmt.observe]
    · refine .noted ⟨trivial, trivial⟩ rfl (.bind (ih sound mode) fun completion l₁ kept₁ => ?_)
      exact .pure (kept₁.sound sound)
    · intro test body h
      rw [h] at notLoop
      cases notLoop
  | attempt _ passes _ spares _ bodyIH handlerIH finalIH =>
    rw [Stmt.observe]
    refine .noted ⟨trivial, passes⟩ rfl (.withFinal sound ?_ (fun l' kept => ?_) fun l' capturing =>
      ?_)
    · refine Handler.observeOption_safe sound (bodyIH sound mode) passes fun h mem l' kept => ?_
      exact handlerIH h mem (kept.sound sound) fun h => kept.machine.normal (mode h)
    · refine Stmt.observeOption_safe (kept.sound sound) fun s mem => ?_
      exact finalIH s mem (kept.sound sound) fun h => kept.machine.normal (mode h)
    · exact Stmt.observeOption_spares spares capturing
  | rethrow =>
    rw [Stmt.observe]
    exact .noted ⟨trivial, trivial⟩ rfl (.rethrow sound)
  | bind value => exact Stmt.letS_safe sound (value.observe.safe sound.machine)
  | throwS value =>
    rw [Stmt.observe]
    refine .noted ⟨trivial, trivial⟩ rfl (.bind (.ofEval sound (value.observe.safe sound.machine))
      ?_)
    exact fun value l₁ kept₁ => .unwind (kept₁.sound sound) trivial
  | answer value =>
    refine Stmt.returnS_safe sound (Expr.observeOption_safe sound.machine fun e mem => ?_)
    exact (value e mem).observe.safe sound.machine
  | stackInc =>
    rw [Stmt.observe]
    exact .noted ⟨trivial, trivial⟩ rfl (.countReturn sound)
  | letS live =>
    refine Stmt.letS_safe sound (Expr.observeOption_safe sound.machine fun e mem => ?_)
    exact (live e mem).safe observerSafe sound.machine (mode rfl)
  | assign target live =>
    rw [Stmt.observe]
    refine .noted ⟨trivial, trivial⟩ rfl (.bind (.ofEval sound ?_) fun _ l₁ kept₁ =>
      .pure (kept₁.sound sound))
    exact target.safe sound.machine fun m kept same =>
      live.safe observerSafe kept.sound (same.trans (mode rfl))
  | expr live =>
    rw [Stmt.observe]
    refine .noted ⟨trivial, trivial⟩ rfl (.bind ?_ fun _ l₁ kept₁ => .pure (kept₁.sound sound))
    exact .discard sound (.ofEval sound (live.safe observerSafe sound.machine (mode rfl)))
  | decl ofCode =>
    rw [Stmt.observe]
    exact .noted ⟨trivial, trivial⟩ rfl (.decl sound ofCode)
  | breakS =>
    rw [Stmt.observe]
    exact .noted ⟨trivial, trivial⟩ rfl (.pure sound)
  | returnS live =>
    exact Stmt.returnS_safe sound (live.safe observerSafe sound.machine (mode rfl))

end Statements

end Resumable
