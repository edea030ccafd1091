import Resumable.Machine.Host
import Resumable.Proofs.Entry
import Resumable.Proofs.Loaded

/-!
Sessions with compiled programs.

A session is what a host does with one machine: it runs programs that were compiled for the strategy
of the machine, queues the delivery of values to continuations, and does the queued tasks.  Every
machine of a session is sound, and so is every machine between two turns of a slice, also of a slice
that never ends.  Frame faults are therefore out of reach: wherever a frame is expected there is
one, and it fits.
-/

namespace Resumable

variable {next : Next} {bound : Nat} {result : Except Fault Outcome} {program : Program}
  {task : Task}

/-! ## Continuations -/

section Continuations

variable {strategy : Strategy} {store store' : Store}

section

variable (same : store'.closures = store.closures)

include same

/-- What is known of an activation depends on the closures only, and so it is with what fits. -/
theorem Activation.Known.of_closures {act : Activation} (known : act.Known strategy store) :
    act.Known strategy store' := by
  refine ⟨known.1, fun closure mem => ?_⟩
  rw [Store.closure, same]
  exact known.2 closure mem

theorem Frame.Fits.of_closures {frame : Frame} (fits : frame.Fits strategy store) :
    frame.Fits strategy store' := by
  cases frame with
  | top action => exact fits
  | call frame =>
    cases fits with
    | activation known eq => exact .activation (known.of_closures same) eq
    | construction framed => exact .construction framed

theorem CaptureHandler.Fits.of_closures {handler : CaptureHandler}
    (fits : handler.Fits strategy store) : handler.Fits strategy store' := by
  cases handler with
  | reenter action =>
    obtain ⟨act, known, again⟩ := fits
    exact ⟨act, known.of_closures same, again⟩
  | guest func => trivial
  | yield => trivial

theorem Stack.Fits.of_closures {stack : Stack} (fits : stack.Fits strategy store) :
    stack.Fits strategy store' :=
  fun frame mem => (fits frame mem).of_closures same

end

end Continuations

/-! ## Turns -/

/-- What is done in the next turn can be begun on a sound machine. -/
def Next.Fits (strategy : Strategy) (store : Store) : Next → Prop
  | .run action => action.Startable strategy
  | .restore stack => stack.Fits strategy store ∧ stack.Topped

/-- A slice goes on with what can be begun, or ends in another way than by a frame fault. -/
def Turn.Fits (strategy : Strategy) (store : Store) : Turn → Prop
  | .next following => following.Fits strategy store
  | .ended (.error fault) => fault.isFrameFault = false
  | .ended (.ok _) => True

namespace Machine

/-- The invariant between turns, where neither the mode nor the calls that were in progress matter.
-/
def Coherent (strategy : Strategy) (m : Machine) : Prop :=
  { m with mode := .normal, shadow := .empty }.Sound strategy []

/-- What follows from a turn is as it should be. -/
def Proceeds (strategy : Strategy) (step : Turn × Machine) : Prop :=
  step.2.Coherent strategy ∧ step.1.Fits strategy step.2.store

variable {strategy : Strategy} {m : Machine} {stack : Stack}

theorem Sound.coherent {context : Context} (sound : m.Sound strategy context) :
    m.Coherent strategy :=
  { sound with
    shadow := .empty, calls := fun _ => rfl, topped := fun h => (nomatch h), room := fun h =>
      nomatch h }

section

variable (coherent : m.Coherent strategy)

include coherent

/-- The stack that is made the one to be built up may be cut, but not above its top frame. -/
theorem Coherent.install (fits : stack.Fits strategy m.store) (topped : stack.Topped) :
    (m.install stack).Sound strategy [] := by
  unfold Machine.install Machine.segment
  cases limited : m.options.stackSize with
  | none =>
    exact { coherent with
      stack := fits
      topped := fun _ => topped
      room := fun _ _ size h => nomatch limited.symm.trans h }
  | some size =>
    have inner : (stack.splitOuter (m.options.restoreFrames + 1)).1.Fits strategy m.store :=
      fun frame mem => fits frame (List.mem_of_mem_take mem)
    have outer : (stack.splitOuter (m.options.restoreFrames + 1)).2.Fits strategy m.store :=
      fun frame mem => fits frame (List.mem_of_mem_drop mem)
    have innerTopped : (stack.splitOuter (m.options.restoreFrames + 1)).1.Topped := by
      obtain ⟨action, rest, eq⟩ := topped
      exact ⟨action, rest.take m.options.restoreFrames, by simp [Stack.splitOuter, eq]⟩
    exact { coherent with
      stack := inner
      pending := outer.appendOuter coherent.pending
      topped := fun _ => innerTopped
      room := fun _ _ size' h => by
        cases limited.symm.trans h
        exact ⟨_, rfl, Int.le_refl _⟩ }

/-- A turn under observation. -/
theorem Coherent.observed_meets (fits : next.Fits strategy m.store) (bound : Nat) :
    (observed bound next).Meets strategy (Delivered strategy []) m (fun _ m' =>
      m'.Sound strategy []) (fun reason m' => m'.Sound strategy [] ∧ reason.Fits strategy m') := by
  have observerSafe : (observer bound bound).1.Safe strategy := observer_safe bound bound
  refine .modify ?_
  cases next with
  | run action =>
    have begun : { m with
        remaining := m.options.stackSize.map Int.ofNat, mode := .normal, stack := .empty,
        shadow := .empty }.Sound strategy [] :=
      { coherent with stack := .empty, topped := fun h => (nomatch h), room := fun h => nomatch h }
    refine .modify ((observerSafe [] action _ begun (.inl ⟨rfl, fits⟩)).weaken ?_ ?_)
    · exact fun _ _ kept => kept.sound
    · exact fun _ _ ends => ⟨ends.1.sound, ends.2⟩
  | restore stack =>
    have counted : { m with remaining := m.options.stackSize.map Int.ofNat }.Coherent strategy :=
      { coherent with room := fun h => nomatch h }
    have notEmpty : stack.isEmpty = false := fits.2.isEmpty
    simp only [notEmpty, Bool.false_eq_true, if_false]
    have installed := counted.install fits.1 fits.2
    have restoring : (Machine.install stack { m with
        remaining := m.options.stackSize.map Int.ofNat }).mode = .restoring := rfl
    refine .modify ((Eval.observeReenterNext_safe observerSafe installed restoring).weaken ?_ ?_)
    · exact fun _ _ kept => kept.sound
    · exact fun _ _ ends => ⟨ends.1.sound, ends.2⟩

/-! ## What follows from a turn -/

theorem Coherent.afterCapture {handler : CaptureHandler}
    (handlerFits : handler.Fits strategy m.store) (fits : stack.Fits strategy m.store) :
    Proceeds strategy (m.afterCapture handler stack) := by
  have whole : (stack.appendOuter m.pending).Fits strategy m.store :=
    fits.appendOuter coherent.pending
  have captured : { m with
      capturing := false, pending := .empty,
      stats.captures := m.stats.captures + 1 }.Coherent strategy :=
    { coherent with pending := .empty, room := fun h => nomatch h }
  cases handler with
  | guest func =>
    have continued : ∀ stack' : Stack, stack'.Fits strategy m.store →
        stack'.Fits strategy (m.store.newContinuation (stack.appendOuter m.pending)).2 :=
      fun stack' fits' => fits'.of_closures (by rfl)
    refine ⟨?_, (continued _ whole).pushInner trivial, .pushInner _ _⟩
    exact { captured with
      continuations := fun stack' mem => by
        rcases Array.mem_push.mp mem with mem | rfl
        · exact continued _ (coherent.continuations stack' mem)
        · exact continued _ whole
      stack := continued _ coherent.stack
      shadow := .empty
      pending := .empty
      handler := fun held mem => (coherent.handler held mem).of_closures rfl
      tasks := fun task mem => (coherent.tasks task mem).imp fun _ fits =>
        ⟨continued _ fits.1, fits.2⟩ }
  | reenter action =>
    obtain ⟨act, known, rfl⟩ := handlerFits
    exact ⟨captured, whole.pushInner known.startAgain, .pushInner _ _⟩
  | yield =>
    refine ⟨?_, trivial⟩
    exact { captured with
      tasks := fun task mem => by
        rcases List.mem_append.mp mem with mem | mem
        · exact coherent.tasks task mem
        · cases List.mem_singleton.mp mem
          exact .resume ⟨whole.pushInner trivial, .pushInner _ _⟩ }

theorem Coherent.nextSegment {top : Action} (startable : top.Startable strategy) :
    Proceeds strategy (m.nextSegment top) :=
  ⟨{ coherent with pending := .empty }, coherent.pending.pushInner startable, .pushInner _ _⟩

theorem Coherent.afterResult (value : Value) : Proceeds strategy (m.afterResult value) := by
  unfold Machine.afterResult
  split
  · have handlerFits : (m.pendingHandler.getD .yield).Fits strategy m.store := by
      cases held : m.pendingHandler with
      | none => trivial
      | some handler => exact coherent.handler handler held
    have released : { m with pendingHandler := none, stack := .empty }.Coherent strategy :=
      { coherent with
        stack := .empty
        handler := fun _ mem => nomatch mem
        topped := fun h => nomatch h
        room := fun h => nomatch h }
    exact released.afterCapture handlerFits coherent.stack
  · split
    · exact ⟨coherent, trivial⟩
    · exact coherent.nextSegment trivial

end

theorem replacementAction_startable (replacement : Value) :
    (replacementAction replacement).Startable strategy := by
  unfold replacementAction
  split <;> trivial

theorem Coherent.afterSignal (coherent : m.Coherent strategy) {signal : Signal}
    (fits : signal.Fits strategy m) :
    Proceeds strategy (m.afterSignal signal) := by
  cases signal with
  | capture handler stack => exact coherent.afterCapture fits.2.1 fits.2.2
  | restore stack => exact ⟨{ coherent with pending := .empty }, fits⟩
  | discard replacement =>
    exact ⟨{ coherent with pending := .empty }, replacementAction_startable replacement⟩

/-- A turn leads to what can be begun, and does not end in a frame fault. -/
theorem Coherent.turn (coherent : m.Coherent strategy) (fits : next.Fits strategy m.store)
    {step : Turn × Machine} (done : m.turn bound next = some step) : Proceeds strategy step := by
  have ends := (coherent.observed_meets fits bound).ends
  rw [erase_observed] at ends
  cases turned done with
  | result ending =>
    rw [ending] at ends
    exact ends.coherent.afterResult _
  | uncaught _ ending _ =>
    rw [ending] at ends
    exact ⟨ends.1.coherent, rfl⟩
  | caught ending =>
    rw [ending] at ends
    exact ends.1.coherent.nextSegment trivial
  | signal ending =>
    rw [ending] at ends
    exact ends.1.coherent.afterSignal ends.2
  | fault ending =>
    rw [ending] at ends
    exact ⟨ends.1.coherent, Fault.not_frameFault_of_isStrayJump ends.2⟩

/-- What every turn of a slice keeps up to its last one, the slice does. -/
theorem drive_induction {turns : Nat} {m m' : Machine} (during : Next → Machine → Prop)
    (ended : Except Fault Outcome → Machine → Prop)
    (goesOn : ∀ next m following m', during next m → m.turn bound next = some (.next following,
      m') → during following m')
    (ends : ∀ next m result m', during next m → m.turn bound next = some (.ended result, m') →
      ended result m')
    (begins : during next m) (done : m.drive bound turns next = some (result, m')) :
    ended result m' := by
  induction turns generalizing next m with
  | zero => cases done
  | succ turns ih =>
    unfold drive at done
    cases taken : m.turn bound next with
    | none =>
      rw [taken] at done
      cases done
    | some step =>
      obtain ⟨turn, m₁⟩ := step
      rw [taken] at done
      cases turn with
      | next following => exact ih (goesOn next m following m₁ begins taken) done
      | ended _ =>
        cases done
        exact ends next m _ _ begins taken

/-- A slice does not end in a frame fault. -/
theorem Coherent.drive {turns : Nat} {m' : Machine} (coherent : m.Coherent strategy)
    (fits : next.Fits strategy m.store) (done : m.drive bound turns next = some (result, m')) :
    m'.Coherent strategy ∧ ∀ fault, result = .error fault → fault.isFrameFault = false := by
  refine drive_induction (fun next m => m.Coherent strategy ∧ next.Fits strategy m.store)
    (fun result m => m.Coherent strategy ∧ ∀ fault, result = .error fault →
      fault.isFrameFault = false)
    (fun next m following m₁ holds taken => holds.1.turn holds.2 taken)
      (fun next m result m₁ holds taken => ?_)
    ⟨coherent, fits⟩ done
  obtain ⟨coherent₁, turnFits⟩ := holds.1.turn holds.2 taken
  refine ⟨coherent₁, fun fault h => ?_⟩
  rw [h] at turnFits
  exact turnFits

end Machine

/-! ## Sessions -/

/-- A program as a machine is given it: compiled for the strategy, and with numbered functions. -/
def Program.CompiledFor (strategy : Strategy) (program : Program) : Prop :=
  ∃ (source compiled : Program) (options : CompileOptions) (site : Nat),
    source.compile options = .ok compiled ∧ options.strategy = strategy ∧
      program = (compiled.number site).1

/-- A task that a host can queue: all that it resumes are continuations of the machine, with values
for them. -/
def Machine.Offers (m : Machine) (task : Task) : Prop :=
  task.All fun stack => ∃ continuation value, stack =
    (m.store.continuation continuation).pushInner (.top (.value value))

/-- The machines that a host can have in its hands: one that is new, and what becomes of it when
compiled programs are run, tasks are queued and done, and globals are set. -/
inductive Session (strategy : Strategy) : Machine → Prop
  | new {options : RunOptions} : options.check = .ok () → Session strategy (.new strategy options)
  | run {m m' : Machine} {program : Program} {bound : Nat} {result : Except Fault Outcome} :
      Session strategy m → program.CompiledFor strategy → m.run bound program = some (result, m') →
      Session strategy m'
  | queue {m : Machine} {task : Task} : Session strategy m → m.Offers task →
      Session strategy (m.enqueue task)
  | setGlobal {m : Machine} (name : String) (value : Value) :
      Session strategy m → Session strategy (m.setGlobal name value)
  | hostTask {m m' : Machine} {lines : List String} {queued : List Task} :
      Session strategy m → m.nextTask? = some (.host lines queued, m') →
        Session strategy (m'.doWork lines queued)
  | resumeTask {m m' m'' : Machine} {stack : Stack} {bound : Nat} {result : Except Fault Outcome} :
      Session strategy m → m.nextTask? = some (.resume stack, m') →
      m'.continueWith bound stack = some (result, m'') → Session strategy m''

/-- The turns that a machine can come to in one slice, be it one that ends or not. -/
inductive Machine.Reaches (strategy : Strategy) (m : Machine) : Next → Machine → Prop
  | run {program : Program} : program.CompiledFor strategy →
      Machine.Reaches strategy m (.run (.enterTop (Machine.top program))) (m.setInterval program)
  | task {m' : Machine} {stack : Stack} : m.nextTask? = some (.resume stack, m') →
      Machine.Reaches strategy m (.restore stack) m'
  | turn {m₁ m₂ : Machine} {next₁ next₂ : Next} {bound : Nat} :
      Machine.Reaches strategy m next₁ m₁ → m₁.turn bound next₁ = some (.next next₂, m₂) →
        Machine.Reaches strategy m next₂ m₂

section Sessions

variable {strategy : Strategy} {m m' : Machine}

theorem Program.CompiledFor.top (compiled : program.CompiledFor strategy) :
    (Machine.top program).Resumes strategy ∧
      program.instrumented.map (·.strategy) = some strategy := by
  obtain ⟨source, compiled, options, site, ok, rfl, rfl⟩ := compiled
  exact Program.number_resumable ok site

/-- A program that is compiled for the strategy of the machine is not refused. -/
theorem Program.CompiledFor.run_eq (compiled : program.CompiledFor strategy)
    (runs : m.strategy = strategy) (bound : Nat) : m.run bound program =
      (m.setInterval program).drive bound bound (.run (.enterTop (Machine.top program))) := by
  simp only [Machine.run, compiled.top.2, Option.getD_some, runs, ne_eq, not_true_eq_false,
    if_false]

theorem Machine.Coherent.setInterval (coherent : m.Coherent strategy) (program : Program) :
    (m.setInterval program).Coherent strategy :=
  { coherent with runs := coherent.runs }

/-- Tasks that are queued behind others. -/
theorem Machine.Coherent.queue (coherent : m.Coherent strategy) {queued : List Task}
    (fits : ∀ task ∈ queued, task.All fun stack => stack.Fits strategy m.store ∧ stack.Topped) :
    { m with tasks := m.tasks ++ queued }.Coherent strategy :=
  { coherent with tasks := List.forall_mem_append.mpr ⟨coherent.tasks, fits⟩ }

theorem Machine.nextTask_eq (taken : m.nextTask? = some (task, m')) :
    ∃ rest, m.tasks = task :: rest ∧ m' = { m with tasks := rest } := by
  unfold Machine.nextTask? at taken
  split at taken
  · cases taken
  · rename_i queued
    cases taken
    exact ⟨_, queued, rfl⟩

/-- The oldest task is taken from the queue. -/
theorem Machine.Coherent.nextTask (coherent : m.Coherent strategy)
    (taken : m.nextTask? = some (task, m')) : m'.Coherent strategy ∧ task.All fun stack =>
    stack.Fits strategy m'.store ∧ stack.Topped := by
  obtain ⟨rest, queued, rfl⟩ := Machine.nextTask_eq taken
  have all := coherent.tasks
  rw [queued, List.forall_mem_cons] at all
  exact ⟨{ coherent with tasks := all.2 }, all.1⟩

theorem Machine.Coherent.run (coherent : m.Coherent strategy)
    (compiled : program.CompiledFor strategy) (done : m.run bound program = some (result, m')) :
    m'.Coherent strategy ∧ ∀ fault, result = .error fault → fault.isFrameFault = false := by
  have runs : m.strategy = strategy := coherent.runs
  rw [compiled.run_eq runs] at done
  have fits : Next.Fits strategy m.store (.run (.enterTop (Machine.top program))) := compiled.top.1
  exact (coherent.setInterval program).drive fits done

theorem Machine.Coherent.continueWith {stack : Stack} (coherent : m.Coherent strategy)
    (fits : stack.Fits strategy m.store ∧ stack.Topped)
    (done : m.continueWith bound stack = some (result, m')) :
    m'.Coherent strategy ∧ ∀ fault, result = .error fault → fault.isFrameFault = false := by
  have nextFits : Next.Fits strategy m.store (.restore stack) := fits
  exact coherent.drive nextFits done

/-- On a new machine there is no code yet. -/
theorem Machine.new_coherent (options : RunOptions) :
    (Machine.new strategy options).Coherent strategy := by
  have calm : ({} : Store).Calm (Func.Resumes strategy) Machine.initialStore := .of_eq rfl rfl
  exact {
    runs := rfl
    code := calm.closures_code fun _ mem => by simp at mem
    continuations := fun stack mem => by
      replace mem : stack ∈ Machine.initialStore.continuations := mem
      rw [calm.continuations] at mem
      simp at mem
    stack := .empty
    shadow := .empty
    pending := .empty
    tasks := fun _ mem => nomatch mem
    handler := fun _ mem => nomatch mem
    topped := fun h => nomatch h
    room := fun h => nomatch h
    calls := fun _ => rfl }

theorem Session.coherent (session : Session strategy m) : m.Coherent strategy := by
  induction session with
  | new _ => exact Machine.new_coherent _
  | run _ compiled done ih => exact (ih.run compiled done).1
  | queue _ offers ih =>
    refine ih.queue (List.forall_mem_singleton.mpr (offers.imp ?_))
    rintro _ ⟨continuation, value, rfl⟩
    exact ⟨(Machine.Sound.continuation ih continuation).pushInner trivial, .pushInner _ _⟩
  | setGlobal name value _ ih => exact Machine.Sound.of_calm ih (Store.declare_calm _ _ _ _)
  | hostTask _ taken ih =>
    obtain ⟨coherent, fits⟩ := ih.nextTask taken
    have queued := coherent.queue fits.queued
    exact { queued with runs := queued.runs }
  | resumeTask _ taken done ih =>
    obtain ⟨coherent, fits⟩ := ih.nextTask taken
    exact (coherent.continueWith (fits.stack) done).1

/-- Every turn of a slice begins on a machine that is ready for it. -/
theorem Machine.Reaches.coherent (coherent : m.Coherent strategy)
    (reaches : m.Reaches strategy next m') : m'.Coherent strategy ∧
    next.Fits strategy m'.store := by
  induction reaches with
  | run compiled => exact ⟨coherent.setInterval _, compiled.top.1⟩
  | task taken => exact ⟨(coherent.nextTask taken).1, (coherent.nextTask taken).2.stack⟩
  | turn _ done ih => exact ih.1.turn ih.2 done

/-- Frame faults are out of the reach of a machine. -/
structure Machine.FrameSafe (strategy : Strategy) (m : Machine) : Prop where
  /-- No program fails with one. -/
  run : ∀ program bound fault m', program.CompiledFor strategy →
    m.run bound program = some (.error fault, m') → fault.isFrameFault = false
  /-- No program that is resumed fails with one. -/
  task : ∀ stack m₁ bound fault m', m.nextTask? = some (.resume stack, m₁) →
    m₁.continueWith bound stack = some (.error fault, m') → fault.isFrameFault = false
  /-- Whatever begins in restoring mode finds the frame that it expects: a function and a
  construction one that they recorded themselves, of their own shape, and the entry into the next
  frame a stack that is not empty. -/
  turns : ∀ next m', m.Reaches strategy next m' → ∀ bound, ∀ event ∈ m'.chronicle bound next,
    event.Fits

/-- **Frame faults are unreachable from compiled code**, at every point of every session. -/
theorem Session.frameSafe (session : Session strategy m) : m.FrameSafe strategy where
  run program bound fault m' compiled done := (session.coherent.run compiled done).2 fault rfl
  task stack m₁ bound fault m' taken done := by
    obtain ⟨coherent, fits⟩ := session.coherent.nextTask taken
    exact (coherent.continueWith fits.stack done).2 fault rfl
  turns next m' reaches bound := by
    obtain ⟨coherent, fits⟩ := reaches.coherent session.coherent
    exact fun event mem => ((coherent.observed_meets fits bound).told event mem).1

theorem Program.compile_of_toOption {compiled : Program} {options : CompileOptions}
    (ok : (program.compile options).toOption = some compiled) : program.compile options =
    .ok compiled := by
  cases h : program.compile options with
  | error e => rw [h] at ok; cases ok
  | ok program => rw [h] at ok; cases ok; rfl

/-- A program with one call, at whose entry there is a safe point. -/
def Program.oneCall : Program :=
  { body := [.decl { name := some "f", body := [.returnS (some (.bool true))] },
      .letS "x" (some (.call (.ident "f") [])), .returnS (some (.ident "x"))] }

/-- The session in which that program yields, and is about to be resumed. -/
theorem Session.frameSafe_of_oneCall :
    ∃ compiled result m, Program.oneCall.compile { yieldInterval := some 1 } = .ok compiled ∧
      (Machine.new .lazy { stackSize := some 4 }).run 8 compiled.load = some (result, m) ∧
      m.tasks.length = 1 ∧ m.FrameSafe .lazy := by
  have evaluated : ((Program.oneCall.compile { yieldInterval := some 1 }).toOption.bind
      fun compiled => ((Machine.new .lazy { stackSize := some 4 }).run 8 compiled.load).map
        fun slice => slice.2.tasks.length) = some 1 := by decide +kernel
  obtain ⟨compiled, ok, ran⟩ := Option.bind_eq_some_iff.mp evaluated
  obtain ⟨⟨result, m⟩, ran, queued⟩ := Option.map_eq_some_iff.mp ran
  replace ok := Program.compile_of_toOption ok
  have session : Session .lazy m :=
    .run (.new rfl) ⟨Program.oneCall, compiled, _, Program.firstSite, ok, rfl, rfl⟩ ran
  exact ⟨compiled, result, m, ok, ran, queued, session.frameSafe⟩

end Sessions

end Resumable
