import Resumable.Proofs.Sessions

/-!
Where the code of a machine comes from.

A machine comes by code only through the programs that it is given to run.  If these are of a class
of programs whose functions are of a class `code`, then so is all that the machine can be asked to
enter: its closures, and whatever its frames, its queued tasks and the signals on their way enter.
`Machine.Hosts` says so of a machine, and the rules that follow lead from a turn to the next one,
and from there along a whole session.

`SessionOf` are the sessions in which only programs of a class are run.
-/

namespace Resumable

variable {bound : Nat} {next : Next} {step : Turn × Machine} {task : Task}

/-! ## Actions, frames and signals -/

/-- Where the action enters code of its own, that code is of the class. -/
def Action.OfCode (code : Func → Prop) : Action → Prop
  | .enterTop top => code top
  | .sequence _ => False
  | _ => True

def Stack.OfCode (code : Func → Prop) (stack : Stack) : Prop :=
  ∀ frame ∈ stack.frames, frame.action.OfCode code

def CaptureHandler.OfCode (code : Func → Prop) : CaptureHandler → Prop
  | .reenter action => action.OfCode code
  | _ => True

def Signal.OfCode (code : Func → Prop) : Signal → Prop
  | .capture handler stack => handler.OfCode code ∧ stack.OfCode code
  | .restore stack => stack.OfCode code
  | .discard _ => True

def Unwind.OfCode (code : Func → Prop) : Unwind → Prop
  | .signal raised => raised.OfCode code
  | _ => True

section Stacks

variable {code : Func → Prop} {stack outer : Stack} {frame : Frame}

theorem Stack.OfCode.empty : Stack.empty.OfCode code :=
  fun _ mem => nomatch mem

section

variable (ofCode : stack.OfCode code)

include ofCode

theorem Stack.OfCode.pushInner (frameCode : frame.action.OfCode code) :
    (stack.pushInner frame).OfCode code :=
  List.forall_mem_cons.mpr ⟨frameCode, ofCode⟩

theorem Stack.OfCode.pushOuter (frameCode : frame.action.OfCode code) :
    (stack.pushOuter frame).OfCode code :=
  List.forall_mem_append.mpr ⟨ofCode, List.forall_mem_singleton.mpr frameCode⟩

theorem Stack.OfCode.appendOuter (outerCode : outer.OfCode code) :
    (stack.appendOuter outer).OfCode code :=
  List.forall_mem_append.mpr ⟨ofCode, outerCode⟩

theorem Stack.OfCode.dropInner : stack.dropInner.OfCode code :=
  fun frame mem => ofCode frame (List.mem_of_mem_tail mem)

theorem Stack.OfCode.dropOuter : stack.dropOuter.OfCode code :=
  fun frame mem => ofCode frame ((List.dropLast_sublist _).subset mem)

end

/-- Calling the function of an activation again, in whatever way. -/
theorem Activation.invoke_ofCode {act : Activation} (ofCode : code act.func) (args : List Value)
    (newTarget : Value) : (act.invoke args newTarget).OfCode code := by
  unfold Activation.invoke
  split
  · trivial
  · exact ofCode

end Stacks

/-! ## Machines -/

/-- The machine has the strategy and the options it was made with, and all code that it can be asked
to enter is of the class. -/
structure Machine.Hosts (strategy : Strategy) (options : RunOptions) (code : Func → Prop)
    (m : Machine) : Prop where
  runs : m.strategy = strategy
  options : m.options = options
  closures : ∀ c ∈ m.store.closures, code c.func
  continuations : ∀ stack ∈ m.store.continuations, stack.OfCode code
  stack : m.stack.OfCode code
  shadow : m.shadow.OfCode code
  pending : m.pending.OfCode code
  tasks : ∀ task ∈ m.tasks, task.All fun stack => stack.OfCode code
  handler : ∀ handler ∈ m.pendingHandler, handler.OfCode code

/-- What is done in the next turn is of the class. -/
def Next.OfCode (code : Func → Prop) : Next → Prop
  | .run action => action.OfCode code
  | .restore stack => stack.OfCode code

def Turn.OfCode (code : Func → Prop) : Turn → Prop
  | .next following => following.OfCode code
  | .ended _ => True

namespace Machine

variable {strategy : Strategy} {options : RunOptions} {code : Func → Prop} {m m' : Machine}
  {stack : Stack}

theorem Hosts.of_calm (hosts : m.Hosts strategy options code) {store : Store}
    (calm : m.store.Calm code store) : { m with store }.Hosts strategy options code :=
  { hosts with
    closures := calm.closures_code hosts.closures
    continuations := fun stack mem => hosts.continuations stack (calm.continuations ▸ mem) }

theorem Hosts.continuation (hosts : m.Hosts strategy options code) (id : ContinuationId) :
    (m.store.continuation id).OfCode code := by
  unfold Store.continuation
  by_cases inRange : id.index < m.store.continuations.size
  · rw [Array.getD_eq_getD_getElem?, Array.getElem?_eq_getElem inRange, Option.getD_some]
    exact hosts.continuations _ (Array.getElem_mem inRange)
  · rw [Array.getD_eq_getD_getElem?, Array.getElem?_eq_none (Nat.le_of_not_lt inRange)]
    exact .empty

/-- The stack that is made the one to be built up may be cut. -/
theorem Hosts.install (hosts : m.Hosts strategy options code) (stackCode : stack.OfCode code) :
    (m.install stack).Hosts strategy options code := by
  unfold Machine.install Machine.segment
  cases m.options.stackSize with
  | none => exact { hosts with stack := stackCode, shadow := .empty }
  | some size =>
    have inner : (stack.splitOuter (m.options.restoreFrames + 1)).1.OfCode code :=
      fun frame mem => stackCode frame (List.mem_of_mem_take mem)
    have outer : (stack.splitOuter (m.options.restoreFrames + 1)).2.OfCode code :=
      fun frame mem => stackCode frame (List.mem_of_mem_drop mem)
    exact { hosts with
      stack := inner
      shadow := .empty
      pending := outer.appendOuter hosts.pending }

/-! ## What follows from a turn -/

/-- A turn leads to code of the class, on a machine with code of the class. -/
def Continues (strategy : Strategy) (options : RunOptions) (code : Func → Prop)
    (step : Turn × Machine) : Prop :=
  step.2.Hosts strategy options code ∧ step.1.OfCode code

section

variable (hosts : m.Hosts strategy options code)

include hosts

theorem Hosts.afterCapture {handler : CaptureHandler} (handlerCode : handler.OfCode code)
    (stackCode : stack.OfCode code) : Continues strategy options code
    (m.afterCapture handler stack) := by
  have whole : (stack.appendOuter m.pending).OfCode code := stackCode.appendOuter hosts.pending
  have captured : { m with
      capturing := false, pending := .empty,
      stats.captures := m.stats.captures + 1 }.Hosts strategy options code :=
        { hosts with pending := .empty }
  cases handler with
  | guest func =>
    refine ⟨{ captured with continuations := fun stack' mem => ?_ }, whole.pushInner trivial⟩
    rcases Array.mem_push.mp mem with mem | rfl
    · exact hosts.continuations stack' mem
    · exact whole
  | reenter action => exact ⟨captured, whole.pushInner handlerCode⟩
  | yield =>
    refine ⟨{ captured with tasks := List.forall_mem_append.mpr ⟨hosts.tasks, ?_⟩ }, trivial⟩
    exact List.forall_mem_singleton.mpr (.resume (whole.pushInner trivial))

theorem Hosts.nextSegment {top : Action} (topCode : top.OfCode code) :
    Continues strategy options code (m.nextSegment top) :=
  ⟨{ hosts with pending := .empty }, hosts.pending.pushInner topCode⟩

theorem Hosts.afterResult (value : Value) : Continues strategy options code
    (m.afterResult value) := by
  unfold Machine.afterResult
  split
  · have handlerCode : (m.pendingHandler.getD .yield).OfCode code := by
      cases held : m.pendingHandler with
      | none => trivial
      | some handler => exact hosts.handler handler held
    have released : { m with pendingHandler := none, stack := .empty }.Hosts strategy
        options code :=
      { hosts with stack := .empty, handler := fun _ mem => nomatch mem }
    exact released.afterCapture handlerCode hosts.stack
  · split
    · exact ⟨hosts, trivial⟩
    · exact hosts.nextSegment trivial

theorem Hosts.afterSignal {signal : Signal} (signalCode : signal.OfCode code) :
    Continues strategy options code (m.afterSignal signal) := by
  cases signal with
  | capture handler stack => exact hosts.afterCapture signalCode.1 signalCode.2
  | restore stack => exact ⟨{ hosts with pending := .empty }, signalCode⟩
  | discard replacement =>
    refine ⟨{ hosts with pending := .empty }, ?_⟩
    show (replacementAction replacement).OfCode code
    unfold replacementAction
    split <;> trivial

end

/-- What follows from a turn, where the computation of the turn keeps to the class. -/
theorem Hosts.turn (ends : (Eval.start (engine bound) next m).Meets (fun _ m' =>
      m'.Hosts strategy options code) (fun reason m' => m'.Hosts strategy options code ∧
      reason.OfCode code)) (done : m.turn bound next = some step) :
    Continues strategy options code step := by
  cases turned done with
  | result ending =>
    rw [ending] at ends
    exact ends.afterResult _
  | uncaught _ ending _ | fault ending =>
    rw [ending] at ends
    exact ⟨ends.1, trivial⟩
  | caught ending =>
    rw [ending] at ends
    exact ends.1.nextSegment trivial
  | signal ending =>
    rw [ending] at ends
    exact ends.1.afterSignal ends.2

/-- What holds of the store at the end of a turn holds after it, if it is not about continuations.
-/
theorem turn_store {p : Store → Prop} (steady : ∀ s continuations, p s → p { s with continuations })
    (ends : (Eval.start (engine bound) next m).Meets (fun _ m' => p m'.store) (fun _ m' =>
      p m'.store))
    (done : m.turn bound next = some step) : p step.2.store := by
  obtain ⟨m₁, ended, _, _, _, _, _, _, _, eq⟩ := turn_eq done
  rw [eq]
  exact steady _ _ (ends.state ended)

end Machine

/-! ## Sessions -/

/-- The machines that a host can have in its hands when it makes one with these options and gives it
only programs of a class to run. -/
inductive SessionOf (accepts : Program → Prop) (strategy : Strategy) (options : RunOptions) :
    Machine → Prop
  | new : options.check = .ok () → SessionOf accepts strategy options (.new strategy options)
  | run {m m' : Machine} {program : Program} {bound : Nat} {result : Except Fault Outcome} :
      SessionOf accepts strategy options m → accepts program → m.run bound program =
        some (result, m') →
      SessionOf accepts strategy options m'
  | queue {m : Machine} {task : Task} : SessionOf accepts strategy options m → m.Offers task →
      SessionOf accepts strategy options (m.enqueue task)
  | setGlobal {m : Machine} (name : String) (value : Value) :
      SessionOf accepts strategy options m → SessionOf accepts strategy options
        (m.setGlobal name value)
  | hostTask {m m' : Machine} {lines : List String} {queued : List Task} :
      SessionOf accepts strategy options m → m.nextTask? = some (.host lines queued, m') →
      SessionOf accepts strategy options (m'.doWork lines queued)
  | resumeTask {m m' m'' : Machine} {stack : Stack} {bound : Nat} {result : Except Fault Outcome} :
      SessionOf accepts strategy options m → m.nextTask? = some (.resume stack, m') →
      m'.continueWith bound stack = some (result, m'') → SessionOf accepts strategy options m''

/-- The turns that a machine can come to in one slice, if a program that it is given is of the
class. -/
inductive Machine.ReachesOf (accepts : Program → Prop) (m : Machine) : Next → Machine → Prop
  | run {program : Program} : accepts program →
      Machine.ReachesOf accepts m (.run (.enterTop (Machine.top program))) (m.setInterval program)
  | task {m' : Machine} {stack : Stack} : m.nextTask? = some (.resume stack, m') →
      Machine.ReachesOf accepts m (.restore stack) m'
  | turn {m₁ m₂ : Machine} {next₁ next₂ : Next} {bound : Nat} :
      Machine.ReachesOf accepts m next₁ m₁ → m₁.turn bound next₁ = some (.next next₂, m₂) →
        Machine.ReachesOf accepts m next₂ m₂

/-- The programs are compiled for the strategy, and their top level is of the class of code. -/
structure Program.Yields (accepts : Program → Prop) (strategy : Strategy) (code : Func → Prop) :
    Prop where
  compiled : ∀ program, accepts program → program.CompiledFor strategy
  top : ∀ program, accepts program → code (Machine.top program)

/-- A property of stores that nothing but a turn can put at risk. -/
structure Store.Lasting (p : Store → Prop) : Prop where
  initial : p Machine.initialStore
  continuations : ∀ s continuations, p s → p { s with continuations }
  globals : ∀ s name value, p s → p (s.declare Store.globals name value)

theorem Store.Lasting.trivial : Store.Lasting fun _ => True :=
  ⟨True.intro, fun _ _ => id, fun _ _ _ => id⟩

/-- Where a machine has only code of the class, and the property holds of its store, a turn leaves
it so. -/
def Machine.TurnsWithin (strategy : Strategy) (options : RunOptions) (code : Func → Prop)
    (p : Store → Prop) : Prop :=
  ∀ bound (m : Machine) (next : Next), m.Hosts strategy options code → p m.store →
    next.OfCode code → (Eval.start (engine bound) next m).Meets (fun _ m' =>
      m'.Hosts strategy options code ∧ p m'.store) (fun reason m' =>
      (m'.Hosts strategy options code ∧ p m'.store) ∧ reason.OfCode code)

section Sessions

variable {strategy : Strategy} {options : RunOptions} {code : Func → Prop}
  {accepts : Program → Prop} {m m' : Machine} {p : Store → Prop}

namespace Machine

theorem Hosts.setInterval (hosts : m.Hosts strategy options code) (program : Program) :
    (m.setInterval program).Hosts strategy options code :=
  { hosts with runs := hosts.runs }

/-- Tasks that are queued behind others. -/
theorem Hosts.queue (hosts : m.Hosts strategy options code) {queued : List Task}
    (ofCode : ∀ task ∈ queued, task.All fun stack => stack.OfCode code) :
    { m with tasks := m.tasks ++ queued }.Hosts strategy options code :=
  { hosts with tasks := List.forall_mem_append.mpr ⟨hosts.tasks, ofCode⟩ }

/-- The oldest task is taken from the queue. -/
theorem Hosts.nextTask (hosts : m.Hosts strategy options code)
    (taken : m.nextTask? = some (task, m')) : m'.Hosts strategy options code ∧ task.All fun stack =>
    stack.OfCode code := by
  obtain ⟨rest, queued, rfl⟩ := nextTask_eq taken
  have all := hosts.tasks
  rw [queued, List.forall_mem_cons] at all
  exact ⟨{ hosts with tasks := all.2 }, all.1⟩

theorem nextTask_store (taken : m.nextTask? = some (task, m')) : m'.store = m.store := by
  obtain ⟨rest, _, rfl⟩ := nextTask_eq taken
  rfl

/-- What follows from a turn. -/
theorem TurnsWithin.turn (within : TurnsWithin strategy options code p) (lasting : Store.Lasting p)
    (hosts : m.Hosts strategy options code) (holds : p m.store) (nextCode : next.OfCode code)
    (done : m.turn bound next = some step) :
    (step.2.Hosts strategy options code ∧ p step.2.store) ∧ step.1.OfCode code := by
  have ends := within bound m next hosts holds nextCode
  have continues : Continues strategy options code step :=
    Hosts.turn (ends.weaken (fun _ _ both => both.1) fun _ _ all => ⟨all.1.1, all.2⟩) done
  have kept := turn_store lasting.continuations (ends.weaken (fun _ _ both => both.2) fun _ _ all =>
    all.1.2) done
  exact ⟨⟨continues.1, kept⟩, continues.2⟩

/-- A slice keeps to the class if every turn does. -/
theorem Hosts.drive (within : TurnsWithin strategy options code p) (lasting : Store.Lasting p)
    {turns : Nat} {result : Except Fault Outcome} (hosts : m.Hosts strategy options code)
    (holds : p m.store)
    (nextCode : next.OfCode code) (done : m.drive bound turns next = some (result, m')) :
    m'.Hosts strategy options code ∧ p m'.store := by
  refine drive_induction (fun next m => (m.Hosts strategy options code ∧ p m.store) ∧
    next.OfCode code) (fun _ m => m.Hosts strategy options code ∧ p m.store) ?_ ?_ ⟨⟨hosts, holds⟩,
    nextCode⟩ done
  · rintro next m following m₁ ⟨⟨hosts, holds⟩, nextCode⟩ taken
    exact within.turn lasting hosts holds nextCode taken
  · rintro next m result m₁ ⟨⟨hosts, holds⟩, nextCode⟩ taken
    exact (within.turn lasting hosts holds nextCode taken).1

/-- On a new machine there is no code yet. -/
theorem new_hosts : (new strategy options).Hosts strategy options code := by
  have calm : ({} : Store).Calm code initialStore := .of_eq rfl rfl
  exact {
    runs := rfl
    options := rfl
    closures := calm.closures_code fun _ mem => by simp at mem
    continuations := fun stack mem => by
      replace mem : stack ∈ initialStore.continuations := mem
      rw [calm.continuations] at mem
      simp at mem
    stack := .empty
    shadow := .empty
    pending := .empty
    tasks := fun _ mem => nomatch mem
    handler := fun _ mem => nomatch mem }

end Machine

/-- Along a session with programs of the class, a machine has only code of the class. -/
theorem SessionOf.hosts (yields : Program.Yields accepts strategy code)
    (within : Machine.TurnsWithin strategy options code p) (lasting : Store.Lasting p)
    (session : SessionOf accepts strategy options m) : m.Hosts strategy options code ∧
    p m.store := by
  induction session with
  | new _ => exact ⟨Machine.new_hosts, lasting.initial⟩
  | run _ accepted done ih =>
    rw [(yields.compiled _ accepted).run_eq ih.1.runs] at done
    have topCode : Next.OfCode code (.run (.enterTop (Machine.top _))) := yields.top _ accepted
    exact (ih.1.setInterval _).drive within lasting ih.2 topCode done
  | queue _ offers ih =>
    refine ⟨ih.1.queue (List.forall_mem_singleton.mpr (offers.imp ?_)), ih.2⟩
    rintro _ ⟨continuation, value, rfl⟩
    exact (ih.1.continuation continuation).pushInner trivial
  | setGlobal name value _ ih =>
    exact ⟨ih.1.of_calm (Store.declare_calm _ _ _ _), lasting.globals _ _ _ ih.2⟩
  | hostTask _ taken ih =>
    obtain ⟨hosts, ofCode⟩ := ih.1.nextTask taken
    have queued := hosts.queue ofCode.queued
    exact ⟨{ queued with runs := queued.runs }, Machine.nextTask_store taken ▸ ih.2⟩
  | resumeTask _ taken done ih =>
    obtain ⟨hosts, taskCode⟩ := ih.1.nextTask taken
    have stackCode : Next.OfCode code (.restore _) := taskCode.stack
    exact hosts.drive within lasting (Machine.nextTask_store taken ▸ ih.2) stackCode done

/-- Every turn of a slice begins on such a machine, with something of the class. -/
theorem Machine.ReachesOf.hosts (yields : Program.Yields accepts strategy code)
    (within : Machine.TurnsWithin strategy options code p) (lasting : Store.Lasting p)
    (hosts : m.Hosts strategy options code ∧ p m.store) (reaches : m.ReachesOf accepts next m') :
    (m'.Hosts strategy options code ∧ p m'.store) ∧ next.OfCode code := by
  induction reaches with
  | run accepted => exact ⟨⟨hosts.1.setInterval _, hosts.2⟩, yields.top _ accepted⟩
  | task taken =>
    obtain ⟨hosts', taskCode⟩ := hosts.1.nextTask taken
    exact ⟨⟨hosts', Machine.nextTask_store taken ▸ hosts.2⟩, taskCode.stack⟩
  | turn _ done ih => exact within.turn lasting ih.1.1 ih.1.2 ih.2 done

end Sessions

end Resumable
