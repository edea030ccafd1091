import Mathlib.Tactic.Push
import Resumable.Proofs.Walk
import Resumable.Proofs.Sessions

/-!
What a slice leaves behind.

Besides the state of the guest a machine has control state: the mode, the frames that are built up
or collected, those that are kept for calls in progress and those that are pending, the depth that
is left, whether a capture is under way and who waits for it.  A turn begins by setting most of it.
It takes over the pending frames, the capture and its handler, and a slice that has a result leaves
nothing of these.  Neither does one that fails, with two exceptions: a jump out of its function
leaves the pending frames, and whatever fails while frames are collected on the way of returns
leaves the capture.
-/

namespace Resumable

variable {next : Next}

theorem Stack.eq_empty_of_isEmpty {stack : Stack} (isEmpty : stack.isEmpty = true) :
    stack = .empty :=
  congrArg Stack.mk (List.isEmpty_iff.mp isEmpty)

theorem Next.Fits.notVoid {strategy : Strategy} {store : Store} (fits : next.Fits strategy store) :
    next.isVoid = false := by
  cases next with
  | run action => rfl
  | restore stack => exact fits.2.isEmpty

/-! ## Clear machines -/

/-- No frames are pending, and no capture is under way. -/
structure Machine.Clear (m : Machine) : Prop where
  pending : m.pending = .empty
  capturing : m.capturing = false
  handler : m.pendingHandler = none

/-- The machine with the same state of the guest, and with the control state of a new one. -/
def Machine.guest (m : Machine) : Machine :=
  { strategy := m.strategy, options := m.options, yieldInterval := m.yieldInterval,
    countdown := m.countdown, store := m.store, tasks := m.tasks, output := m.output
    stats := m.stats }

/-- What can be seen of a slice: how it ended, and the state of the guest then. -/
def Machine.seen (slice : Option (Except Fault Outcome × Machine)) :
    Option (Except Fault Outcome × Machine) :=
  slice.map fun (result, m) => (result, m.guest)

namespace Machine

variable {m : Machine} {bound : Nat}

/-- Of a clear machine, what the beginning of a turn does not set is the state of the guest. -/
theorem Clear.eq_guest (clear : m.Clear) :
    m = { m.guest with
      mode := m.mode, stack := m.stack, shadow := m.shadow, remaining := m.remaining } := by
  obtain ⟨pending, capturing, handler⟩ := clear
  cases m
  cases pending
  cases capturing
  cases handler
  rfl

theorem install_overwrites (m : Machine) (mode : Mode) (stack shadow other : Stack) :
    { m with mode, stack := other, shadow }.install stack = m.install stack := by
  unfold install segment
  cases m.options.stackSize <;> rfl

/-- A turn sets the mode, the frames and the depth, whatever they were. -/
theorem start_overwrites (m : Machine) (mode : Mode) (stack shadow : Stack) (remaining : Option Int)
    (begins : ∀ stack, next = .restore stack → stack.isEmpty = false) :
    Eval.start (engine bound) next { m with mode, stack, shadow, remaining } =
      Eval.start (engine bound) next m := by
  cases next with
  | run action => rfl
  | restore saved =>
    have restored : ∀ m' : Machine, Eval.start (engine bound) (.restore saved) m' =
        Eval.reenterNext (engine bound)
          ({ m' with remaining := m'.options.stackSize.map Int.ofNat }.install saved) := by
      intro m'
      show Eval.restore (engine bound) saved _ = _
      simp only [Eval.restore, begins saved rfl, Bool.false_eq_true, if_false]
      rfl
    rw [restored, restored]
    exact congrArg _ (install_overwrites
      { m with remaining := m.options.stackSize.map Int.ofNat } ..)

theorem Clear.drive_eq_guest (clear : m.Clear)
    (begins : ∀ stack, next = .restore stack → stack.isEmpty = false) (turns : Nat) :
    m.drive bound turns next = m.guest.drive bound turns next := by
  have same : Eval.start (engine bound) next m = Eval.start (engine bound) next m.guest := by
    rw [clear.eq_guest]
    exact start_overwrites m.guest m.mode m.stack m.shadow m.remaining begins
  cases turns with
  | zero => rfl
  | succ turns => rw [drive, drive, turn, turn, same]

theorem Clear.continueWith_seen (clear : m.Clear) (stack : Stack) :
    seen (m.continueWith bound stack) = seen (m.guest.continueWith bound stack) := by
  cases isEmpty : stack.isEmpty with
  | false =>
    refine congrArg seen (clear.drive_eq_guest (fun saved h => ?_) bound)
    rw [← Next.restore.inj h, isEmpty]
  | true =>
    -- there is nothing to begin with, and only the depth is set
    have refused : ∀ (m' : Machine) turns, seen (m'.drive bound (turns + 1) (.restore stack)) =
        some (.error .emptyStack, m'.guest) := by
      intro m' turns
      have unwound : Eval.start (engine bound) (.restore stack) m' =
          .unwind (.fault .emptyStack)
          { m' with remaining := m'.options.stackSize.map Int.ofNat } := by
        show Eval.restore (engine bound) stack _ = _
        simp only [Eval.restore, isEmpty, if_true]
        rfl
      rw [drive, turn, unwound]
      rfl
    cases bound with
    | zero => rfl
    | succ turns => exact (refused m turns).trans (refused m.guest turns).symm

/-- **A clear machine shows nothing of its past** but the state of the guest. -/
theorem Clear.run_seen (clear : m.Clear) (program : Program) :
    seen (m.run bound program) = seen (m.guest.run bound program) := by
  have interval : (m.setInterval program).Clear := ⟨clear.pending, clear.capturing, clear.handler⟩
  by_cases compiled : (program.instrumented.map (·.strategy)).getD m.strategy = m.strategy
  · have running : ∀ m' : Machine, m'.strategy = m.strategy → m'.run bound program =
        (m'.setInterval program).drive bound bound (.run (.enterTop (top program))) := by
      intro m' same
      simp only [run, same, compiled, ne_eq, not_true_eq_false, if_false]
    rw [running m rfl, running m.guest rfl]
    have begins : ∀ stack, Next.run (.enterTop (top program)) = .restore stack →
        stack.isEmpty = false :=
      fun _ h => by cases h
    exact congrArg seen (interval.drive_eq_guest begins bound)
  · have refused : ∀ m' : Machine, m'.strategy = m.strategy → m'.run bound program = some (.error
        (.strategyMismatch ((program.instrumented.map (·.strategy)).getD m.strategy) m.strategy),
            m') := by
      intro m' same
      simp only [run, same, ne_eq, compiled, not_false_eq_true, if_true]
    rw [refused m rfl, refused m.guest rfl]
    rfl

/-! ## What turns leave -/

/-- What a slice finds, whatever was done on the machine before. -/
structure Ready (strategy : Strategy) (m : Machine) : Prop where
  pending : m.options.stackSize = none → m.pending = .empty
  capturing : strategy ≠ .retval → m.capturing = false
  handler : m.capturing = false → m.pendingHandler = none

/-- What a slice leaves behind.  If it is not clear, the slice has failed: while frames were
collected on the way of returns, or by a jump out of its function while frames were pending. -/
def Left (strategy : Strategy) (result : Except Fault Outcome) (m : Machine) : Prop :=
  m.Clear ∨ (∃ fault, result = .error fault) ∧ strategy = .retval ∧ m.capturing = true ∨
    (∃ jump, result = .error (.strayJump jump)) ∧ m.options.stackSize ≠ none ∧
    m.pending.isEmpty = false

/-- What follows from a turn leaves a slice that can go on, or ends as it should. -/
def Passes (strategy : Strategy) (step : Turn × Machine) : Prop :=
  step.2.Ready strategy ∧ ∀ result, step.1 = .ended result → step.2.Left strategy result

variable {strategy : Strategy} {stack : Stack}

theorem Clear.ready (clear : m.Clear) : m.Ready strategy :=
  ⟨fun _ => clear.pending, fun _ => clear.capturing, fun _ => clear.handler⟩

theorem Clear.passes {turn : Turn} (clear : m.Clear) : Passes strategy (turn, m) :=
  ⟨clear.ready, fun _ _ => .inl clear⟩

/-- Where no frames are pending, only a capture on the way of returns is left. -/
theorem Ready.left_of_pending {fault : Fault} (ready : m.Ready strategy)
    (pending : m.pending = .empty) : m.Left strategy (.error fault) := by
  cases capturing : m.capturing with
  | false => exact .inl ⟨pending, capturing, ready.handler capturing⟩
  | true =>
    refine .inr (.inl ⟨⟨fault, rfl⟩, Classical.not_not.mp fun notRetval => ?_, capturing⟩)
    rw [ready.capturing notRetval] at capturing
    cases capturing

theorem afterCapture_passes (released : m.pendingHandler = none) (handler : CaptureHandler) :
    Passes strategy (m.afterCapture handler stack) := by
  cases handler <;> exact Clear.passes ⟨rfl, rfl, released⟩

section

variable (ready : m.Ready strategy)

include ready

/-- The pending frames are taken or dropped. -/
theorem Ready.dropPending : { m with pending := .empty }.Ready strategy :=
  ⟨fun _ => rfl, ready.capturing, ready.handler⟩

theorem Ready.afterResult (runs : m.strategy = strategy) (value : Value) :
    Passes strategy (m.afterResult value) := by
  unfold Machine.afterResult
  split
  · exact afterCapture_passes rfl _
  · rename_i notCollecting
    have capturing : m.capturing = false := by
      cases strategy with
      | retval => simpa [runs] using notCollecting
      | _ => exact ready.capturing nofun
    split
    · rename_i none
      exact Clear.passes ⟨Stack.eq_empty_of_isEmpty none, capturing, ready.handler capturing⟩
    · exact ⟨ready.dropPending, fun _ h => nomatch h⟩

/-- Where captures unwind, no handler waits for one. -/
theorem Ready.released (unwinds : strategy.unwinds = true) : m.pendingHandler = none :=
  ready.handler (ready.capturing fun retval => by rw [retval] at unwinds; cases unwinds)

theorem Ready.afterSignal {signal : Signal} (fits : signal.Fits strategy m) :
    Passes strategy (m.afterSignal signal) := by
  cases signal with
  | capture handler stack => exact afterCapture_passes (ready.released fits.1.1) handler
  | restore stack => exact ⟨ready.dropPending, fun _ h => nomatch h⟩
  | discard replacement =>
    exact ⟨⟨fun _ => rfl, ready.capturing, ready.handler⟩, fun _ h => nomatch h⟩

theorem Ready.fault {fault : Fault} (isStrayJump : fault.isStrayJump = true) :
    Passes strategy (.ended (.error fault), m) := by
  refine ⟨ready, fun result h => ?_⟩
  cases h
  cases isEmpty : m.pending.isEmpty with
  | true => exact ready.left_of_pending (Stack.eq_empty_of_isEmpty isEmpty)
  | false =>
    have limited : m.options.stackSize ≠ none := fun unlimited => by
      rw [ready.pending unlimited] at isEmpty
      cases isEmpty
    cases fault with
    | strayJump jump => exact .inr (.inr ⟨⟨jump, rfl⟩, limited, isEmpty⟩)
    | _ => cases isStrayJump

theorem Ready.begin (next : Next) : (m.begin next).Ready strategy := by
  have pending : m.options.stackSize = none → (m.begin next).pending = m.pending :=
      fun unlimited => by
    cases next with
    | run action => rfl
    | restore stack => simp [Machine.begin, install, segment, unlimited]
  obtain ⟨_, _, _, _, _, _, begun⟩ := m.begin_eq next
  rw [begun] at pending ⊢
  exact ⟨fun unlimited => (pending unlimited).trans (ready.pending unlimited), ready.capturing,
    ready.handler⟩

end

/-- The control state that slices find changes only by captures. -/
theorem Course.ready {m' : Machine} {told : List Event} (course : Course told m m')
    (ready : m.Ready strategy) (runs : m.strategy = strategy)
    (quiet : strategy.unwinds = true → ∀ event ∈ told, event.isRaise = false) :
    m'.Ready strategy where
  pending unlimited := by
    have fixed := course.fixed_eq
    rw [show m'.options = m.options from congrArg (·.2.1) fixed] at unlimited
    exact (congrArg (·.2.2.2.1) fixed).trans (ready.pending unlimited)
  capturing notRetval := by
    refine Bool.eq_false_iff.mpr fun capturing => ?_
    rcases course.raise_of_capturing capturing with before | ⟨notFudge, event, mem, isRaise⟩
    · cases (ready.capturing notRetval).symm.trans before
    · rw [runs] at notFudge
      have unwinds : strategy.unwinds = true := by
        cases strategy with
        | retval => exact absurd rfl notRetval
        | fudge => exact absurd rfl notFudge
        | _ => rfl
      cases (quiet unwinds event mem).symm.trans isRaise
  handler idle := by
    obtain ⟨collecting, same | ⟨_, capturing⟩⟩ := course.handler
    · refine same.trans (ready.handler (Bool.eq_false_iff.mpr fun capturing => ?_))
      cases idle.symm.trans (collecting capturing)
    · cases idle.symm.trans capturing

section

variable (ready : m.Ready strategy) (coherent : m.Coherent strategy)
  (fits : next.Fits strategy m.store)

include ready coherent fits

/-- Where captures unwind, the one that is raised is how the turn ends. -/
theorem Ready.start (bound : Nat) :
    (Eval.start (engine bound) next m).Meets (fun _ m' => m'.Ready strategy) fun reason m' =>
      m'.Ready strategy ∨ (∃ handler stack, reason = .signal (.capture handler stack)) ∧
          m'.pendingHandler = none := by
  obtain ⟨_, _, _, _, _, _, begun⟩ := m.begin_eq next
  have runs : (m.begin next).strategy = strategy := by
    rw [begun]
    exact coherent.runs
  have course := start_course bound fits.notVoid m
  have ready := ready.begin next
  have meets := coherent.observed_meets fits bound
  by_cases quiet : strategy.unwinds = true → ∀ event ∈ (observed bound next).told m,
    event.isRaise = false
  · cases ending : Eval.start (engine bound) next m with
    | ok value m' =>
      rw [ending] at course
      exact course.ready ready runs quiet
    | unwind reason m' =>
      rw [ending] at course
      exact .inl (course.ready ready runs quiet)
    | cutOff => trivial
  · push Not at quiet
    obtain ⟨unwinds, event, mem, isRaise⟩ := quiet
    obtain ⟨before, after, told⟩ := List.append_of_mem mem
    cases event with
    | raise context handler raised =>
      obtain ⟨_, reason, m', ends, stack, shadow, rfl, _, _⟩ :=
        meets.raised unwinds before context handler raised after told
      rw [erase_observed] at ends
      rw [ends] at course ⊢
      rcases course.handler.2 with same | ⟨retval, _⟩
      · exact .inr ⟨⟨handler, stack, rfl⟩, same.trans (ready.released unwinds)⟩
      · rw [← runs, ← course.runs, retval] at unwinds
        cases unwinds
    | _ => exact absurd rfl isRaise

theorem Ready.turn {step : Turn × Machine} (done : m.turn bound next = some step) :
    Passes strategy step := by
  have ends := ready.start coherent fits bound
  have sound := (coherent.observed_meets fits bound).ends
  rw [erase_observed] at sound
  cases turned done with
  | result ending =>
    rw [ending] at ends sound
    exact ends.afterResult sound.runs _
  | uncaught _ ending none =>
    rw [ending] at ends
    have ready₁ := ends.resolve_right (by simp)
    refine ⟨ready₁, fun result h => ?_⟩
    cases h
    exact ready₁.left_of_pending (Stack.eq_empty_of_isEmpty none)
  | caught ending =>
    rw [ending] at ends
    have ready₁ := ends.resolve_right (by simp)
    exact ⟨ready₁.dropPending, fun _ h => nomatch h⟩
  | signal ending =>
    rw [ending] at ends sound
    rcases ends with ready₁ | ⟨⟨handler, stack, same⟩, released⟩
    · exact ready₁.afterSignal sound.2
    · cases same
      exact afterCapture_passes released handler
  | fault ending =>
    rw [ending] at ends sound
    have ready₁ := ends.resolve_right (by simp)
    exact ready₁.fault sound.2

theorem Ready.drive {turns : Nat} {result : Except Fault Outcome} {m' : Machine}
    (done : m.drive bound turns next = some (result, m')) : m'.Ready strategy ∧
    m'.Left strategy result := by
  refine drive_induction (fun next m => m.Ready strategy ∧ m.Coherent strategy ∧
    next.Fits strategy m.store) (fun result m => m.Ready strategy ∧ m.Left strategy result) ?_ ?_
    ⟨ready, coherent, fits⟩ done
  · rintro next m following m₁ ⟨ready, coherent, fits⟩ taken
    exact ⟨(ready.turn coherent fits taken).1, coherent.turn fits taken⟩
  · rintro next m result m₁ ⟨ready, coherent, fits⟩ taken
    obtain ⟨ready₁, left⟩ := ready.turn coherent fits taken
    exact ⟨ready₁, left result rfl⟩

end

end Machine

/-! ## Slices of a session -/

section Slices

variable {strategy : Strategy} {bound : Nat} {m m' : Machine} {result : Except Fault Outcome}

/-- A slice of a session: a compiled program is run, or the oldest task resumes one. -/
inductive Machine.Slice (strategy : Strategy) (m : Machine) (result : Except Fault Outcome)
    (m' : Machine) : Prop
  | run {program : Program} {bound : Nat} : program.CompiledFor strategy →
      m.run bound program = some (result, m') → Machine.Slice strategy m result m'
  | task {m₁ : Machine} {stack : Stack} {bound : Nat} : m.nextTask? = some (.resume stack, m₁) →
      m₁.continueWith bound stack = some (result, m') → Machine.Slice strategy m result m'

theorem Machine.Ready.nextTask {task : Task} (ready : m.Ready strategy)
    (taken : m.nextTask? = some (task, m')) : m'.Ready strategy := by
  obtain ⟨rest, _, rfl⟩ := Machine.nextTask_eq taken
  exact ⟨ready.pending, ready.capturing, ready.handler⟩

theorem Machine.Slice.leaves (slice : m.Slice strategy result m') (ready : m.Ready strategy)
    (coherent : m.Coherent strategy) : m'.Ready strategy ∧ m'.Left strategy result := by
  cases slice with
  | @run program _ compiled done =>
    have runs : m.strategy = strategy := coherent.runs
    rw [compiled.run_eq runs] at done
    have interval : (m.setInterval program).Ready strategy := ⟨ready.pending, ready.capturing,
      ready.handler⟩
    have fits : Next.Fits strategy (m.setInterval program).store
        (.run (.enterTop (Machine.top program))) :=
      compiled.top.1
    exact interval.drive (coherent.setInterval program) fits done
  | task taken done =>
    obtain ⟨coherent₁, fits⟩ := coherent.nextTask taken
    have nextFits : Next.Fits strategy _ (.restore _) := fits.stack
    exact (ready.nextTask taken).drive coherent₁ nextFits done

theorem Session.ready (session : Session strategy m) : m.Ready strategy := by
  induction session with
  | new _ => exact ⟨fun _ => rfl, fun _ => rfl, fun _ => rfl⟩
  | run before compiled done ih =>
    exact ((Machine.Slice.run compiled done).leaves ih before.coherent).1
  | queue _ _ ih => exact ⟨ih.pending, ih.capturing, ih.handler⟩
  | setGlobal name value _ ih => exact ⟨ih.pending, ih.capturing, ih.handler⟩
  | hostTask _ taken ih =>
    have ready := ih.nextTask taken
    exact ⟨ready.pending, ready.capturing, ready.handler⟩
  | resumeTask before taken done ih =>
    exact ((Machine.Slice.task taken done).leaves ih before.coherent).1

/-- What is seen of the next slice depends on the state of the guest only: it is the same on every
clear machine on which that state is the same. -/
structure Machine.Forgetful (m : Machine) : Prop where
  clear : m.Clear
  run : ∀ other : Machine, other.Clear → other.guest = m.guest → ∀ bound program,
    Machine.seen (m.run bound program) = Machine.seen (other.run bound program)
  task : ∀ other : Machine, other.Clear → other.guest = m.guest → ∀ bound stack,
    Machine.seen (m.continueWith bound stack) = Machine.seen (other.continueWith bound stack)

theorem Machine.Clear.forgetful (clear : m.Clear) : m.Forgetful where
  clear := clear
  run other otherClear same bound program := by
    rw [clear.run_seen, otherClear.run_seen, same]
  task other otherClear same bound stack := by
    rw [clear.continueWith_seen, otherClear.continueWith_seen, same]

/-- **A slice leaves no control state behind**, whatever was done on the machine before and however
the slice ends, unless it fails while frames are collected on the way of returns, or by a jump out
of its function while frames are pending. -/
theorem Session.slice_leaves_nothing (session : Session strategy m)
    (slice : m.Slice strategy result m') : m'.Forgetful ∨ (∃ fault, result = .error fault) ∧
      strategy = .retval ∧ m'.capturing = true ∨ (∃ jump, result = .error (.strayJump jump)) ∧
      m'.options.stackSize ≠ none ∧ m'.pending.isEmpty = false := by
  rcases (slice.leaves session.ready session.coherent).2 with clear | collecting | jumped
  · exact .inl clear.forgetful
  · exact .inr (.inl collecting)
  · exact .inr (.inr jumped)

/-- A program that throws three calls deep. -/
def Program.deepThrow : Program :=
  { body := [.decl { name := some "f", body := [.throwS (.num 1)] },
      .decl { name := some "g", body := [.letS "x" (some (.call (.ident "f") [])),
        .returnS (some (.ident "x"))] },
      .decl { name := some "h", body := [.letS "x" (some (.call (.ident "g") [])),
        .returnS (some (.ident "x"))] },
      .letS "x" (some (.call (.ident "h") [])), .returnS (some (.ident "x"))] }

/-- Its frames are built up in segments, and all of them are gone when it has failed. -/
theorem Session.slice_leaves_nothing_of_deepThrow :
    ∃ compiled m', Program.deepThrow.compile {} = .ok compiled ∧
      (Machine.new .lazy { stackSize := some 2, restoreFrames := 1 }).run 16 compiled.load =
        some (.error (.uncaught "1"), m') ∧ 0 < m'.stats.captures ∧ m'.Forgetful := by
  have evaluated : ((Program.deepThrow.compile {}).toOption.bind fun compiled =>
      ((Machine.new .lazy { stackSize := some 2, restoreFrames := 1 }).run 16 compiled.load).map
        fun slice => match slice.1 with
        | .error fault => decide (fault = .uncaught "1" ∧ 0 < slice.2.stats.captures)
        | .ok _ => false) = some true := by decide +kernel
  obtain ⟨compiled, ok, ran⟩ := Option.bind_eq_some_iff.mp evaluated
  obtain ⟨⟨result, m'⟩, ran, ended⟩ := Option.map_eq_some_iff.mp ran
  replace ok := Program.compile_of_toOption ok
  cases result with
  | ok outcome => cases ended
  | error fault =>
    obtain ⟨rfl, captured⟩ := of_decide_eq_true ended
    refine ⟨compiled, m', ok, ran, captured, ?_⟩
    have session : Session .lazy (Machine.new .lazy { stackSize := some 2, restoreFrames := 1 }) :=
      .new rfl
    have slice : Machine.Slice .lazy _ (.error (.uncaught "1")) m' :=
      .run ⟨Program.deepThrow, compiled, _, Program.firstSite, ok, rfl, rfl⟩ ran
    rcases session.slice_leaves_nothing slice with forgetful | ⟨_, isRetval, _⟩ | ⟨⟨jump, h⟩, _⟩
    · exact forgetful
    · cases isRetval
    · cases h

end Slices

end Resumable
