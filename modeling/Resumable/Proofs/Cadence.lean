import Resumable.Proofs.Slices
import Resumable.Proofs.Unwinding

/-!
The cadence of yields.

A safe point counts down, and asks for a yield when the interval is over.  Nothing else touches the
countdown, so that along every course of a machine the safe points that ask are those whose number
since the start of the program is a multiple of the interval.  Where captures unwind, a yield that
is asked for is how the turn and the slice end, and no slice ends with a yield that was not asked
for.  So the yields that are counted are the ones that are due, over all the slices of a program and
whatever the host does in between.
-/

namespace Resumable

variable {event : Event} {step : Turn × Machine}

/-! ## What is told -/

/-- A safe point begins. -/
def Event.isSafePoint : Event → Bool
  | .action .safePoint _ => true
  | _ => false

/-- A yield is asked for. -/
def Event.isYield : Event → Bool
  | .raise _ .yield _ => true
  | _ => false

/-- From one number of safe points to another, each that makes it a multiple of the interval asks
for a yield at once, and nothing else does. -/
inductive Paced (interval : Nat) : Nat → List Event → Nat → Prop
  | nil (k : Nat) : Paced interval k [] k
  | other {k k' : Nat} {event : Event} {told : List Event} : event.isSafePoint = false →
      event.isYield = false → Paced interval k told k' → Paced interval k (event :: told) k'
  | pass {k k' : Nat} (m : Machine) {told : List Event} : ¬ interval ∣ k + 1 →
      Paced interval (k + 1) told k' → Paced interval k (.action .safePoint m :: told) k'
  | yield {k k' : Nat} (m : Machine) (context : Context) (m' : Machine) {told : List Event} :
      interval ∣ k + 1 → Paced interval (k + 1) told k' →
      Paced interval k (.action .safePoint m :: .raise context .yield m' :: told) k'

namespace Paced

variable {interval k k' k'' : Nat} {told later : List Event}

theorem append (first : Paced interval k told k') (second : Paced interval k' later k'') :
    Paced interval k (told ++ later) k'' := by
  induction first with
  | nil _ => exact second
  | other notSafePoint notYield _ ih => exact .other notSafePoint notYield (ih second)
  | pass m early _ ih => exact .pass m early (ih second)
  | yield m context m' due _ ih => exact .yield m context m' due (ih second)

theorem passed (paced : Paced interval k told k') : k' = k + told.countP Event.isSafePoint := by
  induction paced with
  | nil _ => rfl
  | other notSafePoint _ _ ih => rw [ih, List.countP_cons_of_neg (by simp [notSafePoint])]
  | pass m _ _ ih =>
    rw [ih, List.countP_cons_of_pos rfl]
    omega
  | yield m context m' _ _ ih =>
    rw [ih, List.countP_cons_of_pos rfl, List.countP_cons_of_neg (by simp [Event.isSafePoint])]
    omega

/-- As many yields are asked for as the interval goes into the number of safe points. -/
theorem asked (paced : Paced interval k told k') : told.countP Event.isYield + k / interval =
    k' / interval := by
  induction paced with
  | nil _ => simp
  | other _ notYield _ ih => rw [List.countP_cons_of_neg (by simp [notYield]), ih]
  | pass m early _ ih =>
    rw [List.countP_cons_of_neg (by simp [Event.isYield]), ← Nat.succ_div_of_not_dvd early, ih]
  | yield m context m' due _ ih =>
    rw [Nat.succ_div_of_dvd due] at ih
    rw [List.countP_cons_of_neg (by simp [Event.isYield]), List.countP_cons_of_pos rfl, ← ih]
    omega

/-- No yield is asked for without a safe point. -/
theorem begins (paced : Paced interval k (event :: told) k') : event.isYield = false := by
  cases paced with
  | other _ notYield _ => exact notYield
  | pass | yield => rfl

/-- A safe point asks for a yield if and only if its number is a multiple of the interval. -/
theorem asks_iff (paced : Paced interval k told k') {before after : List Event} {m : Machine}
    (split : told = before ++ .action .safePoint m :: after) :
    (∃ context m' rest, after = .raise context .yield m' :: rest) ↔
      interval ∣ k + before.countP Event.isSafePoint + 1 := by
  induction paced generalizing before with
  | nil _ => simp at split
  | other notSafePoint _ _ ih =>
    cases before with
    | nil =>
      cases split
      cases notSafePoint
    | cons _ before =>
      cases split
      rw [ih rfl, List.countP_cons_of_neg (by simp [notSafePoint])]
  | @pass k _ _ _ early rest ih =>
    cases before with
    | nil =>
      cases split
      refine ⟨fun ⟨context, m', later, asks⟩ => ?_, fun due => absurd due early⟩
      subst asks
      cases rest.begins
    | cons _ before =>
      cases split
      rw [ih rfl, List.countP_cons_of_pos rfl, show k + 1 + _ = k +
        (_ + 1) from Nat.add_right_comm _ _ _]
  | @yield k _ _ context m' _ due _ ih =>
    match before with
    | [] =>
      cases split
      exact ⟨fun _ => due, fun _ => ⟨context, m', _, rfl⟩⟩
    | [_] => cases split
    | _ :: _ :: before =>
      cases split
      rw [ih rfl, List.countP_cons_of_pos rfl,
        List.countP_cons_of_neg (by simp [Event.isSafePoint]), show k + 1 + _ = k +
        (_ + 1) from Nat.add_right_comm _ _ _]

end Paced

namespace Machine

variable {interval k : Nat} {told : List Event} {m m' : Machine}

/-! ## The countdown -/

/-- After so many safe points, the countdown is what is missing to the next multiple of the
interval. -/
def Clock (interval k : Nat) (m : Machine) : Prop :=
  m.yieldInterval = some interval ∧ m.countdown + k = interval * (k / interval + 1)

theorem Clock.isDue_iff (clock : m.Clock interval k) (positive : 0 < interval) :
    m.isDue = true ↔ interval ∣ k + 1 := by
  obtain ⟨set, count⟩ := clock
  have short : k < interval * (k / interval + 1) := Nat.lt_mul_div_succ k positive
  simp only [isDue, set, Option.isSome_some, Bool.true_and, decide_eq_true_eq]
  refine ⟨fun last => ⟨k / interval + 1, by omega⟩, fun due => ?_⟩
  have next : interval * ((k + 1) / interval) = k + 1 := Nat.mul_div_cancel' due
  rw [Nat.succ_div_of_dvd due] at next
  omega

theorem Clock.tick (clock : m.Clock interval k) (positive : 0 < interval) :
    m.tick.Clock interval (k + 1) := by
  have due_iff := clock.isDue_iff positive
  obtain ⟨set, count⟩ := clock
  have short : k < interval * (k / interval + 1) := Nat.lt_mul_div_succ k positive
  simp only [isDue, set, Option.isSome_some, Bool.true_and, decide_eq_true_eq] at due_iff
  have ticked : m.tick = { m with countdown := if m.countdown ≤
      1 then interval else m.countdown - 1 } := by
    unfold Machine.tick
    rw [set]
  rw [ticked]
  refine ⟨set, ?_⟩
  show (if m.countdown ≤ 1 then interval else m.countdown - 1) + (k + 1) = _
  by_cases due : interval ∣ k + 1
  · rw [if_pos (due_iff.mpr due), Nat.mul_add, Nat.mul_div_cancel' due]
    omega
  · rw [if_neg fun last => due (due_iff.mp last), Nat.succ_div_of_not_dvd due]
    omega

theorem Clock.raised (clock : m.Clock interval k) (handler : CaptureHandler) :
    (m.raised handler).Clock interval k := by
  unfold Machine.raised
  split <;> exact clock

/-- **Along every course the yields keep their cadence.** -/
theorem Course.paced (course : Course told m m') (positive : 0 < interval)
    (clock : m.Clock interval k) : ∃ k', Paced interval k told k' ∧ m'.Clock interval k' := by
  induction course generalizing k with
  | trans _ _ ihFirst ihSecond =>
    obtain ⟨k₁, first, clock₁⟩ := ihFirst clock
    obtain ⟨k₂, second, clock₂⟩ := ihSecond clock₁
    exact ⟨k₂, first.append second, clock₂⟩
  | @told event plain =>
    refine ⟨k, .other ?_ ?_ (.nil k), clock⟩
    · cases event with
      | action action m =>
        cases action with
        | safePoint => cases plain
        | _ => rfl
      | _ => rfl
    · cases event with
      | raise => cases plain
      | _ => rfl
  | @raise handler context m notYield =>
    refine ⟨k, .other rfl ?_ (.nil k), clock.raised handler⟩
    cases handler with
    | yield => exact absurd rfl notYield
    | _ => rfl
  | pass early =>
    have notDue : ¬ interval ∣ k + 1 := fun due => by
      rw [(clock.isDue_iff positive).mpr due] at early
      cases early
    exact ⟨k + 1, .pass _ notDue (.nil _), clock.tick positive⟩
  | yield context isDue =>
    exact ⟨k + 1, .yield _ context _ ((clock.isDue_iff positive).mp isDue) (.nil _),
      (clock.tick positive).raised _⟩
  | keep frame _ ih => exact ih clock
  | _ => exact ⟨k, .nil k, clock⟩

/-! ## Turns -/

section Turns

variable {strategy : Strategy} {bound : Nat} {next : Next}

theorem Clock.begin (clock : m.Clock interval k) (next : Next) :
    (m.begin next).Clock interval k := by
  obtain ⟨_, _, _, _, _, _, begun⟩ := m.begin_eq next
  rw [begun]
  exact clock

/-- The clock goes on by the safe points of a turn. -/
theorem Clock.turn (clock : m.Clock interval k) (positive : 0 < interval)
    (notVoid : next.isVoid = false) (bound : Nat) : ∃ k', Paced interval k
      (m.chronicle bound next) k' ∧ ∀ step, m.turn bound next = some step →
      step.2.Clock interval k' := by
  obtain ⟨_, course⟩ := chronicle_goes bound next m
  obtain ⟨k', paced, _⟩ := course.paced positive (clock.begin next)
  refine ⟨k', paced, fun step done => ?_⟩
  obtain ⟨m₁, ended, _, _, _, _, _, _, _, eq⟩ := turn_eq done
  -- the number at the end is that of the safe points which are told
  obtain ⟨k₁, paced₁, clock₁⟩ := ((start_course bound notVoid m).state ended).paced positive
    (clock.begin next)
  have same : k₁ = k' := paced₁.passed.trans paced.passed.symm
  rw [eq]
  exact same ▸ clock₁

/-- Where captures unwind, a turn in which one is raised ends with it, and no other one is raised.
-/
theorem Coherent.start_of_raise (coherent : m.Coherent strategy) (fits : next.Fits strategy m.store)
    (unwinds : strategy.unwinds = true) (mem : event ∈ m.chronicle bound next)
    (isRaise : event.isRaise = true) :
    ∃ before context handler raised after stack shadow,
      m.chronicle bound next = before ++ .raise context handler raised :: after ∧
      (∀ event ∈ before ++ after, event.isRaise = false) ∧ stack.points = context.map some ∧
      Eval.start (engine bound) next m =
        .unwind (.signal (.capture handler stack)) { raised with capturing := true, shadow } := by
  have meets := coherent.observed_meets fits bound
  have notRaise : ∀ {event : Event}, event.isGuard = true → event.isRaise = false :=
      fun {event} isGuard => by
    cases event with
    | raise => cases isGuard
    | _ => rfl
  obtain ⟨before, after, told⟩ := List.append_of_mem mem
  cases event with
  | raise context handler raised =>
    obtain ⟨guards, _, _, ends, stack, shadow, rfl, rfl, tells⟩ :=
      meets.raised unwinds before context handler raised after told
    rw [erase_observed] at ends
    refine ⟨before, context, handler, raised, after, stack, shadow, told, fun event mem =>
      ?_, tells.points unwinds, ends⟩
    rcases List.mem_append.mp mem with earlier | later
    · -- after an earlier one there would be nothing but guards
      rw [← Bool.not_eq_true]
      intro isRaise
      obtain ⟨first, rest, rfl⟩ := List.append_of_mem earlier
      cases event with
      | raise context' handler' raised' =>
        have told' : m.chronicle bound next = first ++ .raise context' handler' raised' ::
            (rest ++ .raise context handler raised :: after) := told.trans (by simp)
        cases (meets.raised unwinds _ _ _ _ _ told').1 (.raise context handler raised) (by simp)
      | _ => cases isRaise
    · exact notRaise (guards event later)
  | _ => cases isRaise

/-- A yield is asked for, and queued as a task.  Its stack has a frame for each call in progress at
the safe point, and `undefined` in the place of its value. -/
def Queues (told : List Event) (m m' : Machine) : Prop :=
  ∃ before context raised after, ∃ stack outer : Stack, told = before ++ .raise context .yield
    raised :: after ∧ stack.points = context.map some ∧
    m'.tasks = m.tasks ++ [.resume ((stack.appendOuter outer).pushInner (.top (.value .undefined)))]

/-- What a turn has to do with yields: it asks for none, or it ends the slice with the one that it
asks for. -/
inductive Yields (bound : Nat) (next : Next) (m : Machine) : Turn × Machine → Prop
  | no {turn : Turn} {m' : Machine} : (m.chronicle bound next).countP Event.isYield = 0 →
      turn ≠ .ended (.ok .suspended) → m'.tasks = m.tasks ∧ m'.stats.yields = m.stats.yields →
      Yields bound next m (turn, m')
  | yes {m' : Machine} : (m.chronicle bound next).countP Event.isYield = 1 →
      Queues (m.chronicle bound next) m m' → m'.stats.yields = m.stats.yields + 1 →
        Yields bound next m (.ended (.ok .suspended), m')

theorem countP_isYield_of_quiet (quiet : ∀ event ∈ told, event.isRaise = false) :
    told.countP Event.isYield = 0 := by
  refine List.countP_eq_zero.mpr fun event mem isYield => ?_
  have notRaise := quiet event mem
  cases event with
  | raise => cases notRaise
  | _ => cases isYield

/-- A turn leaves alone the queued tasks and the number of yields, until it has ended. -/
theorem Course.tasks_yields (course : Course told (m.begin next) m') :
    m'.tasks = m.tasks ∧ m'.stats.yields = m.stats.yields := by
  have fixed := course.fixed_eq
  obtain ⟨_, _, _, _, _, _, begun⟩ := m.begin_eq next
  rw [begun] at fixed
  exact ⟨congrArg (·.2.2.2.2.2.1) fixed, congrArg (·.2.2.2.2.2.2.yields) fixed⟩

theorem Coherent.yields_of_raise (coherent : m.Coherent strategy)
    (fits : next.Fits strategy m.store) (unwinds : strategy.unwinds = true)
    (mem : event ∈ m.chronicle bound next) (isRaise : event.isRaise = true)
    (done : m.turn bound next = some step) : m.Yields bound next step := by
  have course := start_course bound fits.notVoid m
  obtain ⟨before, context, handler, raised, after, stack, shadow, told, others, points, ends⟩ :=
    coherent.start_of_raise fits unwinds mem isRaise
  have count : (m.chronicle bound next).countP Event.isYield =
      [Event.raise context handler raised].countP Event.isYield := by
    have none := countP_isYield_of_quiet others
    rw [List.countP_append] at none
    rw [told, List.countP_append, List.countP_cons, List.countP_singleton]
    omega
  rw [ends] at course
  have same := course.tasks_yields
  unfold Machine.turn at done
  rw [ends] at done
  cases done
  cases handler with
  | yield =>
    refine .yes count ⟨before, context, raised, after, stack, raised.pending, told, points, ?_⟩ ?_
    · rw [← same.1]
      rfl
    · rw [← same.2]
      rfl
  | _ => exact .no count nofun same

theorem Coherent.yields_of_quiet (coherent : m.Coherent strategy) (ready : m.Ready strategy)
    (fits : next.Fits strategy m.store) (unwinds : strategy.unwinds = true)
    (quiet : ∀ event ∈ m.chronicle bound next, event.isRaise = false)
    (done : m.turn bound next = some step) :
    m.Yields bound next step := by
  have notRetval : strategy ≠ .retval := fun retval => by
    rw [retval] at unwinds
    cases unwinds
  -- no capture is under way at the end
  have idle : ∀ {m₁}, Course (m.chronicle bound next) (m.begin next) m₁ → m₁.capturing = false := by
    intro m₁ course
    refine Bool.eq_false_iff.mpr fun capturing => ?_
    obtain ⟨_, _, _, _, _, _, begun⟩ := m.begin_eq next
    rw [begun] at course
    rcases course.raise_of_capturing capturing with before | ⟨_, event, mem, isRaise⟩
    · cases (ready.capturing notRetval).symm.trans before
    · cases (quiet event mem).symm.trans isRaise
  have course := start_course bound fits.notVoid m
  have sound := (coherent.observed_meets fits bound).ends
  rw [erase_observed] at sound
  have none := countP_isYield_of_quiet quiet
  cases turned done with
  | result ending =>
    rw [ending] at course
    unfold Machine.afterResult
    rw [idle course, Bool.false_and, if_neg Bool.false_ne_true]
    split <;> exact .no none (by simp) course.tasks_yields
  | @signal signal m₁ ending =>
    rw [ending] at course sound
    cases signal with
    | capture handler stack =>
      have capturing : m₁.capturing = true := sound.2.1.2
      cases (idle course).symm.trans capturing
    | restore | discard => exact .no none (by simp) course.tasks_yields
  | uncaught _ ending _ | caught ending | fault ending =>
    rw [ending] at course
    exact .no none (by simp) course.tasks_yields

theorem Coherent.yields (coherent : m.Coherent strategy) (ready : m.Ready strategy)
    (fits : next.Fits strategy m.store) (unwinds : strategy.unwinds = true)
    (done : m.turn bound next = some step) : m.Yields bound next step := by
  by_cases raises : ∃ event ∈ m.chronicle bound next, event.isRaise = true
  · obtain ⟨event, mem, isRaise⟩ := raises
    exact coherent.yields_of_raise fits unwinds mem isRaise done
  · refine coherent.yields_of_quiet ready fits unwinds (fun event mem => ?_) done
    exact Bool.eq_false_iff.mpr fun isRaise => raises ⟨event, mem, isRaise⟩

/-! ## Slices -/

/-- What is told of a slice. -/
def driveChronicle (bound : Nat) : Nat → Next → Machine → List Event
  | 0, _, _ => []
  | turns + 1, next, m => m.chronicle bound next ++ match m.turn bound next with
    | some (.next next, m) => driveChronicle bound turns next m
    | _ => []

/-- The clock goes on by the safe points of a slice, and these are only passed in normal mode. -/
theorem Clock.drive (clock : m.Clock interval k) (positive : 0 < interval)
    (coherent : m.Coherent strategy) (fits : next.Fits strategy m.store) (bound turns : Nat) : ∃ k',
      Paced interval k (m.driveChronicle bound turns next) k' ∧
      (∀ event ∈ m.driveChronicle bound turns next, event.Expected) ∧
      ∀ result m', m.drive bound turns next = some (result, m') → m'.Clock interval k' := by
  induction turns generalizing next m k with
  | zero => exact ⟨k, .nil k, List.forall_mem_nil _, fun _ _ done => by cases done⟩
  | succ turns ih =>
    have expected : ∀ event ∈ m.chronicle bound next, event.Expected :=
      (coherent.observed_meets fits bound).told
    obtain ⟨k₁, paced, clock₁⟩ := clock.turn positive fits.notVoid bound
    unfold driveChronicle drive
    cases taken : m.turn bound next with
    | none =>
      exact ⟨k₁, paced.append (.nil k₁), by simpa using expected, fun _ _ done => by cases done⟩
    | some step =>
      obtain ⟨turn, m₁⟩ := step
      obtain ⟨coherent₁, fits₁⟩ := coherent.turn fits taken
      cases turn with
      | ended result =>
        refine ⟨k₁, paced.append (.nil k₁), by simpa using expected, fun result' m' done => ?_⟩
        cases done
        exact clock₁ _ taken
      | next following =>
        obtain ⟨k₂, paced₂, expected₂, clock₂⟩ := ih (clock₁ _ taken) coherent₁ fits₁
        refine ⟨k₂, paced.append paced₂, fun event mem => ?_, clock₂⟩
        exact (List.mem_append.mp mem).elim (expected event) (expected₂ event)

/-- A slice ends with at most one yield, and that is queued. -/
theorem Coherent.drive_yields (coherent : m.Coherent strategy) (ready : m.Ready strategy)
    (fits : next.Fits strategy m.store) (unwinds : strategy.unwinds = true) {turns : Nat}
    {result : Except Fault Outcome} (done : m.drive bound turns next = some (result, m')) :
    m'.stats.yields = m.stats.yields + (m.driveChronicle bound turns next).countP Event.isYield ∧
      (result = .ok .suspended → Queues (m.driveChronicle bound turns next) m m') := by
  induction turns generalizing next m with
  | zero => cases done
  | succ turns ih =>
    unfold Machine.drive at done
    unfold driveChronicle
    cases taken : m.turn bound next with
    | none =>
      rw [taken] at done
      cases done
    | some step =>
      obtain ⟨turn, m₁⟩ := step
      rw [taken] at done
      have yields := coherent.yields ready fits unwinds taken
      cases turn with
      | ended result' =>
        cases done
        rw [List.append_nil]
        cases yields with
        | no none notSuspended same =>
          exact ⟨by rw [none, same.2, Nat.add_zero], fun suspended =>
            absurd (congrArg Turn.ended suspended) notSuspended⟩
        | yes one queues yielded => exact ⟨by rw [one, yielded], fun _ => queues⟩
      | next following =>
        obtain ⟨coherent₁, fits₁⟩ := coherent.turn fits taken
        obtain ⟨counted, queued⟩ := ih coherent₁ (ready.turn coherent fits taken).1 fits₁ done
        cases yields with
        | no none _ same =>
          refine ⟨by rw [List.countP_append, none, Nat.zero_add, counted, same.2], fun suspended =>
            ?_⟩
          obtain ⟨before, context, raised, after, stack, outer, told, points, tasks⟩ :=
            queued suspended
          refine ⟨m.chronicle bound next ++ before, context, raised, after, stack, outer, ?_,
            points, ?_⟩
          · rw [List.append_assoc]
            exact congrArg (_ ++ ·) told
          · rw [tasks, same.1]

end Turns

/-- What becomes of a machine on which a program is started, with what was told until then.  Between
the slices, where nothing is to be done next, the host queues and does tasks, and sets globals. -/
inductive Ongoing (program : Program) (m : Machine) : List Event → Option Next → Machine → Prop
  | run : Ongoing program m [] (some (.run (.enterTop (top program)))) (m.setInterval program)
  | slice {log : List Event} {next : Next} {m₁ m₂ : Machine} {bound : Nat}
      {result : Except Fault Outcome} : Ongoing program m log (some next) m₁ →
        m₁.drive bound bound next = some (result, m₂) →
      Ongoing program m (log ++ m₁.driveChronicle bound bound next) none m₂
  | task {log : List Event} {m₁ m₂ : Machine} {stack : Stack} : Ongoing program m log none m₁ →
      m₁.nextTask? = some (.resume stack, m₂) → Ongoing program m log (some (.restore stack)) m₂
  | hostTask {log : List Event} {m₁ m₂ : Machine} {lines : List String} {queued : List Task} :
      Ongoing program m log none m₁ → m₁.nextTask? = some (.host lines queued, m₂) →
      Ongoing program m log none (m₂.doWork lines queued)
  | queue {log : List Event} {m₁ : Machine} {task : Task} : Ongoing program m log none m₁ →
      m₁.Offers task → Ongoing program m log none (m₁.enqueue task)
  | setGlobal {log : List Event} {m₁ : Machine} (name : String) (value : Value) :
      Ongoing program m log none m₁ → Ongoing program m log none (m₁.setGlobal name value)

namespace Ongoing

variable {strategy : Strategy} {program : Program} {log : List Event} {next : Next}
  {place : Option Next}

/-- Between slices it is a session, and a slice finds what it relies on. -/
theorem session (ongoing : m.Ongoing program log place m') (session : Session strategy m)
    (compiled : program.CompiledFor strategy) : match place with
      | none => Session strategy m'
      | some next => (m'.Coherent strategy ∧ m'.Ready strategy ∧ next.Fits strategy m'.store) ∧
          ∀ bound result m'', m'.drive bound bound next = some (result, m'') →
              Session strategy m'' := by
  induction ongoing with
  | run =>
    have coherent := session.coherent
    have runs : m.strategy = strategy := coherent.runs
    have ready := session.ready
    exact ⟨⟨coherent.setInterval program, ⟨ready.pending, ready.capturing, ready.handler⟩,
      compiled.top.1⟩, fun bound result m' done => .run session compiled
      ((compiled.run_eq runs bound).trans done)⟩
  | slice _ done ih => exact ih.2 _ _ _ done
  | task _ taken ih =>
    obtain ⟨coherent, fits⟩ := (Session.coherent ih).nextTask taken
    exact ⟨⟨coherent, (Session.ready ih).nextTask taken, fits.stack⟩, fun bound result m' done =>
      Session.resumeTask ih taken done⟩
  | hostTask _ taken ih => exact Session.hostTask ih taken
  | queue _ offers ih => exact Session.queue ih offers
  | setGlobal name value _ ih => exact Session.setGlobal name value ih

/-- The clock is right, and all the yields that were asked for were made. -/
theorem kept (ongoing : m.Ongoing program log place m') (session : Session strategy m)
    (unwinds : strategy.unwinds = true) (compiled : program.CompiledFor strategy)
    (set : (program.instrumented.bind (·.yieldInterval)) = some interval)
    (positive : 0 < interval) :
    (∃ k, Paced interval 0 log k ∧ m'.Clock interval k) ∧ (∀ event ∈ log, event.Expected) ∧
      m'.stats.yields = m.stats.yields + log.countP Event.isYield := by
  induction ongoing with
  | run =>
    obtain ⟨header, instrumented, set⟩ := Option.bind_eq_some_iff.mp set
    refine ⟨⟨0, .nil 0, ?_⟩, List.forall_mem_nil _, rfl⟩
    simp [Clock, setInterval, instrumented, set, positive, Option.filter]
  | @slice log next m₁ m₂ bound result before done ih =>
    obtain ⟨⟨k, paced, clock⟩, expected, yields⟩ := ih
    obtain ⟨⟨coherent, ready, fits⟩, _⟩ := before.session session compiled
    obtain ⟨k', paced', expected', clock'⟩ := clock.drive positive coherent fits bound bound
    refine ⟨⟨k', paced.append paced', clock' _ _ done⟩, fun event mem => ?_, ?_⟩
    · exact (List.mem_append.mp mem).elim (expected event) (expected' event)
    · rw [(coherent.drive_yields ready fits unwinds done).1, yields, List.countP_append,
        Nat.add_assoc]
  | task _ taken ih | hostTask _ taken ih =>
    obtain ⟨rest, _, rfl⟩ := nextTask_eq taken
    exact ih
  | queue | setGlobal => assumption

end Ongoing

end Machine

section Sessions

variable {strategy : Strategy} {program : Program} {interval : Nat} {m m' : Machine}
  {log : List Event} {place : Option Next}

/-- **Yields keep their cadence.**  Whenever a slice of a program has ended or is about to begin,
the yields since the program was started are as many as the interval goes into the number of safe
points.  Of all safe points until then and in the slice, be it one that ends or not, those whose
number is a multiple of the interval ask for a yield, and no others do.  Safe points are only passed
in normal mode, so never while a stack is built up.  A slice that yields queues a stack with a frame
for each call in progress at the safe point that asked, and with `undefined` in the place of its
value. -/
theorem Session.yields_keep_cadence (session : Session strategy m)
    (unwinds : strategy.unwinds = true) (compiled : program.CompiledFor strategy)
    (set : (program.instrumented.bind (·.yieldInterval)) = some interval) (positive : 0 < interval)
    (ongoing : m.Ongoing program log place m') :
    m'.stats.yields = m.stats.yields + log.countP Event.isSafePoint / interval ∧
      ∀ next, place = some next → ∀ bound,
        (∀ before passed after,
          log ++ m'.driveChronicle bound bound next = before ++ .action .safePoint passed :: after →
          passed.mode = .normal ∧ ((∃ context raised rest,
            after = .raise context .yield raised :: rest) ↔
            interval ∣ before.countP Event.isSafePoint + 1)) ∧
        ∀ m'', m'.drive bound bound next = some (.ok .suspended, m'') →
          Machine.Queues (m'.driveChronicle bound bound next) m' m'' := by
  obtain ⟨⟨k, paced, clock⟩, expected, yields⟩ := ongoing.kept session unwinds compiled set positive
  refine ⟨?_, fun next here bound => ⟨fun before passed after split => ?_, fun m'' done => ?_⟩⟩
  · have passed : k = log.countP Event.isSafePoint := by simpa using paced.passed
    have asked : log.countP Event.isYield = k / interval := by simpa using paced.asked
    rw [yields, asked, passed]
  · subst here
    obtain ⟨⟨coherent, _, fits⟩, _⟩ := ongoing.session session compiled
    obtain ⟨k', paced', expected', _⟩ := clock.drive positive coherent fits bound bound
    refine ⟨?_, by simpa using (paced.append paced').asks_iff split⟩
    have mem : Event.action .safePoint passed ∈ log ++ m'.driveChronicle bound bound next := by
      simp [split]
    exact ((List.mem_append.mp mem).elim (expected _) (expected' _)).2
  · subst here
    obtain ⟨⟨coherent, ready, fits⟩, _⟩ := ongoing.session session compiled
    exact (Machine.Coherent.drive_yields coherent ready fits unwinds done).2 rfl

/-- A program with two calls.  There is a safe point at its beginning and at the entry of each. -/
def Program.twoCalls : Program :=
  { body := [.decl { name := some "f", body := [.returnS none] },
      .letS "x" (some (.call (.ident "f") [])), .letS "y" (some (.call (.ident "f") [])),
      .returnS none] }

theorem Program.twoCalls_yields :
    ((Program.twoCalls.compile { yieldInterval := some 2 }).toOption.map fun compiled =>
      let m := (Machine.new .lazy {}).setInterval compiled.load
      let next := .run (.enterTop (Machine.top compiled.load))
      match m.drive 8 8 next with
      | some (_, m₁) => match m₁.nextTask? with
        | some (.resume stack, m₂) => (m₂.drive 8 8 (.restore stack)).isSome &&
            decide ((compiled.load.instrumented.bind (·.yieldInterval)) = some 2) &&
            decide ((m.driveChronicle 8 8 next ++ m₂.driveChronicle 8 8
              (.restore stack)).countP Event.isSafePoint = 3)
        | _ => false
      | none => false) = some true := by decide +kernel

/-- The second of three safe points asks for a yield, and the third is passed after it. -/
theorem Session.yields_keep_cadence_of_twoCalls :
    ∃ compiled log m, Program.twoCalls.compile { yieldInterval := some 2 } = .ok compiled ∧
      (Machine.new .lazy {}).Ongoing compiled.load log none m ∧ log.countP Event.isSafePoint = 3 ∧
      m.stats.yields = 1 := by
  obtain ⟨compiled, ok, found⟩ := Option.map_eq_some_iff.mp Program.twoCalls_yields
  replace ok := Program.compile_of_toOption ok
  simp only at found
  split at found
  · rename_i result m₁ first
    split at found
    · rename_i stack m₂ taken
      simp only [Bool.and_eq_true, decide_eq_true_eq, Option.isSome_iff_exists] at found
      obtain ⟨⟨⟨⟨_, m₃⟩, second⟩, set⟩, three⟩ := found
      have session : Session .lazy (Machine.new .lazy {}) := .new rfl
      have ongoing : (Machine.new .lazy {}).Ongoing compiled.load _ none m₃ :=
        .slice (.task (.slice .run first) taken) second
      have cadence := session.yields_keep_cadence rfl ⟨Program.twoCalls, compiled, _,
        Program.firstSite, ok, rfl, rfl⟩ set (by decide) ongoing
      exact ⟨compiled, _, m₃, ok, ongoing, three,
        cadence.1.trans (by rw [List.nil_append, three]; rfl)⟩
    · cases found
  · cases found

/-- A program with a return after a throw, before a call at whose entry there is a safe point. -/
def Program.deadReturn : Program :=
  { body := [.decl { name := some "g", body := [.returnS none] },
      .decl { name := some "f", body := [
        .tryS (.block [.throwS .null, .returnS (some (.bool false))]) (some ⟨"e", .block []⟩) none,
        .letS "r" (some (.call (.ident "g") [])), .returnS (some (.bool true))] },
      .letS "x" (some (.call (.ident "f") [])), .returnS (some (.ident "x"))] }

/-- **A slice may not come back to its safe point.**  The return after the throw is never reached in
normal mode, but it is in the way when the stack is built up again: the resumed slice ends there,
still in restoring mode.  Without yields the program ends with the other value. -/
theorem Machine.continueWith_deadReturn :
    ((Program.deadReturn.compile { yieldInterval := some 3 }).toOption.map fun compiled =>
        match (Machine.new .lazy {}).run 12 compiled.load with
        | some (.ok .suspended, m) => match m.nextTask? with
          | some (.resume stack, m) => match m.continueWith 12 stack with
            | some (.ok (.done (.bool value)), m) => some (value, m.mode)
            | _ => none
          | _ => none
        | _ => none) = some (some (false, .restoring)) ∧
      ((Program.deadReturn.compile {}).toOption.map fun compiled =>
        match (Machine.new .lazy {}).run 12 compiled.load with
        | some (.ok (.done (.bool value)), m) => some (value, m.mode)
        | _ => none) = some (some (true, .normal)) := by
  decide +kernel

end Sessions

end Resumable
