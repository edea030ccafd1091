import Resumable.Proofs.Cadence

/-!
The host does every task once.

A slice leaves the queue alone, unless it is suspended: then the task that resumes it is put at the
end.  `Serves` is the history of a host that takes the oldest task again and again, with all that is
queued meanwhile.  What is queued and what is done are the same tasks in the same order
(`Serves.queue`), and as long as no slice is done a suspended one waits in the queue
(`Serves.waiting`).  So a program is never stalled.
-/

namespace Resumable

variable {program : Program} {lines : List String} {added rest : List Task} {outcome : Outcome}
  {m₁ : Machine}

namespace Machine

variable {bound : Nat} {m m' : Machine} {next : Next}

/-! ## Slices and the queue -/

/-- The queue after a slice with that result. -/
inductive Leaves (before : List Task) : Except Fault Outcome → List Task → Prop
  | suspended (stack : Stack) : Leaves before (.ok .suspended) (before ++ [.resume stack])
  | done (value : Value) : Leaves before (.ok (.done value)) before
  | failed {fault : Fault} : fault ≠ .stalled → Leaves before (.error fault) before

/-- What a turn does to the queue. -/
def Turn.Leaves (before : List Task) : Turn × Machine → Prop
  | (.next _, m) => m.tasks = before
  | (.ended result, m) => Machine.Leaves before result m.tasks

theorem afterCapture_leaves (m : Machine) (handler : CaptureHandler) (stack : Stack) :
    Turn.Leaves m.tasks (m.afterCapture handler stack) := by
  cases handler with
  | guest func | reenter action => exact rfl
  | yield => exact .suspended _

theorem turn_leaves {step : Turn × Machine} (taken : m.turn bound next = some step) :
    Turn.Leaves m.tasks step := by
  have moving := start_moving bound next m
  have same {m₁ : Machine} (ended : (Eval.start (engine bound) next m).state? = some m₁) :
      m₁.tasks = m.tasks := by
    cases isVoid : next.isVoid with
    | true =>
      rw [Eval.start_void isVoid] at ended
      cases ended
      rfl
    | false => exact ((start_course bound isVoid m).state ended).tasks_yields.1
  cases turned taken with
  | @result value m₁ ending =>
    rw [ending] at same
    rw [← same rfl]
    unfold afterResult
    split
    · exact afterCapture_leaves { m₁ with pendingHandler := none, stack := .empty } _ _
    · split
      · exact .done value
      · exact rfl
  | uncaught _ ending _ =>
    rw [ending] at same
    rw [← same rfl]
    exact .failed (by simp)
  | caught ending =>
    rw [ending] at same
    rw [← same rfl]
    exact rfl
  | @signal signal m₁ ending =>
    rw [ending] at same
    rw [← same rfl]
    cases signal with
    | capture handler stack => exact afterCapture_leaves m₁ handler stack
    | restore | discard => exact rfl
  | fault ending =>
    rw [ending] at same moving
    rw [← same rfl]
    exact .failed fun stalled => moving (congrArg _ stalled)

theorem drive_leaves {turns : Nat} {result : Except Fault Outcome}
    (done : m.drive bound turns next = some (result, m')) : Leaves m.tasks result m'.tasks := by
  refine drive_induction (fun _ m₁ => m₁.tasks = m.tasks) (fun result m₁ =>
    Leaves m.tasks result m₁.tasks) (fun next m₁ following m₂ same taken => ?_)
    (fun next m₁ result m₂ same taken => ?_) rfl done
  · exact Eq.trans (turn_leaves taken) same
  · rw [← same]
    exact turn_leaves taken

theorem run_leaves {result : Except Fault Outcome}
    (done : m.run bound program = some (result, m')) : Leaves m.tasks result m'.tasks := by
  simp only [run] at done
  split at done
  · cases done
    exact .failed (by simp)
  · have leaves := drive_leaves done
    exact leaves

end Machine

/-! ## Histories -/

/-- What the host did with a task. -/
inductive Deed where
  | worked (lines : List String) (queued : List Task)
  | resumed (stack : Stack) (outcome : Outcome)

def Deed.task : Deed → Task
  | .worked lines queued => .host lines queued
  | .resumed stack _ => .resume stack

/-- The value of a slice that is done. -/
def Outcome.value? : Outcome → Option Value
  | .done value => some value
  | .suspended => none

def Deed.value? : Deed → Option Value
  | .worked .. => none
  | .resumed _ outcome => outcome.value?

namespace Machine

/-- From one machine to the other the host did these deeds, each with the task that was the oldest
then, and these tasks were queued meanwhile. -/
inductive Serves (bound : Nat) : List Deed → List Task → Machine → Machine → Prop
  | refl (m : Machine) : Serves bound [] [] m m
  | work {lines : List String} {rest added queued : List Task} {history : List Deed}
      {m m' : Machine} : m.tasks = .host lines added :: rest →
        Serves bound history queued (doWork lines added { m with tasks := rest }) m' →
      Serves bound (.worked lines added :: history) (added ++ queued) m m'
  | slice {stack : Stack} {rest added queued : List Task} {outcome : Outcome} {history : List Deed}
      {m m₁ m' : Machine} :
      m.tasks = .resume stack :: rest → continueWith bound stack { m with tasks := rest } = some
        (.ok outcome, m₁) →
      m₁.tasks = rest ++ added → Serves bound history queued m₁ m' →
      Serves bound (.resumed stack outcome :: history) (added ++ queued) m m'

variable {bound : Nat} {m m' : Machine} {history : List Deed} {queued : List Task}

/-- **Each task is done once**, in the order in which the tasks were queued. -/
theorem Serves.queue (serves : Serves bound history queued m m') :
    m.tasks ++ queued = history.map Deed.task ++ m'.tasks := by
  induction serves with
  | refl m => exact List.append_nil _
  | work oldest _ ih =>
    rw [oldest, List.cons_append, List.map_cons, List.cons_append, ← ih, doWork, List.append_assoc]
    rfl
  | slice oldest _ added _ ih =>
    rw [added] at ih
    rw [oldest, List.cons_append, List.map_cons, List.cons_append, ← ih, List.append_assoc]
    rfl

/-- A slice waits to be resumed. -/
def Waits (m : Machine) : Prop :=
  ∃ stack, Task.resume stack ∈ m.tasks

theorem Leaves.waits {before : List Task} (leaves : Leaves before (.ok .suspended) m.tasks) :
    m.Waits := by
  generalize after : m.tasks = tasks at leaves
  cases leaves with
  | suspended stack => exact ⟨stack, after ▸ List.mem_append_right _ List.mem_cons_self⟩

theorem Waits.afterWork (waits : m.Waits) (oldest : m.tasks = .host lines added :: rest) :
    (doWork lines added { m with tasks := rest }).Waits := by
  obtain ⟨stack, mem⟩ := waits
  rw [oldest] at mem
  exact ⟨stack, List.mem_append_left _ ((List.mem_cons.mp mem).resolve_left nofun)⟩

/-- As long as no slice is done, a suspended one waits. -/
theorem Serves.waiting (serves : Serves bound history queued m m') (waits : m.Waits)
    (undone : history.filterMap Deed.value? = []) : m'.Waits := by
  induction serves with
  | refl m => exact waits
  | work oldest _ ih => exact ih (waits.afterWork oldest) undone
  | @slice stack rest added queued outcome history m m₁ m' _ resumed _ _ ih =>
    cases outcome with
    | done value => cases undone
    | suspended => exact ih (drive_leaves resumed).waits undone

/-! ## The host -/

/-- How a host ends that goes on from a machine, with the values of the slices that were done
before: with the value of the last one that was done when no task is left, or at once with the fault
of the first slice that fails. -/
inductive Settles (bound turns : Nat) (values : List Value) (m : Machine) : Except Fault Value →
    Machine → Prop
  | done {history : List Deed} {queued : List Task} {value : Value} {m' : Machine} :
      Serves bound history queued m m' → history.length < turns → m'.tasks = [] →
      (values ++ history.filterMap Deed.value?).getLast? = some value →
        Settles bound turns values m (.ok value) m'
  | failed {history : List Deed} {queued rest : List Task} {stack : Stack} {fault : Fault}
      {m₁ m' : Machine} : Serves bound history queued m m₁ → history.length < turns →
        m₁.tasks = .resume stack :: rest →
      continueWith bound stack { m₁ with tasks := rest } = some (.error fault, m') →
      Settles bound turns values m (.error fault) m'

/-- How a host ends with a program. -/
inductive Concludes (bound : Nat) (program : Program) (m : Machine) : Except Fault Value →
    Machine → Prop
  | refused {fault : Fault} {m' : Machine} : m.run bound program = some (.error fault, m') →
      Concludes bound program m (.error fault) m'
  | ran {outcome : Outcome} {result : Except Fault Value} {m₁ m' : Machine} :
      m.run bound program = some (.ok outcome, m₁) →
        Settles bound bound outcome.value?.toList m₁ result m' →
      Concludes bound program m result m'

variable {turns : Nat} {values : List Value} {result : Except Fault Value}

theorem Settles.afterWork (oldest : m.tasks = .host lines added :: rest)
    (settles : Settles bound turns values (doWork lines added { m with tasks := rest }) result m') :
    Settles bound (turns + 1) values m result m' := by
  cases settles with
  | done serves short empty last =>
    exact .done (.work oldest serves) (Nat.succ_lt_succ short) empty last
  | failed serves short next fails =>
    exact .failed (.work oldest serves) (Nat.succ_lt_succ short) next fails

theorem Settles.afterSlice {stack : Stack} (oldest : m.tasks = .resume stack :: rest)
    (resumed : continueWith bound stack { m with tasks := rest } = some (.ok outcome, m₁))
    (settles : Settles bound turns (values ++ outcome.value?.toList) m₁ result m') :
    Settles bound (turns + 1) values m result m' := by
  obtain ⟨added, tasks⟩ : ∃ added, m₁.tasks = rest ++ added := by
    have leaves := drive_leaves resumed
    generalize m₁.tasks = tasks at leaves
    cases leaves with
    | suspended stack => exact ⟨_, rfl⟩
    | done value => exact ⟨[], (List.append_nil _).symm⟩
  cases settles with
  | done serves short empty last =>
    refine .done (.slice oldest resumed tasks serves) (Nat.succ_lt_succ short) empty ?_
    cases outcome <;> simpa [Deed.value?, Outcome.value?, List.append_assoc] using last
  | failed serves short next fails =>
    exact .failed (.slice oldest resumed tasks serves) (Nat.succ_lt_succ short) next fails

/-- The result so far is the last value. -/
theorem latest_getLast? (values : List Value) (outcome : Outcome) :
    latest values.getLast? outcome = (values ++ outcome.value?.toList).getLast? := by
  cases outcome <;> simp [latest, Outcome.value?]

attribute [local simp] service

theorem service_empty (empty : m.tasks = []) (value : Value) :
    m.service bound (turns + 1) (some value) = some (.ok value, m) := by
  simp only [service, nextTask?, empty]

theorem service_work (oldest : m.tasks = .host lines added :: rest) (result : Option Value) :
    m.service bound (turns + 1) result = service bound turns result
    (doWork lines added { m with tasks := rest }) := by
  simp only [service, nextTask?, oldest]

section Resume

variable {stack : Stack} {rest : List Task} (oldest : m.tasks = .resume stack :: rest)
  (result : Option Value)

include oldest

theorem service_none (resumed : continueWith bound stack { m with tasks := rest } = none) :
    m.service bound (turns + 1) result = none := by
  simp only [service, nextTask?, oldest, resumed]

theorem service_error {fault : Fault}
    (resumed : continueWith bound stack { m with tasks := rest } = some (.error fault, m₁)) :
    m.service bound (turns + 1) result = some (.error fault, m₁) := by
  simp only [service, nextTask?, oldest, resumed]

theorem service_ok (resumed : continueWith bound stack { m with tasks := rest } = some
    (.ok outcome, m₁)) : m.service bound (turns + 1) result = m₁.service bound turns
    (latest result outcome) := by
  simp only [service, nextTask?, oldest, resumed]

end Resume

theorem service_settles (waits : values = [] → m.Waits)
    (done : m.service bound turns values.getLast? = some (result, m')) :
    Settles bound turns values m result m' := by
  induction turns generalizing m values with
  | zero => cases done
  | succ turns ih =>
    rcases queue : m.tasks with _ | ⟨task, rest⟩
    · cases last : values.getLast? with
      | none =>
        obtain ⟨stack, mem⟩ := waits (List.getLast?_eq_none_iff.mp last)
        rw [queue] at mem
        cases mem
      | some value =>
        rw [last, service_empty queue] at done
        cases done
        refine .done (.refl _) (Nat.succ_pos turns) queue ?_
        rw [List.filterMap_nil, List.append_nil, last]
    · cases task with
      | host lines added =>
        rw [service_work queue] at done
        exact .afterWork queue (ih (fun none => (waits none).afterWork queue) done)
      | resume stack =>
        rcases resumed : continueWith bound stack
          { m with tasks := rest } with _ | ⟨fault | outcome, m₁⟩
        · rw [service_none queue _ resumed] at done
          cases done
        · rw [service_error queue _ resumed] at done
          cases done
          exact .failed (.refl m) (Nat.succ_pos turns) queue resumed
        · rw [service_ok queue _ resumed, latest_getLast?] at done
          refine .afterSlice queue resumed (ih (fun none => ?_) done)
          cases outcome with
          | done value => cases (List.append_eq_nil_iff.mp none).2
          | suspended => exact (drive_leaves resumed).waits

/-- The host does what its history says. -/
theorem Serves.service (serves : Serves bound history queued m m') (values : List Value)
    (turns : Nat) : m.service bound (turns + history.length) values.getLast? =
      m'.service bound turns (values ++ history.filterMap Deed.value?).getLast? := by
  induction serves generalizing values with
  | refl m => rw [List.filterMap_nil, List.append_nil]; rfl
  | work oldest _ ih =>
    rw [List.length_cons, ← Nat.add_assoc, service_work oldest]
    exact ih values
  | @slice stack rest added queued outcome history m m₁ m' oldest resumed _ _ ih =>
    rw [List.length_cons, ← Nat.add_assoc, service_ok oldest _ resumed, latest_getLast?, ih]
    cases outcome <;> simp [Deed.value?, Outcome.value?, List.append_assoc]

theorem Settles.service (settles : Settles bound turns values m result m') :
    m.service bound turns values.getLast? = some (result, m') := by
  cases settles with
  | @done history _ value _ serves short empty last =>
    obtain ⟨more, rfl⟩ : ∃ more, turns = more + 1 + history.length :=
      ⟨turns - 1 - history.length, by omega⟩
    rw [serves.service, last, service_empty empty]
  | @failed history _ _ _ _ _ _ serves short next fails =>
    obtain ⟨more, rfl⟩ : ∃ more, turns = more + 1 + history.length :=
      ⟨turns - 1 - history.length, by omega⟩
    rw [serves.service, service_error next _ fails]

theorem run_waits (ran : m.run bound program = some (.ok outcome, m'))
    (undone : outcome.value?.toList = []) : m'.Waits := by
  cases outcome with
  | done value => cases undone
  | suspended => exact (run_leaves ran).waits

theorem runProgram_iff_concludes :
    m.runProgram bound program = some (result, m') ↔ Concludes bound program m result m' := by
  have first (outcome : Outcome) : latest none outcome = outcome.value?.toList.getLast? :=
    latest_getLast? [] outcome
  constructor
  · intro done
    unfold runProgram at done
    cases ran : m.run bound program with
    | none =>
      rw [ran] at done
      cases done
    | some slice =>
      obtain ⟨fault | outcome, m₁⟩ := slice
      · rw [ran] at done
        cases done
        exact .refused ran
      · rw [ran] at done
        simp only [first] at done
        exact .ran ran (service_settles (run_waits ran) done)
  · intro concludes
    unfold runProgram
    cases concludes with
    | refused ran => rw [ran]
    | ran ran settles =>
      rw [ran]
      simp only [first]
      exact settles.service

theorem Concludes.moving (concludes : Concludes bound program m result m') :
    result ≠ .error .stalled := by
  have moving {before after : List Task} {fault : Fault}
      (leaves : Leaves before (.error fault) after) :
      (.error fault : Except Fault Value) ≠ .error .stalled := by
    cases leaves with
    | failed moving => exact fun stalled => moving (Except.error.inj stalled)
  cases concludes with
  | refused ran => exact moving (run_leaves ran)
  | ran _ settles =>
    cases settles with
    | done => exact nofun
    | failed _ _ _ fails => exact moving (drive_leaves fails)

/-- **The host does every task once and is never stalled.**  Running a program ends exactly as its
history says: when no task is left, with the value of the last slice that was done, or at once with
the fault of a slice.  In every history the tasks are done in the order in which they were queued,
each once, and as long as no slice is done one that was suspended waits in the queue. -/
theorem runProgram_services (bound : Nat) (program : Program) (m : Machine) :
    (∀ result m', m.runProgram bound program = some (result, m') ↔
    Concludes bound program m result m') ∧
    (∀ m', m.runProgram bound program ≠ some (.error .stalled, m')) ∧
    ∀ outcome m₁ history queued m₂, m.run bound program = some (.ok outcome, m₁) →
      Serves bound history queued m₁ m₂ → m₁.tasks ++ queued = history.map Deed.task ++ m₂.tasks ∧
        (outcome.value?.toList ++ history.filterMap Deed.value? = [] →
        ∃ stack, Task.resume stack ∈ m₂.tasks) := by
  refine ⟨fun result m' => runProgram_iff_concludes, fun m' stalled => ?_,
    fun outcome m₁ history queued m₂ ran serves => ?_⟩
  · exact (runProgram_iff_concludes.mp stalled).moving rfl
  · refine ⟨serves.queue, fun undone => ?_⟩
    rw [List.append_eq_nil_iff] at undone
    exact serves.waiting (run_waits ran undone.1) undone.2

/-- Work of the host that prints two lines and queues work that prints none, a slice that is done at
once, and work that queues itself again. -/
def busyHost : Task :=
  .host ["tick", "tock"] [.host [] [], .resume ⟨[.top (.value .null)]⟩, .printing "tick" 2]

theorem twoCalls_prints :
    ((Program.twoCalls.compile { yieldInterval := some 1 }).toOption.map fun compiled =>
      match ((new .lazy {}).enqueue busyHost).runProgram 12 compiled.load with
      | some (.ok _, m) => decide (m.output.size = 4)
      | _ => false) = some true := by decide +kernel

/-- A program that yields at each of its safe points, with other work in between. -/
theorem runProgram_services_of_twoCalls :
    ∃ compiled value m', Program.twoCalls.compile { yieldInterval := some 1 } = .ok compiled ∧
      Concludes 12 compiled.load ((new .lazy {}).enqueue busyHost) (.ok value) m' ∧
      m'.output.size = 4 := by
  obtain ⟨compiled, ok, found⟩ := Option.map_eq_some_iff.mp twoCalls_prints
  split at found
  · rename_i value m' done
    exact ⟨compiled, value, m', Program.compile_of_toOption ok,
      ((runProgram_services 12 compiled.load _).1 _ _).mp done, of_decide_eq_true found⟩
  · cases found

end Machine

end Resumable
