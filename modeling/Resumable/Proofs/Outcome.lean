import Resumable.Proofs.Quiet

/-!
What is required of an observed computation.

There are three parts to it.  Whatever begins in restoring mode finds the frame that it expects, and
is what belongs to that mode.  The end is as expected, be it a result or the reason why there is
none.  And where captures unwind, nothing follows a capture but the guards that let it pass, and it
is delivered at the end of the computation.  `Observed.Meets` puts the three together, so that one
walk through the interpreter is enough for all of them; `Meets.bind` is its main rule, and
`Meets.attempt` is the one for computations that look at how another one ended.

What the end of a computation means to the driver is `Machine.Turned`.
-/

namespace Resumable

variable {event : Event} {events : List Event}

/-! ## Frames that are expected -/

/-- The frame was recorded by an activation of the same function. -/
def CallFrame.OfActivation (act : Activation) (frame : CallFrame) : Prop :=
  ∃ paused store label, paused.func = act.func ∧ paused.callee = act.callee ∧
    Activation.captureFrame paused store label = .call frame

/-- The frame was recorded by the same construction. -/
def CallFrame.OfConstruction (closure : ClosureId) (args : List Value) (frame : CallFrame) : Prop :=
  ∃ function this, Eval.constructionFrame closure args function this = .call frame

/-- What begins in restoring mode finds the frame that it expects. -/
def Event.Fits : Event → Prop
  | .stmt .restoreFrame l => l.machine.mode = .restoring → ∃ frame,
      l.machine.stack.outermost? = some (.call frame) ∧ frame.OfActivation l.act ∧
      frame.locals.length = l.act.layoutLocals.length
  | .body act m => m.mode = .restoring → ∃ frame, m.stack.outermost? = some (.call frame) ∧
      frame.OfActivation act ∧ frame.locals.length = act.layoutLocals.length
  | .construction closure args m => m.mode = .restoring → ∃ frame,
      m.stack.outermost? = some (.call frame) ∧ frame.OfConstruction closure args ∧
      frame.locals.length = 1
  | .reentry m => m.stack.isEmpty = false
  | _ => True

/-- When all frames of the stack are entered, and every one of them counts as a call, the depth is
still left. -/
def Machine.Roomy (m : Machine) : Prop :=
  ∀ size : Nat, m.options.stackSize = some size →
    ∃ left, m.remaining = some left ∧ (size : Int) + m.stack.length ≤ left

/-- Frames are entered in restoring mode only, and with room for the others.  Safe points and
captures belong to normal mode.  Handlers let signals pass in both. -/
def Event.InMode : Event → Prop
  | .stmt (.tryS _ handler _) _ => ∀ h ∈ handler, h.body.passesSignals = true
  | .reentry m => m.mode = .restoring ∧ (m.capturing = false → m.Roomy)
  | .raise _ _ m | .action .safePoint m => m.mode = .normal
  | _ => True

/-- What begins finds what it expects, in its mode. -/
def Event.Expected (event : Event) : Prop :=
  event.Fits ∧ event.InMode

theorem Event.expected_of_isExpr (isExpr : event.isExpr = true) : event.Expected := by
  cases event with
  | expr e act m => exact ⟨trivial, trivial⟩
  | _ => cases isExpr

/-! ## Captures that unwind -/

/-- Captures unwind to the driver, rather than return to it or not be made at all. -/
def Strategy.unwinds : Strategy → Bool
  | .eager | .lazy => true
  | .retval | .fudge => false

def Event.isRaise : Event → Bool
  | .raise .. => true
  | _ => false

/-- What a handler and a `finally` part do to let a capture pass. -/
def Event.isGuard : Event → Bool
  | .stmt (.block (.rethrowSignal _ :: _)) _ | .stmt (.rethrowSignal _) _
  | .stmt (.ifS (.unary .not .capturing) _ none) _
  | .expr (.unary .not .capturing) .. | .expr .capturing .. => true
  | _ => false

theorem Event.not_raise_of_isExpr (isExpr : event.isExpr = true) : event.isRaise = false := by
  cases event with
  | expr e act m => rfl
  | _ => cases isExpr

/-- An event among those of two computations is one of the first, or one of the second. -/
theorem Event.split_append {first second before after : List Event}
    (eq : first ++ second = before ++ event :: after) : (∃ rest, first = before ++ event :: rest ∧
      after = rest ++ second) ∨ ∃ earlier, before = first ++ earlier ∧
      second = earlier ++ event :: after := by
  rcases List.append_eq_append_iff.mp eq with ⟨middle, rfl, second⟩ | ⟨middle, rfl, rest⟩
  · exact .inr ⟨middle, rfl, second⟩
  · cases middle with
    | nil => exact .inr ⟨[], by simp, rest.symm⟩
    | cons head middle =>
      cases rest
      exact .inl ⟨middle, rfl, rfl⟩

/-! ## The judgment -/

/-- The result and the state at the end, or the reason why there is no result. -/
def Ending.Meets (post : α → σ → Prop) (unwound : Unwind → σ → Prop) : Ending σ α → Prop
  | .ok a s => post a s
  | .unwind reason s => unwound reason s
  | .cutOff => True

theorem Ending.Meets.weaken {post post' : α → σ → Prop} {unwound unwound' : Unwind → σ → Prop}
    {ending : Ending σ α} (meets : ending.Meets post unwound) (ok : ∀ a s, post a s → post' a s)
    (unwind : ∀ reason s, unwound reason s → unwound' reason s) : ending.Meets post' unwound' := by
  cases ending with
  | ok a s => exact ok a s meets
  | unwind reason s => exact unwind reason s meets
  | cutOff => trivial

/-- The state at the end, unless the bound was too small. -/
def Ending.state? : Ending σ α → Option σ
  | .ok _ s | .unwind _ s => some s
  | .cutOff => none

theorem Ending.Meets.state {p : σ → Prop} {ending : Ending σ α} {s : σ}
    (meets : ending.Meets (fun _ => p) (fun _ => p)) (ends : ending.state? = some s) : p s := by
  cases ending with
  | ok _ _ | unwind _ _ =>
    obtain rfl := Option.some.inj ends
    exact meets
  | cutOff => exact nomatch ends

/-- All that is told is allowed, and the end is as expected. -/
structure Observed.Tells (allowed : Event → Prop) (x : Observed σ α) (s : σ) (post : α → σ → Prop)
    (unwound : Unwind → σ → Prop) : Prop where
  told : ∀ event ∈ x.told s, allowed event
  ends : (x.erase s).Meets post unwound

/-- How the capture that was raised with a context and a handler on a machine leaves a computation.
-/
abbrev Delivery (σ : Type) := Context → CaptureHandler → Machine → Unwind → σ → Prop

/-- What begins, the end and every capture are as expected. -/
structure Observed.Meets (strategy : Strategy) (delivery : Delivery σ) (x : Observed σ α) (s : σ)
    (post : α → σ → Prop) (unwound : Unwind → σ → Prop) : Prop where
  told : ∀ event ∈ x.told s, event.Expected
  ends : (x.erase s).Meets post unwound
  raised : strategy.unwinds = true → ∀ before context handler m after,
    x.told s = before ++ .raise context handler m :: after →
      (∀ event ∈ after, event.isGuard = true) ∧
        ∃ reason s', x.erase s = .unwind reason s' ∧ delivery context handler m reason s'

namespace Observed

variable {σ α β : Type} {allowed : Event → Prop} {strategy : Strategy} {delivery : Delivery σ}
  {s : σ} {post post' : α → σ → Prop} {unwound unwound' : Unwind → σ → Prop} {x : Observed σ α}

/-- What follows a computation that has a result. -/
theorem bind_of_ok {f : α → Observed σ β} {a : α} {s' : σ}
    (eq : x s = (.ok a s', events)) : (x >>= f) s = ((f a s').1, events ++ (f a s').2) := by
  show Observed.bind x f s = _
  simp only [Observed.bind, eq]

/-- How a computation goes on where its end is looked at. -/
theorem attempt_bind (x : Observed σ α) (f : Except Unwind α → Observed σ β) (s : σ) :
    (x.attempt >>= f) s = match x.erase s with
      | .ok a s' => ((f (.ok a)).erase s', x.told s ++ (f (.ok a)).told s')
      | .unwind reason s' => ((f (.error reason)).erase s', x.told s ++ (f (.error reason)).told s')
      | .cutOff => (.cutOff, x.told s) := by
  show Observed.bind x.attempt f s = _
  simp only [Observed.bind, attempt, Run.attempt, erase, told]
  rcases x s with ⟨_ | _ | _, events⟩ <;> rfl

/-- What follows a computation that unwinds, where its end is looked at. -/
theorem attempt_bind_of_unwind {f : Except Unwind α → Observed σ β}
    {reason : Unwind} {s' : σ} (eq : x s = (.unwind reason s', events)) :
    (x.attempt >>= f) s = ((f (.error reason) s').1, events ++ (f (.error reason) s').2) := by
  simp only [attempt_bind, erase, told, eq]

/-- A computation is followed by another one if it has a result, and by nothing if it unwinds. -/
theorem bind_eq_attempt_bind (x : Observed σ α) (f : α → Observed σ β) : x >>= f = x.attempt >>= fun
      | .ok a => f a
      | .error reason => .lift (Run.unwind reason) := by
  funext s
  show Observed.bind x f s = Observed.bind x.attempt _ s
  simp only [Observed.bind, attempt, Run.attempt]
  rcases x s with ⟨_ | _ | _, events⟩
  · rfl
  · exact Prod.ext rfl (List.append_nil events).symm
  · rfl

theorem Tells.of_eq {ending : Ending σ α}
    (eq : x s = (ending, events)) (told : ∀ event ∈ events, allowed event)
    (ends : ending.Meets post unwound) : x.Tells allowed s post unwound where
  told := by
    rw [Observed.told, eq]
    exact told
  ends := by
    rw [erase, eq]
    exact ends

/-- A computation whose end is looked at. -/
theorem Tells.attempt {f : Except Unwind α → Observed σ β} {post' : β → σ → Prop}
    {unwound' : Unwind → σ → Prop} (first : x.Tells allowed s post unwound)
    (ok : ∀ a s', post a s' → (f (.ok a)).Tells allowed s' post' unwound')
    (unwind : ∀ reason s', unwound reason s' → (f (.error reason)).Tells allowed s' post'
      unwound') :
    (x.attempt >>= f).Tells allowed s post' unwound' := by
  have ends := first.ends
  have goesOn := attempt_bind x f s
  cases ending : x.erase s with
  | ok a s' =>
    rw [ending] at ends goesOn
    have rest := ok a s' ends
    exact .of_eq goesOn (List.forall_mem_append.mpr ⟨first.told, rest.told⟩) rest.ends
  | unwind reason s' =>
    rw [ending] at ends goesOn
    have rest := unwind reason s' ends
    exact .of_eq goesOn (List.forall_mem_append.mpr ⟨first.told, rest.told⟩) rest.ends
  | cutOff =>
    rw [ending] at goesOn
    exact .of_eq goesOn first.told trivial

theorem Tells.ofEval {x : Activation → Observed Machine α} {l : Local} {post : α → Local → Prop}
    {unwound : Unwind → Local → Prop}
    (tells : (x l.act).Tells allowed l.machine (fun a m => post a ⟨l.act, m⟩)
      (fun reason m => unwound reason ⟨l.act, m⟩)) :
    (ofEval x).Tells allowed l post unwound := by
  have ends := tells.ends
  have erased : (Observed.ofEval x).erase l = Exec.ofEval (fun act => (x act).erase) l := rfl
  simp only [Exec.ofEval] at erased
  refine ⟨tells.told, ?_⟩
  rw [erased]
  cases ending : (x l.act).erase l.machine with
  | ok a m =>
    rw [ending] at ends
    exact ends
  | unwind reason m =>
    rw [ending] at ends
    exact ends
  | cutOff => trivial

theorem Meets.tells (meets : x.Meets strategy delivery s post unwound) :
    x.Tells Event.Expected s post unwound :=
  ⟨meets.told, meets.ends⟩

/-- A computation whose end and events are known, and in which no capture unwinds. -/
theorem Meets.of_eq {ending : Ending σ α} (eq : x s = (ending, events))
    (told : ∀ event ∈ events, event.Expected)
    (quiet : strategy.unwinds = true → ∀ event ∈ events, event.isRaise = false)
    (ends : ending.Meets post unwound) :
    x.Meets strategy delivery s post unwound where
  told := by
    rw [Observed.told, eq]
    exact told
  ends := by
    rw [erase, eq]
    exact ends
  raised unwinds before context handler m after split := by
    rw [Observed.told, eq] at split
    have mem : Event.raise context handler m ∈ events := by simp [show events = _ from split]
    cases quiet unwinds _ mem

theorem Meets.lift {x : Run σ α} (ends : (x s).Meets post unwound) :
    (lift x).Meets strategy delivery s post unwound :=
  .of_eq rfl (fun _ mem => (nomatch mem)) (fun _ _ mem => (nomatch mem)) ends

theorem Meets.pure {a : α} (h : post a s) :
    (Pure.pure a : Observed σ α).Meets strategy delivery s post unwound :=
  .lift h

theorem Meets.weaken (meets : x.Meets strategy delivery s post unwound)
    (ok : ∀ a s', post a s' → post' a s')
    (unwind : ∀ reason s', unwound reason s' → unwound' reason s') :
    x.Meets strategy delivery s post' unwound' :=
  ⟨meets.told, meets.ends.weaken ok unwind, meets.raised⟩

/-- A computation whose end is looked at.  A capture that is raised in it has to be let pass. -/
theorem Meets.attempt {f : Except Unwind α → Observed σ β} {inner : Delivery σ}
    {post' : β → σ → Prop} {unwound' : Unwind → σ → Prop}
    (first : x.Meets strategy inner s post unwound)
    (ok : ∀ a s', post a s' → (f (.ok a)).Meets strategy delivery s' post' unwound')
    (unwind : ∀ reason s', unwound reason s' →
      (f (.error reason)).Meets strategy delivery s' post' unwound')
    (passes : strategy.unwinds = true → ∀ context handler m reason s', unwound reason s' →
      inner context handler m reason s' → ∃ reason' s'' events,
        f (.error reason) s' = (.unwind reason' s'', events) ∧
        (∀ event ∈ events, event.isGuard = true) ∧ delivery context handler m reason' s'') :
    (x.attempt >>= f).Meets strategy delivery s post' unwound' := by
  have tells := first.tells.attempt (fun a s' ends => (ok a s' ends).tells) fun reason s' ends =>
    (unwind reason s' ends).tells
  refine ⟨tells.told, tells.ends, fun unwinds before context handler m after split => ?_⟩
  have ends := first.ends
  have goesOn := attempt_bind x f s
  cases ending : x.erase s with
  | ok a s' =>
    rw [ending] at ends goesOn
    rw [Observed.told, goesOn] at split
    rw [Observed.erase, goesOn]
    rcases Event.split_append split with ⟨_, split, _⟩ | ⟨before, _, split⟩
    · obtain ⟨_, reason, s'', unwound, _⟩ := first.raised unwinds _ _ _ _ _ split
      cases ending.symm.trans unwound
    · exact (ok a s' ends).raised unwinds _ _ _ _ _ split
  | unwind reason s' =>
    rw [ending] at ends goesOn
    rw [Observed.told, goesOn] at split
    rw [Observed.erase, goesOn]
    rcases Event.split_append split with ⟨passed, raised, afterEq⟩ | ⟨before, _, split⟩
    · obtain ⟨guards, _, _, unwound, delivered⟩ := first.raised unwinds _ _ _ _ _ raised
      cases ending.symm.trans unwound
      obtain ⟨reason', s'', events, eq, passing, delivered⟩ :=
        passes unwinds context handler m reason s' ends delivered
      refine ⟨?_, reason', s'', congrArg Prod.fst eq, delivered⟩
      rw [afterEq, show (f (.error reason)).told s' = events from congrArg Prod.snd eq]
      exact List.forall_mem_append.mpr ⟨guards, passing⟩
    · exact (unwind reason s' ends).raised unwinds _ _ _ _ _ split
  | cutOff =>
    rw [ending] at goesOn
    rw [Observed.told, goesOn] at split
    obtain ⟨_, _, _, unwound, _⟩ := first.raised unwinds _ _ _ _ _ split
    cases ending.symm.trans unwound

/-- One computation after the other.  The second does not begin where the first raises a capture. -/
theorem Meets.bind {f : α → Observed σ β} {post' : β → σ → Prop}
    (first : x.Meets strategy delivery s post unwound)
    (second : ∀ a s', post a s' → (f a).Meets strategy delivery s' post' unwound) :
    (x >>= f).Meets strategy delivery s post' unwound := by
  rw [bind_eq_attempt_bind]
  refine .attempt first second (fun reason s' ends => .lift ends) ?_
  intro _ context handler m reason s' _ delivered
  exact ⟨reason, s', [], rfl, fun _ mem => (nomatch mem), delivered⟩

theorem Meets.read {f : σ → β} {k : β → Observed σ α}
    (meets : (k (f s)).Meets strategy delivery s post unwound) :
    (Observed.lift (Run.read f) >>= k).Meets strategy delivery s post unwound :=
  ⟨meets.told, meets.ends, meets.raised⟩

theorem Meets.modify {f : σ → σ} {k : Unit → Observed σ α}
    (meets : (k ()).Meets strategy delivery (f s) post unwound) :
    (Observed.lift (Run.modify f) >>= k).Meets strategy delivery s post unwound :=
  ⟨meets.told, meets.ends, meets.raised⟩

/-- An event is told.  Where captures unwind, it is not a capture. -/
theorem Meets.noted_unless {event : σ → Event} (expected : (event s).Expected)
    (quiet : strategy.unwinds = true → (event s).isRaise = false)
    (meets : x.Meets strategy delivery s post unwound) :
    (note event >>= fun _ => x).Meets strategy delivery s post unwound := by
  have first : (note event).Meets strategy delivery s (fun _ s' => s' = s) unwound :=
    .of_eq rfl (List.forall_mem_singleton.mpr expected)
      (fun unwinds => List.forall_mem_singleton.mpr (quiet unwinds)) rfl
  exact first.bind fun _ s' same => same ▸ meets

theorem Meets.noted {event : σ → Event} (expected : (event s).Expected)
    (quiet : (event s).isRaise = false) (meets : x.Meets strategy delivery s post unwound) :
    (note event >>= fun _ => x).Meets strategy delivery s post unwound :=
  .noted_unless expected (fun _ => quiet) meets

theorem Meets.ofEval {x : Activation → Observed Machine α} {l : Local} {delivery : Delivery Local}
    {post : α → Local → Prop} {unwound : Unwind → Local → Prop}
    (meets : (x l.act).Meets strategy
      (fun context handler m reason m' => delivery context handler m reason ⟨l.act, m'⟩) l.machine
      (fun a m => post a ⟨l.act, m⟩) (fun reason m => unwound reason ⟨l.act, m⟩)) :
    (ofEval x).Meets strategy delivery l post unwound := by
  have tells := Tells.ofEval meets.tells
  refine ⟨tells.told, tells.ends, fun unwinds before context handler m after split => ?_⟩
  obtain ⟨guards, reason, m', ending, delivered⟩ := meets.raised unwinds _ _ _ _ _ split
  have erased : (Observed.ofEval x).erase l = Exec.ofEval (fun act => (x act).erase) l := rfl
  simp only [Exec.ofEval, ending] at erased
  exact ⟨guards, reason, ⟨l.act, m'⟩, erased, delivered⟩

end Observed

/-! ## Turns -/

namespace Machine

variable {bound : Nat} {next : Next} {m : Machine} {step : Turn × Machine}

/-- How a turn ends, with one case for each way in which the driver goes on. -/
inductive Turned (bound : Nat) (next : Next) (m : Machine) : Turn × Machine → Prop
  | result {value m'} : Eval.start (engine bound) next m = .ok value m' →
      Turned bound next m (m'.afterResult value)
  | uncaught {value m'} (shown) : Eval.start (engine bound) next m = .unwind (.throw value) m' →
      m'.pending.isEmpty = true → Turned bound next m (.ended (.error (.uncaught shown)), m')
  | caught {value m'} : Eval.start (engine bound) next m = .unwind (.throw value) m' →
      Turned bound next m (m'.nextSegment (.throw value))
  | signal {signal m'} : Eval.start (engine bound) next m = .unwind (.signal signal) m' →
      Turned bound next m (m'.afterSignal signal)
  | fault {fault m'} : Eval.start (engine bound) next m = .unwind (.fault fault) m' →
      Turned bound next m (.ended (.error fault), m')

theorem turned (done : m.turn bound next = some step) : m.Turned bound next step := by
  unfold turn afterThrow at done
  split at done
  · cases done
    exact .result ‹_›
  · split at done
    · obtain ⟨shown, _, rfl⟩ := Option.map_eq_some_iff.mp done
      exact .uncaught shown ‹_› ‹_›
    · cases done
      exact .caught ‹_›
  · cases done
    exact .signal ‹_›
  · cases done
    exact .fault ‹_›
  · cases done

/-- What the driver changes at the end of a turn. -/
theorem turn_eq (done : m.turn bound next = some step) :
    ∃ m₁, (Eval.start (engine bound) next m).state? = some m₁ ∧
      ∃ stack pending capturing pendingHandler continuations tasks stats, step.2 =
        { m₁ with
          stack, pending, capturing, pendingHandler, store.continuations := continuations, tasks
          stats } := by
  have captured : ∀ (m₁ : Machine) handler captured,
      ∃ stack pending capturing pendingHandler continuations tasks stats,
        (m₁.afterCapture handler captured).2 =
          { m₁ with
            stack, pending, capturing, pendingHandler, store.continuations := continuations, tasks
            stats } := by
    intro m₁ handler captured
    cases handler <;> exact ⟨_, _, _, _, _, _, _, rfl⟩
  cases turned done with
  | @result value m₁ ending =>
    refine ⟨m₁, by rw [ending]; rfl, ?_⟩
    unfold afterResult
    split
    · obtain ⟨_, _, _, _, _, _, _, eq⟩ :=
        captured { m₁ with pendingHandler := none, stack := .empty } (m₁.pendingHandler.getD .yield)
          m₁.stack
      exact ⟨_, _, _, _, _, _, _, eq⟩
    · split <;> exact ⟨_, _, _, _, _, _, _, rfl⟩
  | @signal signal m₁ ending =>
    refine ⟨m₁, by rw [ending]; rfl, ?_⟩
    cases signal with
    | capture handler stack => exact captured m₁ handler stack
    | restore stack | discard replacement => exact ⟨_, _, _, _, _, _, _, rfl⟩
  | uncaught _ ending _ | caught ending | fault ending =>
    exact ⟨_, by rw [ending]; rfl, _, _, _, _, _, _, _, rfl⟩

end Machine

end Resumable
