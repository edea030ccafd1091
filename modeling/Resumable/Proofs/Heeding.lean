import Resumable.Proofs.ErasedRun
import Resumable.Proofs.Frames
import Resumable.Proofs.Walk

/-!
Reasons that give up the calls in progress.

A call of a continuation and a discard give up the calls in progress for good, and so does a fault.
Compiled handlers let all three pass, but a `finally` part is run for them, and one that ends
abruptly takes the place of what it was run for.  `Observed.Heeds` says that nothing else does:
where an action of a computation is unwound by such a reason, the whole computation is, unless a
`finally` part on the way out has overridden it.  It is one of the properties that the rules of
`Walk` keep, so that it holds of every turn.

As in `Observed.Meets`, the rule for looking at the end of a computation is the main one, and the
rule for one computation after the other is an instance of it.
-/

namespace Resumable

variable {depth : Nat}

/-- The calls in progress are given up for good: neither is the reason for handlers, nor are frames
collected on the way. -/
def Unwind.abandons : Unwind → Bool
  | .throw _ | .signal (.capture ..) => false
  | .signal (.restore _) | .signal (.discard _) | .fault _ => true

/-- The statement jumped, returned or unwound. -/
def Ending.IsAbrupt : Ending σ Completion → Prop
  | .ok completion _ => completion ≠ .normal
  | .unwind _ _ => True
  | .cutOff => False

/-- The reason for which an event in the protected part of a `try` statement was given up came to
the end of that part as it was, and the `finally` part then ended abruptly.  The two lists are what
was told before and after the event. -/
inductive Overridden (bound : Nat) (reason : Unwind) (event : Event) : List Event →
    List Event → Prop
  | intro {depth : Nat} {context : Context} {body : Stmt} {handler : Option Handler}
      {final : Option Stmt} {l l' : Local} {inner rest : List Event} (earlier later : List Event) :
      Handler.observeOption (observer bound depth).1 context
        (body.observe (observer bound depth).1 context) handler l =
          (.unwind reason l', inner ++ event :: rest) →
      (Stmt.execOption ⟨bound, perform bound depth⟩ final l').IsAbrupt →
      Overridden bound reason event (earlier ++ .stmt (.tryS body handler final) l :: inner)
        (rest ++ later)

theorem Overridden.within {bound : Nat} {reason : Unwind} {event : Event}
    {before after : List Event} (overridden : Overridden bound reason event before after)
    (earlier later : List Event) :
    Overridden bound reason event (earlier ++ before) (after ++ later) := by
  cases overridden with
  | intro earlier' later' unwound abrupt =>
    have wider := Overridden.intro (earlier ++ earlier') (later' ++ later) unwound abrupt
    simpa only [List.append_assoc] using wider

/-- Signals pass the handlers of all `try` statements that are told. -/
def SignalsPass (told : List Event) : Prop :=
  ∀ body handler final l, Event.stmt (.tryS body handler final) l ∈ told → ∀ h ∈ handler,
    h.body.passesSignals = true

/-- Where signals pass handlers, whatever gave up an action also ended the computation, unless it
was overridden. -/
def Heeded (bound : Nat) (ending : Ending σ α) (told : List Event) : Prop :=
  SignalsPass told → ∀ before action m after, told = before ++ .action action m :: after →
    ∀ depth reason m', perform bound depth action m = .unwind reason m' → reason.abandons = true →
      ending = .cutOff ∨ (∃ s, ending = .unwind reason s) ∨
        Overridden bound reason (.action action m) before after

namespace Heeded

variable {σ α β : Type} {bound : Nat} {told told' : List Event}

theorem of_no_action {ending : Ending σ α} (none : ∀ event ∈ told, event.isAction = false) :
    Heeded bound ending told := by
  intro _ before action m after split
  have mem : Event.action action m ∈ told := by simp [split]
  cases none _ mem

/-- The same is told of a computation that ends in the same way. -/
theorem congr {τ : Type} {ending : Ending σ α} {ending' : Ending τ β}
    (heeded : Heeded bound ending told) (cut : ending = .cutOff → ending' = .cutOff)
    (unwound : ∀ reason s, ending = .unwind reason s → ∃ s', ending' = .unwind reason s') :
    Heeded bound ending' told := by
  intro pass before action m after split depth reason m' performed abandons
  rcases heeded pass _ _ _ _ split depth reason m' performed abandons with isCut | ⟨s,
    isUnwound⟩ | overridden
  · exact .inl (cut isCut)
  · exact .inr (.inl (unwound reason s isUnwound))
  · exact .inr (.inr overridden)

/-- What follows a computation lets pass by which reason it ended, or overrides it. -/
theorem append {ending : Ending σ α} {ending' : Ending σ β} (first : Heeded bound ending told)
    (second : Heeded bound ending' told') (finished : ending ≠ .cutOff)
    (passes : ∀ reason s, ending = .unwind reason s → reason.abandons = true →
      ending' = .cutOff ∨ (∃ s', ending' = .unwind reason s') ∨
        ∀ before action m rest, told = before ++ .action action m :: rest →
          Overridden bound reason (.action action m) before (rest ++ told')) :
    Heeded bound ending' (told ++ told') := by
  intro pass before action m after split depth reason m' performed abandons
  have passFirst : SignalsPass told := fun _ _ _ _ mem => pass _ _ _ _ (List.mem_append_left _ mem)
  have passSecond : SignalsPass told' := fun _ _ _ _ mem =>
    pass _ _ _ _ (List.mem_append_right _ mem)
  rcases Event.split_append split with ⟨rest, inFirst, rfl⟩ | ⟨earlier, rfl, inSecond⟩
  · rcases first passFirst _ _ _ _ inFirst depth reason m' performed abandons with cut | ⟨s,
      unwound⟩ | overridden
    · exact absurd cut finished
    · rcases passes reason s unwound abandons with cut | unwound' | overrides
      · exact .inl cut
      · exact .inr (.inl unwound')
      · exact .inr (.inr (overrides _ _ _ _ inFirst))
    · exact .inr (.inr (overridden.within [] told'))
  · rcases second passSecond _ _ _ _ inSecond depth reason m' performed
      abandons with cut | unwound | overridden
    · exact .inl cut
    · exact .inr (.inl unwound)
    · rw [← List.append_nil after]
      exact .inr (.inr (overridden.within told []))

/-- An action is told before what happens in it, and what gives it up is how it ends. -/
theorem cons_action {ending : Ending Machine Value} {action : Action} {m : Machine}
    (inner : Heeded bound ending told) (performed : ending = perform bound depth action m) :
    Heeded bound ending (.action action m :: told) := by
  intro pass before action' m₁ after split depth' reason m₂ unwound abandons
  cases before with
  | nil =>
    cases split
    -- two depths differ only where the lower one is too low
    rcases Nat.le_total depth depth' with deeper | shallower
    · rcases perform_within deeper action m with cut | same
      · exact .inl (performed.trans cut)
      · exact .inr (.inl ⟨m₂, performed.trans (same.symm.trans unwound)⟩)
    · rcases perform_within shallower action m with cut | same
      · rw [unwound] at cut
        cases cut
      · exact .inr (.inl ⟨m₂, performed.trans (same.trans unwound)⟩)
  | cons event before =>
    rw [List.cons_append, List.cons.injEq] at split
    obtain ⟨rfl, split⟩ := split
    have passInner : SignalsPass told := fun _ _ _ _ mem =>
      pass _ _ _ _ (List.mem_cons_of_mem _ mem)
    rcases inner passInner _ _ _ _ split depth' reason m₂ unwound
      abandons with cut | unwound' | overridden
    · exact .inl cut
    · exact .inr (.inl unwound')
    · have wider := overridden.within [.action action m] []
      rw [List.append_nil] at wider
      exact .inr (.inr wider)

end Heeded

/-- Reasons that give up calls are heeded. -/
def Observed.Heeds (bound : Nat) (x : Observed σ α) (s : σ) : Prop :=
  Heeded bound (x.erase s) (x.told s)

namespace Observed

variable {σ α β : Type} {bound : Nat} {s s' : σ}

theorem Heeds.of_eq {x : Observed σ α} {ending : Ending σ α} {events : List Event}
    (eq : x s = (ending, events)) (heeded : Heeded bound ending events) : x.Heeds bound s := by
  rw [Heeds, erase, told, eq]
  exact heeded

theorem Heeds.lift {x : Run σ α} : (lift x).Heeds bound s :=
  .of_no_action (List.forall_mem_nil _)

/-- A computation whose end is looked at.  A reason that gives up calls has to be let pass or
overridden. -/
theorem Heeds.attempt {x : Observed σ α} {f : Except Unwind α → Observed σ β}
    (first : x.Heeds bound s) (rest : ∀ result s', (f result).Heeds bound s')
    (passes : ∀ reason s', x.erase s = .unwind reason s' → reason.abandons = true →
      (f (.error reason)).erase s' = .cutOff ∨ (∃ s'', (f (.error reason)).erase s' =
        .unwind reason s'') ∨ ∀ before action m rest, x.told s = before ++
          .action action m :: rest → Overridden bound reason (.action action m) before
          (rest ++ (f (.error reason)).told s')) :
    (x.attempt >>= f).Heeds bound s := by
  have heeded : Heeded bound (x.erase s) (x.told s) := first
  have goesOn := attempt_bind x f s
  cases ending : x.erase s with
  | ok a s' =>
    rw [ending] at heeded goesOn
    refine .of_eq goesOn (heeded.append (rest _ s') ?_ ?_)
    · simp
    · simp
  | unwind reason s' =>
    rw [ending] at heeded goesOn
    refine .of_eq goesOn (heeded.append (rest _ s') (by simp) fun reason' s'' h abandons => ?_)
    cases h
    exact passes reason s' ending abandons
  | cutOff =>
    rw [ending] at goesOn
    exact .of_eq goesOn fun _ _ _ _ _ _ _ _ _ _ _ => .inl rfl

/-- One computation after the other. -/
theorem Heeds.bind {x : Observed σ α} {f : α → Observed σ β} (first : x.Heeds bound s)
    (second : ∀ a s', (f a).Heeds bound s') : (x >>= f).Heeds bound s := by
  rw [bind_eq_attempt_bind]
  refine .attempt first (fun result s' => ?_) fun reason s' _ _ => .inr (.inl ⟨s', rfl⟩)
  cases result with
  | ok a => exact second a s'
  | error reason => exact .lift

/-- An event that is no action is told. -/
theorem Heeds.noted {x : Observed σ α} {event : σ → Event} (noAction : (event s).isAction = false)
    (heeds : x.Heeds bound s) : (note event >>= fun _ => x).Heeds bound s := by
  have told : note event s = (.ok () s, [event s]) := rfl
  have begun : Heeded bound (.ok () s : Ending σ Unit) [event s] :=
    .of_no_action (List.forall_mem_singleton.mpr noAction)
  exact .of_eq (bind_of_ok told) (begun.append heeds (by simp) (by simp))

/-- An action is told. -/
theorem Heeds.action {x : Observed Machine Value} {action : Action} {m : Machine}
    (heeds : x.Heeds bound m) (performed : x.erase m = perform bound depth action m) :
    (note (.action action) >>= fun _ => x).Heeds bound m := by
  have told : note (.action action) m = (.ok () m, [.action action m]) := rfl
  exact .of_eq (bind_of_ok told) (Heeded.cons_action heeds performed)

/-! ## Activations -/

section Activations

variable {m : Machine} {l : Local} {label : Nat} {body : Observed Local Completion}

theorem Heeds.ofEval {x : Activation → Observed Machine α}
    (heeds : (x l.act).Heeds bound l.machine) : (ofEval x).Heeds bound l := by
  have erased : (Observed.ofEval x).erase l = Exec.ofEval (fun act => (x act).erase) l := rfl
  simp only [Exec.ofEval] at erased
  refine Heeded.congr heeds (fun cut => ?_) fun reason m unwound => ?_
  · rw [erased, cut]
  · exact ⟨_, by rw [erased, unwound]⟩

/-- A body ends its call in the way in which it ends itself. -/
theorem Heeds.inActivation {x : Observed Local Completion} {act : Activation}
    (heeds : x.Heeds bound ⟨act, m⟩) : (inActivation act x).Heeds bound m := by
  refine Heeded.congr heeds (fun cut => ?_) fun reason m unwound => ?_
  · rw [erase_inActivation, cut]
  · exact ⟨_, by rw [erase_inActivation, unwound]⟩

/-- Faults are not given to handlers, and a signal is raised again by the one that it is given to.
-/
theorem Heeds.handle {handler : Observed Local Completion} {param : String}
    (bodyHeeds : body.Heeds bound l) (handlerHeeds : ∀ l, handler.Heeds bound l)
    (passes : ∀ l signal, l.act.caught = some signal → ∃ events,
      handler l = (.unwind (.signal signal) { l with act := { l.act with caught := none } },
        events)) :
    (handle body param handler).Heeds bound l := by
  refine .attempt bodyHeeds (fun result l₁ => ?_) fun reason l₁ _ abandons => ?_
  · rcases result with (value | signal | fault) | completion
    · exact .bind .lift fun _ l₂ => handlerHeeds l₂
    · refine .bind .lift fun _ l₂ => .bind .lift fun _ l₃ => .attempt (handlerHeeds l₃) (fun _ _ =>
        .lift) ?_
      exact fun reason l₄ _ _ => .inr (.inl ⟨_, rfl⟩)
    · exact .lift
    · exact .lift
  · cases reason with
    | throw value => cases abandons
    | fault fault => exact .inr (.inl ⟨l₁, rfl⟩)
    | signal signal =>
      obtain ⟨events, eq⟩ := passes { l₁ with act := { l₁.act with caught := some signal } }
        signal rfl
      refine .inr (.inl ⟨l₁, ?_⟩)
      show Prod.fst ((Observed.lift (Run.read _) >>= _) l₁) = _
      rw [Observed.read_bind]
      show Prod.fst ((Observed.lift (Run.modify _) >>= _) l₁) = _
      rw [Observed.modify_bind, Observed.attempt_bind_of_unwind eq]
      rfl

/-- Only a capture is given the frame of the activation. -/
theorem Heeds.recording (bodyHeeds : body.Heeds bound l) :
    (Observed.recording label body).Heeds bound l := by
  refine .attempt bodyHeeds (fun result l₁ => ?_) fun reason l₁ _ abandons => ?_
  · rcases result with (value | (⟨handler, stack⟩ | stack | replacement) | fault) | completion
    · exact .lift
    · exact .bind .lift fun _ _ => .lift
    all_goals exact .lift
  · rcases reason with value | ⟨handler, stack⟩ | stack | replacement | fault
    · cases abandons
    · cases abandons
    all_goals exact .inr (.inl ⟨l₁, rfl⟩)

/-- The frames that are kept for calls in progress do not matter. -/
theorem Heeds.shadowing (bodyHeeds : ∀ l, body.Heeds bound l) :
    (shadowing label body).Heeds bound l := by
  refine .bind .lift fun frame l₁ => .bind .lift fun _ l₂ => .attempt (bodyHeeds l₂)
    (fun result l₃ => ?_) ?_
  · exact .bind .lift fun _ _ => .lift
  · exact fun reason l₃ _ _ => .inr (.inl ⟨_, rfl⟩)

end Activations

/-! ## Protected parts -/

/-- The statement itself may be told together with its protected part. -/
theorem withFinal_noted (event : Local → Event) (body final : Observed Local Completion) :
    withFinal (note event >>= fun _ => body) final = note event >>= fun _ =>
    withFinal body final := by
  have told : (note event >>= fun _ => body).attempt = note event >>= fun _ => body.attempt := rfl
  rw [withFinal, told, LawfulMonad.bind_assoc]
  rfl

/-- The `finally` part lets a reason pass, or ends abruptly and overrides it. -/
theorem Heeds.withFinal {context : Context} {l : Local} {body : Stmt} {handler : Option Handler}
    {final : Option Stmt} (protected_ : (Handler.observeOption (observer bound depth).1 context
      (body.observe (observer bound depth).1 context) handler).Heeds bound l)
    (finalHeeds : ∀ l, (Stmt.observeOption (observer bound depth).1 context final).Heeds bound l) :
    ((Stmt.tryS body handler final).observe (observer bound depth).1 context).Heeds bound l := by
  rw [Stmt.observe, ← withFinal_noted, Observed.withFinal]
  refine .attempt (.noted rfl protected_) (fun result l₁ => ?_) (fun reason l₁ unwound _ => ?_)
  · refine .bind (finalHeeds l₁) fun completion l₂ => ?_
    cases completion <;> exact .lift
  · have ran : (Stmt.observeOption (observer bound depth).1 context final).erase =
        Stmt.execOption ⟨bound, perform bound depth⟩ final := by
      rw [Stmt.erase_observeOption, (observer bound depth).2]
    have overrides : ∀ later, (Stmt.execOption ⟨bound, perform bound depth⟩ final l₁).IsAbrupt →
        ∀ before action m rest, Event.stmt (.tryS body handler final) l ::
            (Handler.observeOption (observer bound depth).1 context
              (body.observe (observer bound depth).1 context) handler).told l =
          before ++ .action action m :: rest → Overridden bound reason (.action action m) before
              (rest ++ later) := by
      intro later abrupt before action m rest split
      cases before with
      | nil => cases split
      | cons event inner =>
        rw [List.cons_append, List.cons.injEq] at split
        obtain ⟨rfl, split⟩ := split
        exact .intro [] later (Prod.ext unwound split) abrupt
    rw [erase_bind, ran]
    cases ending : Stmt.execOption ⟨bound, perform bound depth⟩ final l₁ with
    | ok completion l₂ =>
      cases completion with
      | normal => exact .inr (.inl ⟨l₂, by simp only [Bind.bind, Run.bind, ending]; rfl⟩)
      | _ => exact .inr (.inr (overrides _ (ending ▸ Completion.noConfusion)))
    | unwind reason' l₂ => exact .inr (.inr (overrides _ (ending ▸ trivial)))
    | cutOff => exact .inl (by simp only [Bind.bind, Run.bind, ending])

/-- A `try` statement.  Where signals pass what is told they pass its handler, as the statement is
told first. -/
theorem Heeds.tryS {context : Context} {body : Stmt} {handler : Option Handler}
    {final : Option Stmt} (bodyHeeds : ∀ l, (body.observe (observer bound depth).1 context).Heeds
      bound l)
    (handlerHeeds : ∀ h ∈ handler, ∀ l, (h.body.observe (observer bound depth).1 context).Heeds
      bound l)
    (finalHeeds : ∀ l, (Stmt.observeOption (observer bound depth).1 context final).Heeds bound l)
    (l : Local) :
    ((Stmt.tryS body handler final).observe (observer bound depth).1 context).Heeds bound l := by
  intro pass
  have first : Event.stmt (.tryS body handler final) l ∈
      ((Stmt.tryS body handler final).observe (observer bound depth).1 context).told l := by
    rw [Stmt.observe]
    exact List.mem_cons_self ..
  refine Heeds.withFinal ?_ finalHeeds pass
  cases handler with
  | none => exact bodyHeeds l
  | some h =>
    obtain ⟨param, handler⟩ := h
    refine .handle (bodyHeeds l) (handlerHeeds ⟨param, handler⟩ rfl) fun l' signal caught => ?_
    obtain ⟨events, eq, _⟩ := Stmt.observe_of_passesSignals (pass _ _ _ _ first ⟨param,
      handler⟩ rfl) caught
    exact ⟨events, eq⟩

/-! ## Constructions and captures -/

section Captures

variable {w : Observer} {context : Context} {m : Machine}

/-- Only a capture is given the frame of the construction. -/
theorem Heeds.framed {x : Observed Machine Value} (strategy : Strategy) (frame : Frame)
    (this : Value) (heeds : ∀ m, x.Heeds bound m) :
    (do
      Observed.lift (Eval.changeKept strategy (·.pushInner frame))
      let result ← x.attempt
      Observed.lift (Eval.changeKept strategy (·.dropInner))
      Observed.lift (Eval.settleFramed strategy frame this result)).Heeds bound m := by
  refine .bind .lift fun _ m₁ => .attempt (heeds m₁) (fun result m₂ => ?_)
    fun reason m₂ _ abandons => .inr (.inl ?_)
  · exact .bind .lift fun _ _ => .lift
  · have coherent : Eval.settleFramed strategy frame this (.error reason) = Run.unwind reason := by
      rcases reason with value | ⟨handler, stack⟩ | stack | replacement | fault
      case signal.capture => cases abandons
      all_goals rfl
    rw [coherent, Eval.changeKept]
    split
    · exact ⟨_, rfl⟩
    · exact ⟨_, rfl⟩

/-- A capture is under way once it is raised.  Where there are none, the function that waits is
called. -/
theorem Heeds.capture {handler : CaptureHandler} (performs : ∀ action m,
    (w.perform context action).Heeds bound m) : (Eval.observeCapture w context handler).Heeds
    bound m := by
  by_cases guest : ∃ func, m.strategy = .fudge ∧ handler = .guest func
  · obtain ⟨func, fudge, rfl⟩ := guest
    refine .noted rfl ?_
    show ((Observed.lift (Run.read _) >>= _).Heeds bound m)
    rw [Heeds, Observed.erase, Observed.told, Observed.read_bind, fudge]
    exact performs (.call func .undefined [.fudged]) m
  · obtain ⟨told, _⟩ : (Eval.observeCapture w context handler).told m = [.raise context handler m] ∧
        _ :=
      Eval.observeCapture_raised fun func fudge h => guest ⟨func, fudge, h⟩
    rw [Heeds, told]
    exact .of_no_action (List.forall_mem_singleton.mpr rfl)

theorem Heeds.safePoint :
    (note (.action .safePoint) >>= fun _ => Eval.observeSafePoint (observer bound depth).1
      context).Heeds bound m := by
  have performed : (Eval.observeSafePoint (observer bound depth).1 context).erase m =
      perform bound (depth + 1) .safePoint m := by
    show (Action.safePoint.observe (observer bound depth).1 context).erase m = _
    rw [Action.erase_observe, (observer bound depth).2]
    rfl
  refine .action ?_ performed
  rw [Heeds, Observed.erase, Observed.told, Eval.observeSafePoint_eq]
  split
  · obtain ⟨told, _⟩ : (Eval.observeCapture (observer bound depth).1 context .yield).told m.tick =
        [.raise context .yield m.tick] ∧ _ := Eval.observeCapture_raised fun _ _ =>
          CaptureHandler.noConfusion
    refine .of_no_action ?_
    show ∀ event ∈ (Eval.observeCapture (observer bound depth).1 context .yield).told m.tick, _
    rw [told]
    exact List.forall_mem_singleton.mpr rfl
  · exact .of_no_action (List.forall_mem_nil _)

end Captures

end Observed

/-- Whatever the interpreter does heeds what gives it up. -/
theorem Observed.Heeds.walk (bound : Nat) : Walk bound fun _ x => ∀ s, x.Heeds bound s where
  lift _ _ := .lift
  bind first second s := .bind (first s) second
  noted plain rest s := .noted (plain s).2.2.2 (rest s)
  moved _ _ rest _ := .bind .lift rest
  ofEval rest l := .ofEval (rest l.act l.machine)
  atPoint {context label _} rest l := rest (l.act.point label :: context) l
  inActivation act rest m := .inActivation (rest ⟨act, m⟩)
  attempt := .tryS
  recording rest l := .recording (rest l)
  shadowing rest _ := .shadowing rest
  framed strategy frame this rest _ := .framed strategy frame this rest
  capture performs _ _ := .capture (performs _)
  action _ performed rest m := .action (rest m) (performed m)
  safePoint _ := .safePoint

/-- A turn heeds what gives up the calls in it. -/
theorem Machine.observed_heeds (bound : Nat) (next : Next) (m : Machine) :
    (observed bound next).Heeds bound m := by
  cases isVoid : next.isVoid with
  | true =>
    have told : (observed bound next).told m = [] := chronicle_void isVoid
    rw [Observed.Heeds, told]
    exact .of_no_action (List.forall_mem_nil _)
  | false =>
    obtain ⟨body, heeds, ran⟩ := observed_body (Observed.Heeds.walk bound) isVoid m
    rw [Observed.Heeds, Observed.erase, Observed.told, ran]
    exact heeds _

end Resumable
