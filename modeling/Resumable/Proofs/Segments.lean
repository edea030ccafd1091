import Resumable.Proofs.Walk

/-!
Stacks that are built up in segments.

Where the depth is limited a stack is split in two: its inner frames are entered, and the outer ones
are pending.  A turn does not touch the pending frames, whatever code it runs, so that at its end
they are those which it began with.  If it ends with a result or an exception they are gone on with,
and if it ends with a capture they are part of what is captured.  So the frames of a stack are
entered each once, in order, over as many turns as it takes.
-/

namespace Resumable

namespace Machine

variable {bound : Nat} {next : Next} {m m' : Machine}

/-! ## Installing a stack -/

/-- The frames that are installed and those that are pending make up the stack, before those that
were pending. -/
theorem install_frames (m : Machine) (stack : Stack) :
    (m.install stack).stack.appendOuter (m.install stack).pending =
    stack.appendOuter m.pending := by
  unfold install segment
  cases m.options.stackSize with
  | none => rfl
  | some size =>
    refine congrArg Stack.mk ?_
    show stack.frames.take _ ++ (stack.frames.drop _ ++ m.pending.frames) = _
    rw [← List.append_assoc, List.take_append_drop]

/-- So it is with the frames beyond the innermost one, which delivers what they are entered with. -/
theorem install_dropInner (m : Machine) (stack : Stack) :
    (m.install stack).stack.dropInner.appendOuter (m.install stack).pending =
      stack.dropInner.appendOuter m.pending := by
  unfold install segment
  cases m.options.stackSize with
  | none => rfl
  | some size =>
    refine congrArg Stack.mk ?_
    show (stack.frames.take (m.options.restoreFrames + 1)).tail ++
      (stack.frames.drop (m.options.restoreFrames + 1) ++ m.pending.frames) = stack.frames.tail ++
      m.pending.frames
    cases stack.frames with
    | nil => rfl
    | cons frame frames =>
      show frames.take _ ++ (frames.drop _ ++ m.pending.frames) = frames ++ m.pending.frames
      rw [← List.append_assoc, List.take_append_drop]

theorem install_innermost (m : Machine) (stack : Stack) :
    (m.install stack).stack.innermost? = stack.innermost? := by
  unfold install segment
  cases m.options.stackSize with
  | none => rfl
  | some size =>
    show (stack.frames.take (m.options.restoreFrames + 1)).head? = stack.frames.head?
    cases stack.frames <;> rfl

theorem install_length_le {size : Nat} (limited : m.options.stackSize = some size) (stack : Stack) :
    (m.install stack).stack.length ≤ m.options.restoreFrames + 1 := by
  unfold install segment
  rw [limited]
  exact List.length_take_le _ _

/-- A stack with frames is installed before it is entered. -/
theorem restore_eq (g : Engine) {stack : Stack} (notEmpty : stack.isEmpty = false) (m : Machine) :
    Eval.restore g stack m = Eval.reenterNext g (m.install stack) := by
  simp only [Eval.restore, notEmpty]
  rfl

/-! ## Turns -/

/-- The frames that are pending while the turn lasts. -/
def pendingIn (m : Machine) (next : Next) : Stack :=
  (m.begin next).pending

/-- A turn leaves the pending frames alone. -/
theorem start_pending (bound : Nat) (next : Next) (m : Machine) :
    (Eval.start (engine bound) next m).Meets (fun _ m' => m'.pending = m.pendingIn next)
      (fun reason m' => (∃ fault, reason = .fault fault) ∨ m'.pending = m.pendingIn next) := by
  cases isVoid : next.isVoid with
  | true =>
    rw [Eval.start_void isVoid]
    exact .inl ⟨_, rfl⟩
  | false =>
    have same : ∀ {told m₁}, Course told (m.begin next) m₁ → m₁.pending = m.pendingIn next :=
      fun course => congrArg (·.2.2.2.1) course.fixed_eq
    exact (start_course bound isVoid m).weaken (fun _ _ => same) fun _ _ course =>
      .inr (same course)

/-- The turn ends with a value or an exception that is the guest's, and `top` delivers it. -/
def EndsWith (bound : Nat) (next : Next) (m : Machine) (top : Action) (m₁ : Machine) : Prop :=
  (∃ value, top = .value value ∧ Eval.start (engine bound) next m = .ok value m₁ ∧
      ¬(m₁.capturing = true ∧ m₁.strategy = .retval)) ∨
    ∃ value, top = .throw value ∧ Eval.start (engine bound) next m = .unwind (.throw value) m₁

/-- The turn ends with a capture, which comes as a signal or on the way of returns. -/
def EndsCaptured (bound : Nat) (next : Next) (m : Machine) (handler : CaptureHandler)
    (captured : Stack) (m₁ : Machine) : Prop :=
  Eval.start (engine bound) next m = .unwind (.signal (.capture handler captured)) m₁ ∨
    ∃ value, Eval.start (engine bound) next m = .ok value m₁ ∧ m₁.capturing = true ∧
      m₁.strategy = .retval ∧ m₁.pendingHandler.getD .yield = handler ∧ m₁.stack = captured

/-- The continuation is handed on to the handler: to a function of the guest, to a call that was cut
off, or to a task behind those that are queued. -/
def HandsOn (handler : CaptureHandler) (continuation : Stack) (tasks : List Task) (turn : Turn)
    (m' : Machine) : Prop :=
  match handler with
  | .guest func => ∃ id, m'.store.continuation id = continuation ∧
      turn = .next (.restore (continuation.pushInner (.top (.call func .undefined
        [.continuation id]))))
  | .reenter action => turn = .next (.restore (continuation.pushInner (.top action)))
  | .yield => turn = .ended (.ok .suspended) ∧
      m'.tasks = tasks ++ [.resume (continuation.pushInner (.top (.value .undefined)))]

theorem afterCapture_handsOn (handler : CaptureHandler) (captured : Stack) (m : Machine) :
    HandsOn handler (captured.appendOuter m.pending) m.tasks (m.afterCapture handler captured).1
        (m.afterCapture handler captured).2 ∧
      (m.afterCapture handler captured).2.pending = .empty := by
  cases handler with
  | guest func =>
    refine ⟨⟨⟨m.store.continuations.size⟩, ?_, rfl⟩, rfl⟩
    show (m.store.continuations.push _).getD m.store.continuations.size {} = _
    simp
  | reenter action => exact ⟨rfl, rfl⟩
  | yield => exact ⟨⟨rfl, rfl⟩, rfl⟩

/-- A value or an exception is delivered to the pending frames. -/
theorem EndsWith.turn_eq {top : Action} {m₁ : Machine} (ends : m.EndsWith bound next top m₁)
    (notEmpty : (m.pendingIn next).isEmpty = false) :
    m.turn bound next =
      some (.next (.restore ((m.pendingIn next).pushInner (.top top))),
        { m₁ with pending := .empty }) := by
  have pending := start_pending bound next m
  unfold turn
  rcases ends with ⟨value, rfl, ended, notCapturing⟩ | ⟨value, rfl, ended⟩
  · rw [ended] at pending ⊢
    replace pending : m₁.pending = m.pendingIn next := pending
    have goesOn : ¬(m₁.capturing && decide (m₁.strategy = .retval)) = true := by
      simpa using notCapturing
    simp only [afterResult, if_neg goesOn, nextSegment, pending, notEmpty, Bool.false_eq_true,
      if_false]
  · rw [ended] at pending ⊢
    rcases pending with ⟨fault, isFault⟩ | pending
    · cases isFault
    · simp only [afterThrow, nextSegment, pending, notEmpty, Bool.false_eq_true, if_false]

/-- The driver is given what was captured. -/
theorem EndsCaptured.turn_afterCapture {handler : CaptureHandler} {captured : Stack} {m₁ : Machine}
    (ends : m.EndsCaptured bound next handler captured m₁) : m₁.pending = m.pendingIn next ∧
      ∃ stack pendingHandler,
        m.turn bound next = some ({ m₁ with stack, pendingHandler }.afterCapture handler
          captured) := by
  have pending := start_pending bound next m
  unfold turn
  rcases ends with ended | ⟨value, ended, capturing, retval, rfl, rfl⟩
  · rw [ended] at pending ⊢
    rcases pending with ⟨fault, isFault⟩ | pending
    · cases isFault
    · exact ⟨pending, m₁.stack, m₁.pendingHandler, rfl⟩
  · rw [ended] at pending ⊢
    have captures : (m₁.capturing && decide (m₁.strategy = .retval)) = true := by
      simp [capturing, retval]
    exact ⟨pending, .empty, none, congrArg some (if_pos captures)⟩

/-- What is captured is handed on together with the pending frames. -/
theorem EndsCaptured.turn_eq {handler : CaptureHandler} {captured : Stack} {m₁ : Machine}
    (ends : m.EndsCaptured bound next handler captured m₁) :
    ∃ turn m', m.turn bound next = some (turn, m') ∧ m'.pending = .empty ∧
      HandsOn handler (captured.appendOuter (m.pendingIn next)) m₁.tasks turn m' := by
  obtain ⟨pending, stack, pendingHandler, turned⟩ := ends.turn_afterCapture
  obtain ⟨handsOn, none⟩ := afterCapture_handsOn handler captured { m₁ with stack, pendingHandler }
  rw [← pending]
  exact ⟨_, _, turned, none, handsOn⟩

/-! ## Runs -/

/-- Turn after turn the stack is entered in these segments, until `rest` is left of it. -/
inductive Segments (bound : Nat) : Stack → Machine → List Stack → Stack → Machine → Prop
  | nil {stack : Stack} {m : Machine} : Segments bound stack m [] stack m
  | cons {stack later rest : Stack} {m m₁ m₂ m' : Machine} {top : Action} {segments : List Stack} :
      m.EndsWith bound (.restore stack) top m₁ → (m.pendingIn (.restore stack)).isEmpty = false →
      m.turn bound (.restore stack) = some (.next (.restore later), m₂) →
        Segments bound later m₂ segments rest m' →
      Segments bound stack m ((m.begin (.restore stack)).stack :: segments) rest m'

/-- The frames of a stack that is entered in segments are those of the segments, in order, and those
that are left.  The innermost frame of each is not counted: it delivers what the segment is entered
with. -/
theorem Segments.frames_eq {stack rest : Stack} {segments : List Stack}
    (run : Segments bound stack m segments rest m') :
    segments.flatMap (·.dropInner.frames) ++ (rest.dropInner.appendOuter m'.pending).frames =
      (stack.dropInner.appendOuter m.pending).frames := by
  induction run with
  | nil => rfl
  | @cons stack later rest m m₁ m₂ m' top segments ends notEmpty turned _ ih =>
    have installed : (m.begin (.restore stack)).stack.dropInner.appendOuter
        (m.pendingIn (.restore stack)) = stack.dropInner.appendOuter m.pending :=
        install_dropInner _ stack
    rw [ends.turn_eq notEmpty] at turned
    cases turned
    rw [List.flatMap_cons, List.append_assoc, ih, ← installed]
    exact congrArg (_ ++ ·) (List.append_nil _)

/-- **Stacks are built up in segments without loss.**  A stack that is restored is split, together
with the frames that are pending, into the frames that are installed and those that are pending
then; the innermost frame stays the innermost, and where the depth is limited only so many frames
are installed.  When a turn ends with a value or an exception and there are pending frames, these
are restored next, under a frame that delivers it.  When it ends with a capture, the continuation is
what was captured followed by the pending frames.  So over any number of turns the frames of a stack
are entered in order and each once. -/
theorem segments_keep_frames (bound : Nat) (m : Machine) :
    (∀ stack, (∀ g, stack.isEmpty = false → Eval.restore g stack m = Eval.reenterNext g
      (m.install stack)) ∧ (m.install stack).stack.appendOuter (m.install stack).pending =
      stack.appendOuter m.pending ∧
      (m.install stack).stack.innermost? = stack.innermost? ∧
      (m.options.stackSize ≠ none → (m.install stack).stack.length ≤ m.options.restoreFrames + 1)) ∧
    (∀ next top m₁, m.EndsWith bound next top m₁ → (m.pendingIn next).isEmpty = false → ∀ turns,
      m.drive bound (turns + 1) next =
        drive bound turns (.restore ((m.pendingIn next).pushInner (.top top)))
        { m₁ with pending := .empty }) ∧
    (∀ next handler captured m₁, m.EndsCaptured bound next handler captured m₁ →
      ∃ turn m', m.turn bound next = some (turn, m') ∧ m'.pending = .empty ∧
        HandsOn handler (captured.appendOuter (m.pendingIn next)) m₁.tasks turn m') ∧
    ∀ stack segments rest m', Segments bound stack m segments rest m' →
      segments.flatMap (·.dropInner.frames) ++ (rest.dropInner.appendOuter m'.pending).frames =
        (stack.dropInner.appendOuter m.pending).frames := by
  refine ⟨?_, ?_, fun _ _ _ _ ends => ends.turn_eq, fun _ _ _ _ run => run.frames_eq⟩
  · intro stack
    refine ⟨fun g notEmpty => restore_eq g notEmpty m, m.install_frames stack,
      m.install_innermost stack, ?_⟩
    intro limited
    obtain ⟨size, limited⟩ := Option.ne_none_iff_exists'.mp limited
    exact install_length_le limited stack
  · intro next top m₁ ends notEmpty turns
    rw [drive, ends.turn_eq notEmpty]

end Machine

/-- A frame that does the action when it is entered. -/
def Frame.doing (action : Action) : Frame :=
  .call { resume := action, function := "f", locals := [], label := 0 }

/-- Two frames, under one that delivers a value. -/
def Stack.twiceDoing (action : Action) : Stack :=
  ⟨[.top (.value .null), .doing action, .doing action]⟩

/-- A machine that enters one frame at a time, and yields at every safe point. -/
def Machine.narrow : Machine :=
  { Machine.new .lazy { stackSize := some 2, restoreFrames := 1 } with yieldInterval := some 1 }

/-- The outer one of two frames is pending.  After a value it is what is left, and it ends what is
captured at a safe point. -/
theorem Machine.segments_keep_frames_of_narrow :
    (∃ m₁ m₂, Machine.narrow.EndsWith 1 (.restore (.twiceDoing (.value .null))) (.value .null) m₁ ∧
      Machine.narrow.drive 1 2 (.restore (.twiceDoing (.value .null))) =
        Machine.drive 1 1 (.restore ⟨[.top (.value .null), .doing (.value .null)]⟩) m₂ ∧
      Machine.Segments 1 (.twiceDoing (.value .null)) .narrow
        [⟨[.top (.value .null), .doing (.value .null)]⟩] ⟨[.top (.value .null),
          .doing (.value .null)]⟩ m₂ ∧
      [Frame.doing (.value .null)] ++ [Frame.doing (.value .null)] =
        [Frame.doing (.value .null), .doing (.value .null)]) ∧
    ∃ m₁ m₂, Machine.narrow.EndsCaptured 1 (.restore (.twiceDoing .safePoint)) .yield .empty m₁ ∧
      Machine.narrow.turn 1 (.restore (.twiceDoing .safePoint)) = some (.ended (.ok .suspended),
        m₂) ∧
      m₂.tasks = [.resume ⟨[.top (.value .undefined), .doing .safePoint]⟩] := by
  obtain ⟨_, delivers, captures, runs⟩ := Machine.segments_keep_frames 1 .narrow
  refine ⟨?_, ?_⟩
  · have ends : Machine.narrow.EndsWith 1 (.restore (.twiceDoing (.value .null))) (.value .null)
        (Machine.narrow.begin (.restore (.twiceDoing (.value .null)))) :=
          .inl ⟨.null, rfl, rfl, nofun⟩
    have run : Machine.Segments 1 (.twiceDoing (.value .null)) .narrow
        [⟨[.top (.value .null), .doing (.value .null)]⟩] ⟨[.top (.value .null),
          .doing (.value .null)]⟩ _ :=
      .cons ends rfl (ends.turn_eq rfl) .nil
    exact ⟨_, _, ends, delivers _ _ _ ends rfl 1, run, runs _ _ _ _ run⟩
  · have ends : Machine.narrow.EndsCaptured 1 (.restore (.twiceDoing .safePoint)) .yield .empty
        { Machine.narrow.begin
          (.restore (.twiceDoing .safePoint)) with capturing := true, countdown := 1 } := .inl rfl
    obtain ⟨turn, m₂, turned, _, rfl, tasks⟩ := captures _ _ _ _ ends
    exact ⟨_, m₂, ends, turned, tasks⟩

end Resumable
