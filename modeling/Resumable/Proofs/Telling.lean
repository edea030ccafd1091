import Resumable.Proofs.Provenance

/-!
Properties of all that is told.

`Observed.Tells` says of a computation that everything it tells has a property, and how it ends.  It
is the judgment for invariants that hold at every moment of a run: the property speaks of the
machine as it is where something begins.  The rules are the usual ones, one for each way to put
computations together, and none of them depends on what the property is.

Statements end in two ways that matter: they leave off where the next one goes on, or they return.
`Completion.Leaves` tells the two apart.  A construction with a frame of its own keeps that frame
among those of the calls in progress, and `Eval.observeFramed_tells` is the rule for it.
-/

namespace Resumable

variable {label : Nat} {body : Observed Local Completion}

namespace Observed

variable {σ α β : Type} {allowed allowed' : Event → Prop} {s : σ} {post post' : α → σ → Prop}
  {unwound unwound' : Unwind → σ → Prop} {x : Observed σ α}

theorem Tells.lift {x : Run σ α} (ends : (x s).Meets post unwound) :
    (lift x).Tells allowed s post unwound :=
  .of_eq rfl (fun _ mem => (nomatch mem)) ends

theorem Tells.pure {a : α} (h : post a s) :
    (Pure.pure a : Observed σ α).Tells allowed s post unwound :=
  .lift h

theorem Tells.unwind {reason : Unwind} (h : unwound reason s) :
    (Observed.lift (Run.unwind reason) : Observed σ α).Tells allowed s post unwound :=
  .lift h

theorem Tells.weaken (tells : x.Tells allowed s post unwound)
    (ok : ∀ a s', post a s' → post' a s')
    (unwind : ∀ reason s', unwound reason s' → unwound' reason s') :
    x.Tells allowed s post' unwound' :=
  ⟨tells.told, tells.ends.weaken ok unwind⟩

/-- More may be allowed. -/
theorem Tells.allow (tells : x.Tells allowed s post unwound)
    (more : ∀ event, allowed event → allowed' event) : x.Tells allowed' s post unwound :=
  ⟨fun event mem => more event (tells.told event mem), tells.ends⟩

/-- One computation after the other. -/
theorem Tells.bind {f : α → Observed σ β} {post' : β → σ → Prop}
    (first : x.Tells allowed s post unwound)
    (second : ∀ a s', post a s' → (f a).Tells allowed s' post' unwound) :
    (x >>= f).Tells allowed s post' unwound := by
  rw [bind_eq_attempt_bind]
  exact .attempt first second fun reason s' ends => .unwind ends

theorem Tells.discard {post : σ → Prop} (tells : x.Tells allowed s (fun _ =>
    post) unwound) : (Functor.discard x).Tells allowed s (fun _ => post) unwound := by
  show (x >>= fun _ => Pure.pure ()).Tells allowed s (fun _ => post) unwound
  exact .bind tells fun _ _ ends => .pure ends

theorem Tells.read {f : σ → β} {k : β → Observed σ α}
    (tells : (k (f s)).Tells allowed s post unwound) : (Observed.lift (Run.read f) >>= k).Tells
    allowed s post unwound :=
  ⟨tells.told, tells.ends⟩

theorem Tells.modify {f : σ → σ} {k : Unit → Observed σ α}
    (tells : (k ()).Tells allowed (f s) post unwound) :
    (Observed.lift (Run.modify f) >>= k).Tells allowed s post unwound :=
  ⟨tells.told, tells.ends⟩

/-- A change of the store, whose answer is used. -/
theorem Tells.changeStore {f : Store → β × Store} {k : β → Observed Machine α} {m : Machine}
    {post : α → Machine → Prop} {unwound : Unwind → Machine → Prop}
    (tells : (k (f m.store).1).Tells allowed { m with store := (f m.store).2 } post unwound) :
    (Observed.lift (Eval.changeStore f) >>= k).Tells allowed m post unwound :=
  ⟨tells.told, tells.ends⟩

theorem Tells.noted {event : σ → Event} (expected : allowed (event s))
    (tells : x.Tells allowed s post unwound) :
    (note event >>= fun _ => x).Tells allowed s post unwound := by
  have first : (note event).Tells allowed s (fun _ s' => s' = s) unwound :=
    .of_eq rfl (List.forall_mem_singleton.mpr expected) rfl
  exact first.bind fun _ s' same => same ▸ tells

theorem Tells.atPoint {l : Local} {context : Context} {body : Context → Observed Local Completion}
    {post : Completion → Local → Prop} {unwound : Unwind → Local → Prop}
    (tells : (body (l.act.point label :: context)).Tells allowed l post unwound) :
    (atPoint context label body).Tells allowed l post unwound :=
  ⟨tells.told, tells.ends⟩

/-- A body in a new activation. -/
theorem Tells.inActivation {act : Activation} {x : Observed Local Completion} {m : Machine}
    {done : Completion → Local → Prop} {unwound : Unwind → Machine → Prop}
    {post : Value → Machine → Prop}
    (tells : x.Tells allowed ⟨act, m⟩ done (fun reason l => unwound reason l.machine))
    (finish : ∀ completion l, done completion l → (Eval.finish completion l.machine).Meets post
      unwound) :
    (inActivation act x).Tells allowed m post unwound := by
  have ends := tells.ends
  refine ⟨tells.told, ?_⟩
  rw [erase_inActivation]
  cases ending : x.erase ⟨act, m⟩ with
  | ok completion l =>
    rw [ending] at ends
    exact finish completion l ends
  | unwind reason l =>
    rw [ending] at ends
    exact ends
  | cutOff => trivial

end Observed

/-! ## Statements -/

/-- A statement leaves off in one way, or returns in another. -/
def Completion.Leaves (stays returns : Local → Prop) : Completion → Local → Prop
  | .return _, l => returns l
  | _, l => stays l

namespace Observed

variable {allowed : Event → Prop} {stays returns : Local → Prop} {unwound : Unwind → Local → Prop}
  {l : Local} {w : Observer} {context : Context}

theorem Tells.loop {label : Option String} {test : Observed Local Bool}
    (testTells : ∀ l, stays l → test.Tells allowed l (fun _ => stays) unwound)
    (bodyTells : ∀ l, stays l → body.Tells allowed l (Completion.Leaves stays returns) unwound)
    (turns : Nat)
    (here : stays l) :
    (loop label test body turns).Tells allowed l (Completion.Leaves stays returns) unwound := by
  induction turns generalizing l with
  | zero => exact .lift trivial
  | succ turns ih =>
    refine .bind (testTells l here) fun holds l₁ stays₁ => ?_
    cases holds with
    | false => exact .pure stays₁
    | true =>
      refine .bind (bodyTells l₁ stays₁) fun completion l₂ left => ?_
      cases completion with
      | normal => exact ih left
      | «continue» target =>
        simp only
        split
        · exact ih left
        · exact .pure left
      | «break» target =>
        refine .pure ?_
        split <;> exact left
      | «return» value => exact .pure left

theorem Tells.option {o : Option Stmt}
    (tells : ∀ s ∈ o, (s.observe w context).Tells allowed l (Completion.Leaves stays returns)
      unwound)
    (here : stays l) :
    (Stmt.observeOption w context o).Tells allowed l (Completion.Leaves stays returns) unwound := by
  cases o with
  | none => exact .pure here
  | some s => exact tells s rfl

/-- An exception is bound, and goes to the handler.  A signal is raised again by the handler, with
the activation as it was. -/
theorem Tells.handle {handler : Observed Local Completion} {param : String}
    (bodyTells : body.Tells allowed l (Completion.Leaves stays returns) unwound)
    (bound : ∀ value l, unwound (.throw value) l →
      (Observed.lift (Exec.declare param value)).Tells allowed l (fun _ => stays) unwound)
    (handlerTells : ∀ l, stays l → handler.Tells allowed l (Completion.Leaves stays returns)
      unwound)
    (passes : ∀ l signal, l.act.caught = some signal → ∃ events,
      handler l = (.unwind (.signal signal) { l with act := { l.act with caught := none } },
        events) ∧ ∀ event ∈ events, allowed event) :
    (handle body param handler).Tells allowed l (Completion.Leaves stays returns) unwound := by
  refine .attempt bodyTells (fun completion l₁ left => .pure left) fun reason l₁ ends => ?_
  cases reason with
  | throw value => exact .bind (bound value l₁ ends) fun _ l₂ stays₂ => handlerTells l₂ stays₂
  | signal signal =>
    obtain ⟨events, eq, told⟩ := passes { l₁ with act := { l₁.act with caught := some signal } }
      signal rfl
    refine .of_eq (?_ : _ = (Ending.unwind (.signal signal) l₁, events)) told ends
    show (Observed.lift (Run.read _) >>= _) l₁ = _
    rw [Observed.read_bind]
    show (Observed.lift (Run.modify _) >>= _) l₁ = _
    rw [Observed.modify_bind, Observed.attempt_bind_of_unwind eq]
    exact Prod.ext rfl (List.append_nil events)
  | fault fault => exact .unwind ends

/-- However the body ends, the `finally` part runs, unless it is known to do nothing. -/
theorem Tells.withFinal {final : Observed Local Completion}
    (bodyTells : body.Tells allowed l (Completion.Leaves stays returns) unwound)
    (finalTells : ∀ l, stays l → final.Tells allowed l (Completion.Leaves stays returns) unwound)
    (returning : ∀ l, returns l → stays l ∨ ∃ events, final l = (.ok .normal l, events) ∧
      ∀ event ∈ events, allowed event) (unwinding : ∀ reason l, unwound reason l → stays l)
    (returned : ∀ l, stays l → returns l) (coherent : ∀ reason l l', unwound reason l → stays l' →
      unwound reason l') :
    (withFinal body final).Tells allowed l (Completion.Leaves stays returns) unwound := by
  have finish : ∀ l (result : Except Unwind Completion), stays l →
      (∀ l', stays l' → (Observed.lift (Run.settle result)).Tells allowed l'
        (Completion.Leaves stays returns) unwound) →
      (settleAfter final result).Tells allowed l (Completion.Leaves stays returns) unwound := by
    intro l result here settles
    refine .bind (finalTells l here) fun completion l₁ left => ?_
    cases completion with
    | normal => exact settles l₁ left
    | _ => exact .pure left
  refine .attempt bodyTells (fun completion l₁ left => ?_) fun reason l₁ ends => ?_
  · cases completion with
    | «return» value =>
      rcases returning l₁ left with here | ⟨events, eq, told⟩
      · exact finish l₁ _ here fun l' stays' => .pure (returned l' stays')
      · refine .of_eq (?_ : _ = (Ending.ok (Completion.return value) l₁, events)) told left
        rw [Observed.bind_of_ok eq]
        exact Prod.ext rfl (List.append_nil events)
    | _ => exact finish l₁ _ left fun l' stays' => .pure stays'
  · exact finish l₁ _ (unwinding reason l₁ ends) fun l' stays' =>
      .unwind (coherent reason l₁ l' ends stays')

/-- The frame of the activation is added to a capture. -/
theorem Tells.recording (bodyTells : body.Tells allowed l (Completion.Leaves stays returns) unwound)
    (pushed : ∀ handler stack l, unwound (.signal (.capture handler stack)) l →
      unwound (.signal (.capture handler (stack.pushOuter (l.act.captureFrame l.machine.store
        label)))) l) :
    (Observed.recording label body).Tells allowed l (Completion.Leaves stays returns) unwound := by
  refine .attempt bodyTells (fun completion l₁ left => .pure left) fun reason l₁ ends => ?_
  cases reason with
  | throw value => exact .unwind ends
  | fault fault => exact .unwind ends
  | signal signal =>
    cases signal with
    | capture handler stack => exact .read (.unwind (pushed handler stack l₁ ends))
    | restore stack => exact .unwind ends
    | discard replacement => exact .unwind ends

/-- A frame of the activation is kept while the body runs. -/
theorem Tells.shadowing (bodyTells : body.Tells allowed ⟨l.act, { l.machine with
      shadow := l.machine.shadow.pushInner (l.act.captureFrame l.machine.store label) }⟩
      (Completion.Leaves stays returns) unwound)
    (left : ∀ completion l, Completion.Leaves stays returns completion l →
      Completion.Leaves stays returns completion ⟨l.act,
        { l.machine with shadow := l.machine.shadow.dropInner }⟩)
    (dropped : ∀ reason l, unwound reason l →
      unwound reason ⟨l.act, { l.machine with shadow := l.machine.shadow.dropInner }⟩) :
    (Observed.shadowing label body).Tells allowed l (Completion.Leaves stays returns) unwound := by
  refine .read (.modify (.attempt bodyTells (fun completion l₁ ends => ?_) fun reason l₁ ends =>
    ?_))
  · exact .modify (.pure (left completion l₁ ends))
  · exact .modify (.unwind (dropped reason l₁ ends))

end Observed

/-! ## Constructions -/

section Constructions

variable {code : Func → Prop} {allowed : Event → Prop} {started inside here : Machine → Prop}
  {m : Machine}

/-- The frames of calls in progress are of the class, and others that are of the class could be in
their place. -/
structure Machine.Shadows (code : Func → Prop) (holds : Machine → Prop) : Prop where
  ofCode : ∀ m, holds m → m.shadow.OfCode code
  changed : ∀ m shadow, holds m → shadow.OfCode code → holds { m with shadow }

/-- Frames that are kept for calls in progress, where the strategy keeps them. -/
theorem Eval.changeKept_tells (shadows : Machine.Shadows code inside) (holds : inside m)
    {f : Stack → Stack} (ofCode : (f m.shadow).OfCode code) (strategy : Strategy)
    {unwound : Unwind → Machine → Prop} :
    (Observed.lift (Eval.changeKept strategy f)).Tells allowed m (fun _ => inside) unwound := by
  unfold Eval.changeKept
  split
  · exact .lift (shadows.changed m _ holds ofCode)
  · exact .pure holds

section

variable (back : ∀ m, inside m → here m)
  (collect : ∀ m frame, inside m → frame.action.OfCode code →
    here { m with stack := m.stack.pushOuter frame })

include back collect

/-- A construction ends as its constructor does, with its frame in a capture. -/
theorem Eval.settleFramed_tells (holds : inside m) {frame : Frame} {this : Value}
    {result : Except Unwind Value} (frameCode : frame.action.OfCode code)
    (ofCode : ∀ reason, result = .error reason → reason.OfCode code)
    (strategy : Strategy) :
    (Observed.lift (Eval.settleFramed strategy frame this result)).Tells allowed m (fun _ => here)
      (fun reason m' => here m' ∧ reason.OfCode code) := by
  refine .lift ?_
  cases result with
  | error reason =>
    have reasonCode := ofCode reason rfl
    cases reason with
    | signal signal =>
      cases signal with
      | capture handler stack =>
        refine ⟨back m holds, reasonCode.1, ?_⟩
        split
        · exact reasonCode.2.pushOuter frameCode
        · exact reasonCode.2
      | restore stack => exact ⟨back m holds, reasonCode⟩
      | discard replacement => exact ⟨back m holds, reasonCode⟩
    | throw value => exact ⟨back m holds, reasonCode⟩
    | fault fault => exact ⟨back m holds, reasonCode⟩
  | ok value =>
    rw [Eval.settleFramed, Run.read_bind]
    split
    · exact collect m frame holds frameCode
    · exact back m holds

/-- A construction with a frame of its own: what holds once the object is there, and while its
constructor runs. -/
theorem Eval.observeFramed_tells {w : Observer} {context : Context} {closure : ClosureId}
    {args : List Value} (starting : Machine.Shadows code started)
    (shadows : Machine.Shadows code inside)
    (told : allowed (.construction closure args m))
    (object : ∀ function, (Observed.lift (if m.mode = .restoring then Eval.takeInstance function
      else Eval.makeInstance closure)).Tells allowed m (fun _ => started)
        (fun reason m' => here m' ∧ reason.OfCode code))
    (entered : ∀ context this m', started m' → (if m.mode = .restoring then Eval.observeReenterNext
      w context else Eval.observeEnter w context closure this args (.closure closure)).Tells allowed
        m' (fun _ => inside) (fun reason m' => inside m' ∧ reason.OfCode code)) :
    (Eval.observeFramed w context closure args).Tells allowed m (fun _ => here)
      (fun reason m' => here m' ∧ reason.OfCode code) := by
  refine .noted told (.read (.read (.bind (object _) fun this m₁ started₁ => .read ?_)))
  generalize "new " ++ (m.store.closure closure).func.displayName = function
  have frameCode : (Eval.constructionFrame closure args function this).action.OfCode code := trivial
  have pushed := (starting.ofCode m₁ started₁).pushInner frameCode
  refine .bind (Eval.changeKept_tells starting started₁ pushed _) fun _ m₂ started₂ => ?_
  have finish : ∀ (result : Except Unwind Value) m₃, inside m₃ →
      (∀ reason, result = .error reason → reason.OfCode code) →
      (do
        Observed.lift (Eval.changeKept m₁.strategy (·.dropInner))
        .lift (Eval.settleFramed m₁.strategy (Eval.constructionFrame closure args function this)
          this result)).Tells allowed m₃ (fun _ => here) (fun reason m' => here m' ∧
          reason.OfCode code) := by
    intro result m₃ inside₃ ofCode
    refine .bind (Eval.changeKept_tells shadows inside₃ (shadows.ofCode m₃ inside₃).dropInner _)
      fun _ m₄ inside₄ => ?_
    exact Eval.settleFramed_tells back collect inside₄ frameCode ofCode _
  refine .attempt (entered _ this m₂ started₂) (fun value m₃ inside₃ => ?_) fun reason m₃ ends => ?_
  · exact finish (.ok value) m₃ inside₃ fun _ h => nomatch h
  · exact finish (.error reason) m₃ ends.1 fun _ h => Except.error.inj h ▸ ends.2

end

end Constructions

end Resumable
