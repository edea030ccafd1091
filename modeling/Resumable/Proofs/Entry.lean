import Resumable.Proofs.Frames

/-!
Calls, constructions and the entry into frames.

Within any bound, everything that a machine can be asked to do keeps the invariant of frames:
`observer_safe` is an induction on the depth to which actions are nested.  Its one argument that is
not bookkeeping is at the entry of a function in restoring mode: the frame that is waiting there is
the outermost one, nothing takes it before the function does, and it has the function's own layout.
-/

namespace Resumable

variable {act : Activation} {frame : CallFrame} {closure : ClosureId} {this : Value}
  {args : List Value}

/-! ## Captures -/

section Captures

variable {strategy : Strategy} {w : Observer} {context : Context} {m : Machine} {g : Engine}
  {handler : CaptureHandler}

theorem Eval.raiseCapture_eager (eager : m.strategy = .eager) : Eval.raiseCapture g handler m =
      .unwind (.signal (.capture handler m.shadow)) { m with capturing := true } := by
  cases m
  cases eager
  rfl

theorem Eval.raiseCapture_lazy (isLazy : m.strategy = .lazy) : Eval.raiseCapture g handler m =
      .unwind (.signal (.capture handler .empty)) { m with capturing := true } := by
  cases m
  cases isLazy
  rfl

theorem Eval.raiseCapture_retval (retval : m.strategy = .retval) :
    Eval.raiseCapture g handler m = .ok .undefined
      { m with capturing := true, pendingHandler := some handler, stack := .empty } := by
  cases m
  cases retval
  rfl

theorem Eval.raiseCapture_fudge (fudge : m.strategy = .fudge)
    (notGuest : ∀ func, handler ≠ .guest func) : Eval.raiseCapture g handler m =
    .ok .undefined m := by
  cases m
  cases fudge
  cases handler with
  | guest func => exact absurd rfl (notGuest func)
  | reenter action => rfl
  | yield => rfl

/-- The capture is told, and then begun in the way of the strategy. -/
theorem Eval.observeCapture_eq (notGuest : ∀ func, m.strategy = .fudge → handler ≠ .guest func) :
    Eval.observeCapture w context handler m =
      (Eval.raiseCapture w.engine handler m, [.raise context handler m]) := by
  refine Prod.ext (congrFun (Eval.erase_observeCapture w context handler) m) ?_
  refine (Eval.told_observeCapture w context handler m).trans ?_
  split
  · rename_i func fudge
    exact absurd rfl (notGuest func fudge)
  · rfl

/-- Where captures unwind, the capture is delivered with the frames that are kept so far. -/
theorem Eval.observeCapture_delivers (unwinds : strategy.unwinds = true)
    (sound : m.Sound strategy context) : ∃ stack, stack.Fits strategy m.store ∧
      stack.Tells strategy context context ∧ Eval.observeCapture w context handler m =
        (.unwind (.signal (.capture handler stack)) { m with capturing := true },
          [.raise context handler m]) := by
  have runs := sound.runs
  rw [Eval.observeCapture_eq fun func fudge => by rw [← runs, fudge] at unwinds; cases unwinds]
  cases strategy with
  | eager => exact ⟨m.shadow, sound.shadow, sound.calls rfl, by rw [Eval.raiseCapture_eager runs]⟩
  | lazy => exact ⟨.empty, .empty, rfl, by rw [Eval.raiseCapture_lazy runs]⟩
  | retval => cases unwinds
  | fudge => cases unwinds

/-- A capture may be begun in normal mode. -/
theorem Eval.observeCapture_safe (observerSafe : w.Safe strategy) (sound : m.Sound strategy context)
    (normal : m.mode = .normal) (fits : handler.Fits strategy m.store) :
    (Eval.observeCapture w context handler).Safe strategy context m := by
  cases unwinds : strategy.unwinds with
  | true =>
    obtain ⟨stack, stackFits, tells, eq⟩ := Eval.observeCapture_delivers unwinds sound
    refine ⟨?_, ?_, ?_⟩
    · rw [Observed.told, eq]
      exact List.forall_mem_singleton.mpr ⟨trivial, normal⟩
    · rw [Observed.erase, eq]
      have raised : m.Kept strategy context { m with capturing := true } :=
        ⟨{ sound with room := fun _ idle => by cases idle }, .refl _, id, fun _ => rfl⟩
      exact ⟨raised, ⟨unwinds, rfl⟩, fits, stackFits⟩
    · intro _ before raised _ _ after split
      rw [Observed.told, eq] at split
      cases before with
      | nil =>
        cases split
        exact ⟨List.forall_mem_nil _, _, _, congrArg Prod.fst eq, stack, m.shadow, rfl, rfl, tells⟩
      | cons _ before => simp at split
  | false =>
    refine Observed.Meets.noted_unless ⟨trivial, normal⟩ (fun h => (by rw [unwinds] at h; cases h))
      (.read ?_)
    split
    · exact observerSafe _ _ m sound (.inl ⟨normal, trivial⟩)
    · rename_i notGuest
      refine Observed.Meets.lift ?_
      cases runs : m.strategy with
      | eager => rw [← sound.runs, runs] at unwinds; cases unwinds
      | lazy => rw [← sound.runs, runs] at unwinds; cases unwinds
      | retval =>
        rw [Eval.raiseCapture_retval runs]
        refine ⟨?_, .refl _, id, fun _ => rfl⟩
        exact { sound with
          stack := .empty
          handler := fun held mem => Option.some.inj mem ▸ fits
          topped := fun restoring => by rw [normal] at restoring; cases restoring
          room := fun _ idle => by cases idle }
      | fudge =>
        rw [Eval.raiseCapture_fudge runs fun func => notGuest func runs]
        exact .refl sound

theorem Eval.observeSafePoint_safe (observerSafe : w.Safe strategy)
    (sound : m.Sound strategy context) (normal : m.mode = .normal) :
    (Eval.observeSafePoint w context).Safe strategy context m := by
  have counted : ∀ countdown, m.Kept strategy context { m with countdown } :=
    fun _ => ⟨{ sound with runs := sound.runs }, .refl _, id, id⟩
  refine .read ?_
  split
  · exact .pure sound
  · refine .read ?_
    simp only
    split
    · exact .modify (counted _) (.pure (counted _).sound)
    · exact .modify (counted _) (Eval.observeCapture_safe observerSafe (counted _).sound normal
        trivial)

/-- In restoring mode a call is counted, and nothing else happens. -/
theorem Eval.observeCountCall_restoring (restoring : m.mode = .restoring) (again : Action) :
    Eval.observeCountCall w context again m = (.ok false
      { m with remaining := m.remaining.map (· - 1) }, []) := by
  rw [Eval.observeCountCall, Observed.read_bind]
  cases counted : m.remaining with
  | none =>
    cases m
    cases counted
    rfl
  | some remaining =>
    simp only [Observed.modify_bind, Observed.read_bind]
    rw [if_pos (by simp [restoring])]
    rfl

/-- In normal mode counting a call may begin a capture, after which the call is made again. -/
theorem Eval.observeCountCall_safe (observerSafe : w.Safe strategy) {again : Action}
    (sound : m.Sound strategy context) (normal : m.mode = .normal)
    (fits : CaptureHandler.Fits strategy m.store (.reenter again)) :
    (Eval.observeCountCall w context again).Safe strategy context m := by
  refine .read ?_
  split
  · exact .pure sound
  · rename_i remaining _
    have counted : m.Kept strategy context { m with remaining := some (remaining - 1) } :=
      .remaining sound fun restoring => nomatch normal.symm.trans restoring
    refine .modify counted (.read (.read ?_))
    split
    · exact .pure counted.sound
    · refine .bind (.discard (Eval.observeCapture_safe observerSafe counted.sound normal fits)) ?_
      exact fun _ m' kept => .pure kept.sound

/-- In restoring mode there is a frame to enter. -/
theorem Eval.observeReenterNext_safe (observerSafe : w.Safe strategy)
    (sound : m.Sound strategy context) (restoring : m.mode = .restoring) :
    (Eval.observeReenterNext w context).Safe strategy context m := by
  obtain ⟨frame, outermost⟩ := (sound.topped restoring).outermost
  have fits := sound.stack frame (Stack.mem_of_outermost outermost)
  refine .noted ⟨(sound.topped restoring).isEmpty, restoring, sound.room restoring⟩ rfl (.read ?_)
  rw [outermost]
  cases frame with
  | top action =>
    have entered : m.Kept strategy context { m with stack := .empty, mode := .normal } :=
      ⟨{ sound with stack := .empty, topped := fun h => (nomatch h), room := fun h => nomatch h },
        .refl _, fun _ => rfl, id⟩
    exact .modify entered (observerSafe _ _ _ entered.sound (.inl ⟨rfl, fits⟩))
  | call frame => exact observerSafe _ _ m sound (.inr ⟨restoring, .inr ⟨frame, outermost, rfl⟩⟩)

end Captures

/-! ## Declared functions -/

section Declared

variable {code : Func → Prop} {strategy : Strategy}

theorem Stmt.Reentering.declared {s : Stmt} (reentering : s.Reentering code) : s.declared = [] := by
  induction reentering with
  | letS | assign _ | expr => simp only [Stmt.declared]
  | guarded _ _ ih =>
    simp only [Stmt.guarded, Stmt.declared, Stmt.declaredOption, ih, List.append_nil]

theorem Stmt.declaredList_code {body : List Stmt} (ofCode : ∀ s ∈ body, ∀ f ∈ s.declared, code f) :
    ∀ f ∈ Stmt.declaredList body, code f := by
  induction body with
  | nil => intro f mem; cases mem
  | cons s rest ih =>
    rw [List.forall_mem_cons] at ofCode
    exact List.forall_mem_append.mpr ⟨ofCode.1, ih ofCode.2⟩

theorem Stmt.declaredOption_code {o : Option Stmt} (ofCode : ∀ s ∈ o, ∀ f ∈ s.declared, code f) :
    ∀ f ∈ Stmt.declaredOption o, code f := by
  cases o with
  | none => intro f mem; cases mem
  | some s => exact ofCode s rfl

theorem Handler.declaredOption_code {o : Option Handler}
    (ofCode : ∀ h ∈ o, ∀ f ∈ h.body.declared, code f) : ∀ f ∈ Handler.declaredOption o, code f := by
  cases o with
  | none => intro f mem; cases mem
  | some h =>
    obtain ⟨param, body⟩ := h
    exact ofCode ⟨param, body⟩ rfl

/-- The functions that a statement declares are of the class. -/
theorem Stmt.Dual.declared_code {s : Stmt} {normal : Bool} (dual : s.Dual strategy code normal) :
    ∀ f ∈ s.declared, code f := by
  induction dual with
  | select _ reentering ih =>
    refine List.forall_mem_append.mpr ⟨ih, Stmt.declaredOption_code fun r mem => ?_⟩
    rw [(reentering r mem).declared]
    exact fun f mem => nomatch mem
  | shadow _ _ ih => exact ih
  | record _ _ ih => exact ih
  | block _ ih => exact Stmt.declaredList_code ih
  | branch _ _ _ thenIH elseIH =>
    exact List.forall_mem_append.mpr ⟨thenIH, Stmt.declaredOption_code elseIH⟩
  | loop _ _ ih => exact ih
  | labeled _ _ ih => exact ih
  | attempt _ _ _ _ _ bodyIH handlerIH finalIH =>
    refine List.forall_mem_append.mpr ⟨List.forall_mem_append.mpr ⟨bodyIH, ?_⟩, ?_⟩
    · exact Handler.declaredOption_code handlerIH
    · exact Stmt.declaredOption_code finalIH
  | decl ofCode => exact List.forall_mem_singleton.mpr ofCode
  | _ => exact fun f mem => nomatch mem

theorem Func.Resumes.declared {f : Func} (resumable : f.Resumes strategy) :
    ∀ g ∈ Stmt.declaredList f.body, g.Resumes strategy := by
  cases resumable with
  | intro bare bodyEq dual =>
    rw [bodyEq]
    refine Stmt.declaredList_code (List.forall_mem_append.mpr ⟨?_, ?_⟩)
    · rcases bare with rfl | rfl
      · exact List.forall_mem_nil _
      · exact List.forall_mem_singleton.mpr (List.forall_mem_nil _)
    · refine List.forall_mem_cons.mpr ⟨List.forall_mem_nil _, ?_⟩
      refine List.forall_mem_cons.mpr ⟨List.forall_mem_nil _, ?_⟩
      exact fun s mem => (dual s mem).declared_code

end Declared

/-! ## The entry of a function -/

/-- In restoring mode, the outermost frame is one for the function of the activation. -/
def Activation.Awaited (act : Activation) (m : Machine) : Prop :=
  m.mode = .restoring → ∃ frame, m.stack.outermost? = some (.call frame) ∧ frame.OfActivation act ∧
    frame.locals.length = act.layoutLocals.length

/-- Nothing but the function, the mode and the stack matters to what is awaited. -/
theorem Activation.Awaited.congr {act' : Activation} {m m' : Machine} (awaited : act.Awaited m)
    (func : act'.func = act.func) (callee : act'.callee = act.callee) (mode : m'.mode = m.mode)
    (stack : m'.stack = m.stack) : act'.Awaited m' := by
  unfold Activation.Awaited CallFrame.OfActivation Activation.layoutLocals at awaited ⊢
  rw [func, callee, mode, stack]
  exact awaited

/-- In normal mode no frame is awaited. -/
theorem Activation.awaited_of_normal {m : Machine} (normal : m.mode = .normal) : act.Awaited m := by
  intro restoring
  rw [normal] at restoring
  cases restoring

section Entry

variable {strategy : Strategy} {w : Observer} {context : Context} {l : Local} {m : Machine}

/-- The local for `new.target` is bound before the frame is taken. -/
theorem Stmt.opening_meets (sound : l.Sound strategy context) (awaited : l.act.Awaited l.machine) :
    ((Stmt.letS newTargetLocal (some .newTarget)).observe w context).Meets strategy
      (Local.Delivered strategy context) l (fun _ l' => l.Kept strategy context l' ∧
        l'.act.Awaited l'.machine)
      (fun reason l' => l.Kept strategy context l' ∧ reason.Fits strategy l'.machine) := by
  let store := l.machine.store.declare l.act.scope newTargetLocal l.act.newTarget
  have opened : ((Stmt.letS newTargetLocal (some .newTarget)).observe w context) l =
      (.ok .normal ⟨l.act, { l.machine with store }⟩,
        [.stmt (.letS newTargetLocal (some .newTarget)) l, .expr .newTarget l.act l.machine]) := rfl
  refine .of_eq opened ?_ (fun _ => ?_) ?_
  · exact List.forall_mem_cons.mpr ⟨⟨trivial, trivial⟩, List.forall_mem_singleton.mpr ⟨trivial,
      trivial⟩⟩
  · exact List.forall_mem_cons.mpr ⟨rfl, List.forall_mem_singleton.mpr rfl⟩
  · have calm : l.machine.store.Calm (Func.Resumes strategy) store := Store.declare_calm _ _ _ _
    refine ⟨.of_machine sound ⟨sound.machine.of_calm calm, calm, id, id⟩, ?_⟩
    exact awaited.congr rfl rfl rfl rfl

/-- In normal mode the call is counted, and may be cut off. -/
theorem Stmt.stackDec_safe (observerSafe : w.Safe strategy) (sound : l.Sound strategy context)
    (normal : l.machine.mode = .normal) : (Stmt.stackDec.observe w context).SafeIn strategy
    context l := by
  rw [Stmt.observe]
  refine .noted ⟨trivial, trivial⟩ rfl (.bind (.ofEval sound ?_) fun _ l' kept =>
    .pure (kept.sound sound))
  exact Eval.observeCountCall_safe observerSafe sound.machine normal ⟨l.act, sound.known, rfl⟩

/-- In restoring mode the call is counted, and the frame is taken next. -/
theorem Stmt.observe_stackDec_restoring (restoring : l.machine.mode = .restoring) :
    Stmt.stackDec.observe w context l =
      (.ok .normal ⟨l.act, { l.machine with remaining := l.machine.remaining.map (· - 1) }⟩,
        [.stmt .stackDec l]) := by
  rw [Stmt.observe]
  have counted : Observed.ofEval (fun act => Eval.observeCountCall w context act.startAgain) l =
      (.ok false ⟨l.act, { l.machine with remaining := l.machine.remaining.map (· - 1) }⟩, []) := by
    have machine : Eval.observeCountCall w context l.act.startAgain l.machine = _ :=
      Eval.observeCountCall_restoring restoring _
    simp only [Observed.ofEval, machine]
    rfl
  show Observed.bind (Observed.note (.stmt .stackDec)) _ l = _
  simp only [Observed.bind, Observed.note]
  rw [Observed.bind_of_ok counted]
  rfl

theorem Eval.takeFrame_call {function : String} (outermost : m.stack.outermost? =
    some (.call frame)) : Eval.takeFrame function m = .ok frame
    { m with stack := m.stack.dropOuter } := by
  simp only [Eval.takeFrame, Run.read_bind, outermost]
  rfl

/-- The activation with the outermost frame taken into it. -/
def Local.take (frame : CallFrame) (l : Local) : Local where
  act := { l.act with argCount := frame.argCount.getD l.act.argCount, target := some frame.label }
  machine := { l.machine with
    stack := l.machine.stack.dropOuter
    store := (l.machine.store.declareAll l.act.scope
      (l.act.layoutLocals.zip frame.locals)).declareAll l.act.scope
      (l.act.func.params.zip (frame.formals.getD [])) }

/-- The frame is taken into the activation, which then looks for its label. -/
theorem Exec.takeFrame_call (outermost : l.machine.stack.outermost? = some (.call frame))
    (shape : frame.locals.length = l.act.layoutLocals.length) : Exec.takeFrame l = .ok ()
    (l.take frame) := by
  have taken : Exec.ofEval (fun act => Eval.takeFrame act.func.displayName) l =
      .ok frame ⟨l.act, { l.machine with stack := l.machine.stack.dropOuter }⟩ := by
    simp only [Exec.ofEval, Eval.takeFrame_call outermost]
  show Run.bind _ _ l = _
  rw [Run.bind, taken]
  simp only [Run.read_bind]
  rw [if_neg (by simp [shape])]
  rfl

/-- The frame is taken if one is awaited.  It makes up for the call, which is counted by then. -/
theorem Stmt.restoreFrame_meets (sound : l.Sound strategy context)
    (awaited : l.act.Awaited l.machine) {remaining : Option Int}
    (counted : ∀ left, l.machine.remaining = some left → ∃ left', remaining = some left' ∧
      left ≤ left' + 1) :
    (Stmt.restoreFrame.observe w context).Meets strategy (Local.Delivered strategy context)
      ⟨l.act, { l.machine with remaining }⟩ (fun _ l' => l.Kept strategy context l')
      (fun reason l' => l.Kept strategy context l' ∧ reason.Fits strategy l'.machine) := by
  have kept : (Observed.lift Exec.restoreFrame).Meets strategy (Local.Delivered strategy context)
      ⟨l.act, { l.machine with remaining }⟩ (fun _ l' => l.Kept strategy context l')
      (fun reason l' => l.Kept strategy context l' ∧ reason.Fits strategy l'.machine) := by
    refine Observed.Meets.lift ?_
    rw [Exec.restoreFrame, Run.read_bind]
    cases mode : l.machine.mode with
    | normal =>
      exact Local.Kept.of_machine sound (.remaining sound.machine fun restoring =>
        nomatch mode.symm.trans restoring)
    | restoring =>
      obtain ⟨frame, outermost, _, shape⟩ := awaited mode
      let after := Local.take frame ⟨l.act, { l.machine with remaining }⟩
      have taken : Exec.takeFrame ⟨l.act, { l.machine with remaining }⟩ = .ok () after :=
        Exec.takeFrame_call outermost shape
      rw [if_pos rfl, taken]
      have calm : l.machine.store.Calm (Func.Resumes strategy) after.machine.store :=
        (Store.declareAll_calm _ _ _).trans (Store.declareAll_calm _ _ _)
      have room : l.machine.mode = .restoring → l.machine.capturing = false →
          { l.machine with remaining, stack := l.machine.stack.dropOuter }.Roomy := by
        intro restoring idle size limited
        obtain ⟨left, before, enough⟩ := sound.machine.room restoring idle size limited
        obtain ⟨left', after, atMost⟩ := counted left before
        refine ⟨left', after, ?_⟩
        have shorter := Stack.length_dropOuter outermost
        show (size : Int) + l.machine.stack.dropOuter.length ≤ left'
        omega
      have taken : { l.machine with remaining, stack := l.machine.stack.dropOuter }.Sound strategy
          context :=
        { sound.machine with
          stack := sound.machine.stack.dropOuter
          topped := fun _ => (sound.machine.topped mode).dropOuter outermost
          room }
      have keeps : l.machine.Kept strategy context after.machine :=
        ⟨taken.of_calm calm, calm, id, id⟩
      exact ⟨keeps, rfl, rfl, fun signal mem => (sound.caught signal mem).mono keeps⟩
  rw [Stmt.observe, Stmt.exec, Observed.lift_bind]
  exact .noted ⟨awaited, trivial⟩ rfl (.bind kept fun _ l' kept' => .pure kept')

/-- The body of a function that is entered, in whatever mode. -/
theorem Func.Resumes.body_safe (observerSafe : w.Safe strategy)
    (resumable : l.act.func.Resumes strategy) (sound : l.Sound strategy context)
    (awaited : l.act.Awaited l.machine) :
    (Stmt.observeList w context l.act.func.body).SafeIn strategy context l := by
  cases resumable with
  | @intro _ opening rest bare bodyEq dual =>
    have counted : ∀ l', l.Kept strategy context l' → l'.act.Awaited l'.machine →
        (Stmt.observeList w context (.stackDec :: .restoreFrame :: rest)).SafeIn strategy context
        l' := by
      intro l₁ kept₁ awaited₁
      have sound₁ := kept₁.sound sound
      -- the rest of the body, once the frame is taken
      have goesOn : ∀ {l' : Local}, l'.Sound strategy context →
          (Stmt.observeList w context rest).SafeIn strategy context l' := by
        intro l' sound'
        refine Stmt.observeList_safe sound' fun s mem l₄ kept₄ => ?_
        exact (dual s mem).safe observerSafe (kept₄.sound sound') (by simp)
      cases mode : l₁.machine.mode with
      | normal =>
        refine .bind (Stmt.stackDec_safe observerSafe sound₁ mode) fun completion l₂ kept₂ => ?_
        have sound₂ := kept₂.sound sound₁
        cases completion with
        | normal =>
          have awaited₂ : l₂.act.Awaited l₂.machine :=
            Activation.awaited_of_normal (kept₂.machine.normal mode)
          refine .bind (Stmt.restoreFrame_meets sound₂ awaited₂ fun left same =>
            ⟨left, same, by omega⟩) fun completion l₃ kept₃ => ?_
          cases completion with
          | normal => exact goesOn (kept₃.sound sound₂)
          | _ => exact .pure (kept₃.sound sound₂)
        | _ => exact .pure sound₂
      | restoring =>
        -- the call is counted and the frame is taken in one step, between the two there is no room
        have counted : (Stmt.stackDec.observe w context).Meets strategy
            (Local.Delivered strategy context) l₁ (fun completion l₂ => completion = .normal ∧
              l₂ = ⟨l₁.act, { l₁.machine with remaining := l₁.machine.remaining.map (· - 1) }⟩)
            (fun reason l' => l₁.Kept strategy context l' ∧ reason.Fits strategy l'.machine) :=
          .of_eq (Stmt.observe_stackDec_restoring mode) (List.forall_mem_singleton.mpr ⟨trivial,
            trivial⟩) (fun _ => List.forall_mem_singleton.mpr rfl) ⟨rfl, rfl⟩
        refine Observed.Meets.bind counted ?_
        rintro _ _ ⟨rfl, rfl⟩
        refine Observed.Meets.bind (Stmt.restoreFrame_meets sound₁ awaited₁ fun left same => ?_) ?_
        · exact ⟨left - 1, by rw [same]; rfl, by omega⟩
        · intro completion l₃ kept₃
          refine Observed.SafeIn.after ?_ kept₃
          cases completion with
          | normal => exact goesOn (kept₃.sound sound₁)
          | _ => exact .pure (kept₃.sound sound₁)
    rw [bodyEq]
    rcases bare with rfl | rfl
    · exact counted l (.refl sound) awaited
    · refine Observed.Meets.bind (Stmt.opening_meets sound awaited) ?_
      rintro completion l₁ ⟨kept₁, awaited₁⟩
      refine Observed.SafeIn.after ?_ kept₁
      cases completion with
      | normal => exact counted l₁ kept₁ awaited₁
      | _ => exact .pure (kept₁.sound sound)

theorem Observed.inActivation_safe {x : Observed Local Completion}
    (safe : x.SafeIn strategy context ⟨act, m⟩) : (inActivation act x).Safe strategy context m := by
  have ends := safe.ends
  have erased := erase_inActivation act x m
  refine ⟨safe.told, ?_, ?_⟩
  rotate_left
  · intro unwinds before raised handler m' after split
    obtain ⟨guards, reason, l, ending, delivered⟩ := safe.raised unwinds _ _ _ _ _ split
    rw [ending] at erased
    exact ⟨guards, reason, l.machine, erased, delivered⟩
  rw [erased]
  cases ending : x.erase ⟨act, m⟩ with
  | ok completion l =>
    rw [ending] at ends
    cases completion with
    | normal => exact ends.machine
    | «return» value => exact ends.machine
    | «break» label => exact ⟨ends.machine, rfl⟩
    | «continue» label => exact ⟨ends.machine, rfl⟩
  | unwind reason l =>
    rw [ending] at ends
    exact ⟨ends.1.machine, ends.2⟩
  | cutOff => trivial

theorem Eval.observeBody_safe (observerSafe : w.Safe strategy) (sound : m.Sound strategy context)
    (known : act.Known strategy m.store) (caught : act.caught = none) (awaited : act.Awaited m) :
    (Eval.observeBody w context act act.func.body).Safe strategy context m := by
  have localSound : Local.Sound strategy context ⟨act, m⟩ :=
    ⟨sound, known, fun signal mem => by rw [caught] at mem; cases mem⟩
  refine .noted ⟨awaited, trivial⟩ rfl (Observed.inActivation_safe ?_)
  exact Func.Resumes.body_safe observerSafe known.1 localSound awaited

/-- The outermost frame is one that the function or the top level recorded which is entered. -/
def Machine.Awaits (strategy : Strategy) (m : Machine) (func : Func) (callee : Option ClosureId) :
    Prop :=
  m.mode = .restoring → ∃ paused frame saved label, Activation.Known strategy paused m.store ∧
    paused.func = func ∧ paused.callee = callee ∧ m.stack.outermost? = some (.call frame) ∧
    paused.captureFrame saved label = .call frame

theorem Machine.Awaits.awaited {func : Func} {callee : Option ClosureId} {m' : Machine}
    (awaits : m.Awaits strategy func callee) (sameFunc : act.func = func)
    (sameCallee : act.callee = callee)
    (mode : m'.mode = m.mode) (stack : m'.stack = m.stack) : act.Awaited m' := by
  intro restoring
  obtain ⟨paused, frame, saved, label, _, func, callee, outermost, recorded⟩ :=
    awaits (mode ▸ restoring)
  refine ⟨frame, stack ▸ outermost, ⟨paused, saved, label, ?_, ?_, recorded⟩, ?_⟩
  · rw [func, sameFunc]
  · rw [callee, sameCallee]
  · have layout : act.layoutLocals = paused.layoutLocals := by
      rw [Activation.layoutLocals, sameFunc, ← func, Activation.layoutLocals]
    cases recorded
    rw [layout, List.length_map]

/-- A closure is entered.  One that does not exist has no code. -/
theorem Eval.observeEnter_safe (observerSafe : w.Safe strategy) (sound : m.Sound strategy context)
    {newTarget : Value} (awaits : m.Awaits strategy (m.store.closure closure).func (some closure)) :
    (Eval.observeEnter w context closure this args newTarget).Safe strategy context m := by
  refine .read ?_
  rcases sound.closure closure with ⟨resumable, inRange⟩ | empty
  · have calm := m.store.enterScope_calm (m.store.closure closure).env args resumable.declared
    refine .changeStore sound calm (Eval.observeBody_safe observerSafe (sound.of_calm calm)
      ?_ rfl ?_)
    · refine ⟨resumable, fun id mem => ?_⟩
      cases mem
      exact ⟨Nat.lt_of_lt_of_le inRange calm.size_le, congrArg Closure.func
        (calm.closure_eq inRange)⟩
    · exact awaits.awaited rfl rfl rfl rfl
  · have calm : m.store.Calm (Func.Resumes strategy)
        (m.store.enterScope (m.store.closure closure).func (m.store.closure closure).env
            args).2 := by
      refine m.store.enterScope_calm _ args ?_
      rw [empty]
      exact fun f mem => nomatch mem
    refine .changeStore sound calm (.noted ⟨awaits.awaited rfl rfl rfl rfl, trivial⟩ rfl ?_)
    have nothing : ∀ act m', (Observed.inActivation act
        (Stmt.observeList w context (m.store.closure closure).func.body)) m' =
          (.ok .undefined m', []) := by
      rw [empty]
      exact fun _ _ => rfl
    exact .of_eq (nothing _ _) (fun _ mem => (nomatch mem)) (fun _ _ mem => (nomatch mem))
      (.refl (sound.of_calm calm))

theorem Eval.observeTop_safe (observerSafe : w.Safe strategy) (sound : m.Sound strategy context)
    {top : Func} (resumable : top.Resumes strategy) (awaits : m.Awaits strategy top none) :
    (Eval.observeTop w context top).Safe strategy context m := by
  have calm := m.store.hoist_calm Store.globals resumable.declared
  refine .modify ⟨sound.of_calm calm, calm, id, id⟩ ?_
  refine Eval.observeBody_safe observerSafe (sound.of_calm calm) ⟨resumable, fun _ mem => ?_⟩ rfl ?_
  · cases mem
  · exact awaits.awaited rfl rfl rfl rfl

end Entry

/-! ## Calls and constructions -/

section Actions

variable {strategy : Strategy} {w : Observer} {context : Context} {m : Machine}

/-- In normal mode no frame is awaited. -/
theorem Machine.awaits_of_normal {func : Func} {callee : Option ClosureId}
    (normal : m.mode = .normal) : m.Awaits strategy func callee := by
  intro restoring
  rw [normal] at restoring
  cases restoring

theorem Machine.Sound.continuation (sound : m.Sound strategy context) (id : ContinuationId) :
    (m.store.continuation id).Fits strategy m.store := by
  unfold Store.continuation
  rw [Array.getD_eq_getD_getElem?]
  cases found : m.store.continuations[id.index]? with
  | none => exact .empty
  | some stack => exact sound.continuations stack (Array.mem_of_getElem? found)

theorem Eval.observeCall_safe (observerSafe : w.Safe strategy) (sound : m.Sound strategy context)
    (normal : m.mode = .normal) (func this : Value) (args : List Value) :
    (Eval.observeCall w context func this args).Safe strategy context m := by
  have still : ∀ {α : Type} {x : Eval α}, x.Still → (Observed.lift x).Safe strategy context m :=
    fun still => (Observed.Quiet.lift still.quiet).safe sound
  refine Eval.observeCall_cases (·.Safe strategy context m) still (fun _ =>
    Eval.observeEnter_safe observerSafe sound (Machine.awaits_of_normal normal)) (fun _ =>
      Eval.observeCapture_safe observerSafe sound normal trivial) ?_
      (Observed.Safe.unwind sound trivial) fun id => ?_
  · show (Observed.lift (Eval.displayList w.engine.bound args >>= _)).Safe strategy context m
    rw [Observed.lift_bind]
    refine .bind (still (Eval.still.displayList args)) fun line m' kept => ?_
    exact Observed.Meets.lift ⟨{ kept.sound with runs := kept.sound.runs }, .refl _, id, id⟩
  · have fits : (m.store.continuation id).Fits strategy m.store := sound.continuation id
    exact Observed.Meets.lift ⟨.refl sound, fits.pushInner trivial, .pushInner _ _⟩

/-- A construction without a frame. -/
theorem Eval.observeConstruct_safe (observerSafe : w.Safe strategy)
    (sound : m.Sound strategy context) (normal : m.mode = .normal) (callee : Value)
    (args : List Value) :
    (Eval.observeConstruct w context callee args).Safe strategy context m := by
  have still : ∀ {α : Type} {x : Eval α}, x.Still → (Observed.lift x).Safe strategy context m :=
    fun still => (Observed.Quiet.lift still.quiet).safe sound
  refine Eval.observeConstruct_cases (·.Safe strategy context m) still fun id =>
    .bind (still (Eval.makeInstance_still id)) fun this m' kept => ?_
  refine .bind ?_ fun result m'' kept' => .pure kept'.sound
  exact Eval.observeEnter_safe observerSafe kept.sound
    (Machine.awaits_of_normal (kept.normal normal))

/-- Frames that are kept for calls in progress, where the strategy keeps them. -/
theorem Eval.changeKept_meets (sound : m.Sound strategy context) (context' : Context)
    {f : Stack → Stack} (fits : (f m.shadow).Fits strategy m.store)
    (calls : strategy = .eager → (f m.shadow).points = context'.map some)
    {delivery : Delivery Machine}
    {unwound : Unwind → Machine → Prop} :
    (Observed.lift (Eval.changeKept strategy f)).Meets strategy delivery m
      (fun _ m' => m.Kept strategy context' m' ∧ m'.mode = m.mode) unwound := by
  unfold Eval.changeKept
  split
  · exact .lift ⟨.shadow sound fits calls, rfl⟩
  · rename_i notEager
    exact .pure ⟨⟨{ sound with calls := fun eager => absurd eager notEager }, .refl _, id, id⟩, rfl⟩

/-- A construction ends as its constructor does, with its frame in a capture. -/
theorem Eval.settleFramed_safe (sound : m.Sound strategy context) {frame : Frame}
    {result : Except Unwind Value} (frameFits : frame.Fits strategy m.store)
    (fits : ∀ reason, result = .error reason → reason.Fits strategy m) :
    (Observed.lift (Eval.settleFramed strategy frame this result)).Safe strategy context m := by
  cases result with
  | error reason =>
    have reasonFits := fits reason rfl
    cases reason with
    | signal signal =>
      cases signal with
      | capture handler stack =>
        have stackFits : (if strategy = .lazy then stack.pushOuter frame else stack).Fits strategy
            m.store := by
          split
          · exact reasonFits.2.2.pushOuter frameFits
          · exact reasonFits.2.2
        exact Observed.Meets.lift ⟨.refl sound, reasonFits.1, reasonFits.2.1, stackFits⟩
      | restore stack => exact Observed.Safe.unwind sound reasonFits
      | discard replacement => exact Observed.Safe.unwind sound reasonFits
    | throw value => exact Observed.Safe.unwind sound reasonFits
    | fault fault => exact Observed.Safe.unwind sound reasonFits
  | ok value =>
    refine Observed.Meets.lift ?_
    rw [Eval.settleFramed, Run.read_bind]
    split
    · rename_i collecting
      exact .collect sound (Bool.and_eq_true_iff.mp collecting).2 frameFits
    · exact .refl sound

/-- A capture is given the frame of the construction, unless it has it already. -/
theorem Eval.settleFramed_capture {function : String} {handler : CaptureHandler} {raised : Context}
    {stack : Stack} (unwinds : strategy.unwinds = true)
    (tells : stack.Tells strategy (⟨function, 0⟩ :: context) raised) :
    ∃ stack' shadow, (do
        Observed.lift (Eval.changeKept strategy (·.dropInner))
        .lift (Eval.settleFramed strategy (Eval.constructionFrame closure args function this) this
          (.error (.signal (.capture handler stack))))) m =
        (.unwind (.signal (.capture handler stack')) { m with shadow }, []) ∧
      stack'.Tells strategy context raised := by
  cases strategy with
  | eager => exact ⟨stack, m.shadow.dropInner, rfl, tells⟩
  | lazy =>
    refine ⟨stack.pushOuter (Eval.constructionFrame closure args function this), m.shadow, rfl, ?_⟩
    rw [Stack.Tells] at tells ⊢
    rw [tells, Stack.points_pushOuter]
    simp [Eval.constructionFrame, Frame.point?]
  | retval => cases unwinds
  | fudge => cases unwinds

/-- The object of a construction is made, or is in the frame that is taken. -/
def Machine.AwaitsConstruction (m : Machine) (closure : ClosureId) (args : List Value) : Prop :=
  m.mode = .restoring → ∃ function this,
    m.stack.outermost? = some (Eval.constructionFrame closure args function this)

theorem Eval.instance_meets (sound : m.Sound strategy context)
    (awaits : m.AwaitsConstruction closure args) (name : String) :
    (Observed.lift (if m.mode = .restoring then Eval.takeInstance name
      else Eval.makeInstance closure)).Meets strategy (Machine.Delivered strategy context) m
        (fun _ m' => m.Kept strategy context m' ∧ m'.mode = m.mode)
        (fun reason m' => m.Kept strategy context m' ∧ reason.Fits strategy m') := by
  split
  · rename_i restoring
    obtain ⟨function, this, outermost⟩ := awaits restoring
    have taken : Eval.takeInstance name m = .ok this { m with stack := m.stack.dropOuter } := by
      show Run.bind (Eval.takeFrame name) _ m = _
      rw [Run.bind, Eval.takeFrame_call outermost]
      rfl
    have soundAfter : { m with stack := m.stack.dropOuter }.Sound strategy context :=
      { sound with
        stack := sound.stack.dropOuter
        topped := fun _ => (sound.topped restoring).dropOuter outermost
        room := fun restoring idle => (sound.room restoring idle).dropOuter }
    refine Observed.Meets.lift ?_
    rw [taken]
    exact ⟨⟨soundAfter, .refl _, id, id⟩, rfl⟩
  · refine ((Observed.Quiet.lift (Eval.makeInstance_still closure).quiet).meets sound).weaken ?_
      fun _ _ ends => ends
    intro this m' undisturbed
    refine ⟨undisturbed.kept sound, ?_⟩
    obtain ⟨store, rfl, _⟩ := undisturbed
    rfl

/-- A construction with a frame of its own.  In restoring mode it goes on with the next frame, and
does not enter its constructor by itself. -/
theorem Eval.observeFramed_safe (observerSafe : w.Safe strategy) (sound : m.Sound strategy context)
    (framed : strategy ≠ .fudge) (awaits : m.AwaitsConstruction closure args) :
    (Eval.observeFramed w context closure args).Safe strategy context m := by
  refine .noted ⟨fun restoring => ?_, trivial⟩ rfl (.read (.read ?_))
  · obtain ⟨function, this, outermost⟩ := awaits restoring
    exact ⟨_, outermost, ⟨function, this, rfl⟩, rfl⟩
  · refine Observed.Meets.bind (Eval.instance_meets sound awaits _) ?_
    rintro this m₁ ⟨kept₁, mode₁⟩
    refine Observed.Safe.after (.read ?_) kept₁
    rw [kept₁.sound.runs]
    generalize "new " ++ (m.store.closure closure).func.displayName = function
    have frameFits : ∀ store, (Eval.constructionFrame closure args function this).Fits strategy
        store :=
      fun store => .construction framed
    have pushed := kept₁.sound.shadow.pushInner (frameFits m₁.store)
    refine Observed.Meets.bind
      (Eval.changeKept_meets kept₁.sound (⟨function, 0⟩ :: context) pushed fun eager => ?_) ?_
    · rw [Stack.points_pushInner, kept₁.sound.calls eager]
      rfl
    rintro _ m₂ ⟨kept₂, mode₂⟩
    have mode : m₂.mode = m.mode := mode₂.trans mode₁
    -- the constructor, or the next frame
    have entered : (if m.mode = .restoring then Eval.observeReenterNext w (⟨function, 0⟩ :: context)
        else Eval.observeEnter w (⟨function, 0⟩ :: context) closure this args
          (.closure closure)).Safe strategy (⟨function, 0⟩ :: context) m₂ := by
      split
      · rename_i restoring
        exact Eval.observeReenterNext_safe observerSafe kept₂.sound (mode.trans restoring)
      · rename_i notRestoring
        refine Eval.observeEnter_safe observerSafe kept₂.sound fun restoring => ?_
        exact absurd (mode.symm.trans restoring) notRestoring
    -- however it ends, the frame is let go
    have finish : ∀ (result : Except Unwind Value) m₃, m₂.Kept strategy
        (⟨function, 0⟩ :: context) m₃ → (∀ reason, result = .error reason →
          reason.Fits strategy m₃) →
        (do
          Observed.lift (Eval.changeKept strategy (·.dropInner))
          .lift (Eval.settleFramed strategy (Eval.constructionFrame closure args function this) this
            result)).Safe strategy context m₃ := by
      intro result m₃ kept₃ fits
      refine Observed.Meets.bind
        (Eval.changeKept_meets kept₃.sound context kept₃.sound.shadow.dropInner fun eager => ?_) ?_
      · rw [Stack.points_dropInner, kept₃.sound.calls eager]
        rfl
      rintro _ m₄ ⟨kept₄, _⟩
      refine Observed.Safe.after (Eval.settleFramed_safe kept₄.sound (frameFits _) ?_) kept₄
      exact fun reason h => (fits reason h).mono kept₄
    refine Observed.Safe.after (Observed.Meets.attempt entered (fun value m₃ kept₃ => ?_)
      (fun reason m₃ ends => ?_) ?_) kept₂
    · exact (finish (.ok value) m₃ kept₃ (fun _ h => nomatch h)).after kept₃
    · exact (finish (.error reason) m₃ ends.1 (fun _ h => Except.error.inj h ▸ ends.2)).after ends.1
    · rintro unwinds raised handler m₃ _ _ _ ⟨stack, shadow, rfl, rfl, tells⟩
      obtain ⟨stack', shadow', eq, tells'⟩ := Eval.settleFramed_capture unwinds tells
      exact ⟨_, _, [], eq, fun _ mem => (nomatch mem), stack', shadow', rfl, rfl, tells'⟩

theorem Eval.observeNew_safe (observerSafe : w.Safe strategy) (sound : m.Sound strategy context)
    (callee : Value) (args : List Value)
    (ready : m.mode = .normal ∨ strategy ≠ .fudge ∧ ∃ closure, callee = .closure closure ∧
      m.AwaitsConstruction closure args) :
    (Eval.observeNew w context callee args).Safe strategy context m := by
  cases callee with
  | closure closure =>
    refine .read ?_
    rw [sound.runs]
    by_cases fudge : strategy = .fudge
    · rw [if_pos fudge]
      rcases ready with normal | ⟨framed, _⟩
      · exact Eval.observeConstruct_safe observerSafe sound normal _ args
      · exact absurd fudge framed
    · rw [if_neg fudge]
      refine Eval.observeFramed_safe observerSafe sound fudge ?_
      rcases ready with normal | ⟨_, _, same, awaits⟩
      · intro restoring
        rw [normal] at restoring
        cases restoring
      · cases same
        exact awaits
  | _ =>
    rcases ready with normal | ⟨_, _, isClosure, _⟩
    · rw [Eval.observeNew]
      · exact Eval.observeConstruct_safe observerSafe sound normal _ args
      · simp
    · cases isClosure

/-! ## Actions -/

/-- The outermost frame is entered by what recorded it. -/
theorem CallFrame.Recorded.resume_safe (observerSafe : w.Safe strategy)
    (sound : m.Sound strategy context) (recorded : frame.Recorded strategy m.store)
    (outermost : m.stack.outermost? = some (.call frame)) :
    (frame.resume.observe w context).Safe strategy context m := by
  cases recorded with
  | @activation act saved label _ known recorded =>
    have resume : frame.resume = act.reenter saved := by
      cases recorded
      rfl
    have awaits : ∀ callee, act.callee = callee → m.Awaits strategy act.func callee :=
      fun callee h _ => ⟨act, frame, saved, label, known, rfl, h, outermost, recorded⟩
    rw [resume, Activation.reenter, Activation.invoke]
    cases callee : act.callee with
    | some closure =>
      refine .noted ⟨trivial, trivial⟩ rfl (Eval.observeEnter_safe observerSafe sound ?_)
      rw [(known.2 closure callee).2]
      exact awaits _ callee
    | none =>
      exact .noted ⟨trivial, trivial⟩ rfl (Eval.observeTop_safe observerSafe sound known.1
        (awaits _ callee))
  | @construction closure args function this framed =>
    refine .noted ⟨trivial, trivial⟩ rfl (Eval.observeNew_safe observerSafe sound _ args
      (.inr ⟨framed, closure, rfl, ?_⟩))
    exact fun _ => ⟨function, this, outermost⟩

theorem Action.observe_safe (observerSafe : w.Safe strategy) (sound : m.Sound strategy context)
    {action : Action} (performable : action.Performable strategy m) :
    (action.observe w context).Safe strategy context m := by
  rcases performable with ⟨normal, startable⟩ | ⟨restoring, rfl | ⟨frame, outermost, rfl⟩⟩
  · cases action with
    | value v => exact .noted ⟨trivial, trivial⟩ rfl (.pure sound)
    | throw v => exact .noted ⟨trivial, trivial⟩ rfl (Observed.Meets.lift ⟨.refl sound, trivial⟩)
    | call func this args =>
      exact .noted ⟨trivial, trivial⟩ rfl (Eval.observeCall_safe observerSafe sound normal func
        this args)
    | enter closure this args newTarget =>
      refine .noted ⟨trivial, trivial⟩ rfl (Eval.observeEnter_safe observerSafe sound ?_)
      exact Machine.awaits_of_normal normal
    | enterTop top =>
      refine .noted ⟨trivial, trivial⟩ rfl (Eval.observeTop_safe observerSafe sound startable ?_)
      exact Machine.awaits_of_normal normal
    | construct callee args =>
      exact .noted ⟨trivial, trivial⟩ rfl (Eval.observeConstruct_safe observerSafe sound normal
        callee args)
    | handleNew callee args =>
      exact .noted ⟨trivial, trivial⟩ rfl (Eval.observeNew_safe observerSafe sound callee args
        (.inl normal))
    | safePoint =>
      exact .noted ⟨trivial, normal⟩ rfl (Eval.observeSafePoint_safe observerSafe sound normal)
    | reenterNext => exact startable.elim
    | sequence actions => exact startable.elim
  · exact .noted ⟨trivial, trivial⟩ rfl (Eval.observeReenterNext_safe observerSafe sound restoring)
  · have recorded := sound.stack _ (Stack.mem_of_outermost outermost)
    exact CallFrame.Recorded.resume_safe observerSafe sound recorded outermost

/-- Within any bound, everything that a machine can be asked to do keeps the invariant. -/
theorem observer_safe (bound depth : Nat) : (observer bound depth).1.Safe strategy := by
  induction depth with
  | zero => exact fun _ _ _ _ _ => Observed.Meets.lift trivial
  | succ depth ih => exact fun _ _ _ sound performable => Action.observe_safe ih sound performable

end Actions

end Resumable
