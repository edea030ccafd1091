import Resumable.Proofs.Budget

/-!
Functions and actions within a budget.

A function that is entered has less to take from than whoever entered it: in normal mode less depth,
and no call at all once the depth is used up; in restoring mode one frame less as well.  An action
that enters no function passes the budget on.  `Action.observe_begins` says so of every action.
-/

namespace Resumable

section Captures

variable {strategy : Strategy} {options : RunOptions} {b : Budget} {w : Observer}
  {context : Context} {m : Machine} {allowed : Event → Prop}

/-- A capture is begun.  It leaves the depth as it is. -/
theorem Eval.observeCapture_keeps (keeps : m.Keeps strategy options b) {handler : CaptureHandler}
    (handlerCode : handler.OfCode (Func.Measured strategy))
    (told : ∀ m, allowed (.raise context handler m)) :
    (Eval.observeCapture w context handler).Keeps strategy options b allowed m := by
  have runs := keeps.hosts.runs
  have eq : Eval.observeCapture w context handler m =
      (Eval.raiseCapture w.engine handler m, [.raise context handler m]) :=
    Eval.observeCapture_eq fun func fudge => absurd (runs.symm.trans fudge) keeps.captures
  refine .of_eq eq (List.forall_mem_singleton.mpr (told m)) ?_
  cases strategy with
  | eager =>
    rw [Eval.raiseCapture_eager runs]
    exact ⟨{ keeps with hosts := { keeps.hosts with } }, handlerCode, keeps.hosts.shadow⟩
  | lazy =>
    rw [Eval.raiseCapture_lazy runs]
    exact ⟨{ keeps with hosts := { keeps.hosts with } }, handlerCode, .empty⟩
  | retval =>
    rw [Eval.raiseCapture_retval runs]
    exact { keeps with
      hosts := { keeps.hosts with
        stack := .empty
        handler := fun held mem => Option.some.inj mem ▸ handlerCode }
      frames := fun _ => Nat.zero_le _ }
  | fudge => exact absurd rfl keeps.captures

theorem Eval.observeSafePoint_keeps (keeps : m.Keeps strategy options b)
    (told : ∀ m, allowed (.raise context .yield m)) :
    (Eval.observeSafePoint w context).Keeps strategy options b allowed m := by
  have counted : ∀ countdown, { m with countdown }.Keeps strategy options b :=
    fun _ => { keeps with hosts := { keeps.hosts with } }
  refine .read ?_
  split
  · exact .pure keeps
  · refine .read ?_
    simp only
    split
    · exact .modify (.pure (counted _))
    · exact .modify (Eval.observeCapture_keeps (counted _) trivial told)

end Captures

/-! ## The entry of a function -/

/-- A function is entered. -/
def Event.isBody : Event → Bool
  | .body _ _ => true
  | _ => false

/-- A function is entered, and what is begun in it is within so much. -/
def Event.Inside (strategy : Strategy) (options : RunOptions) (n : Nat) (event : Event) : Prop :=
  event.isBody = true ∨ event.Within strategy options ⟨false, n, n⟩

/-- In restoring mode there is a frame for whatever is entered. -/
def Machine.Awaited (m : Machine) : Prop :=
  m.mode = .restoring → 1 ≤ m.stack.length

section Entry

variable {strategy : Strategy} {options : RunOptions} {b b' : Budget} {w : Observer}
  {context : Context} {l : Local} {m : Machine} {allowed : Event → Prop}

theorem Func.Measured.declared {f : Func} (measured : f.Measured strategy) :
    ∀ g ∈ Stmt.declaredList f.body, g.Measured strategy := by
  cases measured with
  | @intro _ opening body closing bare closed bodyEq dual _ =>
    rw [bodyEq]
    refine Stmt.declaredList_code (List.forall_mem_append.mpr ⟨?_, ?_⟩)
    · rcases bare with rfl | rfl
      · exact List.forall_mem_nil _
      · exact List.forall_mem_singleton.mpr (List.forall_mem_nil _)
    · refine List.forall_mem_cons.mpr ⟨List.forall_mem_nil _, ?_⟩
      refine List.forall_mem_cons.mpr ⟨List.forall_mem_nil _, ?_⟩
      refine List.forall_mem_append.mpr ⟨fun s mem => (dual s mem).declared_code, ?_⟩
      refine List.forall_mem_cons.mpr ⟨List.forall_mem_nil _, ?_⟩
      rcases closed with rfl | rfl
      · exact List.forall_mem_nil _
      · exact List.forall_mem_singleton.mpr (List.forall_mem_nil _)

/-- The call is counted.  In normal mode it is given up where no depth is left for the calls inside
of it. -/
theorem Stmt.stackDec_tells (here : l.Keeps strategy options b) :
    (Stmt.stackDec.observe w context).Tells (Event.Within strategy options b') l
      (fun completion l' => completion = .return .undefined ∧ l'.Keeps strategy options b ∨
        completion = .normal ∧ l'.Keeps strategy options { b with depth := b.depth - 1 } ∧
          (l.machine.mode = .normal → 0 < b.depth - 1) ∧ l'.machine.mode = l.machine.mode ∧
            l'.machine.stack = l.machine.stack)
      (fun reason l' => l'.Keeps strategy options b ∧ reason.OfCode (Func.Measured strategy)) := by
  obtain ⟨left, remaining, le⟩ := here.machine.depth
  have counted : { l.machine with remaining := some (left - 1) }.Keeps strategy options
      { b with depth := b.depth - 1 } :=
    { here.machine with
      hosts := { here.machine.hosts with }
      depth := ⟨left - 1, rfl, Int.sub_le_sub_right le 1⟩ }
  have given : ∀ {m : Machine}, m.Keeps strategy options { b with depth := b.depth - 1 } →
      Local.Keeps strategy options b ⟨l.act, m⟩ :=
    fun keeps => here.of_machine (keeps.widen (Int.sub_le_self _ (by decide)) (Nat.le_refl _) id)
  have counts : (Observed.ofEval fun act => Eval.observeCountCall w context act.startAgain).Tells
      (Event.Within strategy options b') l
      (fun isCutOff l' => isCutOff = true ∧ l'.Keeps strategy options b ∨
        isCutOff = false ∧ l'.Keeps strategy options { b with depth := b.depth - 1 } ∧
          (l.machine.mode = .normal → 0 < b.depth - 1) ∧ l'.machine.mode = l.machine.mode ∧
            l'.machine.stack = l.machine.stack)
      (fun reason l' => l'.Keeps strategy options b ∧ reason.OfCode (Func.Measured strategy)) := by
    refine .ofEval (.read ?_)
    rw [remaining]
    refine .modify (.read (.read ?_))
    split
    · rename_i goesOn
      refine .pure (.inr ⟨rfl, here.of_machine counted, fun normal => ?_, rfl, rfl⟩)
      simp only [Bool.or_eq_true, decide_eq_true_eq] at goesOn
      rcases goesOn with (positive | notNormal) | fudge
      · omega
      · exact absurd normal notNormal
      · exact absurd (here.machine.hosts.runs.symm.trans fudge) here.machine.captures
    · have captured : (Eval.observeCapture w context (.reenter l.act.startAgain)).Keeps
          strategy options { b with depth := b.depth - 1 } (Event.Within strategy options b')
          { l.machine with remaining := some (left - 1) } :=
        Eval.observeCapture_keeps counted (Activation.invoke_ofCode here.code _ _) fun _ => trivial
      refine .bind (.discard (captured.weaken (fun _ _ keeps => given keeps) fun _ _ ends => ?_))
        fun _ m kept => ?_
      · exact ⟨given ends.1, ends.2⟩
      · exact .pure (.inl ⟨rfl, kept⟩)
  rw [Stmt.observe]
  refine .noted trivial (.bind counts ?_)
  rintro isCutOff l' (⟨rfl, kept⟩ | ⟨rfl, kept⟩)
  · exact .pure (.inl ⟨rfl, kept⟩)
  · exact .pure (.inr ⟨rfl, kept⟩)

/-- The outermost frame is taken, if it is one of a call. -/
theorem Eval.takeFrame_keeps (keeps : m.Keeps strategy options b) (restoring : m.mode = .restoring)
    (function : String) :
    (Observed.lift (Eval.takeFrame function)).Tells allowed m
      (fun _ m' => m' = { m with stack := m.stack.dropOuter })
      (fun reason m' => m'.Keeps strategy options b ∧ reason.OfCode (Func.Measured strategy)) := by
  refine .lift ?_
  rw [Eval.takeFrame, Run.read_bind]
  rcases m.stack.outermost? with _ | (action | frame)
  · exact ⟨keeps, trivial⟩
  · exact ⟨(keeps.dropOuter restoring).widen (Int.le_refl _) (Nat.sub_le _ _) id, trivial⟩
  · exact rfl

/-- In restoring mode a frame is taken. -/
theorem Stmt.restoreFrame_tells (here : l.Keeps strategy options b)
    (restoring : l.machine.mode = .restoring) : (Stmt.restoreFrame.observe w context).Tells
      (Event.Within strategy options b') l (fun completion l' => completion = .normal ∧
        l'.Keeps strategy options { b with frames := b.frames - 1 })
      (fun reason l' => l'.Keeps strategy options b ∧ reason.OfCode (Func.Measured strategy)) := by
  have popped := here.machine.dropOuter restoring
  have taken : (Observed.lift Exec.takeFrame).Tells (Event.Within strategy options b') l
      (fun _ l' => l'.Keeps strategy options { b with frames := b.frames - 1 })
      (fun reason l' => l'.Keeps strategy options b ∧ reason.OfCode (Func.Measured strategy)) := by
    rw [Exec.takeFrame, Observed.lift_bind, Observed.lift_ofEval]
    have first : (Observed.ofEval fun act => .lift (Eval.takeFrame act.func.displayName)).Tells
        (Event.Within strategy options b') l
        (fun _ l' => l' = ⟨l.act, { l.machine with stack := l.machine.stack.dropOuter }⟩)
        (fun reason l' => l'.Keeps strategy options b ∧ reason.OfCode (Func.Measured strategy)) :=
      .ofEval ((Eval.takeFrame_keeps here.machine restoring _).weaken (fun _ _ same => by rw [same])
        fun _ _ ends => ⟨here.of_machine ends.1, ends.2⟩)
    refine .bind first fun frame l₁ same => .lift ?_
    rw [same, Run.read_bind]
    split
    · exact ⟨here.of_machine (popped.widen (Int.le_refl _) (Nat.sub_le _ _) id), trivial⟩
    · exact ⟨popped.of_calm ((Store.declareAll_calm _ _ _).trans (Store.declareAll_calm _ _ _)),
        here.code, here.caught⟩
  rw [Stmt.observe, Stmt.exec, Observed.lift_bind]
  refine .noted trivial (.bind ?_ fun _ l' kept => .pure ⟨rfl, kept⟩)
  rw [Exec.restoreFrame, Observed.lift_bind]
  refine .read ?_
  rw [if_pos restoring]
  exact taken

/-- The end of the body, where the depth is given back. -/
theorem Stmt.closing_tells {closing : List Stmt}
    (closed : closing = [] ∨ closing = [.guarded (.ident newTargetLocal) (.returnS (some .this))])
    (here : l.Keeps strategy options b) :
    (Stmt.observeList w context closing).Tells (Event.Within strategy options b') l
      (fun _ l' => l'.Keeps strategy options b)
      (fun reason l' => l'.Keeps strategy options b ∧ reason.OfCode (Func.Measured strategy)) := by
  have test : (Expr.observeTest w context (.ident newTargetLocal)).Tells
      (Event.Within strategy options b') l (fun _ l' => l'.Keeps strategy options b)
      (fun reason l' => l'.Keeps strategy options b ∧ reason.OfCode (Func.Measured strategy)) := by
    have quiet : (do return (← (Expr.ident newTargetLocal).observe w context l.act).isTruthy).Quiet
        (Func.Measured strategy) := .bind (Expr.Quiet.observe .ident) fun _ => .pure _
    exact .ofEval ((quiet.tells here.machine).weaken (fun _ _ ends => here.of_machine ends.2)
      fun _ _ ends => ⟨here.of_machine ends.1, ends.2⟩)
  rcases closed with rfl | rfl
  · exact .pure here
  · rw [Stmt.observeList_singleton, Stmt.guarded, Stmt.observe]
    refine .noted trivial (.bind test fun holds l₁ here₁ => ?_)
    cases holds with
    | false => exact .pure here₁
    | true =>
      refine Observed.Tells.weaken (Stmt.plainReturn_tells (fun e mem => ?_) here₁)
        (fun _ _ ends => ends.2) fun _ _ ends => ends
      cases mem
      exact .this

section Bodies

variable {body closing : List Stmt} (observes : w.Within strategy options)
  (closed : closing = [] ∨ closing = [.guarded (.ident newTargetLocal) (.returnS (some .this))])
  (dual : ∀ s ∈ body, s.Dual strategy (Func.Measured strategy) false)
  (settles : Stmt.settlesLastList false body = true)

include observes closed dual settles

/-- What follows the entry of a function. -/
theorem Stmt.measured_tells (context : Context) {exit : Int} (le : b.depth + 1 ≤ exit)
    (here : l.Keeps strategy options b) : (Stmt.observeList w context
      (body ++ .stackInc :: closing)).Tells (Event.Within strategy options b) l (fun _ l' =>
      Local.Returns strategy options b exit l')
      (fun reason l' => l'.Keeps strategy options { b with depth := exit } ∧
        reason.OfCode (Func.Measured strategy)) := by
  have le' : b.depth ≤ exit := Int.le_trans (Int.le_add_of_nonneg_right (by decide)) le
  have given : ∀ {l : Local}, l.Keeps strategy options { b with depth := b.depth + 1 } →
      l.Keeps strategy options { b with depth := exit } :=
    fun keeps => keeps.widen le (Nat.le_refl _) id
  have walked : (Stmt.observeList w context body).WithinBody strategy options b exit l :=
    Stmt.list_within settles dual (fun _ => le) (fun s mem settles l' here' =>
      (dual s mem).within observes settles le' (fun _ => le) nofun here') here
  rw [Stmt.observeList_append]
  refine .bind walked fun completion l₁ left => ?_
  cases completion with
  | normal =>
    refine .bind ((Stmt.stackInc_tells left).weaken (fun _ _ ends => ends) fun _ _ ends =>
      ends.elim) ?_
    rintro _ l₂ ⟨rfl, here₂⟩
    exact (Stmt.closing_tells closed here₂).weaken (fun _ _ keeps => .inl (given keeps))
      fun _ _ ends => ⟨given ends.1, ends.2⟩
  | «return» value => exact .pure left
  | _ => exact .pure (.inl (left.later le'))

/-- In normal mode there is depth left for the calls inside of the function. -/
theorem Stmt.measured_normal {n : Nat} (depth : b.depth ≤ n + 1) (normal : l.machine.mode = .normal)
    (left : 0 < b.depth - 1) (here : l.Keeps strategy options { b with depth := b.depth - 1 }) :
    (Stmt.observeList w context (.restoreFrame :: (body ++ .stackInc :: closing))).Tells
      (Event.Within strategy options ⟨false, n, n⟩) l (fun _ l' =>
        l'.machine.Keeps strategy options b)
      (fun reason l' => l'.machine.Keeps strategy options b ∧
          reason.OfCode (Func.Measured strategy)) := by
  have nothing : (Stmt.restoreFrame.observe w context).Tells (Event.Within strategy options ⟨false,
      n, n⟩) l (fun completion l' => completion = .normal ∧ l' = l)
      (fun reason l' => l'.machine.Keeps strategy options b ∧
          reason.OfCode (Func.Measured strategy)) := by
    rw [Stmt.observe, Stmt.exec, Exec.restoreFrame, bind_assoc, Observed.lift_bind]
    refine .noted trivial (.read ?_)
    rw [normal]
    exact .lift ⟨rfl, rfl⟩
  have entered := here.machine.entered normal
  have back : ∀ {frames} {m : Machine}, m.Keeps strategy options ⟨true, b.depth, frames⟩ →
      m.Keeps strategy options b :=
    fun keeps => keeps.of_normal (Int.le_refl _) (keeps.normal rfl) entered
  have inside : l.Keeps strategy options ⟨true, b.depth - 1, 1⟩ :=
    ⟨here.machine.of_normal (Int.le_refl _) normal (Nat.le_refl _), here.code, here.caught⟩
  refine .bind nothing ?_
  rintro _ _ ⟨rfl, rfl⟩
  have walked := Stmt.measured_tells observes closed dual settles context
    (Int.le_of_eq (Int.sub_add_cancel b.depth 1)) inside
  refine (walked.allow fun event within => within.widen ?_ ?_ (by simp)).weaken ?_
    fun reason l' ends => ⟨back ends.1.machine, ends.2⟩
  · simp only
    omega
  · simp only
    omega
  · rintro _ l' (keeps | ⟨_, keeps⟩)
    · exact back keeps.machine
    · exact back keeps.machine

/-- In restoring mode a frame is taken. -/
theorem Stmt.measured_restoring {n : Nat} (depth : b.depth ≤ n + 1) (frames : b.frames ≤ n + 1)
    (restoring : l.machine.mode = .restoring) (awaited : l.machine.Awaited)
    (here : l.Keeps strategy options { b with depth := b.depth - 1 }) :
    (Stmt.observeList w context (.restoreFrame :: (body ++ .stackInc :: closing))).Tells
      (Event.Within strategy options ⟨false, n, n⟩) l (fun _ l' =>
        l'.machine.Keeps strategy options b)
      (fun reason l' => l'.machine.Keeps strategy options b ∧
          reason.OfCode (Func.Measured strategy)) := by
  have positive : 1 ≤ b.frames := Nat.le_trans (awaited restoring) (here.machine.frames restoring)
  have later : ∀ {m : Machine}, m.Keeps strategy options { b with depth := b.depth - 1 } →
      m.Keeps strategy options b :=
    fun keeps => keeps.widen (Int.sub_le_self _ (by decide)) (Nat.le_refl _) id
  refine .bind ((Stmt.restoreFrame_tells here restoring).weaken (fun _ _ ends => ends)
    fun _ _ ends => ⟨later ends.1.machine, ends.2⟩) ?_
  rintro _ l₁ ⟨rfl, here₁⟩
  have walked := Stmt.measured_tells observes closed dual settles context
    (Int.le_of_eq (Int.sub_add_cancel b.depth 1)) here₁
  refine (walked.allow fun event within => within.widen ?_ ?_ (by simp)).weaken ?_
    fun reason l' ends => ⟨?_, ends.2⟩
  · simp only
    omega
  · simp only
    omega
  · rintro _ l' (keeps | ⟨_, keeps⟩)
    · exact keeps.machine.widen (Int.le_refl _) (Nat.sub_le _ _) id
    · exact keeps.machine.widen (Int.le_refl _) (Nat.le_of_eq (Nat.sub_add_cancel positive)) id
  · exact ends.1.machine.widen (Int.le_refl _) (Nat.sub_le _ _) id

end Bodies

section

variable (observes : w.Within strategy options) {n : Nat} (depth : b.depth ≤ n + 1)
  (frames : b.frames ≤ n + 1)

include observes depth frames

/-- A function is entered.  What it begins is within less than there is where it is entered, and as
much is there again when it is left. -/
theorem Func.Measured.body_tells (here : l.Keeps strategy options b) (awaited : l.machine.Awaited) :
    (Stmt.observeList w context l.act.func.body).Tells (Event.Within strategy options ⟨false,
      n, n⟩) l (fun _ l' => l'.machine.Keeps strategy options b)
      (fun reason l' => l'.machine.Keeps strategy options b ∧
          reason.OfCode (Func.Measured strategy)) := by
  cases here.code with
  | @intro _ opening body closing bare closed bodyEq dual settles =>
    have counted : ∀ l₁ : Local, l₁.Keeps strategy options b → l₁.machine.Awaited →
        (Stmt.observeList w context (.stackDec :: .restoreFrame ::
          (body ++ .stackInc :: closing))).Tells (Event.Within strategy options ⟨false, n, n⟩) l₁
          (fun _ l' => l'.machine.Keeps strategy options b)
          (fun reason l' => l'.machine.Keeps strategy options b ∧
            reason.OfCode (Func.Measured strategy)) := by
      intro l₁ here₁ awaited₁
      refine .bind ((Stmt.stackDec_tells here₁).weaken (fun _ _ ends => ends) fun _ _ ends =>
        ⟨ends.1.machine, ends.2⟩) ?_
      rintro _ l₂ (⟨rfl, kept⟩ | ⟨rfl, kept, left, sameMode, sameStack⟩)
      · exact .pure kept.machine
      · cases mode : l₁.machine.mode with
        | normal =>
          exact Stmt.measured_normal observes closed dual settles depth (sameMode.trans mode)
            (left mode) kept
        | restoring =>
          refine Stmt.measured_restoring observes closed dual settles depth frames
            (sameMode.trans mode) (fun _ => ?_) kept
          rw [sameStack]
          exact awaited₁ mode
    rw [bodyEq]
    rcases bare with rfl | rfl
    · exact counted l here awaited
    · have opened : (Stmt.observe w context (.letS newTargetLocal (some .newTarget))).Tells
          (Event.Within strategy options ⟨false, n, n⟩) l
          (fun completion l' => completion = .normal ∧ l'.Keeps strategy options b ∧
            l'.machine.Awaited)
          (fun reason l' => l'.machine.Keeps strategy options b ∧
              reason.OfCode (Func.Measured strategy)) := by
        refine .of_eq rfl ?_ ⟨rfl, ?_, awaited⟩
        · exact List.forall_mem_cons.mpr ⟨trivial, List.forall_mem_singleton.mpr trivial⟩
        · exact here.of_machine (here.machine.of_calm (Store.declare_calm _ _ _ _))
      refine .bind opened ?_
      rintro _ l₁ ⟨rfl, here₁, awaited₁⟩
      exact counted l₁ here₁ awaited₁

/-- A body in a new activation. -/
theorem Eval.observeBody_tells {act : Activation} (code : act.func.Measured strategy)
    (caught : act.caught = none) (keeps : m.Keeps strategy options b) (awaited : m.Awaited) :
    (Eval.observeBody w context act act.func.body).Keeps strategy options b
      (Event.Inside strategy options n) m := by
  have here : Local.Keeps strategy options b ⟨act, m⟩ :=
    ⟨keeps, code, fun signal mem => by rw [caught] at mem; cases mem⟩
  have walked : (Stmt.observeList w context act.func.body).Tells (Event.Inside strategy options n)
      ⟨act, m⟩ (fun _ l => l.machine.Keeps strategy options b)
      (fun reason l => l.machine.Keeps strategy options b ∧
          reason.OfCode (Func.Measured strategy)) :=
    (Func.Measured.body_tells observes depth frames here awaited).allow fun _ => .inr
  refine .noted (.inl rfl) (.inActivation walked fun completion l kept => ?_)
  cases completion with
  | normal | «return» value => exact kept
  | «break» label | «continue» label => exact ⟨kept, trivial⟩

/-- A closure is entered.  One that does not exist has no code. -/
theorem Eval.observeEnter_tells (keeps : m.Keeps strategy options b) (awaited : m.Awaited)
    (closure : ClosureId) (this : Value) (args : List Value) (newTarget : Value) :
    (Eval.observeEnter w context closure this args newTarget).Keeps strategy options b
      (Event.Inside strategy options n) m := by
  refine .read ?_
  rcases m.store.closure_cases keeps.hosts.closures closure with ⟨code, _⟩ | empty
  · have calm := m.store.enterScope_calm (m.store.closure closure).env args code.declared
    exact .changeStore (Eval.observeBody_tells observes depth frames code rfl (keeps.of_calm calm)
      awaited)
  · have calm : m.store.Calm (Func.Measured strategy)
        (m.store.enterScope (m.store.closure closure).func (m.store.closure closure).env
            args).2 := by
      refine m.store.enterScope_calm _ args ?_
      rw [empty]
      exact fun f mem => nomatch mem
    have nothing : ∀ act m', (Observed.inActivation act
        (Stmt.observeList w context (m.store.closure closure).func.body)) m' = (.ok .undefined m',
        []) := by
      rw [empty]
      exact fun _ _ => rfl
    exact .changeStore (.noted (.inl rfl) (.of_eq (nothing _ _) (fun _ mem => (nomatch mem))
      (keeps.of_calm calm)))

theorem Eval.observeTop_tells (keeps : m.Keeps strategy options b) (awaited : m.Awaited)
    {top : Func} (code : top.Measured strategy) :
    (Eval.observeTop w context top).Keeps strategy options b
    (Event.Inside strategy options n) m := by
  have calm := m.store.hoist_calm Store.globals code.declared
  exact .modify (Eval.observeBody_tells observes depth frames code rfl (keeps.of_calm calm) awaited)

end

end Entry

/-! ## Actions -/

section Actions

variable {strategy : Strategy} {options : RunOptions} {b inside : Budget} {w : Observer}
  {context : Context} {m : Machine} {allowed : Event → Prop}

theorem Eval.observeReenterNext_within (observes : w.Within strategy options)
    (keeps : m.Keeps strategy options b) : (Eval.observeReenterNext w context).Within strategy
    options b m := by
  refine .noted trivial (.read ?_)
  cases outermost : m.stack.outermost? with
  | none => exact .lift ⟨keeps, trivial⟩
  | some frame =>
    have frameCode := keeps.hosts.stack frame (Stack.mem_of_outermost outermost)
    have positive : 1 ≤ m.stack.length :=
      List.length_pos_of_mem (Stack.mem_of_outermost outermost)
    cases frame with
    | top action =>
      have topped : { m with stack := .empty, mode := .normal }.Keeps strategy options b := {
        keeps with
        hosts := { keeps.hosts with stack := .empty }
        frames := fun restoring => nomatch restoring
        entered := fun _ => ?_
        normal := fun _ => rfl }
      · exact .modify (observes context action _ b topped ⟨frameCode, fun restoring =>
          nomatch restoring⟩)
      · cases mode : m.mode with
        | normal => exact keeps.entered mode
        | restoring => exact Nat.le_trans positive (keeps.frames mode)
    | call frame => exact observes context _ m b keeps ⟨frameCode, fun _ => .inr positive⟩

/-- What an action begins is within the budget, or a function is entered and it is within less. -/
def Observed.Begins (strategy : Strategy) (options : RunOptions) (b : Budget)
    (x : Observed Machine Value) (m : Machine) : Prop :=
  x.Within strategy options b m ∨ ∀ n : Nat, b.depth ≤ n + 1 → b.frames ≤ n + 1 →
    x.Keeps strategy options b (Event.Inside strategy options n) m

theorem Eval.observeCall_begins (observes : w.Within strategy options)
    (keeps : m.Keeps strategy options b) (awaited : m.Awaited) (func this : Value)
    (args : List Value) :
    (Eval.observeCall w context func this args).Begins strategy options b m := by
  have still : ∀ {α : Type} {x : Eval α}, x.Still → (Observed.lift x).Within strategy options b m :=
    fun still => (Observed.Quiet.lift still.quiet).within keeps
  refine Eval.observeCall_cases (·.Begins strategy options b m) (fun quiet => .inl (still quiet))
    (fun id => .inr fun n depth frames => ?_)
      (fun _ => .inl (Eval.observeCapture_keeps keeps trivial fun _ => trivial)) (.inl ?_)
    (.inl (Observed.Tells.unwind ⟨keeps, trivial⟩)) fun id => .inl ?_
  · exact Eval.observeEnter_tells observes depth frames keeps awaited id this args _
  · show (Observed.lift (Eval.displayList w.engine.bound args >>= _)).Within strategy options b m
    rw [Observed.lift_bind]
    refine .bind (still (Eval.still.displayList args)) fun line m' keeps' => ?_
    exact Observed.Tells.lift (show Machine.Keeps strategy options b _ from
      { keeps' with hosts := { keeps'.hosts with } })
  · exact Observed.Tells.lift ⟨keeps, (keeps.hosts.continuation id).pushInner trivial⟩

/-- The object of a construction is made. -/
theorem Eval.makeInstance_keeps (keeps : m.Keeps strategy options b) (closure : ClosureId) :
    (Observed.lift (Eval.makeInstance closure)).Tells allowed m
      (fun _ m' => m'.Keeps strategy options b ∧ m'.mode = m.mode ∧ m'.stack = m.stack)
      (fun reason m' => m'.Keeps strategy options b ∧ reason.OfCode (Func.Measured strategy)) := by
  have quiet : (Observed.lift (Eval.makeInstance closure)).Quiet (Func.Measured strategy) :=
    .lift (Eval.makeInstance_still closure).quiet
  have tells : (Observed.lift (Eval.makeInstance closure)).Tells (Event.Within strategy options b)
      m _ _ :=
    quiet.tells keeps
  refine Observed.Tells.weaken ⟨fun _ mem => (nomatch mem), tells.ends⟩ ?_ fun _ _ ends => ends
  rintro this _ ⟨⟨store, rfl, _⟩, keeps'⟩
  exact ⟨keeps', rfl, rfl⟩

/-- A construction without a frame. -/
theorem Eval.observeConstruct_begins (observes : w.Within strategy options)
    (keeps : m.Keeps strategy options b) (awaited : m.Awaited) (callee : Value)
    (args : List Value) :
    (Eval.observeConstruct w context callee args).Begins strategy options b m := by
  refine Eval.observeConstruct_cases (·.Begins strategy options b m) (fun still =>
    .inl ((Observed.Quiet.lift still.quiet).within keeps)) fun id => .inr fun n depth frames =>
      .bind (Eval.makeInstance_keeps keeps id) ?_
  rintro this m₁ ⟨keeps₁, mode, stack⟩
  refine .bind (Eval.observeEnter_tells observes depth frames keeps₁ ?_ id this args _)
    fun _ m₂ keeps₂ => .pure keeps₂
  rw [Machine.Awaited, mode, stack]
  exact awaited

/-- A construction with a frame of its own, where `inside` is what there is once the object is
there. -/
theorem Eval.observeFramed_keeps (inside : Budget) {closure : ClosureId} {args : List Value}
    (told : ∀ m, allowed (.construction closure args m))
    (back : ∀ m : Machine, m.Keeps strategy options { inside with frames := inside.frames + 1 } →
      m.Keeps strategy options b)
    (taken : ∀ function, (Observed.lift (if m.mode = .restoring then Eval.takeInstance function
      else Eval.makeInstance closure)).Tells allowed m
        (fun _ m' => m'.Keeps strategy options inside ∧ m'.mode = m.mode)
        (fun reason m' => m'.Keeps strategy options b ∧ reason.OfCode (Func.Measured strategy)))
    (entered : ∀ context this m', m'.Keeps strategy options inside → m'.mode = m.mode →
      (if m.mode = .restoring then Eval.observeReenterNext w context
        else Eval.observeEnter w context closure this args (.closure closure)).Keeps strategy
          options inside allowed m') :
    (Eval.observeFramed w context closure args).Keeps strategy options b allowed m :=
  Eval.observeFramed_tells (fun m keeps => back m (keeps.widen (Int.le_refl _) (Nat.le_succ _) id))
    (fun _ _ keeps frameCode => back _ (keeps.pushOuter frameCode))
    ⟨fun _ keeps => keeps.1.hosts.shadow, fun _ _ keeps ofCode => ⟨keeps.1.shadow ofCode, keeps.2⟩⟩
    ⟨fun _ keeps => keeps.hosts.shadow, fun _ _ keeps ofCode => keeps.shadow ofCode⟩
    (told m) taken fun context this m' keeps => entered context this m' keeps.1 keeps.2

/-- A construction enters its constructor in normal mode; in restoring mode it takes a frame, and
goes on with the next one. -/
theorem Eval.observeFramed_begins (observes : w.Within strategy options)
    (keeps : m.Keeps strategy options b) (awaited : m.Awaited) (closure : ClosureId)
    (args : List Value) :
    (Eval.observeFramed w context closure args).Begins strategy options b m := by
  cases mode : m.mode with
  | normal =>
    refine .inr fun n depth frames => ?_
    have normal : m.Keeps strategy options ⟨true, b.depth, 1⟩ :=
      keeps.of_normal (Int.le_refl _) mode (Nat.le_refl _)
    refine Eval.observeFramed_keeps ⟨true, b.depth, 1⟩ (fun _ => .inr trivial) (fun m' keeps' => ?_)
      (fun function => ?_) fun context this m' keeps' mode' => ?_
    · exact keeps'.of_normal (Int.le_refl _) (keeps'.normal rfl) (keeps.entered mode)
    · rw [mode]
      refine (Eval.makeInstance_keeps normal closure).weaken (fun _ _ ends =>
        ⟨ends.1, ends.2.1.trans mode⟩) ?_
      exact fun reason m' ends => ⟨ends.1.of_normal (Int.le_refl _) (ends.1.normal rfl)
        (keeps.entered mode), ends.2⟩
    · rw [if_neg (by rw [mode]; nofun)]
      have within : (⟨true, b.depth, 1⟩ : Budget).depth ≤ n + 1 := depth
      refine Eval.observeEnter_tells observes within (Nat.le_add_left 1 n) keeps' (fun restoring =>
        ?_) _ _ _ _
      rw [mode', mode] at restoring
      cases restoring
  | restoring =>
    have positive : 1 ≤ b.frames := Nat.le_trans (awaited mode) (keeps.frames mode)
    have popped := keeps.dropOuter mode
    refine .inl (Eval.observeFramed_keeps { b with frames := b.frames - 1 } (fun _ => trivial)
      (fun m' keeps' => ?_) (fun function => ?_) fun context this m' keeps' mode' => ?_)
    · exact keeps'.widen (Int.le_refl _) (Nat.le_of_eq (Nat.sub_add_cancel positive)) id
    · rw [mode, if_pos rfl, Eval.takeInstance, Observed.lift_bind]
      refine .bind (Eval.takeFrame_keeps keeps mode function) ?_
      rintro frame _ rfl
      have unfit : { m with stack := m.stack.dropOuter }.Keeps strategy options b :=
        popped.widen (Int.le_refl _) (Nat.sub_le _ _) id
      refine .lift ?_
      rcases frame.locals with _ | ⟨this, _ | ⟨other, rest⟩⟩
      · exact ⟨unfit, trivial⟩
      · exact ⟨popped, mode⟩
      · exact ⟨unfit, trivial⟩
    · rw [if_pos mode]
      refine Observed.Tells.allow (Eval.observeReenterNext_within observes keeps')
        fun event within => ?_
      exact within.widen (Int.le_refl _) (Nat.sub_le _ _) id

theorem Eval.observeNew_begins (observes : w.Within strategy options)
    (keeps : m.Keeps strategy options b) (awaited : m.Awaited) (callee : Value)
    (args : List Value) :
    (Eval.observeNew w context callee args).Begins strategy options b m := by
  cases callee with
  | closure id =>
    have notFudge : ¬ m.strategy = .fudge := fun fudge =>
      keeps.captures (keeps.hosts.runs.symm.trans fudge)
    have framed : (Eval.observeFramed w context id args).Begins strategy options b m :=
      Eval.observeFramed_begins observes keeps awaited id args
    refine framed.imp (fun within => .read ?_) fun entered n depth frames => .read ?_
    · rw [if_neg notFudge]
      exact within
    · rw [if_neg notFudge]
      exact entered n depth frames
  | _ =>
    rw [Eval.observeNew]
    · exact Eval.observeConstruct_begins observes keeps awaited _ args
    · simp

/-- What an action begins, once it is begun itself. -/
theorem Action.observe_begins (observes : w.Within strategy options) (context : Context)
    (keeps : m.Keeps strategy options b) {action : Action}
    (enterable : action.Enterable strategy m) :
    ∃ x, action.observe w context = (do Observed.note (.action action); x) ∧
    x.Begins strategy options b m := by
  by_cases next : action = .reenterNext
  · rw [next]
    exact ⟨_, rfl, .inl (Eval.observeReenterNext_within observes keeps)⟩
  have awaited : m.Awaited := fun restoring => (enterable.2 restoring).resolve_left next
  cases action with
  | value v => exact ⟨_, rfl, .inl (.pure keeps)⟩
  | throw v => exact ⟨_, rfl, .inl (Observed.Tells.lift ⟨keeps, trivial⟩)⟩
  | call func this args =>
    exact ⟨_, rfl, Eval.observeCall_begins observes keeps awaited func this args⟩
  | enter closure this args newTarget =>
    refine ⟨_, rfl, .inr fun n depth frames => ?_⟩
    exact Eval.observeEnter_tells observes depth frames keeps awaited closure this args newTarget
  | enterTop top =>
    refine ⟨_, rfl, .inr fun n depth frames => ?_⟩
    exact Eval.observeTop_tells observes depth frames keeps awaited enterable.1
  | construct callee args =>
    exact ⟨_, rfl, Eval.observeConstruct_begins observes keeps awaited callee args⟩
  | handleNew callee args =>
    exact ⟨_, rfl, Eval.observeNew_begins observes keeps awaited callee args⟩
  | safePoint => exact ⟨_, rfl, .inl (Eval.observeSafePoint_keeps keeps fun _ => trivial)⟩
  | reenterNext => exact absurd rfl next
  | sequence actions => exact enterable.1.elim

end Actions

end Resumable
