import Resumable.Proofs.Landing

/-!
Replay of a frame up to its label.

The resume of a frame that was recorded at a label calls the function, whose prologue takes the
frame.  From there the body goes to the capture point of the label (`Stmt.SignedList.lands`) and
enters the next frame there, once the parts of the target of an assignment are evaluated.
`SessionOf.replay_arrives` says so of every frame that is recorded in a session.
-/

namespace Resumable

variable {f : Func} {l : Local} {label : Nat}

/-! ## What is told -/

namespace Observed

variable {α β γ : Type} {x : Observed σ α} {f : α → Observed σ β}

theorem told_note (event : σ → Event) (x : Unit → Observed σ α) (s : σ) :
    (note event >>= x).told s = event s :: (x ()).told s :=
  rfl

theorem told_bind_congr {f' : α → Observed σ γ} (same : ∀ a s, (f a).told s = (f' a).told s)
    (s : σ) : (x >>= f).told s = (x >>= f').told s := by
  simp only [told_bind, same]

/-- What comes after a computation may tell nothing. -/
theorem told_bind_silent (silent : ∀ a s, (f a).told s = []) (s : σ) :
    (x >>= f).told s = x.told s := by
  rw [told_bind]
  cases x.erase s <;> simp [silent]

end Observed

/-! ## Entry into the next frame -/

/-- Evaluate the expressions, and enter the next frame. -/
def Expr.observeEntry (w : Observer) (context : Context) (act : Activation) (parts : List Expr) :
    Observed Machine Value := do
  let _ ← Expr.observeList w context act parts
  Expr.reenterNext.observe w context act

/-- The computation comes to the entry into the next frame at the capture point of the label.  On
the way it does nothing, and the parts that are evaluated then are quiet. -/
def Observed.Arrives (w : Observer) (label : Nat) (params : List String) (x : Observed Local α)
    (l : Local) : Prop :=
  ∃ way context here s again parts after,
    x.told l = way ++ .stmt again here :: ((Expr.observeEntry w context here.act parts).told
      here.machine ++ after) ∧
    (∀ event ∈ way, event.OnTheWay params) ∧ (∃ there, .stmt (.pointAt label s again) there ∈ way) ∧
    again.Enters parts ∧ (Expr.observeList w context here.act parts).Quiet (fun _ => True) ∧
      l.Through here

section Entry

variable {w : Observer} {context : Context} {label : Nat} {params : List String} {parts : List Expr}
  {s again : Stmt} {l : Local}

theorem Stmt.Enters.quiet (enters : again.Enters parts) : ∀ part ∈ parts, part.Quiet fun _ =>
    True := by
  cases enters with
  | letS | assign | expr => exact List.forall_mem_nil _
  | member base => exact List.forall_mem_singleton.mpr base
  | index base key => exact List.forall_mem_cons.mpr ⟨base, List.forall_mem_singleton.mpr key⟩

/-- What a statement that enters the next frame tells. -/
theorem Stmt.Enters.told (enters : again.Enters parts) (w : Observer) (context : Context)
    (l : Local) : (again.observe w context).told l =
      .stmt again l :: (Expr.observeEntry w context l.act parts).told l.machine := by
  -- The value is given to the target when the next frame has ended, and nothing is told in this.
  cases enters with
  | letS =>
    rw [Stmt.observe, Observed.told_note, Observed.told_bind_silent (fun _ _ => rfl)]
    rfl
  | expr =>
    rw [Stmt.observe, Observed.told_note, Observed.told_bind_silent (fun _ _ => rfl)]
    exact congrArg _ (Observed.told_bind_silent (f := fun _ => pure PUnit.unit) (fun _ _ => rfl) l)
  | @assign name =>
    rw [Stmt.observe, Observed.told_note, Observed.told_bind_silent (fun _ _ => rfl)]
    have given : ((Target.ident name).observe w context .reenterNext l.act).told l.machine =
        (Expr.reenterNext.observe w context l.act).told l.machine := by
      rw [Target.observe, Observed.told_bind_silent fun _ _ => rfl]
    exact congrArg _ given
  | @member base property _ =>
    rw [Stmt.observe, Observed.told_note, Observed.told_bind_silent (fun _ _ => rfl)]
    have given : ((Target.member base property).observe w context .reenterNext l.act).told
        l.machine = (Expr.observeEntry w context l.act [base]).told l.machine := by
      simp only [Target.observe, Expr.observeEntry, Expr.observeList, bind_assoc, pure_bind]
      apply Observed.told_bind_congr
      intro value m
      exact Observed.told_bind_silent (fun _ _ => rfl) m
    exact congrArg _ given
  | @index base key _ _ =>
    rw [Stmt.observe, Observed.told_note, Observed.told_bind_silent (fun _ _ => rfl)]
    have given : ((Target.index base key).observe w context .reenterNext l.act).told l.machine =
        (Expr.observeEntry w context l.act [base, key]).told l.machine := by
      simp only [Target.observe, Expr.observeEntry, Expr.observeList, bind_assoc, pure_bind]
      apply Observed.told_bind_congr
      intro value m
      apply Observed.told_bind_congr
      intro value m
      exact Observed.told_bind_silent (fun _ _ => rfl) m
    exact congrArg _ given

/-- At the capture point of the label the next frame is entered. -/
theorem Stmt.pointAt_told (w : Observer) (context : Context) (s again : Stmt) {own : String → Prop}
    (seeks : l.Seeks own label) :
    ∃ events here, ((Stmt.pointAt label s again).observe w context).told l =
        .stmt (.pointAt label s again) l :: (events ++ (again.observe w context).told here) ∧
      (∀ event ∈ events, event.OnTheWay []) ∧ l.Through here := by
  have isHere : (Expr.targetIn [label]).Decides label true := by
    rw [← List.contains_iff_mem.mpr (List.mem_singleton_self label)]
    exact .targetIn
  obtain ⟨l₁, events, eq, way, first⟩ := Expr.Decides.isNormal.passes w context seeks
  obtain ⟨l₂, events', eq', way', second⟩ := isHere.passes w context (seeks.through first)
  refine ⟨events ++ .stmt (.ifS (.targetIn [label]) again none) l₁ :: events', l₂, ?_, ?_,
    first.trans second⟩
  · rw [Stmt.pointAt, Stmt.observe, Observed.told_note]
    have inner : (Stmt.observe w context (.ifS (.targetIn [label]) again none)).told l₁ =
        .stmt (.ifS (.targetIn [label]) again none) l₁ :: (events' ++ (again.observe w context).told
          l₂) := by
      rw [Stmt.observe, Observed.told_note, Observed.told, Observed.bind_of_ok eq']
      rfl
    rw [Observed.told, Observed.bind_of_ok eq, List.append_assoc, List.cons_append, ← inner]
    rfl
  · have begun : (Event.stmt (.ifS (.targetIn [label]) again none) l₁).OnTheWay [] := .inl rfl
    exact List.forall_mem_append.mpr ⟨way, List.forall_mem_cons.mpr ⟨begun, way'⟩⟩

theorem Observed.Lands.arrives {own : String → Prop} {x : Observed Local α}
    (lands : x.Lands w label params l) (seeks : l.Seeks own label) :
    x.Arrives w label params l := by
  obtain ⟨before, context, there, s, again, after, told, way, pausing, through⟩ := lands
  obtain ⟨parts, enters⟩ := pausing.enters
  obtain ⟨events, here, told', way', through'⟩ := Stmt.pointAt_told w context s again
    (seeks.through through)
  have point : (Event.stmt (.pointAt label s again) there).OnTheWay params := .inl rfl
  have quiet : (Expr.observeList w context here.act parts).Quiet fun _ => True :=
    Expr.observeList_quiet fun part mem => (enters.quiet part mem).observe
  refine ⟨before ++ .stmt (.pointAt label s again) there :: events, context, here, s, again, parts,
    after, ?_, ?_, ⟨there, List.mem_append_right _ (List.mem_cons_self ..)⟩, enters, quiet,
    through.trans through'⟩
  · rw [told, told', enters.told]
    simp only [List.append_assoc, List.cons_append]
  · exact List.forall_mem_append.mpr ⟨way, List.forall_mem_cons.mpr
      ⟨point, fun event mem => (way' event mem).mono (List.nil_subset _)⟩⟩

end Entry

/-! ## Replay -/

/-- The resume of a frame with the label calls the function, and the prologue of its body takes the
frame, so that the locals are bound as they were.  From there the body comes to the entry into the
next frame at the label. -/
def Activation.Replays (w : Observer) (paused : Activation) (before : Machine) (label : Nat)
    (later : Machine) : Prop :=
  ∃ frame prologue rest entered restored, paused.captureFrame before.store label = .call frame ∧
    (prologue = [.stackDec] ∨ prologue = [.letS newTargetLocal (some .newTarget), .stackDec]) ∧
    paused.func.body = prologue ++ .restoreFrame :: rest ∧
    (∀ context, (frame.resume.observe w context).told later =
      .action frame.resume later :: .body entered.act entered.machine ::
        ((Stmt.observeList w context (prologue ++ [.restoreFrame])).told entered ++
          (Stmt.observeList w context rest).told restored)) ∧
    (∀ name ∈ paused.func.layoutLocals,
      restored.machine.store.local? restored.act.scope name =
      before.store.local? paused.scope name) ∧
    ∀ context, (Stmt.observeList w context rest).Arrives w label
      (Stmt.listAround label paused.func.body) restored

section Replay

variable {code : Func → Prop} {paused : Activation} {before : Machine} {closure : ClosureId}
  {w : Observer}

/-- Where the resume of a frame begins, what it tells is told by the body of the function. -/
theorem Action.enter_told {closure : ClosureId} {m : Machine}
    (func : (m.store.closure closure).func = f) (w : Observer) (context : Context) (this : Value)
    (args : List Value) :
    ((Action.enter closure this args .undefined).observe w context).told m =
      .action (.enter closure this args .undefined) m ::
        .body (Local.begin f closure this args m).act (Local.begin f closure this args m).machine ::
          (Stmt.observeList w context f.body).told (Local.begin f closure this args m) := by
  subst func
  rfl

theorem Stmt.observeList_told {first rest : List Stmt} {l' : Local} (w : Observer)
    (context : Context) (runs : Stmt.execList w.engine first l = .ok .normal l') :
    (Stmt.observeList w context (first ++ rest)).told l =
      (Stmt.observeList w context first).told l ++ (Stmt.observeList w context rest).told l' := by
  rw [← Stmt.erase_observeList w first context] at runs
  rw [Stmt.observeList_append, Observed.told_bind, runs]

/-- Where the frame of a function with signposts is taken, its body lands at the label. -/
theorem Func.Signposted.lands (signposted : f.Signposted)
    (holds : Stmt.listHolds label f.body = true) (outside : Stmt.listReturnsInTry false f.body =
      false) (bound : 0 < w.engine.bound) : ∃ opening rest, (opening = [] ∨
      opening = [.letS newTargetLocal (some .newTarget)]) ∧
      f.body = opening ++ .stackDec :: .restoreFrame :: rest ∧
      ∀ context l, Local.Seeks (· ∈ f.layoutLocals) label l →
        (Stmt.observeList w context rest).Lands w label (Stmt.listAround label f.body) l := by
  obtain ⟨labels, opening, main, closing, opens, body, distinct, signed, bare⟩ := signposted
  refine ⟨opening, main ++ closing, opens, body, fun context l seeks => ?_⟩
  have unlabeled : Stmt.listHolds label opening = false := by rcases opens with rfl | rfl <;> rfl
  have held : Stmt.listHolds label main = true := by
    simp only [body, Stmt.listHolds_append, unlabeled, Stmt.listHolds, Stmt.holds, bare,
      Bool.false_or, Bool.or_false, Bool.and_false, Bool.and_eq_true] at holds
    exact holds.2.2.2
  have outside' : Stmt.listReturnsInTry false main = false := by
    simp only [body, Stmt.listReturnsInTry_append, Stmt.listReturnsInTry,
      Bool.or_eq_false_iff] at outside
    exact outside.2.2.2.1
  rw [Stmt.observeList_append]
  refine ((signed.lands bound distinct held outside' seeks).mono fun param mem => ?_).bind
  simp [body, Stmt.listAround_append, Stmt.listAround, mem]

/-- An activation that has taken a frame of the paused one looks for its label, and its locals are
bound as they were. -/
theorem Activation.OwnScope.seeks (ownScope : paused.OwnScope code closure before.store)
    {frame : CallFrame} (locals : frame.locals = paused.func.layoutLocals.map
      (before.store.localD paused.scope))
    (formals : frame.formals = none ∨ frame.formals = some (paused.paramValues before.store))
    (func : l.act.func = paused.func) (caught : l.act.caught = none)
    (restoring : l.machine.mode = .restoring)
    (calm : l.machine.capturing = false) (known : l.act.scope.index < l.machine.store.scopes.size) :
    (l.take frame).Seeks (· ∈ paused.func.layoutLocals) frame.label ∧
      ∀ name ∈ paused.func.layoutLocals,
        (l.take frame).machine.store.local? l.act.scope name = before.store.local? paused.scope
        name := by
  have saved : ∀ name ∈ paused.func.layoutLocals,
      (l.take frame).machine.store.local? l.act.scope name = before.store.local? paused.scope
      name := by
    intro name mem
    rw [ownScope.localD (.inr mem)]
    simp only [Local.take, Activation.layoutLocals, func]
    exact (CallFrame.bindings formals locals known name).trans (if_pos (.inr mem))
  refine ⟨{ restoring, calm, caught, target := rfl, known := ?_, bound := fun name mem => ?_ },
    saved⟩
  · exact Nat.lt_of_lt_of_le known (((Store.Grows.refl l.machine.store).declareAll _ _).declareAll
      _ _).size
  · rw [show (l.take frame).act.scope = l.act.scope from rfl, saved name mem]
    exact ownScope.bound name (.inr mem)

/-- The resume of a frame of a function whose body has signposts.  Its prologue takes the frame, and
the rest of the body lands at the label.  If the frame has all that the function can see, the
activation is restored. -/
theorem Activation.OwnScope.resumes (ownScope : paused.OwnScope code closure before.store)
    (called : paused.callee = some closure) (signposted : paused.func.Signposted)
    (holds : Stmt.listHolds label paused.func.body = true)
    (outside : Stmt.listReturnsInTry false paused.func.body = false) (bound : 0 < w.engine.bound)
    {later : Machine}
    (restoring : later.mode = .restoring) (calm : later.capturing = false)
    (outermost : later.stack.outermost? = some (paused.captureFrame before.store label))
    (same : later.store.closure closure = before.store.closure closure) :
    ∃ frame prologue rest entered restored, paused.captureFrame before.store label = .call frame ∧
      (prologue = [.stackDec] ∨ prologue = [.letS newTargetLocal (some .newTarget), .stackDec]) ∧
      paused.func.body = prologue ++ .restoreFrame :: rest ∧
      (∀ context, (frame.resume.observe w context).told later =
        .action frame.resume later :: .body entered.act entered.machine ::
          ((Stmt.observeList w context (prologue ++ [.restoreFrame])).told entered ++
            (Stmt.observeList w context rest).told restored)) ∧
      (∀ name ∈ paused.func.layoutLocals,
        restored.machine.store.local? restored.act.scope name =
        before.store.local? paused.scope name) ∧
      restored.Seeks (· ∈ paused.func.layoutLocals) label ∧
      (∀ context, (Stmt.observeList w context rest).Lands w label
        (Stmt.listAround label paused.func.body) restored) ∧
      ∀ options, paused.func.Stocked options → paused.func.mentionsArguments = false ∨
        options.fidelity = .full → ∀ g, paused.Restored g before label later restored := by
  obtain ⟨frame, captured, resume, label_eq, locals, formals⟩ :=
    Activation.captureFrame_call called before.store label
  obtain ⟨opening, rest, opens, body, lands⟩ := signposted.lands holds outside bound
  let entered := Local.begin paused.func closure paused.this (paused.reentryArgs before.store) later
  have shape : frame.locals.length = entered.act.layoutLocals.length := by
    rw [locals, List.length_map]
    rfl
  rw [captured] at outermost
  obtain ⟨store, remaining, opened, runs⟩ :=
    Stmt.opening_restoring (g := w.engine) (l := entered) opens restoring outermost shape
  have known : entered.act.scope.index < store.scopes.size := by
    have exists_ := (later.store.enterScope_parent paused.func (later.store.closure closure).env
      (paused.reentryArgs before.store)).1
    rcases opened with rfl | ⟨_, rfl⟩
    · exact exists_
    · rw [Store.scopes_declare_size]
      exact exists_
  let counted : Local := ⟨entered.act, { entered.machine with store, remaining }⟩
  obtain ⟨seeks, saved⟩ : (counted.take frame).Seeks _ frame.label ∧ _ :=
    ownScope.seeks locals formals rfl rfl restoring calm known
  rw [label_eq] at seeks
  refine ⟨frame, opening ++ [.stackDec], rest, entered, counted.take frame, captured, ?_, ?_,
    fun context => ?_, saved, seeks, fun context => lands context _ seeks,
    fun options stocked faithful g => ?_⟩
  · rcases opens with rfl | rfl
    · exact .inl rfl
    · exact .inr rfl
  · rw [body, List.append_assoc, List.singleton_append]
  · have func : (later.store.closure closure).func = paused.func := by
      rw [same]
      exact ownScope.func
    have split : paused.func.body = (opening ++ [.stackDec, .restoreFrame]) ++ rest := by
      simp [body]
    rw [resume, Action.enter_told func w context paused.this, split,
      Stmt.observeList_told w context runs, List.append_assoc, List.singleton_append]
  · exact ownScope.opened called stocked faithful captured g same opens body rfl opened remaining

/-- A frame of a function whose body has signposts is replayed up to its label. -/
theorem Activation.OwnScope.replays (ownScope : paused.OwnScope code closure before.store)
    (called : paused.callee = some closure) (signposted : paused.func.Signposted)
    (holds : Stmt.listHolds label paused.func.body = true)
    (outside : Stmt.listReturnsInTry false paused.func.body = false) (bound : 0 < w.engine.bound)
    {later : Machine}
    (restoring : later.mode = .restoring) (calm : later.capturing = false)
    (outermost : later.stack.outermost? = some (paused.captureFrame before.store label))
    (same : later.store.closure closure = before.store.closure closure) :
    paused.Replays w before label later := by
  obtain ⟨frame, prologue, rest, entered, restored, captured, opens, body, told, saved, seeks,
      lands, _⟩ :=
    ownScope.resumes called signposted holds outside bound restoring calm outermost same
  exact ⟨frame, prologue, rest, entered, restored, captured, opens, body, told, saved,
    fun context => (lands context).arrives seeks⟩

end Replay

/-! ## Recorded frames -/

section Moments

variable {strategy : Strategy} {options : RunOptions} {code : Func → Prop}

/-- Between the beginning and the end of a statement the function is the same. -/
theorem Event.Moment.func {s : Stmt} {act : Activation} {m : Machine} (nests : Func.Nests code)
    (moment : (Event.stmt s l).Moment act m)
    (inScope : (Event.stmt s l).InScope strategy options code) :
    act.func = l.act.func := by
  cases moment with
  | stmt => rfl
  | @stmtEnd _ _ l' bound depth ends =>
    have walked := Stmt.retainsIn (observer_retains nests bound depth) nests s
      [] l inScope.2 inScope.1
    have meets := walked.ends
    rw [Stmt.erase_observe, (observer bound depth).2] at meets
    refine (meets.weaken (fun _ l' leaves => ?_) fun _ _ left => left.1.func).state ends
    exact (Completion.leaves_same.mp leaves).func

end Moments

/-- Functions of programs that were compiled for a strategy with captures have signposts. -/
theorem Func.CompiledWith.signposted {given : CompileOptions} (compiled : f.CompiledWith given)
    (pauses : given.strategy ≠ .fudge) : f.Signposted := by
  obtain ⟨source, program, site, ok, written⟩ := compiled
  cases written.throughout (Program.number_signposted pauses ok site) with
  | intro signposted _ => exact signposted

/-- Every frame that a statement records in a session is replayed up to its label, in restoring
mode, while nothing is captured, with the frame outermost and on any machine that has the closure.
The function has no `return` inside of a `try`. -/
theorem SessionOf.replay_arrives {strategy : Strategy} {options : RunOptions} {m m' : Machine}
    {next : Next} (session : SessionOf (Program.CompiledUnder (fun _ => True) strategy) strategy
      options m)
    (reaches : m.ReachesOf (Program.CompiledUnder (fun _ => True) strategy) next m')
    (pauses : strategy ≠ .fudge)
    (bound : Nat) {s : Stmt} {l : Local} (told : .stmt s l ∈ m'.chronicle bound next) {label : Nat}
    (records : s.records? = some label) {paused : Activation} {before : Machine}
    (moment : (Event.stmt s l).Moment paused before) {closure : ClosureId}
    (called : paused.callee = some closure)
    (outside : Stmt.listReturnsInTry false paused.func.body = false) {w : Observer}
    (turns : 0 < w.engine.bound)
    {later : Machine} (restoring : later.mode = .restoring) (calm : later.capturing = false)
    (outermost : later.stack.outermost? = some (paused.captureFrame before.store label))
    (same : later.store.closure closure = before.store.closure closure) :
    paused.Replays w before label later := by
  have nests : Func.Nests fun f => ∃ given, given.strategy = strategy ∧ f.CompiledWith given :=
    Func.compiledWith_nests
  have inScope := reaches.inScope nests (Program.CompiledUnder.yields fun _ runs _ =>
    runs) session bound _ told
  have ownScope := (moment.inScope nests inScope).ownScope closure called
  obtain ⟨given, runs, compiled⟩ := ownScope.code
  have holds : Stmt.listHolds label paused.func.body = true := by
    rw [moment.func nests inScope]
    exact inScope.2.holds (Stmt.holds_of_records records)
  exact ownScope.replays called (compiled.signposted (runs ▸ pauses)) holds outside turns restoring
    calm outermost same

/-- A program that calls a function which calls another one in a handler inside of a loop. -/
def Program.handling : Program :=
  { body := [.decl { name := some "g", body := [.returnS (some (.bool false))] },
      .decl { name := some "f", body := [
        .letS "go" (some (.bool true)),
        .labeled "l" (.whileS (.ident "go") (.tryS (.throwS .null)
          (some ⟨"e", .assign (.ident "go") (.call (.ident "g") [])⟩) none)),
        .returnS (some (.ident "go"))] },
      .letS "r" (some (.call (.ident "f") [])), .returnS (some (.ident "r"))] }

/-- Where the function of a closure records frames, and the label of the frames. -/
def Event.recording? : Event → Option (Stmt × Local × Nat)
  | .stmt s l => if l.act.callee.isSome then s.records?.map (s, l, ·) else none
  | _ => none

theorem Event.eq_of_recording? {event : Event} {s : Stmt}
    (recording : event.recording? = some (s, l, label)) : event = .stmt s l ∧
    s.records? = some label := by
  unfold Event.recording? at recording
  split at recording
  · split at recording
    · obtain ⟨other, records, same⟩ := Option.map_eq_some_iff.mp recording
      cases same
      exact ⟨rfl, records⟩
    · exact nomatch recording
  · exact nomatch recording

/-- The call in the handler is replayed, through the loop and by raising `e` again. -/
theorem SessionOf.replay_arrives_in_handler :
    ∃ compiled, Program.handling.compile {} = .ok compiled ∧
      ∃ (s : Stmt) (l : Local) (label : Nat),
        .stmt s l ∈ Machine.chronicle 8 (.run (.enterTop (Machine.top compiled.load)))
          ((Machine.new .lazy {}).setInterval compiled.load) ∧
        s.records? = some label ∧ l.act.callee.isSome = true ∧
        Stmt.listAround label l.act.func.body = ["e"] ∧
        l.act.Replays (observer 8 8).1 l.machine label
          { l.machine with
            mode := .restoring, stack := ⟨[l.act.captureFrame l.machine.store label]⟩ } := by
  have evaluated : ((Program.handling.compile {}).toOption.map fun compiled =>
      match (Machine.chronicle 8 (.run (.enterTop (Machine.top compiled.load)))
          ((Machine.new .lazy {}).setInterval compiled.load)).findSome? (·.recording?) with
      | some (_, l, label) => l.act.callee.isSome && !l.machine.capturing &&
          !Stmt.listReturnsInTry false l.act.func.body && Stmt.listAround label l.act.func.body ==
            ["e"]
      | none => false) = some true := by decide +kernel
  obtain ⟨compiled, ok, split⟩ := Option.map_eq_some_iff.mp evaluated
  replace ok := Program.compile_of_toOption ok
  have accepted : Program.CompiledUnder (fun _ => True) .lazy compiled.load :=
    ⟨Program.handling, compiled, _, Program.firstSite, ok, rfl, rfl, trivial⟩
  have session : SessionOf (Program.CompiledUnder (fun _ => True) .lazy) .lazy {}
    (Machine.new .lazy {}) := .new rfl
  split at split
  · rename_i s l label found
    simp only [Bool.and_eq_true, Bool.not_eq_true', beq_iff_eq] at split
    obtain ⟨⟨⟨isCall, calm⟩, outside⟩, around⟩ := split
    obtain ⟨closure, called⟩ := Option.isSome_iff_exists.mp isCall
    obtain ⟨event, told, recording⟩ := List.exists_of_findSome?_eq_some found
    obtain ⟨rfl, records⟩ := Event.eq_of_recording? recording
    refine ⟨compiled, ok, s, l, label, told, records, isCall, around, ?_⟩
    exact session.replay_arrives (.run accepted) nofun 8 told records .stmt called outside
      (by rw [(observer 8 8).2]; decide) rfl calm rfl rfl
  · cases split

/-- A program that captures where a property of a shared variable is assigned, inside of the call
that binds the variable again.  When frames are collected on the way of returns, the cell of the
variable is lost on the way. -/
def Program.overwritten : Program :=
  { body := [.decl { name := some "h", params := ["k"], body := [.returnS (some .null)] },
      .decl { name := some "make", body := [.returnS (some (.object []))] },
      .decl { name := some "g", body := [
        .letS "f" (some (.ident "make")),
        .labeled "l" (.whileS (.bool true) (.block [
          .letS "x" (some (.call (.ident "f") [])),
          .assign (.ident "f") (.func { body := [
            .assign (.member (.ident "x") "p") (.call (.ident "captureCC") [.ident "h"]),
            .returnS (some (.object []))] })]))] },
      .letS "r" (some (.call (.ident "g") [])), .returnS none] }

theorem Program.overwritten_throws :
    ((Program.overwritten.compile { strategy := .retval }).toOption.map fun compiled =>
      match Machine.turn 12 (.run (.enterTop (Machine.top compiled.load)))
          ((Machine.new .retval {}).setInterval compiled.load) with
      | some (.next (.restore stack), m) => match Eval.start (engine 12) (.restore stack) m with
          | .unwind (.throw _) m' => decide (m'.mode = .restoring)
          | _ => false
      | _ => false) = some true := by decide +kernel

/-- **The parts of a target can raise in a replay.**  The second turn, which restores the frames,
ends with the exception, and they are still being restored. -/
theorem Machine.turn_overwritten_in_replay :
    ∃ compiled, Program.overwritten.compile { strategy := .retval } = .ok compiled ∧
      ∃ stack m value m', Machine.turn 12 (.run (.enterTop (Machine.top compiled.load)))
          ((Machine.new .retval {}).setInterval compiled.load) = some (.next (.restore stack), m) ∧
        Eval.start (engine 12) (.restore stack) m = .unwind (.throw value) m' ∧
            m'.mode = .restoring := by
  obtain ⟨compiled, ok, run⟩ := Option.map_eq_some_iff.mp Program.overwritten_throws
  split at run
  · rename_i stack m turned
    split at run
    · rename_i value m' thrown
      exact ⟨compiled, Program.compile_of_toOption ok, stack, m, value, m', turned, thrown,
        of_decide_eq_true run⟩
    · cases run
  · cases run

end Resumable
