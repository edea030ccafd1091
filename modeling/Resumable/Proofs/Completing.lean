import Resumable.Proofs.Replay

/-!
How a statement is completed that was paused in its application.

The replay of a frame comes to the statement of the capture point, with the value of the next frame
in place of its application (`Stmt.Restores`).  The parts of the target are evaluated again there.
Literals, `this` and names that the function binds have the values that they had where the frame was
recorded, and then the statement goes on from there as the one of the capture point does.
-/

namespace Resumable

/-- Literals, `this`, and names that a call of the function binds. -/
def Expr.isSteady (f : Func) : Expr → Bool
  | .ident name => (f.params ++ f.layoutLocals).contains name && name != resultLocal
  | e => e.isPlain

theorem Expr.isPlain_of_isSteady {f : Func} {e : Expr} (steady : e.isSteady f = true) :
    e.isPlain = true := by
  cases e with
  | ident name => rfl
  | _ => exact steady

section Restored

variable {code : Func → Prop} {paused : Activation} {closure : ClosureId} {before later : Machine}
  {g : Engine} {label : Nat} {restored here : Local} {e : Expr}

/-- Where the activation is restored, the expression has the value that it had. -/
theorem Expr.eval_of_isSteady (steady : e.isSteady paused.func = true)
    (ownScope : paused.OwnScope code closure before.store)
    (restores : paused.Restored g before label later restored) (through : restored.Through here) :
    ∃ value, ∀ g, e.eval g paused before = .ok value before ∧
      e.eval g here.act here.machine = .ok value here.machine := by
  cases e with
  | num n => exact ⟨.num n, fun g => ⟨rfl, rfl⟩⟩
  | str s => exact ⟨.str s, fun g => ⟨rfl, rfl⟩⟩
  | bool b => exact ⟨.bool b, fun g => ⟨rfl, rfl⟩⟩
  | null => exact ⟨.null, fun g => ⟨rfl, rfl⟩⟩
  | undefined => exact ⟨.undefined, fun g => ⟨rfl, rfl⟩⟩
  | this =>
    refine ⟨paused.this, fun g => ⟨rfl, ?_⟩⟩
    show Ending.ok here.act.this here.machine = _
    rw [through.act, restores.this]
  | ident name =>
    simp only [Expr.isSteady, Bool.and_eq_true, List.contains_iff_mem, List.mem_append,
      bne_iff_ne] at steady
    obtain ⟨bound, notResult⟩ := steady
    obtain ⟨value, saved⟩ := Option.ne_none_iff_exists'.mp (ownScope.bound name bound)
    have again : here.machine.store.local? here.act.scope name = some value := by
      rw [through.act, through.store.bindings, restores.bindings name notResult, saved]
    have known : here.act.scope.index < here.machine.store.scopes.size := by
      rw [through.act, through.store.size]
      exact restores.exists_
    have looked : ∀ {act : Activation} {m : Machine}, act.scope.index < m.store.scopes.size →
        m.store.local? act.scope name = some value → ∀ g, (Expr.ident name).eval g act m =
        .ok value m := by
      intro act m known bound g
      show Eval.lookup act name m = _
      rw [Eval.lookup, Run.read_bind, Store.lookup?_of_local? known bound]
      rfl
    exact ⟨value, fun g => ⟨looked ownScope.exists_ saved g, looked known again g⟩⟩
  | _ => cases steady

theorem Expr.evalList_of_isSteady (ownScope : paused.OwnScope code closure before.store)
    (restores : paused.Restored g before label later restored) (through : restored.Through here)
    {es : List Expr}
    (steady : ∀ e ∈ es, e.isSteady paused.func = true) :
    ∃ values, ∀ g, Expr.evalList g paused es before = .ok values before ∧
      Expr.evalList g here.act es here.machine = .ok values here.machine := by
  induction es with
  | nil => exact ⟨[], fun g => ⟨rfl, rfl⟩⟩
  | cons e rest ih =>
    rw [List.forall_mem_cons] at steady
    obtain ⟨value, first⟩ := Expr.eval_of_isSteady steady.1 ownScope restores through
    obtain ⟨values, later⟩ := ih steady.2
    have both : ∀ {g : Engine} {act : Activation} {m : Machine}, e.eval g act m = .ok value m →
        Expr.evalList g act rest m = .ok values m → Expr.evalList g act (e :: rest) m =
        .ok (value :: values) m := by
      intro g act m here later
      rw [Expr.evalList]
      show Run.bind (e.eval g act) _ m = _
      simp only [Run.bind, here]
      show Run.bind (Expr.evalList g act rest) _ m = _
      simp only [Run.bind, later]
      rfl
    exact ⟨value :: values, fun g => ⟨both (first g).1 (later g).1, both (first g).2 (later g).2⟩⟩

/-- The statement and its variant for the restored activation are left with the same to do. -/
theorem Stmt.Restores.completes {s again : Stmt} (restates : again.Restores s)
    (ownScope : paused.OwnScope code closure before.store)
    (restores : paused.Restored g before label later restored)
    (through : restored.Through here) (steady : ∀ e ∈ s.parts, e.isSteady paused.func = true) :
    ∃ e values, s.given? = some e ∧ ∀ g : Engine,
      s.exec g ⟨paused, before⟩ = s.finish g.bound values (fun act => e.eval g act) ⟨paused,
        before⟩ ∧
      again.exec g here = s.finish g.bound values (fun act => Expr.reenterNext.eval g act)
          here := by
  obtain ⟨e, given⟩ := Option.isSome_iff_exists.mp restates.given
  obtain ⟨values, evaluated⟩ := Expr.evalList_of_isSteady ownScope restores through steady
  refine ⟨e, values, given, fun g => ⟨Stmt.exec_of_parts given (evaluated g).1, ?_⟩⟩
  rw [← restates.finish]
  refine Stmt.exec_of_parts restates.next ?_
  rw [restates.parts fun e mem => Expr.isPlain_of_isSteady (steady e mem)]
  exact (evaluated g).2

end Restored

/-- Where a computation lands, the statement of the capture point begins with the value of the next
frame. -/
theorem Observed.Lands.resumes {α : Type} {own : String → Prop} {w : Observer} {label : Nat}
    {params : List String} {x : Observed Local α} {l : Local} (lands : x.Lands w label params l)
    (seeks : l.Seeks own label) :
    ∃ there here s again, .stmt (.pointAt label s again) there ∈ x.told l ∧
      .stmt again here ∈ x.told l ∧ again.Restores s ∧ l.Through here := by
  obtain ⟨before, context, there, s, again, after, told, _, pausing, through⟩ := lands
  obtain ⟨events, here, told', _, through'⟩ := Stmt.pointAt_told w context s again
    (seeks.through through)
  obtain ⟨parts, enters⟩ := pausing.enters
  rw [told', enters.told] at told
  refine ⟨there, here, s, again, ?_, ?_, pausing.restores,
    through.trans through'⟩ <;> rw [told] <;> simp

/-- A frame that is recorded in a session, in a function without a `return` inside of a `try`, is
resumed at the statement of its capture point, with the value of the next frame in place of the
application.  If the parts of the target are literals, `this` or names of the function, the
statement goes on as it would from where the frame was recorded, with the same values of these
parts, whatever was done since. -/
theorem SessionOf.replay_completes {strategy : Strategy} {options : RunOptions} {m m' : Machine}
    {next : Next} (session : SessionOf (Program.CompiledUnder (fun _ => True) strategy) strategy
      options m)
    (reaches : m.ReachesOf (Program.CompiledUnder (fun _ => True) strategy) next m')
    (pauses : strategy ≠ .fudge)
    (bound : Nat) {s₀ : Stmt} {l : Local} (told : .stmt s₀ l ∈ m'.chronicle bound next)
    {label : Nat}
    (records : s₀.records? = some label) {paused : Activation} {before : Machine}
    (moment : (Event.stmt s₀ l).Moment paused before) {closure : ClosureId}
    (called : paused.callee = some closure)
    (outside : Stmt.listReturnsInTry false paused.func.body = false) {given : CompileOptions}
    (compiled : paused.func.CompiledWith given)
    (faithful : paused.func.mentionsArguments = false ∨ given.fidelity = .full) {w : Observer}
    (turns : 0 < w.engine.bound) {later : Machine} (restoring : later.mode = .restoring)
    (calm : later.capturing = false)
    (outermost : later.stack.outermost? = some (paused.captureFrame before.store label))
    (same : later.store.closure closure = before.store.closure closure) :
    ∃ frame, paused.captureFrame before.store label = .call frame ∧ ∀ context, ∃ there here s again,
      .stmt (.pointAt label s again) there ∈ (frame.resume.observe w context).told later ∧
      .stmt again here ∈ (frame.resume.observe w context).told later ∧ again.Restores s ∧
      (∀ name, name ≠ resultLocal →
        here.machine.store.local? here.act.scope name = before.store.local? paused.scope name) ∧
      ((∀ e ∈ s.parts, e.isSteady paused.func = true) → ∃ e values, s.given? = some e ∧
        ∀ g : Engine, s.exec g ⟨paused, before⟩ = s.finish g.bound values (fun act => e.eval g act)
        ⟨paused, before⟩ ∧
        again.exec g here = s.finish g.bound values (fun act => Expr.reenterNext.eval g act)
            here) := by
  have nests : Func.Nests fun f => ∃ given, given.strategy = strategy ∧ f.CompiledWith given :=
    Func.compiledWith_nests
  have inScope := reaches.inScope nests (Program.CompiledUnder.yields fun _ runs _ =>
    runs) session bound _ told
  have ownScope := (moment.inScope nests inScope).ownScope closure called
  obtain ⟨_, runs, asCompiled⟩ := ownScope.code
  have holds : Stmt.listHolds label paused.func.body = true := by
    rw [moment.func nests inScope]
    exact inScope.2.holds (Stmt.holds_of_records records)
  obtain ⟨frame, prologue, rest, entered, restored, captured, _, _, tells, _, seeks, lands,
      restores⟩ :=
    ownScope.resumes called (asCompiled.signposted (runs ▸ pauses)) holds outside turns restoring
      calm outermost same
  have again := restores given compiled.stocked faithful w.engine
  refine ⟨frame, captured, fun context => ?_⟩
  obtain ⟨there, here, s, again', atPoint, begins, restates, through⟩ :=
    (lands context).resumes seeks
  refine ⟨there, here, s, again', ?_, ?_, restates, fun name notResult =>
    ?_, restates.completes ownScope again through⟩
  · rw [tells]
    simp [atPoint]
  · rw [tells]
    simp [begins]
  · rw [through.act, through.store.bindings, again.bindings name notResult]

/-- A program that captures where a property of a parameter is assigned. -/
def Program.storing : Program :=
  { body := [.decl { name := some "h", params := ["k"], body := [.returnS (some .null)] },
      .decl { name := some "f", params := ["o"], body := [
        .assign (.member (.ident "o") "x") (.call (.ident "captureCC") [.ident "h"]),
        .returnS (some (.ident "o"))] },
      .letS "a" (some (.object [])),
      .letS "r" (some (.call (.ident "f") [.ident "a"])), .returnS (some (.ident "r"))] }

/-- The parts of the target of a capture point with the label. -/
def Event.partsAt? (label : Nat) : Event → Option (List Expr)
  | .stmt (.ifS .isNormal s (some (.ifS (.targetIn [other]) _ none))) _ =>
    if other = label then some s.parts else none
  | _ => none

/-- The resumed statement stores into the object that was given to the function. -/
theorem SessionOf.replay_completes_of_storing :
    ∃ compiled, Program.storing.compile {} = .ok compiled ∧
      ∃ (l : Local) (label : Nat) (frame : CallFrame) (here : Local) (s again : Stmt) (e : Expr)
        (values : List Value), l.act.captureFrame l.machine.store label = .call frame ∧
        .stmt again here ∈ (frame.resume.observe (observer 8 8).1 []).told { l.machine with
          mode := .restoring, stack := ⟨[l.act.captureFrame l.machine.store label]⟩ } ∧
        s.parts ≠ [] ∧ s.given? = some e ∧ ∀ g : Engine,
          s.exec g l = s.finish g.bound values (fun act => e.eval g act) l ∧
          again.exec g here = s.finish g.bound values (fun act => Expr.reenterNext.eval g act)
              here := by
  have evaluated : ((Program.storing.compile {}).toOption.map fun compiled =>
      match (Machine.chronicle 8 (.run (.enterTop (Machine.top compiled.load)))
          ((Machine.new .lazy {}).setInterval compiled.load)).findSome? (·.recording?) with
      | some (_, l, label) => l.act.callee.isSome && !l.machine.capturing &&
          !Stmt.listReturnsInTry false l.act.func.body && !l.act.func.mentionsArguments &&
          match l.act.captureFrame l.machine.store label with
          | .call frame => ((frame.resume.observe (observer 8 8).1 []).told { l.machine with
              mode := .restoring, stack := ⟨[l.act.captureFrame l.machine.store label]⟩ }).all
                fun event => match event.partsAt? label with
                | some parts => !parts.isEmpty && parts.all (·.isSteady l.act.func)
                | none => true
          | _ => false
      | none => false) = some true := by decide +kernel
  obtain ⟨compiled, ok, run⟩ := Option.map_eq_some_iff.mp evaluated
  replace ok := Program.compile_of_toOption ok
  have accepted : Program.CompiledUnder (fun _ => True) .lazy compiled.load :=
    ⟨Program.storing, compiled, _, Program.firstSite, ok, rfl, rfl, trivial⟩
  have session : SessionOf (Program.CompiledUnder (fun _ => True) .lazy) .lazy {}
    (Machine.new .lazy {}) := .new rfl
  split at run
  · rename_i s₀ l label found
    simp only [Bool.and_eq_true, Bool.not_eq_true'] at run
    obtain ⟨⟨⟨⟨isCall, calm⟩, outside⟩, unmentioned⟩, steady⟩ := run
    obtain ⟨closure, called⟩ := Option.isSome_iff_exists.mp isCall
    obtain ⟨event, told, recording⟩ := List.exists_of_findSome?_eq_some found
    obtain ⟨rfl, records⟩ := Event.eq_of_recording? recording
    have nests : Func.Nests fun f => ∃ given : CompileOptions, given.strategy = .lazy ∧
        f.CompiledWith given :=
      Func.compiledWith_nests
    have inScope := (Machine.ReachesOf.run accepted).inScope nests (Program.CompiledUnder.yields
      fun _ runs _ => runs) session 8 _ told
    obtain ⟨given, _, compiles⟩ := ((Event.Moment.stmt.inScope nests inScope).ownScope closure
      called).code
    have restoring : { l.machine with
      mode := .restoring, stack := ⟨[l.act.captureFrame l.machine.store label]⟩ }.mode =
        .restoring := rfl
    obtain ⟨frame, captured, resumes⟩ := session.replay_completes (.run accepted) nofun
      8 told records .stmt called outside compiles (.inl unmentioned) (w := (observer 8 8).1)
      (by rw [(observer 8 8).2]; decide) restoring calm
      rfl rfl
    obtain ⟨there, here, s, again, atPoint, begins, _, _, completes⟩ := resumes []
    simp only [captured] at steady atPoint
    have parts : (Event.stmt (.pointAt label s again) there).partsAt? label = some s.parts := by
      simp [Event.partsAt?, Stmt.pointAt]
    have known := List.all_eq_true.mp steady _ atPoint
    simp only [parts, Bool.and_eq_true, Bool.not_eq_true', List.isEmpty_eq_false_iff,
      List.all_eq_true] at known
    obtain ⟨e, values, valued, ends⟩ := completes known.2
    exact ⟨compiled, ok, l, label, frame, here, s, again, e, values, captured, begins, known.1,
      valued, ends⟩
  · cases run

/-- A program that assigns a property of a variable to which the callee gives another object. -/
def Program.retargeted : Program :=
  { body := [.decl { name := some "h", params := ["k"], body := [.returnS (some .null)] },
      .letS "a" (some (.object [])), .letS "o" (some (.ident "a")),
      .decl { name := some "f", body := [
        .assign (.ident "o") (.object []),
        .expr (.call (.ident "captureCC") [.ident "h"]),
        .returnS (some (.bool true))] },
      .assign (.member (.ident "o") "x") (.call (.ident "f") []),
      .letS "r" (some (.member (.ident "a") "x")),
      .expr (.call (.ident "print") [.ident "r"]), .returnS none] }

/-- **A target can be another one after a capture.**  The callee of `o.x = f()` gives `o` another
object, and captures then.  The resumed statement stores into that one, and without captures the
first one has the value. -/
theorem Machine.run_retargeted :
    ((Program.retargeted.compile {}).toOption.map fun compiled =>
        ((Machine.new .lazy {}).run 20 compiled.load).map (·.2.output)) =
          some (some #["undefined"]) ∧
      ((Program.retargeted.compile { strategy := .fudge }).toOption.map fun compiled =>
        ((Machine.new .fudge {}).run 20 compiled.load).map (·.2.output)) =
            some (some #["true"]) := by
  decide +kernel

end Resumable
