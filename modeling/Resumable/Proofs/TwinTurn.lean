import Resumable.Proofs.TwinCompiled
import Resumable.Proofs.TwinExec

/-!
Transparency of instrumentation.

Calls, constructions and whole turns of a pair of code end alike as long as the first begins no
transfer of control.  A call has a scope of its own, so inside of it there is one scope more that is
known to exist.  A construction of the second code has a frame that nobody looks at.

The main statement is `Program.instrument_transparent`: an accepted program and what instrumentation
makes of it end with the same result, the same output and corresponding stores.
-/

namespace Resumable

open NormalForm

section Turns

variable {sites : Sites} {floor : Nat} {w : Observer} {g : Engine}

/-! ## Calls -/

section

variable (oneToOne : sites.OneToOne) (engines : w.Twin sites g) (context : Context)

include oneToOne engines context

/-- Bodies that stand for one another, in activations that do. -/
theorem Eval.observeBody_twin {act act' : Activation} (acts : act.Twin sites act')
    (known : act.scope.index < floor) {body body' : List Stmt}
    (bodies : Stmt.Twins sites body body') :
    (observeBody w context act body).Twin (Machine.Twin sites floor) (runBody g act' body') :=
  observeBody_lockstep (fun _ _ related => ⟨acts, known, related⟩) (fun _ _ related =>
    related.machine) (bodies.observe oneToOne engines context)

/-- The scope of a call and its body. -/
theorem Eval.observeScope_twin {f f' : Func} (func : f.Twin sites f') {env env' : ScopeId}
    (sameEnv : env' = env) (closure : ClosureId) (this : Value) (args : List Value)
    (newTarget : Value) :
    (do
      let scope ← .lift (changeStore fun store => store.enterScope f env args)
      observeBody w context
        { scope, this, func := f, callee := some closure, args, argCount := args.length, newTarget }
        f.body : Observed Machine Value).Twin (Machine.Twin sites floor) (do
      let scope ← changeStore fun store => store.enterScope f' env' args
      runBody g
        { scope, this, func := f', callee := some closure, args, argCount := args.length,
          newTarget }
        f'.body) := by
  subst sameEnv
  intro m m' related calm
  obtain ⟨sameScope, entered⟩ := related.store.enterScope oneToOne func env' args
  have machines : Machine.Twin sites (m.store.scopes.size + 1)
      { m with store := (m.store.enterScope f env' args).2 }
      { m' with store := (m'.store.enterScope f' env' args).2 } :=
    { related with store := entered }
  have acts : Activation.Twin sites
      { scope := (m.store.enterScope f env' args).1, this, func := f, callee := some closure, args,
        argCount := args.length, newTarget }
      { scope := (m'.store.enterScope f' env' args).1, this, func := f',
        callee := some closure, args, argCount := args.length, newTarget } :=
    ⟨sameScope, rfl, func, rfl, rfl, rfl⟩
  have body : Stmt.Twins sites f.body f'.body := by
    cases func with
    | intro _ _ _ _ _ body => exact body
  have inner := observeBody_twin oneToOne engines context acts (Nat.lt_succ_self _) body _ _
    machines calm
  exact inner.mono fun _ _ twin => twin.weaken (Nat.le_succ_of_le related.store.floor)

/-- A call of closures that stand for one another. -/
theorem Eval.observeEnter_twin (closure : ClosureId) (this : Value) (args : List Value)
    (newTarget : Value) : (observeEnter w context closure this args newTarget).Twin
      (Machine.Twin sites floor) (enter g closure this args newTarget) := by
  intro m m' related calm
  have code := related.store.code closure
  exact observeScope_twin oneToOne engines context code.func code.env closure this args newTarget m
    m' related calm

/-- A call of any value. -/
theorem Action.observeCall_twin (func this : Value) (args : List Value) :
    ((Action.call func this args).observe w context).Twin (Machine.Twin sites floor)
      ((Action.call func this args).performWith g) := by
  intro m m' related calm
  obtain ⟨notTransfer, calm⟩ := List.forall_mem_cons.mp calm
  cases func with
  | closure id =>
    exact Eval.observeEnter_twin oneToOne engines context id this args .undefined m m' related calm
  | native native =>
    have notAbort : native ≠ .abortCC := by
      rintro rfl
      cases notTransfer
    exact Eval.observeNative_lockstep engines.bound (fun _ calm => calm)
      (engines.call floor) context notAbort this args m m' related calm
  | continuation id => cases notTransfer
  | fudged =>
    exact Eval.liftShown_lockstep engines.bound (Eval.firstArg args) .fudged m m' related calm
  | _ => exact Eval.liftShown_lockstep engines.bound _ .notFunction m m' related calm

end

/-! ## Constructions -/

/-- Only the frames that are kept for calls in progress change. -/
theorem Eval.changeKept_eq (strategy : Strategy) (f : Stack → Stack) (m : Machine) :
    ∃ shadow, changeKept strategy f m = .ok () { m with shadow } := by
  unfold changeKept
  split
  · exact ⟨f m.shadow, rfl⟩
  · exact ⟨m.shadow, rfl⟩

/-- Without a capture the frame is not needed. -/
theorem Eval.settleFramed_eq {m : Machine} (idle : m.capturing = false) (strategy : Strategy)
    (frame : Frame) (this : Value) {result : Except Unwind Value}
    (notSignal : ∀ signal, result ≠ .error (.signal signal)) :
    settleFramed strategy frame this result m = Run.settle (result.map (constructed this)) m := by
  match result with
  | .ok value =>
    show (if strategy = .retval && m.capturing then _ else pure (constructed this value) :
      Eval Value) m = _
    rw [idle, Bool.and_false]
    rfl
  | .error (.throw value) => rfl
  | .error (.signal signal) => exact absurd rfl (notSignal signal)
  | .error (.fault fault) => rfl

theorem Eval.changeKept_twin {x : Observed Machine α} {y : Eval α}
    (twin : x.Twin (Machine.Twin sites floor) y) (strategy : Strategy) (f : Stack → Stack) :
    x.Twin (Machine.Twin sites floor) (changeKept strategy f >>= fun _ => y) := by
  intro m m' related calm
  obtain ⟨shadow, changed⟩ := changeKept_eq strategy f m'
  show Ending.Twin _ _ (Run.bind (changeKept strategy f) _ m')
  unfold Run.bind
  rw [changed]
  exact twin m { m' with shadow } { related with } calm

/-- A function of the result, by way of what `attempt` finds. -/
theorem Observed.bind_pure_eq_attempt (x : Observed σ α) (f : α → β) :
    (x >>= fun a => Pure.pure (f a)) = x.attempt >>= fun result =>
    lift (Run.settle (result.map f)) := by
  funext s
  show Observed.bind x _ s = Observed.bind x.attempt _ s
  unfold Observed.bind Observed.attempt Run.attempt
  rcases x s with ⟨_ | _ | _, events⟩
  · rfl
  · exact Prod.ext rfl (List.append_nil events).symm
  · rfl

section

variable (oneToOne : sites.OneToOne)

include oneToOne

/-- A constructor that is called with a frame. -/
theorem Eval.observeFrame_twin (engines : w.Twin sites g) (context : Context) (closure : ClosureId)
    (args : List Value) (name : String) (this : Value) :
    (do return constructed this (← observeEnter w context closure this args (.closure closure)) :
      Observed Machine Value).Twin (Machine.Twin sites floor) (do
        let strategy ← Run.read (·.strategy)
        let frame := constructionFrame closure args ("new " ++ name) this
        changeKept strategy (·.pushInner frame)
        let result ← Run.attempt (enter g closure this args (.closure closure))
        changeKept strategy (·.dropInner)
        settleFramed strategy frame this result) := by
  have framed (strategy : Strategy) (frame : Frame) :
      (do return constructed this (← observeEnter w context closure this args (.closure closure)) :
        Observed Machine Value).Twin (Machine.Twin sites floor) (do
          changeKept strategy (·.pushInner frame)
          let result ← Run.attempt (enter g closure this args (.closure closure))
          changeKept strategy (·.dropInner)
          settleFramed strategy frame this result) := by
    refine changeKept_twin ?_ strategy _
    rw [Observed.bind_pure_eq_attempt]
    refine (observeEnter_twin oneToOne engines context closure this args _).attempt
      fun result notSignal => ?_
    refine changeKept_twin ?_ strategy _
    have coherent : ∀ signal, result.map (constructed this) ≠ .error (.signal signal) := by
      cases result with
      | ok value => nofun
      | error reason => exact notSignal
    exact .congr (.settle coherent) fun _ _ related => settleFramed_eq related.idle' strategy frame
      this notSignal
  exact fun m m' related calm => framed m'.strategy _ m m' related calm

/-- A construction, with a frame on the second side if it can be paused. -/
theorem Eval.observeConstruct_twin (engines : w.Twin sites g) (context : Context) (callee : Value)
    (args : List Value) :
    (observeConstruct w context callee args).Twin (Machine.Twin sites floor)
    (handleNew g callee args) := by
  cases callee with
  | closure id =>
    have made : (Observed.lift (makeInstance id)).Twin (Machine.Twin sites floor)
        (makeInstance id) :=
      .lift (makeInstance_twin id)
    intro m m' related calm
    rw [handleNew, Run.read_bind]
    split
    · have plain := made.bind fun this =>
        (observeEnter_twin oneToOne engines context id this args (.closure id)).bind fun value =>
          .pure (constructed this value)
      exact plain m m' related calm
    · have framed := made.bind fun this =>
        observeFrame_twin oneToOne engines context id args (m'.store.closure id).func.displayName
          this
      rw [constructFramed_eq, Run.read_bind, Run.read_bind, related.normal']
      exact framed m m' related calm
  | native native =>
    show (Observed.lift (if native.isConstructor then callNative w.engine native .undefined
      args else _)).Twin _ (if native.isConstructor then callNative g native .undefined args else _)
    split
    · rename_i made
      have quiet : native ∉ [.captureCC, .callCC, .abortCC] := by
        cases native <;> first | decide | cases made
      exact .lift (callNative_twin quiet engines.bound .undefined args)
    · exact liftShown_lockstep engines.bound _ .notConstructor
  | _ => exact liftShown_lockstep engines.bound _ .notConstructor

/-! ## Engines -/

/-- Within the same bounds, the engine stands for what the observer tells about. -/
theorem observer_twin (bound depth : Nat) : (observer bound depth).1.Twin sites ⟨bound,
    perform bound depth⟩ := by
  induction depth with
  | zero =>
    exact ⟨rfl, fun _ _ _ _ _ => .lift fun _ _ _ => .cutOff, fun _ _ _ _ => .lift fun _ _ _ =>
      .cutOff⟩
  | succ depth ih =>
    exact ⟨rfl, fun _ context func this args => Action.observeCall_twin oneToOne ih context func
      this args, fun _ context callee args => .noted (Eval.observeConstruct_twin oneToOne ih context
        callee args)⟩

/-! ## Turns -/

/-- The top levels of a pair. -/
theorem Action.observeTop_twin (engines : w.Twin sites g) (context : Context) (known : 0 < floor)
    {top top' : Func} (func : top.Twin sites top') :
    ((Action.enterTop top).observe w context).Twin (Machine.Twin sites floor)
      ((Action.enterTop top').performWith g) := by
  have body : Stmt.Twins sites top.body top'.body := by
    cases func with
    | intro _ _ _ _ _ body => exact body
  have acts : Activation.Twin sites { scope := Store.globals, func := top }
      { scope := Store.globals, func := top' } :=
    ⟨rfl, rfl, func, rfl, rfl, rfl⟩
  refine .noted (.bind (.lift (Eval.modifyStore_twin fun s s' stores => ?_)) fun _ => ?_)
  · exact stores.hoist oneToOne body Store.globals
  · exact Eval.observeBody_twin oneToOne engines context acts known body

/-- The turn that runs the top levels of a pair. -/
theorem Machine.Twin.start (bound : Nat) {m m' : Machine} (related : m.Twin sites floor m')
    (unlimited : m'.options.stackSize = none) (known : 0 < floor) {top top' : Func}
    (func : top.Twin sites top')
    (calm : ∀ event ∈ Machine.chronicle bound (.run (.enterTop top)) m, event.isTransfer = false) :
    (Eval.start (engine bound) (.run (.enterTop top)) m).Twin (Machine.Twin sites floor)
      (Eval.start (engine bound) (.run (.enterTop top')) m') := by
  rw [← Machine.erase_observed]
  have begun : Machine.Twin sites floor
      { m with
        remaining := m.options.stackSize.map Int.ofNat, mode := .normal, stack := .empty
        shadow := .empty }
      { m' with remaining := m'.options.stackSize.map Int.ofNat, mode := .normal, stack := .empty,
                shadow := .empty } :=
    { related with normal' := rfl, uncounted' := by rw [unlimited]; rfl }
  cases bound with
  | zero => exact .cutOff
  | succ bound =>
    exact Action.observeTop_twin oneToOne (observer_twin oneToOne (bound + 1) bound)
      [] known func _ _ begun calm

/-- A slice that runs the top levels of a pair is one turn. -/
theorem Machine.Twin.drive (bound : Nat) {m m' : Machine} (related : m.Twin sites floor m')
    (unlimited : m'.options.stackSize = none) (known : 0 < floor) {top top' : Func}
    (func : top.Twin sites top')
    (calm : ∀ event ∈ Machine.chronicle bound (.run (.enterTop top)) m, event.isTransfer = false) :
    Option.Rel (fun slice slice' => slice'.1 = slice.1 ∧ slice.2.Twin sites floor slice'.2)
      (m.drive bound bound (.run (.enterTop top)))
      (m'.drive bound bound (.run (.enterTop top'))) := by
  have idle : ∀ m m' : Machine, m.Twin sites floor m' → m.Idle ∧ m'.Idle :=
    fun _ _ twin => ⟨⟨twin.idle, twin.pending⟩, ⟨twin.idle', twin.pending'⟩⟩
  exact Machine.drive_twin idle (related.start oneToOne bound unlimited known func calm)

end

end Turns

/-! ## Programs -/

/-- A new machine has no code that could differ. -/
theorem Machine.new_twin {sites : Sites} (unloaded : sites 0 0) (strategy : Strategy)
    (options : RunOptions) : (Machine.new strategy options).Twin sites 1
    (Machine.new strategy options) where
  store :=
    { floor := show 1 ≤ Machine.initialStore.scopes.size by decide
      scopes := rfl
      parents _ := rfl
      vars _ _ _ := rfl
      objects := rfl
      arrays := rfl
      closures := rfl
      code _ := ⟨.intro rfl rfl rfl nofun unloaded .nil, rfl, rfl⟩ }
  strategy := rfl
  output := rfl
  tasks := rfl
  idle := rfl
  pending := rfl
  normal' := rfl
  uncounted' := rfl
  idle' := rfl
  pending' := rfl
  stats' := rfl

/-- The top levels of a pair, as they are loaded. -/
theorem Program.load_twin {options : CompileOptions} (wrapper : options.construction = .wrapper)
    {program : Program} (accepted : NormalForm.errors program = []) :
    ∃ sites : Sites, sites.OneToOne ∧ sites 0 0 ∧
      (Machine.top (program.withLayouts options).load).Twin sites
        (Machine.top (program.instrument options).load) := by
  -- code that is not loaded has the site 0 on both sides
  let unloaded : Sites := fun site site' => site = 0 ∧ site' = 0
  have below : unloaded.Below Program.firstSite Program.firstSite :=
    { oneToOne := by
        rintro a a' b b' ⟨rfl, rfl⟩ ⟨rfl, rfl⟩
        exact Iff.rfl
      below := by
        rintro a a' ⟨rfl, rfl⟩
        decide }
  obtain ⟨sites, more, below, bodies⟩ := (Program.top_twin wrapper accepted).load unloaded _ _ below
  have zero : sites 0 0 := more 0 0 ⟨rfl, rfl⟩
  have own : tailResult ∉ ["<top>"] := by decide
  refine ⟨sites, below.oneToOne, zero, .intro rfl rfl ?_ own zero bodies⟩
  have plain : (program.withLayouts options).load.instrumented = none :=
    (clean_of_errors_eq_nil accepted).1
  show _ = (((program.withLayouts options).load.instrumented.map (·.frame)).map (·.locals)).getD []
  rw [plain]
  rfl

/-- Instrumentation is transparent in normal mode.  If an accepted program with the layouts of its
instrumented form begins no transfer of control when it is run, the instrumented form ends within
the same bound with the same result, whether that is a value, an uncaught exception or a fault, with
the same output, with corresponding scopes, objects, arrays and closures, and without having
captured, restored, yielded or discarded anything. -/
theorem Program.instrument_transparent (bound : Nat) {options : CompileOptions}
    (wrapper : options.construction = .wrapper) {limits : RunOptions}
    (unlimited : limits.stackSize = none)
    {program : Program} (accepted : NormalForm.errors program = [])
    (calm : ∀ event ∈ Machine.chronicle bound
        (.run (.enterTop (Machine.top (program.withLayouts options).load)))
        (Machine.new options.strategy limits),
      event.isTransfer = false) :
    ∃ sites : Sites, sites.OneToOne ∧
      Option.Rel
        (fun (plain dual : Except Fault Outcome × Machine) =>
          dual.1 = plain.1 ∧ dual.2.output = plain.2.output ∧
            plain.2.store.Twin sites 1 dual.2.store ∧
            dual.2.stats = { captures := 0, restores := 0, yields := 0, discards := 0 })
        ((Machine.new options.strategy limits).run bound (program.withLayouts options).load)
        ((Machine.new options.strategy limits).run bound (program.instrument options).load) := by
  obtain ⟨sites, oneToOne, unloaded, tops⟩ := Program.load_twin wrapper accepted
  refine ⟨sites, oneToOne, ?_⟩
  have plain : (program.withLayouts options).load.instrumented = none :=
    (clean_of_errors_eq_nil accepted).1
  have runPlain : (Machine.new options.strategy limits).run bound
      (program.withLayouts options).load = (Machine.new options.strategy limits).drive bound bound
        (.run (.enterTop (Machine.top (program.withLayouts options).load))) := by
    unfold Machine.run Machine.setInterval
    rw [plain]
    exact if_neg (not_not_intro rfl)
  have runDual : (Machine.new options.strategy limits).run bound (program.instrument options).load =
      ((Machine.new options.strategy limits).setInterval (program.instrument options).load).drive
        bound bound (.run (.enterTop (Machine.top (program.instrument options).load))) :=
    if_neg (not_not_intro rfl)
  have fresh := Machine.new_twin unloaded options.strategy limits
  have begun : (Machine.new options.strategy limits).Twin sites 1
      ((Machine.new options.strategy limits).setInterval (program.instrument options).load) :=
      { fresh with }
  have slices := begun.drive oneToOne bound unlimited Nat.one_pos tops calm
  rw [runPlain, runDual]
  generalize Machine.drive bound bound _ (Machine.new options.strategy limits) = slice at slices ⊢
  generalize Machine.drive bound bound _ (Machine.setInterval _ _) = slice' at slices ⊢
  cases slices with
  | none => exact .none
  | some ends => exact .some ⟨ends.1, ends.2.output, ends.2.store, ends.2.stats'⟩

/-- A loop that calls a function, which constructs an object and returns a call inside of a `try`.
-/
def Program.busy : Program :=
  { body := [
      .decl { name := some "Pair", params := ["first"],
              body := [.assign (.member .this "first") (.ident "first")] },
      .decl { name := some "f", params := ["n"],
              body := [.letS "p" (some (.new (.ident "Pair") [.ident "n"])),
                .tryS (.block [.returnS (some (.call (.ident "g") [.ident "p"]))])
                  (some ⟨"e", .block [.returnS (some (.ident "e"))]⟩)
                  (some (.block [.expr (.call (.ident "print") [.str "left"])]))] },
      .decl { name := some "g", params := ["p"],
              body := [.letS "x" (some (.member (.ident "p") "first")),
                .ifS (.binary .lt (.ident "x") (.num 1)) (.throwS (.str "low")) none,
                .returnS (some (.ident "x"))] },
      .letS "i" (some (.num 0)),
      .labeled "each" (.whileS (.binary .lt (.ident "i") (.num 2)) (.block [
        .letS "r" (some (.call (.ident "f") [.ident "i"])),
        .expr (.call (.ident "print") [.ident "r"]),
        .assign (.ident "i") (.binary .add (.ident "i") (.num 1))])),
      .returnS (some (.call (.ident "f") [.ident "i"]))] }

theorem Program.instrument_transparent_of_busy : NormalForm.errors Program.busy = [] ∧
      ((Machine.new .retval {}).run 30 (Program.busy.withLayouts { strategy :=
        .retval }).load).isSome = true ∧
      ∃ sites : Sites, sites.OneToOne ∧
        Option.Rel
          (fun (plain dual : Except Fault Outcome × Machine) =>
            dual.1 = plain.1 ∧ dual.2.output =
              plain.2.output ∧ plain.2.store.Twin sites 1 dual.2.store ∧
              dual.2.stats = { captures := 0, restores := 0, yields := 0, discards := 0 })
          ((Machine.new .retval {}).run 30 (Program.busy.withLayouts { strategy := .retval }).load)
          ((Machine.new .retval {}).run 30 (Program.busy.instrument { strategy :=
              .retval }).load) := by
  have accepted : NormalForm.errors Program.busy = [] := by
    have none : (NormalForm.errors Program.busy).isEmpty = true := by decide +kernel
    exact List.isEmpty_iff.mp none
  have calm : ∀ event ∈ Machine.chronicle 30
      (.run (.enterTop (Machine.top (Program.busy.withLayouts { strategy := .retval }).load)))
      (Machine.new .retval {}), event.isTransfer = false := by
    decide +kernel
  exact ⟨accepted, by decide +kernel, Program.instrument_transparent 30 rfl rfl accepted calm⟩

end Resumable
