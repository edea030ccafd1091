import Resumable.Proofs.Descent
import Resumable.Proofs.MeasuredCompiled

/-!
How deep calls are nested.

`nesting` is the largest number of functions that are entered inside one another while an action is
done, and `Machine.nesting` the largest number in a turn.  An action that is begun is counted with
the machine as it is where it is begun, so that the number is one for every moment of the turn.

Every function that is entered takes from the budget, so the budget bounds the number, by induction
on the depth to which actions are nested.
-/

namespace Resumable

/-- Who is told where actions are begun, and nothing of what they do. -/
def shallowObserver (bound depth : Nat) : Observer where
  engine := ⟨bound, perform bound depth⟩
  perform _ action := do
    Observed.note (.action action)
    .lift (perform bound depth action)
  faithful _ _ := rfl

/-- What an action tells of itself, once it is begun. -/
def Action.begun (bound depth : Nat) (action : Action) (m : Machine) : List Event :=
  ((action.observe (shallowObserver bound depth) []).told m).tail

/-- The largest of the numbers that belong to the actions which are begun. -/
def deepest (count : Action → Machine → Nat) : List Event → Nat
  | [] => 0
  | .action action m :: rest => max (count action m) (deepest count rest)
  | _ :: rest => deepest count rest

/-- How many functions are entered inside one another, at most, while an action is done. -/
def nesting (bound : Nat) : Nat → Action → Machine → Nat
  | 0, _, _ => 0
  | depth + 1, action, m =>
    let begun := action.begun bound depth m
    (begun.any (·.isBody)).toNat + deepest (nesting bound depth) begun

/-- How many functions are entered inside one another, at most, in a turn. -/
def Machine.nesting (bound : Nat) (next : Next) (m : Machine) : Nat :=
  deepest (Resumable.nesting bound bound) ((Eval.observeStart (shallowObserver bound bound)
    next).told m)

theorem deepest_le {count : Action → Machine → Nat} {n : Nat} {events : List Event}
    (le : ∀ action m, .action action m ∈ events → count action m ≤ n) :
    deepest count events ≤ n := by
  induction events with
  | nil => exact Nat.zero_le n
  | cons event rest ih =>
    have restLe := ih fun action m mem => le action m (List.mem_cons_of_mem _ mem)
    cases event with
    | action action m => exact Nat.max_le.mpr ⟨le action m List.mem_cons_self, restLe⟩
    | _ => exact restLe

section Budgets

variable {strategy : Strategy} {options : RunOptions} {b : Budget} {bound depth : Nat}
  {action : Action} {m : Machine}

/-- However the action goes on, it ends within the budget. -/
theorem Observed.Begins.ends {x : Observed Machine Value} (begins : x.Begins strategy options b m) :
    (x.erase m).Meets (fun _ m' => m'.Keeps strategy options b)
      (fun reason m' => m'.Keeps strategy options b ∧ reason.OfCode (Func.Measured strategy)) := by
  rcases begins with within | entered
  · exact within.ends
  · exact (entered (b.depth.toNat + b.frames) (by omega) (by omega)).ends

/-- Whatever is done within some depth keeps to the budget. -/
theorem shallowObserver_within (bound depth : Nat) : (shallowObserver bound depth).Within strategy
    options := by
  induction depth with
  | zero =>
    intro context action m b keeps enterable
    exact .noted ⟨keeps, enterable⟩ (.lift trivial)
  | succ depth ih =>
    intro context action m b keeps enterable
    obtain ⟨x, eq, begins⟩ := Action.observe_begins ih context keeps enterable
    have performed : x.erase = perform bound (depth + 1) action := by
      have erased := Action.erase_observe (shallowObserver bound depth) context action
      rw [eq, Observed.erase_bind, Observed.erase_note, pure_bind] at erased
      exact erased
    refine .noted ⟨keeps, enterable⟩ (.lift ?_)
    rw [← performed]
    exact begins.ends

/-- Where no frame is left there is nothing to enter. -/
theorem nesting_of_no_frames (keeps : m.Keeps strategy options b)
    (enterable : action.Enterable strategy m) (none : b.frames = 0) :
    nesting bound depth action m = 0 := by
  cases mode : m.mode with
  | normal =>
    have entered := keeps.entered mode
    omega
  | restoring =>
    have frames := keeps.frames mode
    rcases enterable.2 mode with rfl | positive
    · have empty : m.stack = .empty := by
        have length : m.stack.frames.length = 0 := Nat.le_zero.mp (none ▸ frames)
        exact congrArg Stack.mk (List.length_eq_zero_iff.mp length)
      cases depth with
      | zero => rfl
      | succ depth =>
        have begun : Action.begun bound depth .reenterNext m = [.reentry m] := by
          obtain ⟨strategy, options, mode, stack⟩ := m
          cases empty
          rfl
        rw [nesting, begun]
        rfl
    · omega

theorem nesting_le {n : Nat} (keeps : m.Keeps strategy options b)
    (enterable : action.Enterable strategy m) (depthLe : b.depth ≤ n) (framesLe : b.frames ≤ n) :
    nesting bound depth action m ≤ n := by
  induction depth generalizing action m b n with
  | zero => exact Nat.zero_le n
  | succ depth ih =>
    cases n with
    | zero => exact Nat.le_of_eq (nesting_of_no_frames keeps enterable (Nat.le_zero.mp framesLe))
    | succ n =>
      obtain ⟨x, eq, begins⟩ := Action.observe_begins (shallowObserver_within bound depth)
        [] keeps enterable
      have begun : action.begun bound depth m = x.told m := by
        rw [Action.begun, eq]
        rfl
      rw [nesting, begun]
      rcases begins with within | entered
      · have noBody : (x.told m).any (·.isBody) = false := by
          rw [List.any_eq_false]
          intro event mem
          have := within.told event mem
          cases event with
          | body act m => exact this.elim
          | _ => exact Bool.false_ne_true
        rw [noBody, Bool.toNat_false, Nat.zero_add]
        refine deepest_le fun action m mem => ?_
        obtain ⟨keeps', enterable'⟩ := within.told _ mem
        exact ih keeps' enterable' depthLe framesLe
      · have le : deepest (nesting bound depth) (x.told m) ≤ n := by
          refine deepest_le fun action m mem => ?_
          obtain isBody | ⟨keeps', enterable'⟩ := (entered n depthLe framesLe).told _ mem
          · cases isBody
          · exact ih keeps' enterable' (Int.le_refl _) (Nat.le_refl _)
        have one := Bool.toNat_le ((x.told m).any (·.isBody))
        omega

end Budgets

/-! ## Turns -/

section Turns

variable {strategy : Strategy} {options : RunOptions} {m m' : Machine} {next : Next} {size : Nat}

/-- What there is at the beginning of a turn.  Frames that are entered again are given to the depth.
-/
def RunOptions.budget (options : RunOptions) (size : Nat) : Budget :=
  ⟨false, size + options.restoreFrames + 1, size + options.restoreFrames + 1⟩

/-- A stack that is installed is within the budget, since the rest of it is kept back. -/
theorem Machine.Hosts.install_keeps (hosts : m.Hosts strategy options (Func.Measured strategy))
    (captures : strategy ≠ .fudge) (limited : options.stackSize = some size) {stack : Stack}
    (stackCode : stack.OfCode (Func.Measured strategy)) :
    (m.install stack).Keeps strategy options (options.budget size) := by
  let inner := (stack.splitOuter (options.restoreFrames + 1)).1
  have short : inner.length ≤ options.restoreFrames + 1 := List.length_take_le _ _
  have installed : (m.install stack).remaining = some (size + inner.length : Int) ∧
      (m.install stack).stack = inner ∧ (m.install stack).mode = .restoring := by
    rw [Machine.install, Machine.segment, hosts.options, limited]
    exact ⟨rfl, rfl, rfl⟩
  obtain ⟨remaining, stackEq, mode⟩ := installed
  exact {
    captures
    hosts := hosts.install stackCode
    depth := ⟨size + inner.length, remaining, by simp only [RunOptions.budget]; omega⟩
    frames := fun _ => by
      rw [stackEq]
      simp only [RunOptions.budget]
      omega
    entered := fun _ => Nat.le_add_left _ _
    normal := fun h => nomatch h }

theorem Observed.Within.hosts {x : Observed Machine Value} {b : Budget}
    (within : x.Within strategy options b m) : x.Tells (Event.Within strategy options b) m
      (fun _ m' => m'.Hosts strategy options (Func.Measured strategy)) (fun reason m' =>
        m'.Hosts strategy options (Func.Measured strategy) ∧
            reason.OfCode (Func.Measured strategy)) :=
  within.weaken (fun _ _ keeps => keeps.hosts) fun _ _ ends => ⟨ends.1.hosts, ends.2⟩

/-- A turn begins everything within the budget. -/
theorem Eval.observeStart_tells {w : Observer} (observes : w.Within strategy options)
    (captures : strategy ≠ .fudge) (limited : options.stackSize = some size)
    (hosts : m.Hosts strategy options (Func.Measured strategy))
    (nextCode : next.OfCode (Func.Measured strategy)) :
    (Eval.observeStart w next).Tells (Event.Within strategy options (options.budget size)) m
      (fun _ m' => m'.Hosts strategy options (Func.Measured strategy))
      (fun reason m' => m'.Hosts strategy options (Func.Measured strategy) ∧
        reason.OfCode (Func.Measured strategy)) := by
  have restarted : { m with remaining := m.options.stackSize.map Int.ofNat }.Hosts strategy options
      (Func.Measured strategy) := { hosts with }
  refine .modify ?_
  cases next with
  | run action =>
    refine .modify (Observed.Within.hosts (observes _ _ _ _ ?_ ⟨nextCode, fun restoring =>
      nomatch restoring⟩))
    exact {
      captures
      hosts := { hosts with stack := .empty, shadow := .empty }
      depth := ⟨size, by simp [hosts.options, limited], by simp only [RunOptions.budget]; omega⟩
      frames := fun restoring => nomatch restoring
      entered := fun _ => Nat.le_add_left _ _
      normal := fun h => nomatch h }
  | restore stack =>
    cases empty : stack.isEmpty with
    | true =>
      simp only [empty, if_true]
      exact .lift ⟨restarted, trivial⟩
    | false =>
      simp only [empty]
      refine .modify (Observed.Within.hosts (Eval.observeReenterNext_within observes ?_))
      exact restarted.install_keeps captures limited nextCode

theorem Machine.turnsWithin_measured (captures : strategy ≠ .fudge)
    (limited : options.stackSize = some size) : Machine.TurnsWithin strategy options
    (Func.Measured strategy) fun _ => True := by
  intro bound m next hosts _ nextCode
  have tells := Eval.observeStart_tells (shallowObserver_within bound bound) captures limited hosts
    nextCode
  have ends := tells.ends
  rw [Eval.erase_observeStart] at ends
  exact ends.weaken (fun _ _ hosts => ⟨hosts, trivial⟩) fun _ _ both => ⟨⟨both.1, trivial⟩, both.2⟩

/-- In a turn, as many functions are entered inside one another as the depth and the frames that are
entered again allow for. -/
theorem Machine.Hosts.nesting_le (captures : strategy ≠ .fudge)
    (limited : options.stackSize = some size) (hosts : m.Hosts strategy options
      (Func.Measured strategy)) (nextCode : next.OfCode (Func.Measured strategy))
    (bound : Nat) : m.nesting bound next ≤ size + options.restoreFrames + 1 := by
  have tells := Eval.observeStart_tells (shallowObserver_within bound bound) captures limited hosts
    nextCode
  refine deepest_le fun action m mem => ?_
  obtain ⟨keeps, enterable⟩ := tells.told _ mem
  exact Resumable.nesting_le keeps enterable (Int.le_refl _) (Nat.le_refl _)

end Turns

/-! ## Sessions -/

/-- A program as a machine is given it, compiled from a source that returns no call, and nothing
inside of a `try`. -/
def Program.PlainFor (strategy : Strategy) (program : Program) : Prop :=
  ∃ (source compiled : Program) (options : CompileOptions) (site : Nat),
    source.compile options = .ok compiled ∧ options.strategy = strategy ∧
      program = (compiled.number site).1 ∧ (Machine.top source).Throughout Func.ReturnsPlainly

theorem Program.PlainFor.yields {strategy : Strategy} :
    Program.Yields (Program.PlainFor strategy) strategy (Func.Measured strategy) where
  compiled := by
    rintro _ ⟨source, compiled, options, site, ok, same, rfl, _⟩
    exact ⟨source, compiled, options, site, ok, same, rfl⟩
  top := by
    rintro _ ⟨source, compiled, options, site, ok, rfl, rfl, plain⟩
    exact Program.number_code Func.measured_reloads (Program.compile_measured ok plain) site

/-- **Calls are nested as deep as the budget says**, at every moment of every slice: at most `size`
of them, and as many again as there are frames in a segment.  That the sources return no call, and
nothing inside of a `try`, is needed, since both give back depth that is still in use. -/
theorem Machine.ReachesOf.nesting_le_budget {strategy : Strategy} {options : RunOptions}
    {size : Nat} {m m' : Machine} {next : Next} (captures : strategy ≠ .fudge)
    (limited : options.stackSize = some size)
    (session : SessionOf (Program.PlainFor strategy) strategy options m)
    (reaches : m.ReachesOf (Program.PlainFor strategy) next m') (bound : Nat) :
    m'.nesting bound next ≤ size + options.restoreFrames + 1 := by
  have within := Machine.turnsWithin_measured captures limited
  have hosts := session.hosts Program.PlainFor.yields within .trivial
  obtain ⟨hosts', nextCode⟩ := reaches.hosts Program.PlainFor.yields within .trivial hosts
  exact hosts'.1.nesting_le captures limited nextCode bound

/-- How deep calls are nested in the second turn of a program that is compiled and run. -/
def Program.secondNesting (program : Program) (options : RunOptions) (bound : Nat) :
    Option Nat := do
  let compiled ← (program.compile {}).toOption
  let start := (Machine.new .lazy options).setInterval compiled.load
  match ← start.turn bound (.run (.enterTop (Machine.top compiled.load))) with
  | (.next next, m) => some (m.nesting bound next)
  | (.ended _, _) => none

/-- A function that calls itself without end. -/
def Program.endless : Program :=
  { body := [.decl { name := some "f", body := [.letS "x" (some (.call (.ident "f") [])),
      .returnS none] }, .letS "x" (some (.call (.ident "f") [])), .returnS none] }

/-- Its calls are nested as deep as they may be, and no deeper. -/
theorem Machine.ReachesOf.nesting_le_budget_of_endless :
    Program.endless.secondNesting { stackSize := some 2, restoreFrames := 1 } 12 = some 4 ∧
      ∀ depth, Program.endless.secondNesting { stackSize := some 2, restoreFrames := 1 } 12 =
        some depth → depth ≤ 2 + 1 + 1 := by
  refine ⟨by decide +kernel, fun depth evaluated => ?_⟩
  obtain ⟨compiled, ok, turned⟩ := Option.bind_eq_some_iff.mp evaluated
  obtain ⟨⟨turn, m⟩, done, found⟩ := Option.bind_eq_some_iff.mp turned
  cases turn with
  | ended result => cases found
  | next next =>
    have captures : Strategy.lazy ≠ .fudge := nofun
    have plain : (Machine.top Program.endless).Throughout Func.ReturnsPlainly :=
      .intro rfl (List.forall_mem_singleton.mpr (.intro rfl fun _ mem => nomatch mem))
    have accepted : Program.PlainFor .lazy compiled.load :=
      ⟨Program.endless, compiled, _, Program.firstSite, Program.compile_of_toOption ok, rfl,
        rfl, plain⟩
    cases found
    exact Machine.ReachesOf.nesting_le_budget captures rfl (.new rfl)
      (.turn (.run accepted) done) 12

/-- A function that returns a call of itself. -/
def Program.endlessTail : Program :=
  { body := [.decl { name := some "f", body := [.returnS (some (.call (.ident "f") []))] },
      .letS "x" (some (.call (.ident "f") [])), .returnS none] }

/-- Its calls give back the depth before they are made, and are nested as deep as there is room for.
-/
theorem Machine.nesting_of_endlessTail :
    Program.endlessTail.secondNesting { stackSize := some 2, restoreFrames := 1 } 12 = some 11 := by
  decide +kernel

end Resumable
