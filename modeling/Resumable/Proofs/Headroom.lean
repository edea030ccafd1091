import Resumable.Proofs.Sessions
import Resumable.Proofs.Segments

/-!
Room for a call that was cut off.

A call that finds the depth used up is cut off: its frames are captured, and the stack is built up
again under a frame that makes the call once more.  While a stack is built up every function that is
entered again counts as a call, and so the budget is set to the depth and the number of frames.
Constructions do not count, nor do frames that are kept back.  What is left when the top frame is
reached is therefore never less than the depth and one more: the call is counted, has the whole
depth left, and goes on.
-/

namespace Resumable

/-! ## The options of a session -/

section Options

variable {strategy : Strategy} {m m' : Machine} {next : Next} {bound : Nat}

theorem Machine.drive_options {turns : Nat} {result : Except Fault Outcome}
    (done : m.drive bound turns next = some (result, m')) : m'.options = m.options := by
  refine Machine.drive_induction (fun _ m₁ => m₁.options = m.options) (fun _ m₁ =>
    m₁.options = m.options) ?_ ?_ rfl done
  · exact fun next m₁ following m₂ same taken => (Machine.turn_options taken).trans same
  · exact fun next m₁ result m₂ same taken => (Machine.turn_options taken).trans same

theorem Machine.nextTask_options {task : Task} (taken : m.nextTask? = some (task, m')) :
    m'.options = m.options := by
  obtain ⟨rest, _, rfl⟩ := Machine.nextTask_eq taken
  rfl

/-- The options with which a machine is made are checked, and stay. -/
theorem Session.checked (session : Session strategy m) : m.options.check = .ok () := by
  induction session with
  | new checked => exact checked
  | @run m m' program bound result before compiled done ih =>
    have runs : m.strategy = strategy := before.coherent.runs
    rw [compiled.run_eq runs] at done
    rw [Machine.drive_options done]
    exact ih
  | queue | setGlobal => assumption
  | hostTask _ taken ih =>
    rw [← Machine.nextTask_options taken] at ih
    exact ih
  | resumeTask _ taken done ih =>
    rw [← Machine.nextTask_options taken, ← Machine.drive_options done] at ih
    exact ih

theorem Machine.Reaches.options (reaches : m.Reaches strategy next m') :
    m'.options = m.options := by
  induction reaches with
  | run _ => rfl
  | task taken => exact Machine.nextTask_options taken
  | turn _ done ih => exact (Machine.turn_options done).trans ih

theorem RunOptions.two_le_of_check {options : RunOptions} (checked : options.check = .ok ())
    {size : Nat} (limited : options.stackSize = some size) : 2 ≤ size := by
  unfold RunOptions.check at checked
  rw [limited] at checked
  simp only at checked
  split at checked
  · cases checked
  · omega

end Options

/-! ## The call -/

section Calls

variable {strategy : Strategy} {g : Engine} {l : Local} {m : Machine}

/-- With two left a call is counted and goes on. -/
theorem Stmt.stackDec_goes_on {left : Int} (counted : l.machine.remaining = some left)
    (enough : 1 < left) : Stmt.stackDec.exec g l = .ok .normal ⟨l.act,
      { l.machine with remaining := some (left - 1) }⟩ := by
  have counts : Eval.countCall g l.act.startAgain l.machine =
      .ok false { l.machine with remaining := some (left - 1) } := by
    rw [Eval.countCall, Run.read_bind, counted]
    show (if _ then _ else _ : Eval Bool) { l.machine with remaining := some (left - 1) } = _
    rw [if_pos (by simp [enough])]
    rfl
  rw [Stmt.exec]
  show Run.bind (Exec.ofEval fun act => Eval.countCall g act.startAgain) _ l = _
  simp only [Run.bind, Exec.ofEval, counts]
  rfl

/-- What is run next is a call with this budget, and it is not cut off: a function is entered, and
gets beyond the statement that counts its call. -/
def Run.GoesOn (g : Engine) (left : Int) (run : Eval Value) (m : Machine) : Prop :=
  ∃ act opening rest entered after, run m = Eval.runBody g act (opening ++ .stackDec :: rest)
    entered ∧ entered.remaining = some left ∧ Stmt.execList g (opening ++ [.stackDec]) ⟨act,
      entered⟩ = .ok .normal after ∧
    after.machine.remaining = some (left - 1)

/-- The body of a resumable function gets beyond its beginning. -/
theorem Func.Resumes.opens {f : Func} (resumable : f.Resumes strategy) (g : Engine) (l : Local)
    {left : Int} (counted : l.machine.remaining = some left) (enough : 1 < left) :
    ∃ opening rest after, f.body = opening ++ .stackDec :: rest ∧
      Stmt.execList g (opening ++ [.stackDec]) l = .ok .normal after ∧
      after.machine.remaining = some (left - 1) := by
  -- whatever is done before, the call is counted with the same budget
  have counts : ∀ store, Stmt.execList g [.stackDec] ⟨l.act, { l.machine with store }⟩ =
      .ok .normal ⟨l.act, { l.machine with store, remaining := some (left - 1) }⟩ := by
    intro store
    have one : Stmt.stackDec.exec g ⟨l.act, { l.machine with store }⟩ = _ :=
      Stmt.stackDec_goes_on counted enough
    show Run.bind (Stmt.stackDec.exec g) _ ⟨l.act, { l.machine with store }⟩ = _
    rw [Run.bind, one]
    rfl
  cases resumable with
  | @intro _ opening rest bare bodyEq _ =>
    rcases bare with rfl | rfl
    · exact ⟨[], .restoreFrame :: rest, _, bodyEq, counts l.machine.store, rfl⟩
    · exact ⟨_, .restoreFrame :: rest, _, bodyEq,
        counts (l.machine.store.declare l.act.scope newTargetLocal l.act.newTarget), rfl⟩

/-- A call of a known activation is made again. -/
theorem Activation.Known.startAgain_goesOn {act : Activation} (known : act.Known strategy m.store)
    {left : Int} (counted : m.remaining = some left) (enough : 1 < left) :
    (act.startAgain.performWith g).GoesOn g left m := by
  unfold Activation.startAgain Activation.invoke
  cases callee : act.callee with
  | some closure =>
    have same : (m.store.closure closure).func = act.func := (known.2 closure callee).2
    let entered : Activation :=
      { scope := (m.store.enterScope act.func (m.store.closure closure).env act.args).1,
        this := act.this, func := act.func, callee := some closure, args := act.args,
        argCount := act.args.length,
        newTarget := act.newTarget }
    let begun : Machine :=
      { m with store := (m.store.enterScope act.func (m.store.closure closure).env act.args).2 }
    have enters : (Action.enter closure act.this act.args act.newTarget).performWith g m =
        Eval.runBody g entered act.func.body begun := by
      unfold entered begun
      rw [← same]
      rfl
    obtain ⟨opening, rest, after, body, ran, left⟩ :=
      known.1.opens g ⟨entered, begun⟩ counted enough
    exact ⟨entered, opening, rest, begun, after, body ▸ enters, counted, ran, left⟩
  | none =>
    let begun : Machine := { m with store := m.store.hoist Store.globals act.func.body }
    have enters : (Action.enterTop act.func).performWith g m =
        Eval.runBody g { scope := Store.globals, func := act.func } act.func.body begun := rfl
    obtain ⟨opening, rest, after, body, ran, left⟩ :=
      known.1.opens g ⟨{ scope := Store.globals, func := act.func }, begun⟩ counted enough
    exact ⟨_, opening, rest, begun, after, body ▸ enters, counted, ran, left⟩

end Calls

/-! ## The turn -/

section Turns

variable {strategy : Strategy} {m m₁ m₂ : Machine} {next : Next} {bound : Nat}

/-- Whatever is begun in a turn of a session is expected. -/
theorem Machine.Coherent.expected (coherent : m.Coherent strategy)
    (fits : next.Fits strategy m.store) : ∀ event ∈ m.chronicle bound next, event.Expected :=
  (coherent.observed_meets fits bound).told

/-- If no capture is under way when a turn begins, none is while the stack is built up. -/
theorem Machine.Coherent.idle_at_reentry (coherent : m.Coherent strategy)
    (fits : next.Fits strategy m.store) (idle : m.capturing = false) {before after : List Event}
    {m₁ : Machine}
    (told : m.chronicle bound next = before ++ .reentry m₁ :: after) : m₁.capturing = false ∧
    m₁.Roomy := by
  have expected : ∀ event ∈ m.chronicle bound next, event.Expected := coherent.expected fits
  obtain ⟨_, restoring, roomy⟩ := expected (.reentry m₁) (by simp [told])
  obtain ⟨⟨shadow, course⟩, _⟩ := Machine.chronicle_course told rfl
  obtain ⟨_, _, _, _, _, _, begun⟩ := m.begin_eq next
  have capturing : m₁.capturing = false := by
    refine course.idle (fun context handler raised mem => ?_) (by rw [begun]; exact idle) restoring
    exact (expected _ (told ▸ List.mem_append_left _ mem)).2
  exact ⟨capturing, roomy capturing⟩

/-- The handler of a capture that has come to the driver fits. -/
theorem Machine.EndsCaptured.handler_fits {handler : CaptureHandler} {captured : Stack}
    (coherent : m.Coherent strategy) (fits : next.Fits strategy m.store)
    (ends : m.EndsCaptured bound next handler captured m₁) :
    handler.Fits strategy m₁.store := by
  have meets := (coherent.observed_meets fits bound).ends
  rw [Machine.erase_observed] at meets
  rcases ends with ended | ⟨value, ended, _, _, rfl, _⟩
  · rw [ended] at meets
    exact meets.2.2.1
  · rw [ended] at meets
    have sound : m₁.Sound strategy [] := meets
    cases held : m₁.pendingHandler with
    | none => trivial
    | some handler => exact sound.handler handler held

/-- **A call that is cut off is not cut off again.**  When a call was cut off, the stack that was
captured is restored under a frame that makes the call again.  Wherever a frame is entered on the
way, the budget is at least the depth and one for each frame that is left.  So when the call is made
the whole depth is left after it is counted, however many frames were entered, and the function that
is called gets beyond the statement that counts its call. -/
theorem Session.cutOff_makes_room {again : Action} {captured : Stack} {size : Nat}
    (session : Session strategy m) (limited : m.options.stackSize = some size)
    (reaches : m.Reaches strategy next m₁)
    (ends : m₁.EndsCaptured bound next (.reenter again) captured m₂) :
    ∃ stack m₃, m₁.turn bound next = some (.next (.restore stack), m₃) ∧
      stack.innermost? = some (.top again) ∧ ∀ bound' before m₄ after, m₃.chronicle bound'
        (.restore stack) = before ++ .reentry m₄ :: after → ∃ left, m₄.remaining = some left ∧
          (size : Int) + m₄.stack.length ≤ left ∧ (m₄.stack.outermost? = some (.top again) →
            (size : Int) ≤ left - 1 ∧ ∀ depth, (Eval.reenterNext ⟨bound', perform bound'
              (depth + 1)⟩).GoesOn ⟨bound', perform bound' depth⟩ left m₄) := by
  obtain ⟨coherent₁, fits₁⟩ := reaches.coherent session.coherent
  obtain ⟨act, known, rfl⟩ := ends.handler_fits coherent₁ fits₁
  obtain ⟨_, _, _, turned⟩ := ends.turn_afterCapture
  refine ⟨_, _, turned, rfl, fun bound' before m₄ after told => ?_⟩
  obtain ⟨coherent₃, fits₃⟩ := coherent₁.turn fits₁ turned
  replace fits₃ : Next.Fits strategy _ (.restore _) := fits₃
  obtain ⟨_, roomy⟩ := coherent₃.idle_at_reentry fits₃ rfl told
  -- the options and the closures are still those of the session
  obtain ⟨⟨shadow, course⟩, _⟩ := Machine.chronicle_course told rfl
  obtain ⟨_, _, _, _, _, _, begun⟩ := Machine.begin_eq (.restore _) _
  rw [begun] at course
  have options : m₄.options = m.options :=
    (congrArg (·.2.1) course.fixed_eq).trans ((Machine.turn_options turned).trans reaches.options)
  have stillKnown : act.Known strategy m₄.store := known.mono course.calm
  obtain ⟨left, counted, fitting⟩ := roomy size (options ▸ limited)
  refine ⟨left, counted, fitting, fun top => ?_⟩
  have enough : 2 ≤ size := RunOptions.two_le_of_check session.checked limited
  have one : 1 ≤ m₄.stack.length := List.length_pos_of_mem (Stack.mem_of_outermost top)
  refine ⟨by omega, fun depth => ?_⟩
  have entered : Eval.reenterNext ⟨bound', perform bound' (depth + 1)⟩ m₄ =
      act.startAgain.performWith ⟨bound', perform bound' depth⟩ { m₄ with
        stack := .empty, mode := .normal } := by
    rw [Eval.reenterNext, Run.read_bind, top]
    rfl
  unfold Run.GoesOn
  rw [entered]
  exact Activation.Known.startAgain_goesOn (m := { m₄ with stack := .empty, mode := .normal })
    stillKnown counted (by omega)

/-- The call of a function without arguments is made again. -/
def Event.makesAgain (closure : ClosureId) : Event → Bool
  | .reentry m => match m.stack.outermost? with
    | some (.top (.enter again .undefined [] .undefined)) => decide (again = closure)
    | _ => false
  | _ => false

theorem Program.oneCall_makesAgain :
    ((Program.oneCall.compile {}).toOption.map fun compiled =>
      let m := (Machine.new .lazy { stackSize := some 2 }).setInterval compiled.load
      let next := .run (.enterTop (Machine.top compiled.load))
      match Eval.start (engine 8) next m, m.turn 8 next with
      | .unwind (.signal (.capture (.reenter (.enter closure .undefined [] .undefined)) _)) _,
        some (.next (.restore stack), m₃) => (m₃.chronicle 8 (.restore stack)).any
          (·.makesAgain closure)
      | _, _ => false) = some true := by decide +kernel

/-- With a depth of two the one call of the program is cut off, and made again with three left. -/
theorem Session.cutOff_makes_room_of_oneCall :
    ∃ compiled, Program.oneCall.compile {} = .ok compiled ∧ ∃ again stack m₃ before m₄ after left,
      ((Machine.new .lazy { stackSize := some 2 }).setInterval compiled.load).turn 8
        (.run (.enterTop (Machine.top compiled.load))) = some (.next (.restore stack), m₃) ∧
      m₃.chronicle 8 (.restore stack) = before ++ .reentry m₄ :: after ∧
      m₄.stack.outermost? = some (.top again) ∧ m₄.remaining = some left ∧ 3 ≤ left ∧
      ∀ depth, (Eval.reenterNext ⟨8, perform 8 (depth + 1)⟩).GoesOn ⟨8, perform 8 depth⟩ left
          m₄ := by
  obtain ⟨compiled, ok, found⟩ := Option.map_eq_some_iff.mp Program.oneCall_makesAgain
  replace ok := Program.compile_of_toOption ok
  simp only at found
  split at found
  · rename_i closure captured m₂ stack m₃ ended turned
    have session : Session .lazy (Machine.new .lazy { stackSize := some 2 }) := .new rfl
    have reaches : (Machine.new .lazy { stackSize := some 2 }).Reaches .lazy _ _ :=
      .run ⟨Program.oneCall, compiled, _, Program.firstSite, ok, rfl, rfl⟩
    obtain ⟨_, _, same, _, rooms⟩ := session.cutOff_makes_room rfl reaches (.inl ended)
    cases turned.symm.trans same
    obtain ⟨event, mem, made⟩ := List.any_eq_true.mp found
    obtain ⟨before, after, told⟩ := List.append_of_mem mem
    cases event with
    | reentry m₄ =>
      simp only [Event.makesAgain] at made
      split at made
      · rename_i again top
        obtain ⟨left, counted, _, goesOn⟩ := rooms 8 before m₄ after told
        rw [of_decide_eq_true made] at top
        obtain ⟨enough, goes⟩ := goesOn top
        exact ⟨compiled, ok, _, stack, m₃, before, m₄, after, left, turned, told, top, counted, by
          omega, goes⟩
      · cases made
    | _ => cases made
  · cases found

end Turns

end Resumable
