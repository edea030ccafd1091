import Resumable.Proofs.Measured
import Resumable.Proofs.Provenance
import Resumable.Proofs.Telling

/-!
The depth that calls take and give back.

A budget bounds what is left of a machine: the depth that calls may still take, and the frames that
may still be entered while a stack is built up.  A function in normal mode takes from the depth, and
one in restoring mode takes from the depth and a frame, so that what a function begins is within a
smaller budget than the function itself.  When it is left the budget is what it was before.

`Stmt.Dual.within` is the walk through the statements of a function.  Between them the budget stays
the same; what gives back the depth is a return, or unwinds the whole function, and a `try`
statement cannot see it.
-/

namespace Resumable

variable {α : Type} {event : Event} {x : Observed Machine α} {e : Expr} {value : Option Expr}

/-- What may be taken. -/
structure Budget where
  /-- Only in normal mode. -/
  normal : Bool
  depth : Int
  frames : Nat

/-- What is left of the machine is within the budget. -/
structure Machine.Keeps (strategy : Strategy) (options : RunOptions) (b : Budget) (m : Machine) :
    Prop where
  captures : strategy ≠ .fudge
  hosts : m.Hosts strategy options (Func.Measured strategy)
  depth : ∃ left, m.remaining = some left ∧ left ≤ b.depth
  frames : m.mode = .restoring → m.stack.length ≤ b.frames
  /-- Whoever is in normal mode has been entered. -/
  entered : m.mode = .normal → 1 ≤ b.frames
  normal : b.normal = true → m.mode = .normal

/-- What an action relies on: in restoring mode there is a frame for whatever is entered. -/
def Action.Enterable (strategy : Strategy) (action : Action) (m : Machine) : Prop :=
  action.OfCode (Func.Measured strategy) ∧
    (m.mode = .restoring → action = .reenterNext ∨ 1 ≤ m.stack.length)

/-- Actions are begun within the budget, and no function is entered but by them. -/
def Event.Within (strategy : Strategy) (options : RunOptions) (b : Budget) : Event → Prop
  | .action begun m => m.Keeps strategy options b ∧ begun.Enterable strategy m
  | .body _ _ => False
  | _ => True

/-- Only what is allowed is told, and the machine is within the budget at the end. -/
def Observed.Keeps (strategy : Strategy) (options : RunOptions) (b : Budget)
    (allowed : Event → Prop) (x : Observed Machine α) (m : Machine) : Prop :=
  x.Tells allowed m (fun _ m' => m'.Keeps strategy options b)
    (fun reason m' => m'.Keeps strategy options b ∧ reason.OfCode (Func.Measured strategy))

/-- All that the computation begins is within the budget, and so is the machine at the end. -/
def Observed.Within (strategy : Strategy) (options : RunOptions) (b : Budget)
    (x : Observed Machine α) (m : Machine) : Prop :=
  x.Keeps strategy options b (Event.Within strategy options b) m

/-- Everything that leaves an activation is within the budget that it is begun with. -/
def Observer.Within (strategy : Strategy) (options : RunOptions) (w : Observer) : Prop :=
  ∀ context action m b, Machine.Keeps strategy options b m → action.Enterable strategy m →
    (w.perform context action).Within strategy options b m

section Machines

variable {strategy : Strategy} {options : RunOptions} {b b' : Budget} {m m' : Machine}

namespace Machine

theorem Keeps.of_calm (keeps : m.Keeps strategy options b) {store : Store}
    (calm : m.store.Calm (Func.Measured strategy) store) :
    { m with store }.Keeps strategy options b :=
  { keeps with hosts := keeps.hosts.of_calm calm }

theorem Undisturbed.keeps (undisturbed : m.Undisturbed (Func.Measured strategy) m')
    (keeps : m.Keeps strategy options b) : m'.Keeps strategy options b := by
  obtain ⟨store, rfl, calm⟩ := undisturbed
  exact keeps.of_calm calm

section

variable (keeps : m.Keeps strategy options b)

include keeps

/-- A budget may be widened. -/
theorem Keeps.widen (depth : b.depth ≤ b'.depth) (frames : b.frames ≤ b'.frames)
    (normal : b'.normal = true → b.normal = true) : m.Keeps strategy options b' := by
  obtain ⟨left, remaining, le⟩ := keeps.depth
  exact { keeps with
    depth := ⟨left, remaining, Int.le_trans le depth⟩
    frames := fun restoring => Nat.le_trans (keeps.frames restoring) frames
    entered := fun isNormal => Nat.le_trans (keeps.entered isNormal) frames
    normal := fun h => keeps.normal (normal h) }

/-- Only how the depth is counted and what is on the stacks matters. -/
theorem Keeps.shadow {shadow : Stack} (ofCode : shadow.OfCode (Func.Measured strategy)) :
    { m with shadow }.Keeps strategy options b :=
  { keeps with hosts := { keeps.hosts with shadow := ofCode } }

/-- A frame on the outside of the stack is one more to enter. -/
theorem Keeps.pushOuter {frame : Frame} (ofCode : frame.action.OfCode (Func.Measured strategy)) :
    { m with stack := m.stack.pushOuter frame }.Keeps strategy options
    { b with frames := b.frames + 1 } := by
  refine { keeps with
    hosts := { keeps.hosts with stack := keeps.hosts.stack.pushOuter ofCode }
    frames := fun restoring => ?_
    entered := fun _ => Nat.le_add_left _ _ }
  have frames := keeps.frames restoring
  simpa [Stack.length, Stack.pushOuter] using frames

/-- A frame is taken from the outside of the stack. -/
theorem Keeps.dropOuter (restoring : m.mode = .restoring) :
    { m with stack := m.stack.dropOuter }.Keeps strategy options
    { b with frames := b.frames - 1 } := by
  refine { keeps with
    hosts := { keeps.hosts with stack := keeps.hosts.stack.dropOuter }
    frames := fun _ => ?_
    entered := fun normal => ?_ }
  · have frames := keeps.frames restoring
    simpa [Stack.length, Stack.dropOuter] using Nat.sub_le_sub_right frames 1
  · cases restoring.symm.trans normal

/-- In normal mode the budget for frames is of no use. -/
theorem Keeps.of_normal (depth : b.depth ≤ b'.depth) (normal : m.mode = .normal)
    (entered : 1 ≤ b'.frames) : m.Keeps strategy options b' := by
  obtain ⟨left, remaining, le⟩ := keeps.depth
  exact { keeps with
    depth := ⟨left, remaining, Int.le_trans le depth⟩
    frames := fun restoring => by rw [normal] at restoring; cases restoring
    entered := fun _ => entered
    normal := fun _ => normal }

end

end Machine

theorem Event.Within.widen (within : event.Within strategy options b) (depth : b.depth ≤ b'.depth)
    (frames : b.frames ≤ b'.frames) (normal : b'.normal = true → b.normal = true) :
    event.Within strategy options b' := by
  cases event with
  | action action m => exact ⟨within.1.widen depth frames normal, within.2⟩
  | body act m => exact within
  | _ => trivial

theorem Event.within_of_isExpr (isExpr : event.isExpr = true) :
    event.Within strategy options b := by
  cases event with
  | expr e act m => trivial
  | _ => cases isExpr

theorem Event.within_of_isGuard (isGuard : event.isGuard = true) :
    event.Within strategy options b := by
  cases event with
  | action action m | body act m => cases isGuard
  | _ => trivial

/-! ## Computations on a machine -/

namespace Observed

/-- Quiet computations begin nothing, and leave all of the machine but the store as it is. -/
theorem Quiet.tells (quiet : x.Quiet (Func.Measured strategy))
    (keeps : m.Keeps strategy options b) : x.Tells (Event.Within strategy options b') m
      (fun _ m' => m.Undisturbed (Func.Measured strategy) m' ∧ m'.Keeps strategy options b)
      (fun reason m' => m'.Keeps strategy options b ∧ reason.OfCode (Func.Measured strategy)) := by
  have ends := quiet.erase m
  refine ⟨fun event mem => Event.within_of_isExpr (quiet.told m event mem), ?_⟩
  cases ending : x.erase m with
  | ok a m' =>
    rw [ending] at ends
    exact ⟨ends, ends.keeps keeps⟩
  | unwind reason m' =>
    rw [ending] at ends
    obtain ⟨undisturbed, value, rfl⟩ := ends
    exact ⟨undisturbed.keeps keeps, trivial⟩
  | cutOff => trivial

theorem Quiet.within (quiet : x.Quiet (Func.Measured strategy))
    (keeps : m.Keeps strategy options b) : x.Within strategy options b m :=
  (quiet.tells keeps).weaken (fun _ _ ends => ends.2) fun _ _ ends => ends

theorem Within.pure {a : α} (keeps : m.Keeps strategy options b) :
    (Pure.pure a : Observed Machine α).Within strategy options b m :=
  Tells.pure keeps

theorem Within.bind {f : α → Observed Machine β} (first : x.Within strategy options b m)
    (second : ∀ a m', m'.Keeps strategy options b → (f a).Within strategy options b m') :
    (x >>= f).Within strategy options b m :=
  Tells.bind first second

/-- What follows a quiet computation begins in the same mode. -/
theorem Quiet.bind_within {k : α → Observed Machine β} (quiet : x.Quiet (Func.Measured strategy))
    (keeps : m.Keeps strategy options b)
    (next : ∀ a m', m'.Keeps strategy options b → m'.mode = m.mode →
      (k a).Within strategy options b m') :
    (x >>= k).Within strategy options b m := by
  refine Tells.bind (quiet.tells keeps) fun a m' ends => ?_
  refine next a m' ends.2 ?_
  obtain ⟨store, rfl, _⟩ := ends.1
  rfl

end Observed

variable {w : Observer} {context : Context} {act : Activation}

/-- In normal mode an application may leave the activation. -/
theorem Expr.Live.within (observes : w.Within strategy options)
    (live : e.Live (Func.Measured strategy)) (keeps : m.Keeps strategy options b)
    (normal : m.mode = .normal) :
    (e.observe w context act).Within strategy options b m := by
  by_cases isApp : e.isApplication = true
  · rw [Expr.observe_application isApp]
    refine Observed.Tells.noted trivial ?_
    refine (live.observeAction isApp).bind_within keeps fun action m' keeps' mode => ?_
    refine observes context action m' b keeps' ⟨?_, fun restoring => ?_⟩
    · obtain ⟨action, application⟩ := action
      cases action with
      | call | construct | handleNew | safePoint => trivial
      | _ => cases application
    · rw [mode, normal] at restoring
      cases restoring
  · have quiet := live.quiet_of_not_application (by simpa using isApp)
    exact quiet.observe.within keeps

theorem Expr.reenterNext_within (observes : w.Within strategy options)
    (keeps : m.Keeps strategy options b) : (Expr.reenterNext.observe w context act).Within strategy
    options b m := by
  rw [Expr.observe]
  exact Observed.Tells.noted trivial (observes context _ m b keeps ⟨trivial, fun _ => .inl rfl⟩)

theorem Expr.observeOption_within (keeps : m.Keeps strategy options b)
    (within : ∀ e ∈ value, (e.observe w context act).Within strategy options b m) :
    (Expr.observeOption w context act value).Within strategy options b m := by
  cases value with
  | none => exact .pure keeps
  | some e => exact within e rfl

/-- The value is evaluated once the parts of the target are, in the same mode. -/
theorem Target.Quiet.within {target : Target} {value : Expr}
    (quiet : target.Quiet (Func.Measured strategy)) (keeps : m.Keeps strategy options b)
    (valueWithin : ∀ m', m'.Keeps strategy options b → m'.mode = m.mode →
      (value.observe w context act).Within strategy options b m') :
    (target.observe w context value act).Within strategy options b m := by
  cases quiet with
  | ident =>
    refine .bind (valueWithin m keeps rfl) fun value m₁ keeps₁ => ?_
    exact (Observed.Quiet.lift (.modifyStore fun s => s.assign_calm _ _ value)).within keeps₁
  | member base =>
    refine base.observe.bind_within keeps fun base m₁ keeps₁ mode₁ => ?_
    refine .bind (valueWithin m₁ keeps₁ mode₁) fun value m₂ keeps₂ => ?_
    exact (Observed.Quiet.lift (Eval.still.giveProperty base _ value).quiet).within keeps₂
  | index base key =>
    refine base.observe.bind_within keeps fun base m₁ keeps₁ mode₁ => ?_
    refine key.observe.bind_within keeps₁ fun key m₂ keeps₂ mode₂ => ?_
    refine .bind (valueWithin m₂ keeps₂ (mode₂.trans mode₁)) fun value m₃ keeps₃ => ?_
    exact (Observed.Quiet.lift (Eval.still.setIndex base key value).quiet).within keeps₃

end Machines

/-! ## Activations -/

/-- The machine is within the budget, and all code that the activation can hand on is of the class.
-/
structure Local.Keeps (strategy : Strategy) (options : RunOptions) (b : Budget) (l : Local) :
    Prop where
  machine : l.machine.Keeps strategy options b
  code : l.act.func.Measured strategy
  caught : ∀ signal ∈ l.act.caught, signal.OfCode (Func.Measured strategy)

/-- A return gives back depth up to `exit`.  One that collects frames adds one of its own. -/
def Local.Returns (strategy : Strategy) (options : RunOptions) (b : Budget) (exit : Int)
    (l : Local) : Prop :=
  l.Keeps strategy options { b with depth := exit } ∨ l.machine.capturing = true ∧
    l.Keeps strategy options { b with depth := exit, frames := b.frames + 1 }

/-- What the statement begins is within the budget; so is what it leaves, unless the function is
left as well, and the depth is given back. -/
def Observed.WithinBody (strategy : Strategy) (options : RunOptions) (b : Budget) (exit : Int)
    (x : Observed Local Completion) (l : Local) : Prop :=
  x.Tells (Event.Within strategy options b) l
    (Completion.Leaves (Local.Keeps strategy options b) (Local.Returns strategy options b exit))
    (fun reason l' => l'.Keeps strategy options { b with depth := exit } ∧
      reason.OfCode (Func.Measured strategy))

section Activations

variable {strategy : Strategy} {options : RunOptions} {b b' : Budget} {exit : Int} {w : Observer}
  {context : Context} {l : Local} {m : Machine}

namespace Local

section

variable (here : l.Keeps strategy options b)

include here

/-- The activation stays as it is. -/
theorem Keeps.of_machine (keeps : m.Keeps strategy options b') : Keeps strategy options b'
    ⟨l.act, m⟩ :=
  ⟨keeps, here.code, here.caught⟩

theorem Keeps.widen (depth : b.depth ≤ b'.depth) (frames : b.frames ≤ b'.frames)
    (normal : b'.normal = true → b.normal = true) : l.Keeps strategy options b' :=
  ⟨here.machine.widen depth frames normal, here.code, here.caught⟩

/-- Depth that is given back. -/
theorem Keeps.later (le : b.depth ≤ exit) : l.Keeps strategy options { b with depth := exit } :=
  here.widen le (Nat.le_refl _) id

/-- A frame of the activation. -/
theorem Keeps.captureFrame (store : Store) (label : Nat) :
    (l.act.captureFrame store label).action.OfCode (Func.Measured strategy) :=
  Activation.invoke_ofCode here.code _ _

theorem Keeps.shadow {shadow : Stack} (ofCode : shadow.OfCode (Func.Measured strategy)) :
    Keeps strategy options b ⟨l.act, { l.machine with shadow }⟩ :=
  here.of_machine (here.machine.shadow ofCode)

theorem Keeps.dropShadow :
    Keeps strategy options b ⟨l.act, { l.machine with shadow := l.machine.shadow.dropInner }⟩ :=
  here.shadow here.machine.hosts.shadow.dropInner

end

end Local

namespace Observed

theorem Within.ofEval {x : Activation → Observed Machine α} (here : l.Keeps strategy options b)
    (le : b.depth ≤ exit) (within : (x l.act).Within strategy options b l.machine) :
    (ofEval x).Tells (Event.Within strategy options b) l (fun _ l' => l'.Keeps strategy options b)
      (fun reason l' => l'.Keeps strategy options { b with depth := exit } ∧
        reason.OfCode (Func.Measured strategy)) :=
  .ofEval (Tells.weaken within (fun _ _ keeps => here.of_machine keeps)
    fun _ _ ends => ⟨(here.of_machine ends.1).later le, ends.2⟩)

theorem Within.declare (here : l.Keeps strategy options b) (le : b.depth ≤ exit) (name : String)
    (value : Value) :
    (lift (Exec.declare name value)).Tells (Event.Within strategy options b) l
      (fun _ l' => l'.Keeps strategy options b)
      (fun reason l' => l'.Keeps strategy options { b with depth := exit } ∧
        reason.OfCode (Func.Measured strategy)) := by
  rw [Exec.declare, lift_ofEval]
  exact Within.ofEval here le
    ((Quiet.lift (.modifyStore fun s => s.declare_calm _ name value)).within here.machine)

/-- What follows a quiet computation begins in the same mode. -/
theorem Quiet.bind_withinBody {x : Activation → Observed Machine α}
    {k : α → Observed Local Completion} (quiet : (x l.act).Quiet (Func.Measured strategy))
    (here : l.Keeps strategy options b)
    (le : b.depth ≤ exit)
    (next : ∀ a l', l'.Keeps strategy options b → l'.machine.mode = l.machine.mode →
      (k a).WithinBody strategy options b exit l') :
    (ofEval x >>= k).WithinBody strategy options b exit l := by
  have first : (ofEval x).Tells (Event.Within strategy options b) l
      (fun _ l' => l'.Keeps strategy options b ∧ l'.machine.mode = l.machine.mode)
      (fun reason l' => l'.Keeps strategy options { b with depth := exit } ∧
        reason.OfCode (Func.Measured strategy)) := by
    refine .ofEval ((quiet.tells here.machine).weaken (fun a m' ends => ?_)
      fun reason m' ends => ⟨(here.of_machine ends.1).later le, ends.2⟩)
    refine ⟨here.of_machine ends.2, ?_⟩
    obtain ⟨store, rfl, _⟩ := ends.1
    rfl
  exact Tells.bind first fun a l' ends => next a l' ends.1 ends.2

/-- What is known of a wider budget, where the narrower one is for normal mode. -/
theorem WithinBody.of_normal {x : Observed Local Completion}
    (within : x.WithinBody strategy options { b with normal := true } exit l) :
    x.WithinBody strategy options b exit l := by
  have relax : ∀ {depth frames} {l : Local}, l.Keeps strategy options ⟨true, depth, frames⟩ →
      l.Keeps strategy options ⟨b.normal, depth, frames⟩ :=
    fun keeps => keeps.widen (Int.le_refl _) (Nat.le_refl _) fun _ => rfl
  refine Tells.weaken (Tells.allow within fun event => ?_) (fun completion l' left => ?_) ?_
  · exact fun within => within.widen (Int.le_refl _) (Nat.le_refl _) fun _ => rfl
  · cases completion with
    | «return» value => exact Or.imp relax (And.imp_right relax) left
    | _ => exact relax left
  · exact fun reason l' ends => ⟨relax ends.1, ends.2⟩

/-- What gives back nothing may be left where depth is given back. -/
theorem WithinBody.later {x : Observed Local Completion}
    (within : x.WithinBody strategy options b b.depth l) (le : b.depth ≤ exit) :
    x.WithinBody strategy options b exit l := by
  refine Tells.weaken within (fun completion l' left => ?_) fun reason l' ends =>
    ⟨ends.1.later le, ends.2⟩
  cases completion with
  | «return» value =>
    exact Or.imp (fun keeps => keeps.later le)
      (And.imp_right fun keeps => keeps.widen le (Nat.le_refl _) id) left
  | _ => exact left

theorem WithinBody.normal (here : l.Keeps strategy options b) :
    (Pure.pure Completion.normal : Observed Local Completion).WithinBody strategy options b
    exit l :=
  Tells.pure here

end Observed

/-! ## Statements -/

theorem Expr.Quiet.test_within {k : Bool → Observed Local Completion}
    (quiet : e.Quiet (Func.Measured strategy)) (here : l.Keeps strategy options b)
    (le : b.depth ≤ exit)
    (next : ∀ holds l', l'.Keeps strategy options b → l'.machine.mode = l.machine.mode →
      (k holds).WithinBody strategy options b exit l') :
    (e.observeTest w context >>= k).WithinBody strategy options b exit l :=
  Observed.Quiet.bind_withinBody (.bind quiet.observe fun _ => .pure _) here le next

/-- The test for normal mode. -/
theorem Expr.isNormal_within {k : Bool → Observed Local Completion}
    (whenNormal : l.machine.mode = .normal → (k true).WithinBody strategy options b exit l)
    (whenRestoring : l.machine.mode = .restoring → (k false).WithinBody strategy options b exit l) :
    (Expr.isNormal.observeTest w context >>= k).WithinBody strategy options b exit l := by
  have test : (Expr.isNormal.observeTest w context).Tells (Event.Within strategy options b) l
      (fun holds l' => l' = l ∧ holds = decide (l.machine.mode = .normal))
      (fun reason l' => l'.Keeps strategy options { b with depth := exit } ∧
        reason.OfCode (Func.Measured strategy)) :=
    .of_eq rfl (List.forall_mem_singleton.mpr trivial) ⟨rfl, rfl⟩
  refine Observed.Tells.bind test ?_
  rintro holds l' ⟨same, value⟩
  rw [same, value]
  cases mode : l.machine.mode with
  | normal => exact whenNormal mode
  | restoring => exact whenRestoring mode

section

variable (here : l.Keeps strategy options b) (le : b.depth ≤ exit)

include here le

/-- A value that is bound to a name. -/
theorem Stmt.letS_within {name : String} {init : Option Expr}
    (within : (Expr.observeOption w context l.act init).Within strategy options b l.machine) :
    ((Stmt.letS name init).observe w context).WithinBody strategy options b exit l := by
  rw [Stmt.observe]
  refine .noted trivial (.bind (Observed.Within.ofEval here le within) fun value l₁ here₁ => ?_)
  exact .bind (Observed.Within.declare here₁ le name value) fun _ l₂ here₂ => .pure here₂

theorem Stmt.assign_within {target : Target} {value : Expr}
    (within : (target.observe w context value l.act).Within strategy options b l.machine) :
    ((Stmt.assign target value).observe w context).WithinBody strategy options b exit l := by
  rw [Stmt.observe]
  exact .noted trivial (.bind (Observed.Within.ofEval here le within) fun _ l₁ here₁ => .pure here₁)

theorem Stmt.expr_within (within : (e.observe w context l.act).Within strategy options b
    l.machine) : ((Stmt.expr e).observe w context).WithinBody strategy options b exit l := by
  rw [Stmt.observe]
  refine .noted trivial (.bind (.discard (Observed.Within.ofEval here le within)) fun _ l₁ here₁ =>
    ?_)
  exact .pure here₁

theorem Stmt.returnS_within (within : (Expr.observeOption w context l.act value).Within strategy
    options b l.machine) : ((Stmt.returnS value).observe w context).WithinBody strategy options b
    exit l := by
  rw [Stmt.observe]
  refine .noted trivial (.bind (Observed.Within.ofEval here le within) fun value l₁ here₁ => ?_)
  exact .pure (.inl (here₁.later le))

end

/-- A statement that waits for the value of the next frame. -/
theorem Stmt.Reentering.within (observes : w.Within strategy options) {s : Stmt}
    (reentering : s.Reentering (Func.Measured strategy)) (here : l.Keeps strategy options b)
    (le : b.depth ≤ exit) : (s.observe w context).WithinBody strategy options b exit l := by
  induction reentering generalizing l with
  | letS => exact Stmt.letS_within here le (Expr.reenterNext_within observes here.machine)
  | assign target =>
    refine Stmt.assign_within here le (target.within here.machine fun m keeps _ => ?_)
    exact Expr.reenterNext_within observes keeps
  | expr => exact Stmt.expr_within here le (Expr.reenterNext_within observes here.machine)
  | guarded test _ ih =>
    rw [Stmt.guarded, Stmt.observe]
    refine .noted trivial (test.test_within here le fun holds l₁ here₁ _ => ?_)
    cases holds with
    | false => exact .pure here₁
    | true => exact ih here₁

/-- A plain `return` with whatever depth there is. -/
theorem Stmt.plainReturn_tells (quiet : ∀ e ∈ value, e.Quiet (Func.Measured strategy))
    (here : l.Keeps strategy options b') :
    ((Stmt.returnS value).observe w context).Tells (Event.Within strategy options b) l
      (fun completion l' => (∃ v, completion = .return v) ∧ l'.Keeps strategy options b')
      (fun reason l' => l'.Keeps strategy options b' ∧ reason.OfCode (Func.Measured strategy)) := by
  have observed : (Expr.observeOption w context l.act value).Quiet (Func.Measured strategy) := by
    cases value with
    | none => exact .pure _
    | some e => exact (quiet e rfl).observe
  have evaluated : (Observed.ofEval fun act => Expr.observeOption w context act value).Tells
      (Event.Within strategy options b) l (fun _ l' => l'.Keeps strategy options b')
      (fun reason l' => l'.Keeps strategy options b' ∧ reason.OfCode (Func.Measured strategy)) :=
    .ofEval ((observed.tells here.machine).weaken (fun _ _ ends => here.of_machine ends.2)
      fun _ _ ends => ⟨here.of_machine ends.1, ends.2⟩)
  rw [Stmt.observe]
  exact .noted trivial (.bind evaluated fun v l₁ here₁ => .pure ⟨⟨v, rfl⟩, here₁⟩)

/-- Depth is given back. -/
theorem Stmt.stackInc_tells (here : l.Keeps strategy options b) :
    (Stmt.stackInc.observe w context).Tells (Event.Within strategy options b') l
      (fun completion l' => completion = .normal ∧ l'.Keeps strategy options
        { b with depth := b.depth + 1 })
      (fun _ _ => False) := by
  rw [Stmt.observe]
  refine .noted trivial (.lift ⟨rfl, here.of_machine { here.machine with
    hosts := { here.machine.hosts with runs := here.machine.hosts.runs }
    depth := ?_ }⟩)
  obtain ⟨left, remaining, le⟩ := here.machine.depth
  exact ⟨left + 1, by simp [remaining], by simpa using le⟩

/-- Statements one after the other.  Where depth is given back, the function is left by the next
one. -/
theorem Stmt.list_within {body : List Stmt} {inTry normal : Bool}
    (settles : Stmt.settlesLastList inTry body = true)
    (dual : ∀ s ∈ body, s.Dual strategy (Func.Measured strategy) normal)
    (paid : inTry = false → b.depth + 1 ≤ exit)
    (within : ∀ s ∈ body, s.settlesLast inTry = true → ∀ l, l.Keeps strategy options b →
      (s.observe w context).WithinBody strategy options b exit l)
    (here : l.Keeps strategy options b) :
    (Stmt.observeList w context body).WithinBody strategy options b exit l := by
  induction body generalizing l with
  | nil => exact .normal here
  | cons s rest ih =>
    obtain ⟨first, last⟩ := Stmt.settlesLastList_cons settles
    rw [List.forall_mem_cons] at dual within
    rcases first with settles | ⟨notTry, rfl, value, rest', rfl, plain⟩
    · refine .bind (within.1 settles l here) fun completion l₁ left => ?_
      cases completion with
      | normal => exact ih last dual.2 within.2 left
      | _ => exact .pure left
    · have quiet : ∀ e ∈ value, e.Quiet (Func.Measured strategy) := by
        intro e mem
        cases dual.2 _ List.mem_cons_self with
        | answer quiet => exact quiet e mem
        | returnS live =>
          cases mem
          exact live.quiet_of_not_application (plain e rfl)
      have given : ∀ {l : Local}, l.Keeps strategy options { b with depth := b.depth + 1 } →
          l.Keeps strategy options { b with depth := exit } :=
        fun keeps => keeps.widen (paid notTry) (Nat.le_refl _) id
      refine .bind ((Stmt.stackInc_tells here).weaken (fun _ _ ends => ends) fun _ _ ends =>
        ends.elim) ?_
      rintro _ l₁ ⟨rfl, here₁⟩
      refine .bind ((Stmt.plainReturn_tells quiet here₁).weaken (fun _ _ ends => ends)
        fun _ _ ends => ⟨given ends.1, ends.2⟩) ?_
      rintro _ l₂ ⟨⟨v, rfl⟩, here₂⟩
      exact .pure (.inl (given here₂))

/-- The handler of a `try` statement.  It sees exceptions, and passes signals on. -/
theorem Handler.option_within {handler : Option Handler} {body : Observed Local Completion}
    (bodyWithin : body.WithinBody strategy options b b.depth l)
    (passes : ∀ h ∈ handler, h.body.passesSignals = true)
    (within : ∀ h ∈ handler, ∀ l, l.Keeps strategy options b →
      (h.body.observe w context).WithinBody strategy options b b.depth l) :
    (Handler.observeOption w context body handler).WithinBody strategy options b b.depth l := by
  cases handler with
  | none => exact bodyWithin
  | some handler =>
    obtain ⟨param, handler⟩ := handler
    refine .handle bodyWithin (fun value l' ends => ?_) (within _ rfl) fun l' signal caught => ?_
    · exact Observed.Within.declare ends.1 (Int.le_refl _) param value
    · obtain ⟨events, eq, guards⟩ := Stmt.observe_of_passesSignals (passes _ rfl) caught
      exact ⟨events, eq, fun event mem => Event.within_of_isGuard (guards event mem)⟩

/-- A statement in two modes.  The induction is on the grammar; inside of a `try` statement nothing
is given back, so that handlers and `finally` parts run within the budget. -/
theorem Stmt.Dual.within (observes : w.Within strategy options) {s : Stmt} {normal inTry : Bool}
    (dual : s.Dual strategy (Func.Measured strategy) normal) (settles : s.settlesLast inTry = true)
    (le : b.depth ≤ exit) (paid : inTry = false → b.depth + 1 ≤ exit) (flag : normal = true →
      b.normal = true)
    (here : l.Keeps strategy options b) : (s.observe w context).WithinBody strategy options b
    exit l := by
  induction dual generalizing l context b exit inTry with
  | select inner reentering ih =>
    simp only [Stmt.settlesLast, Bool.and_eq_true] at settles
    rw [Stmt.observe]
    refine .noted trivial (Expr.isNormal_within (fun isNormal => ?_) fun restoring => ?_)
    · exact .of_normal (ih settles.1 le paid (fun _ => rfl)
        ⟨{ here.machine with normal := fun _ => isNormal }, here.code, here.caught⟩)
    · exact .option (fun r mem => (reentering r mem).within observes here le) here
  | shadow _ _ ih =>
    simp only [Stmt.settlesLast] at settles
    rw [Stmt.observe]
    refine .noted trivial (.atPoint (.shadowing (ih settles le paid flag (here.shadow ?_))
      (fun completion l' left => ?_) fun reason l' ends => ⟨ends.1.dropShadow, ends.2⟩))
    · exact here.machine.hosts.shadow.pushInner (here.captureFrame _ _)
    · cases completion with
      | «return» value =>
        exact Or.imp Local.Keeps.dropShadow (And.imp_right Local.Keeps.dropShadow) left
      | _ => exact Local.Keeps.dropShadow left
  | record _ _ ih =>
    simp only [Stmt.settlesLast] at settles
    rw [Stmt.observe]
    refine .noted trivial (.atPoint (.recording (ih settles le paid flag here)
      fun handler stack l' ends => ?_))
    exact ⟨ends.1, ends.2.1, ends.2.2.pushOuter (ends.1.captureFrame _ _)⟩
  | collect _ =>
    rw [Stmt.observe]
    refine .noted trivial (.lift ?_)
    rw [Stmt.exec, Exec.returnIfCapturing, Run.read_bind]
    split
    · rename_i capturing
      exact .inr ⟨capturing, here.of_machine ((here.machine.pushOuter (here.captureFrame _ _)).widen
        le (Nat.le_refl _) id)⟩
    · exact here
  | block dual ih =>
    simp only [Stmt.settlesLast] at settles
    rw [Stmt.observe]
    exact .noted trivial (Stmt.list_within settles dual paid
      (fun s mem settles l' here' => ih s mem settles le paid flag here') here)
  | branch test _ _ thenIH elseIH =>
    simp only [Stmt.settlesLast, Bool.and_eq_true] at settles
    rw [Stmt.observe]
    refine .noted trivial (test.test_within here le fun holds l₁ here₁ _ => ?_)
    cases holds with
    | true => exact thenIH settles.1 le paid flag here₁
    | false =>
      refine .option (fun s mem => ?_) here₁
      cases mem
      exact elseIH s rfl settles.2 le paid flag here₁
  | loop test _ ih =>
    simp only [Stmt.settlesLast] at settles
    rw [Stmt.observe]
    refine .noted trivial (.loop (fun l' here' => ?_) (fun l' here' => ?_) _ here)
    · exact Observed.Within.ofEval here' le
        ((Observed.Quiet.bind test.observe fun _ => .pure _).within here'.machine)
    · exact ih settles le paid flag here'
  | @labeled _ label _ notLoop _ ih =>
    simp only [Stmt.settlesLast] at settles
    rw [Stmt.observe]
    · refine .noted trivial (.bind (ih settles le paid flag here) fun completion l₁ left =>
        .pure ?_)
      cases completion with
      | «break» target =>
        cases target with
        | none => exact left
        | some target =>
          simp only [Exec.landing]
          split <;> exact left
      | _ => exact left
    · intro test body h
      rw [h] at notLoop
      cases notLoop
  | attempt _ passes _ spares _ bodyIH handlerIH finalIH =>
    simp only [Stmt.settlesLast, Bool.and_eq_true] at settles
    obtain ⟨⟨bodySettles, handlerSettles⟩, finalSettles⟩ := settles
    have same : b.depth ≤ b.depth := Int.le_refl _
    have unpaid : true = false → b.depth + 1 ≤ b.depth := by simp
    rw [Stmt.observe]
    refine .noted trivial (Observed.WithinBody.later (.withFinal ?_ (fun l' here' => ?_)
      (fun l' returned => ?_) (fun _ _ ends => ends.1) (fun _ here' => .inl here')
      fun _ _ _ ends here' => ⟨here', ends.2⟩) le)
    · refine Handler.option_within (bodyIH bodySettles same unpaid flag here) passes
        fun h mem l' here' => ?_
      cases mem
      obtain ⟨param, handler⟩ := h
      exact handlerIH ⟨param, handler⟩ rfl handlerSettles same unpaid flag here'
    · refine .option (fun s mem => ?_) here'
      cases mem
      exact finalIH s rfl finalSettles same unpaid flag here'
    · refine returned.imp id fun both => ?_
      obtain ⟨events, eq, guards⟩ := Stmt.observeOption_spares spares both.1
      exact ⟨events, eq, fun event mem => Event.within_of_isGuard (guards event mem)⟩
  | rethrow =>
    rw [Stmt.observe]
    refine .noted trivial (.lift ?_)
    rw [Stmt.exec, Exec.rethrow, Run.read_bind]
    cases caught : l.act.caught with
    | none => exact here
    | some signal =>
      exact ⟨⟨here.machine.widen le (Nat.le_refl _) id, here.code, by simp⟩,
        here.caught signal caught⟩
  | bind value => exact Stmt.letS_within here le (value.observe.within here.machine)
  | throwS value =>
    rw [Stmt.observe]
    refine .noted trivial (.bind (Observed.Within.ofEval here le
      (value.observe.within here.machine)) ?_)
    exact fun value l₁ here₁ => .unwind ⟨here₁.later le, trivial⟩
  | answer value =>
    refine Stmt.returnS_within here le (Expr.observeOption_within here.machine fun e mem => ?_)
    exact (value e mem).observe.within here.machine
  | stackInc => simp [Stmt.settlesLast] at settles
  | letS live =>
    refine Stmt.letS_within here le (Expr.observeOption_within here.machine fun e mem => ?_)
    exact (live e mem).within observes here.machine (here.machine.normal (flag rfl))
  | assign target live =>
    refine Stmt.assign_within here le (target.within here.machine fun m keeps mode => ?_)
    exact live.within observes keeps (mode.trans (here.machine.normal (flag rfl)))
  | expr live =>
    exact Stmt.expr_within here le
      (live.within observes here.machine (here.machine.normal (flag rfl)))
  | @decl f ofCode =>
    rw [Stmt.observe, Stmt.exec, Observed.lift_bind]
    have declared : (Observed.lift (Exec.ofEval fun act => Eval.modifyStore fun store =>
        store.declareFunc act.scope f)).Tells (Event.Within strategy options b) l
          (fun _ l' => l'.Keeps strategy options b) (fun reason l' =>
            l'.Keeps strategy options { b with depth := exit } ∧
                reason.OfCode (Func.Measured strategy)) := by
      rw [Observed.lift_ofEval]
      exact Observed.Within.ofEval here le
        ((Observed.Quiet.lift (.modifyStore fun s => s.declareFunc_calm _ ofCode)).within
          here.machine)
    exact .noted trivial (.bind declared fun _ l₁ here₁ => .pure here₁)
  | breakS =>
    rw [Stmt.observe]
    exact .noted trivial (.pure here)
  | returnS live =>
    exact Stmt.returnS_within here le
      (live.within observes here.machine (here.machine.normal (flag rfl)))

end Activations

end Resumable
