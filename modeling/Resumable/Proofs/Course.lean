import Resumable.Proofs.Outcome

/-!
What may become of a machine at work.

`Machine.Course` lists the changes that evaluation makes to a machine, each with what is told of it,
and closes the list under doing one after the other.  The list is short.  The store grows, lines are
printed, calls are counted, and the stack and the mode are those of a stack that is built up or
collected; a frame that is kept for a call in progress is taken away again; safe points count down,
and captures are raised.  Nothing else ever happens within a turn.

`Observed.Follows` says that a computation takes the machine along a course, to its end and to
whatever begins on the way, and that the links of the store stay in order.  It comes with a rule for
each way of putting computations together.  What a turn leaves alone and what it counts is then read
off its course, by induction on the changes.
-/

namespace Resumable

variable {m : Machine}

/-! ## The changes -/

/-- The machine on which something begins. -/
def Event.machine : Event → Machine
  | .stmt _ l => l.machine
  | .expr _ _ m | .action _ m | .body _ m | .construction _ _ m | .reentry m | .raise _ _ m => m

/-- The scope of the activation in which a statement or an expression begins. -/
def Event.scope? : Event → Option ScopeId
  | .stmt _ l => some l.act.scope
  | .expr _ act _ => some act.scope
  | _ => none

def Event.isAction : Event → Bool
  | .action .. => true
  | _ => false

/-- Neither a safe point nor a capture. -/
def Event.isPlain : Event → Bool
  | .action .safePoint _ | .raise .. => false
  | _ => true

namespace Machine

/-- The next safe point is one that asks for a yield. -/
def isDue (m : Machine) : Bool :=
  m.yieldInterval.isSome && m.countdown ≤ 1

/-- A safe point is counted. -/
def tick (m : Machine) : Machine :=
  match m.yieldInterval with
  | none => m
  | some interval => { m with countdown := if m.countdown ≤ 1 then interval else m.countdown - 1 }

/-- A capture is raised, in the way of the strategy. -/
def raised (handler : CaptureHandler) (m : Machine) : Machine :=
  match m.strategy with
  | .eager | .lazy => { m with capturing := true }
  | .retval => { m with capturing := true, pendingHandler := some handler, stack := .empty }
  | .fudge => m

/-- The changes to a machine within a turn, and what is told of them. -/
inductive Course : List Event → Machine → Machine → Prop
  | trans {first second : List Event} {m m' m'' : Machine} :
      Course first m m' → Course second m' m'' → Course (first ++ second) m m''
  | told {event : Event} : event.isPlain = true → Course [event] event.machine event.machine
  | raise {handler : CaptureHandler} (context : Context) (m : Machine) : handler ≠ .yield →
      Course [.raise context handler m] m (m.raised handler)
  /-- A safe point that goes on. -/
  | pass {m : Machine} : m.isDue = false → Course [.action .safePoint m] m m.tick
  /-- A safe point that asks for a yield. -/
  | yield {m : Machine} (context : Context) : m.isDue = true →
      Course [.action .safePoint m, .raise context .yield m.tick] m (m.tick.raised .yield)
  | store {m : Machine} {store : Store} : m.store.Calm (fun _ => True) store →
    Course [] m { m with store }
  | print (m : Machine) (line : String) : Course [] m (m.print line)
  | count (m : Machine) (remaining : Option Int) : Course [] m { m with remaining }
  | stack (m : Machine) (stack : Stack) : Course [] m { m with stack }
  /-- The top frame is reached. -/
  | top (m : Machine) : Course [] m { m with stack := .empty, mode := .normal }
  /-- A frame is kept for a call in progress, and taken away again. -/
  | keep {told : List Event} {m m' : Machine} (frame : Frame) :
      Course told { m with shadow := m.shadow.pushInner frame } m' →
      Course told m { m' with shadow := m'.shadow.dropInner }

theorem Course.refl (m : Machine) : Course [] m m :=
  .stack m m.stack

variable {told : List Event} {m m' : Machine}

@[simp]
theorem raised_mode (m : Machine) (handler : CaptureHandler) : (m.raised handler).mode =
    m.mode := by
  unfold raised
  split <;> rfl

@[simp]
theorem tick_mode (m : Machine) : m.tick.mode = m.mode := by
  unfold tick
  split <;> rfl

@[simp]
theorem tick_capturing (m : Machine) : m.tick.capturing = m.capturing := by
  unfold tick
  split <;> rfl

theorem raised_store (m : Machine) (handler : CaptureHandler) : (m.raised handler).store =
    m.store := by
  unfold raised
  split <;> rfl

theorem tick_store (m : Machine) : m.tick.store = m.store := by
  unfold tick
  split <;> rfl

/-- What neither the guest nor a capture can change within a turn. -/
def fixed (m : Machine) : Strategy × RunOptions × Stack × Stack × Option Nat × List Task × Stats :=
  (m.strategy, m.options, m.shadow, m.pending, m.yieldInterval, m.tasks, m.stats)

@[simp]
theorem raised_fixed (m : Machine) (handler : CaptureHandler) : (m.raised handler).fixed =
    m.fixed := by
  unfold raised
  split <;> rfl

@[simp]
theorem tick_fixed (m : Machine) : m.tick.fixed = m.fixed := by
  unfold tick
  split <;> rfl

section

variable (course : Course told m m')

include course

/-- **A turn leaves alone** the strategy and the options, the frames that are kept and those that
are pending, the interval of yields, the queued tasks and the statistics. -/
theorem Course.fixed_eq : m'.fixed = m.fixed := by
  induction course with
  | trans _ _ first second => exact second.trans first
  | raise | pass | yield => simp
  | @keep _ m m' frame _ ih =>
    simp only [fixed, Prod.mk.injEq] at ih ⊢
    obtain ⟨strategy, options, shadow, rest⟩ := ih
    exact ⟨strategy, options, congrArg Stack.dropInner shadow, rest⟩
  | _ => rfl

/-- Normal mode is not left again. -/
theorem Course.normal (normal : m.mode = .normal) : m'.mode = .normal := by
  induction course with
  | trans _ _ first second => exact second (first normal)
  | raise | pass | yield => simpa using normal
  | keep frame _ ih => exact ih normal
  | top => rfl
  | _ => exact normal

/-- The store has the closures of the one before, and others. -/
theorem Course.calm : m.store.Calm (fun _ => True) m'.store := by
  induction course with
  | trans _ _ first second => exact first.trans second
  | store calm => exact calm
  | raise context m _ => exact raised_store m _ ▸ .refl _
  | pass _ => exact tick_store _ ▸ .refl _
  | yield context _ =>
    rw [raised_store, tick_store]
    exact .refl _
  | keep frame _ ih => exact ih
  | _ => exact .refl _

/-- Captures that are raised in normal mode are not under way while a stack is built up. -/
theorem Course.idle
    (raises : ∀ context handler raised, Event.raise context handler raised ∈ told →
      raised.mode = .normal)
    (idle : m.capturing = false) (restoring : m'.mode = .restoring) : m'.capturing = false := by
  have absurd : ∀ {m : Machine}, m.mode = .normal → m.mode = .restoring → False :=
      fun normal restoring => by
    rw [normal] at restoring
    cases restoring
  induction course with
  | @trans first second m m' m'' _ later ihFirst ihSecond =>
    have inBetween : m'.mode = .restoring := by
      cases mode : m'.mode with
      | restoring => rfl
      | normal => exact (absurd (later.normal mode) restoring).elim
    refine ihSecond (fun context handler raised mem => ?_)
      (ihFirst (fun context handler raised mem => ?_) idle inBetween) restoring
    · exact raises context handler raised (List.mem_append_right _ mem)
    · exact raises context handler raised (List.mem_append_left _ mem)
  | raise context m _ =>
    have normal : m.mode = .normal := raises _ _ _ (List.mem_singleton_self _)
    exact (absurd ((raised_mode _ _).trans normal) restoring).elim
  | @yield m context _ =>
    have normal : m.tick.mode = .normal := raises _ _ _ (List.mem_cons_of_mem _
      (List.mem_singleton_self _))
    exact (absurd ((raised_mode _ _).trans normal) restoring).elim
  | pass _ => rw [tick_capturing, idle]
  | keep frame _ ih => exact ih raises idle restoring
  | top => cases restoring
  | _ => exact idle

theorem Course.runs : m'.strategy = m.strategy :=
  congrArg Prod.fst course.fixed_eq

/-- A capture is under way only if it was raised, where there are captures. -/
theorem Course.raise_of_capturing (capturing : m'.capturing = true) :
    m.capturing = true ∨ m.strategy ≠ .fudge ∧ ∃ event ∈ told, event.isRaise = true := by
  have raised : ∀ {m : Machine} {handler}, (m.raised handler).capturing = true →
      m.capturing = true ∨ m.strategy ≠ .fudge := fun {m handler} capturing => by
    unfold raised at capturing
    split at capturing
    case h_4 => exact .inl capturing
    all_goals rename_i runs; exact .inr (runs ▸ nofun)
  induction course with
  | trans first _ ihFirst ihSecond =>
    rcases ihSecond capturing with before | ⟨notFudge, event, mem, isRaise⟩
    · rcases ihFirst before with before | ⟨notFudge, event, mem, isRaise⟩
      · exact .inl before
      · exact .inr ⟨notFudge, event, List.mem_append_left _ mem, isRaise⟩
    · exact .inr ⟨first.runs ▸ notFudge, event, List.mem_append_right _ mem, isRaise⟩
  | raise => exact (raised capturing).imp_right fun notFudge => ⟨notFudge, by simp [Event.isRaise]⟩
  | @yield m context _ =>
    rw [← tick_capturing m, ← show m.tick.strategy = m.strategy from congrArg Prod.fst
      (tick_fixed m)]
    exact (raised capturing).imp_right fun notFudge => ⟨notFudge, by simp [Event.isRaise]⟩
  | pass _ => exact .inl (tick_capturing _ ▸ capturing)
  | keep frame _ ih => exact ih capturing
  | _ => exact .inl capturing

/-- A capture that is under way stays so, and where captures return its handler waits. -/
theorem Course.handler : (m.capturing = true → m'.capturing = true) ∧
    (m'.pendingHandler = m.pendingHandler ∨ m'.strategy = .retval ∧ m'.capturing = true) := by
  have raised : ∀ (m : Machine) handler, (m.capturing = true →
      (m.raised handler).capturing = true) ∧ ((m.raised handler).pendingHandler = m.pendingHandler ∨
        (m.raised handler).strategy = .retval ∧ (m.raised handler).capturing = true) :=
        fun m handler => by
    unfold Machine.raised
    split
    case h_3 runs => exact ⟨fun _ => rfl, .inr ⟨runs, rfl⟩⟩
    case h_4 => exact ⟨id, .inl rfl⟩
    all_goals exact ⟨fun _ => rfl, .inl rfl⟩
  have ticked : ∀ m : Machine, m.tick.pendingHandler = m.pendingHandler := fun m => by
    unfold Machine.tick
    split <;> rfl
  induction course with
  | trans _ second ihFirst ihSecond =>
    refine ⟨fun capturing => ihSecond.1 (ihFirst.1 capturing), ?_⟩
    rcases ihSecond.2 with same | waits
    · rcases ihFirst.2 with same' | ⟨retval, capturing⟩
      · exact .inl (same.trans same')
      · exact .inr ⟨second.runs.trans retval, ihSecond.1 capturing⟩
    · exact .inr waits
  | raise context m _ => exact raised m _
  | @yield m context _ => exact ticked m ▸ tick_capturing m ▸ raised m.tick .yield
  | @pass m _ => exact ⟨fun capturing => (tick_capturing m).trans capturing, .inl (ticked m)⟩
  | keep frame _ ih => exact ih
  | _ => exact ⟨id, .inl rfl⟩

end

end Machine

/-! ## Stores -/

/-- What becomes of a store by what is done in a scope.  If the links are in order and the scope
exists, they are in order afterwards. -/
structure Store.Orderly (home : ScopeId) (s s' : Store) : Prop extends s.Calm (fun _ =>
    True) s' where
  size : s.scopes.size ≤ s'.scopes.size
  linked : s.Linked → home.index < s.scopes.size → s'.Linked

namespace Store.Orderly

variable {home : ScopeId} {s s' s'' : Store}

theorem refl (s : Store) : s.Orderly home s :=
  ⟨.refl s, Nat.le_refl _, fun linked _ => linked⟩

/-- What is done goes on in another scope, which exists if the one before did. -/
theorem moved {home' : ScopeId} (first : s.Orderly home s')
    (placed : s.Linked → home.index < s.scopes.size → home'.index < s'.scopes.size)
    (second : s'.Orderly home' s'') : s.Orderly home s'' :=
  ⟨first.toCalm.trans second.toCalm, Nat.le_trans first.size second.size, fun linked known =>
    second.linked (first.linked linked known) (placed linked known)⟩

theorem trans (first : s.Orderly home s') (second : s'.Orderly home s'') : s.Orderly home s'' :=
  first.moved (fun _ known => Nat.lt_of_lt_of_le known first.size) second

theorem declare (s : Store) (id : ScopeId) (name : String) (value : Value) :
    s.Orderly home (s.declare id name value) :=
  ⟨s.declare_calm id name value, Nat.le_of_eq (s.scopes_declare_size id name value).symm,
    fun linked _ => linked.declare id name value⟩

theorem declareAll (s : Store) (id : ScopeId) (bindings : List (String × Value)) :
    s.Orderly home (s.declareAll id bindings) :=
  List.foldlRecOn _ _ (.refl s) fun _ orderly binding _ =>
    orderly.trans (declare _ id binding.1 binding.2)

theorem newClosure (s : Store) (f : Func) : s.Orderly home (s.newClosure f home).2 :=
  ⟨s.newClosure_calm trivial home, Nat.le_refl _, fun linked known => linked.newClosure f known⟩

theorem declareFunc (s : Store) (f : Func) : s.Orderly home (s.declareFunc home f) :=
  declareFunc_cases (s.Orderly home) (.refl s) fun _ _ _ => (newClosure s f).trans (declare _ _ _ _)

theorem hoist (s : Store) (body : List Stmt) : s.Orderly home (s.hoist home body) :=
  List.foldlRecOn _ _ (.refl s) fun _ orderly f _ => orderly.trans (declareFunc _ f)

/-- What a call binds in its scope. -/
theorem fillScope (s : Store) (f : Func) (env : ScopeId) (args : List Value) :
    (s.newScope (some env)).2.Orderly ⟨s.scopes.size⟩ (s.enterScope f env args).2 :=
  ((declareAll _ _ _).trans (declareAll _ _ _)).trans (hoist _ _)

theorem enterScope_known (s : Store) (f : Func) (env : ScopeId) (args : List Value) :
    (s.enterScope f env args).1.index < (s.enterScope f env args).2.scopes.size :=
  Nat.lt_of_lt_of_le (Array.size_push .. ▸ Nat.lt_succ_self _) (fillScope s f env args).size

/-- The scope of a call is made inside of the one of its closure. -/
theorem enterScope (s : Store) (closure : ClosureId) (args : List Value) :
    s.Orderly home (s.enterScope (s.closure closure).func (s.closure closure).env args).2 := by
  have more : (s.newScope (some (s.closure closure).env)).2.scopes.size = s.scopes.size + 1 :=
    Array.size_push ..
  have filled := fillScope s (s.closure closure).func (s.closure closure).env args
  have opened : s.Calm (fun _ => True) (s.newScope (some (s.closure closure).env)).2 :=
    .of_eq rfl rfl
  refine ⟨opened.trans filled.toCalm, Nat.le_trans (by omega) filled.size, fun linked known => ?_⟩
  exact filled.linked (linked.newScope (linked.closures closure))
    (Nat.lt_of_lt_of_eq (Nat.lt_succ_self _) more.symm)

end Store.Orderly

/-! ## Seats -/

/-- Where a computation takes place: on which machine, and in which scope. -/
structure Seat (σ : Type) where
  machine : σ → Machine
  home : σ → ScopeId

/-- On the machine itself, for an activation with this scope. -/
def Seat.outside (home : ScopeId) : Seat Machine :=
  ⟨id, fun _ => home⟩

/-- Inside of an activation. -/
def Seat.inside : Seat Local :=
  ⟨Local.machine, fun l => l.act.scope⟩

/-- What becomes of a state, and what is told of it. -/
structure Seat.Leads (seat : Seat σ) (told : List Event) (s s' : σ) : Prop where
  course : Machine.Course told (seat.machine s) (seat.machine s')
  home : seat.home s' = seat.home s
  orderly : (seat.machine s).store.Orderly (seat.home s) (seat.machine s').store

namespace Seat.Leads

variable {σ : Type} {seat : Seat σ} {told told' : List Event} {s s' s'' : σ}

theorem refl (s : σ) : seat.Leads [] s s :=
  ⟨.refl _, rfl, .refl _⟩

/-- Only the machine changes, and not its store. -/
theorem of_store {home : ScopeId} {m' : Machine} (course : Machine.Course told m m')
    (same : m'.store = m.store) : (Seat.outside home).Leads told m m' :=
  ⟨course, rfl, (congrArg (m.store.Orderly home) same).mpr (.refl _)⟩

end Seat.Leads

/-- The end is one to which the state leads.  Only the host can say that a program is stalled. -/
def Ending.Leads (seat : Seat σ) (told : List Event) (s : σ) : Ending σ α → Prop :=
  Ending.Meets (fun _ s' => seat.Leads told s s') fun reason s' => reason ≠ .fault .stalled ∧
    seat.Leads told s s'

/-- From every state the computation leads to its end, and nothing is told of it. -/
def Run.Leads (seat : Seat σ) (x : Run σ α) : Prop :=
  ∀ s, (x s).Leads seat [] s

namespace Run.Leads

variable {σ α : Type} {seat : Seat σ} {home : ScopeId}

theorem pure (a : α) : Run.Leads seat (Pure.pure a : Run σ α) :=
  fun s => .refl s

theorem read (f : σ → α) : (Run.read f).Leads seat :=
  fun s => .refl s

theorem unwind {reason : Unwind} (moving : reason ≠ .fault .stalled) :
    (Run.unwind reason : Run σ α).Leads seat :=
  fun s => ⟨moving, .refl s⟩

theorem modify {f : σ → σ} (leads : ∀ s, seat.Leads [] s (f s)) : (Run.modify f).Leads seat :=
  leads

theorem settle {result : Except Unwind α} (moving : result ≠ .error (.fault .stalled)) :
    (Run.settle result : Run σ α).Leads seat := by
  cases result with
  | ok a => exact .pure a
  | error reason => exact .unwind fun stalled => moving (congrArg _ stalled)

theorem changeStore {f : Store → α × Store} (orderly : ∀ s : Store, s.Orderly home (f s).2) :
    (Eval.changeStore f).Leads (.outside home) :=
  fun m => ⟨.store (orderly m.store).toCalm, rfl, orderly m.store⟩

theorem modifyStore {f : Store → Store} (orderly : ∀ s : Store, s.Orderly home (f s)) :
    (Eval.modifyStore f).Leads (.outside home) :=
  fun m => ⟨.store (orderly m.store).toCalm, rfl, orderly m.store⟩

/-- The globals exist. -/
theorem modifyGlobals {f : Store → Store} (orderly : ∀ s : Store, s.Orderly Store.globals (f s)) :
    (Eval.modifyStore f).Leads (.outside home) :=
  .modifyStore fun s =>
    { orderly s with linked := fun linked _ => (orderly s).linked linked linked.globals }

/-- Operations change nothing but objects and arrays. -/
theorem still {x : Eval α} (still : x.Still) : x.Leads (.outside home) := by
  have leads : ∀ {m m' : Machine}, m.Alike m' → (Seat.outside home).Leads [] m m' := by
    rintro m _ ⟨objects, arrays, rfl, linked⟩
    have calm : m.store.Calm (fun _ => True) { m.store with objects, arrays } := .of_eq rfl rfl
    exact ⟨.store calm, rfl, calm, Nat.le_refl _, fun linked' _ => linked linked'⟩
  intro m
  have ends := still m
  cases ending : x m with
  | ok a m' =>
    rw [ending] at ends
    exact leads ends
  | unwind reason m' =>
    rw [ending] at ends
    obtain ⟨alike, value, rfl⟩ := ends
    exact ⟨nofun, leads alike⟩
  | cutOff => trivial

end Run.Leads

/-- The computation finds a scope that exists. -/
def Eval.Places (place : α → ScopeId) (x : Eval α) : Prop :=
  ∀ {m a m'}, m.store.Linked → x m = .ok a m' → (place a).index < m'.store.scopes.size

/-! ## Computations -/

/-- What is done in a scope comes to the event with its store in order, and the scope in which
something begins there exists. -/
structure Event.Orderly (home : ScopeId) (s : Store) (event : Event) : Prop extends
    s.Orderly home event.machine.store where
  known : s.Linked → home.index < s.scopes.size → ∀ scope ∈ event.scope?,
    scope.index < event.machine.store.scopes.size

/-- From this state, the computation takes the machine along a course: to its end, and to all that
begins on the way, up to the frames that are kept at that moment.  The store is in order there too.
If it is cut off it has still taken a course. -/
structure Observed.FollowsFrom (seat : Seat σ) (x : Observed σ α) (s : σ) : Prop where
  ends : (x.erase s).Leads seat (x.told s) s
  passes : ∀ before event after, x.told s = before ++ event :: after → event.isRaise = false →
    (∃ shadow, Machine.Course before (seat.machine s) { event.machine with shadow }) ∧
      event.Orderly (seat.home s) (seat.machine s).store
  goes : ∃ m, Machine.Course (x.told s) (seat.machine s) m

/-- From every state. -/
def Observed.Follows (seat : Seat σ) (x : Observed σ α) : Prop :=
  ∀ s, x.FollowsFrom seat s

namespace Observed

variable {σ α β : Type} {seat : Seat σ} {x : Observed σ α}

theorem Follows.lift {x : Run σ α} (leads : x.Leads seat) : (lift x).Follows seat := by
  refine fun s => ⟨leads s, fun before event after told _ => ?_, ⟨_, .refl (seat.machine s)⟩⟩
  have none : [] = before ++ event :: after := told
  simp at none

/-- A computation that goes on with another one, be it in another scope. -/
theorem FollowsFrom.next {y z : Observed σ β} {s s' : σ} {seat' : Seat σ}
    (first : x.FollowsFrom seat s) (here : seat'.machine = seat.machine)
    (course : Machine.Course (x.told s) (seat.machine s) (seat.machine s'))
    (orderly : (seat.machine s).store.Orderly (seat.home s) (seat.machine s').store)
    (placed : (seat.machine s).store.Linked → (seat.home s).index <
      (seat.machine s).store.scopes.size → (seat'.home s').index <
      (seat.machine s').store.scopes.size)
    (homes : ∀ {s''}, seat'.home s'' = seat'.home s' → seat.home s'' = seat.home s)
    (second : y.FollowsFrom seat' s')
    (told : z.told s = x.told s ++ y.told s') (erased : z.erase s = y.erase s') :
    z.FollowsFrom seat s where
  ends := by
    have leads : ∀ {events s''}, seat'.Leads events s' s'' →
      seat.Leads (x.told s ++ events) s s'' := fun leads => ⟨course.trans (here ▸ leads.course),
        homes leads.home, orderly.moved placed (here ▸ leads.orderly)⟩
    rw [told, erased]
    exact second.ends.weaken (fun _ _ => leads) fun _ _ ends => ⟨ends.1, leads ends.2⟩
  passes before event after split notRaise := by
    rw [told] at split
    rcases Event.split_append split with ⟨_, inFirst, _⟩ | ⟨earlier, rfl, inSecond⟩
    · exact first.passes _ _ _ inFirst notRaise
    · have passes := second.passes _ _ _ inSecond notRaise
      rw [here] at passes
      obtain ⟨⟨shadow, course'⟩, orderly'⟩ := passes
      exact ⟨⟨shadow, course.trans course'⟩, orderly.moved placed orderly'.toOrderly,
        fun linked known => orderly'.known (orderly.linked linked known) (placed linked known)⟩
  goes := by
    obtain ⟨m, course'⟩ := second.goes
    exact ⟨m, told ▸ course.trans (here ▸ course')⟩

/-- A computation that goes on with another one in its own scope. -/
theorem FollowsFrom.goOn {y z : Observed σ β} {s s' : σ}
    (first : x.FollowsFrom seat s) (leads : seat.Leads (x.told s) s s')
    (second : y.FollowsFrom seat s')
    (told : z.told s = x.told s ++ y.told s') (erased : z.erase s = y.erase s') :
    z.FollowsFrom seat s :=
  first.next rfl leads.course leads.orderly
    (fun _ known => leads.home ▸ Nat.lt_of_lt_of_le known leads.orderly.size)
    (fun same => same.trans leads.home) second told erased

/-- A computation whose end is looked at. -/
theorem Follows.attempt {f : Except Unwind α → Observed σ β}
    (first : x.Follows seat) (rest : ∀ result, result ≠ .error (.fault .stalled) →
      (f result).Follows seat) :
    (x.attempt >>= f).Follows seat := by
  intro s
  have ends := (first s).ends
  have erased : (x.attempt >>= f).erase s = _ := congrArg Prod.fst (attempt_bind x f s)
  have told : (x.attempt >>= f).told s = _ := congrArg Prod.snd (attempt_bind x f s)
  cases ending : x.erase s with
  | ok a s' =>
    rw [ending] at ends erased told
    exact (first s).goOn ends (rest (.ok a) nofun s') told erased
  | unwind reason s' =>
    rw [ending] at ends erased told
    have goesOn := rest (.error reason) fun stalled => ends.1 (Except.error.inj stalled)
    exact (first s).goOn ends.2 (goesOn s') told erased
  | cutOff =>
    rw [ending] at erased told
    exact ⟨erased ▸ trivial, told ▸ (first s).passes, told ▸ (first s).goes⟩

/-- One computation after the other. -/
theorem Follows.bind {f : α → Observed σ β} (first : x.Follows seat)
    (second : ∀ a, (f a).Follows seat) : (x >>= f).Follows seat := by
  rw [bind_eq_attempt_bind]
  refine .attempt first fun result moving => ?_
  cases result with
  | ok a => exact second a
  | error reason => exact .lift (.unwind fun stalled => moving (congrArg _ stalled))

/-- A computation of which nothing is told after its beginning, but captures. -/
theorem FollowsFrom.of_begun {s : σ} {event : Event} {raises : List Event}
    (here : event.machine = seat.machine s) (home : event.scope?.getD (seat.home s) = seat.home s)
    (told : x.told s = event :: raises) (raised : ∀ event ∈ raises, event.isRaise = true)
    (course : Machine.Course (event :: raises) (seat.machine s) m)
    (ends : (x.erase s).Leads seat (event :: raises) s) : x.FollowsFrom seat s where
  ends := told ▸ ends
  goes := ⟨m, told ▸ course⟩
  passes before event' after split notRaise := by
    rw [told] at split
    cases before with
    | nil =>
      cases split
      refine ⟨⟨(seat.machine s).shadow, here ▸ .refl (seat.machine s)⟩, here ▸ .refl _,
        fun _ known scope mem => ?_⟩
      rw [Option.mem_def.mp mem, Option.getD_some] at home
      exact here ▸ home ▸ known
    | cons _ before =>
      have isRaise : event'.isRaise = true := raised event' (by simp [(List.cons.inj split).2])
      rw [notRaise] at isRaise
      cases isRaise

/-- Something is told that is neither a safe point nor a capture. -/
theorem Follows.noted {event : σ → Event}
    (plain : ∀ s, (event s).machine = seat.machine s ∧ (event s).isPlain = true ∧
      (event s).scope?.getD (seat.home s) = seat.home s) (follows : x.Follows seat) :
    (note event >>= fun _ => x).Follows seat := by
  have noted : (note event).Follows seat := fun s => by
    have course := Machine.Course.told (plain s).2.1
    rw [(plain s).1] at course
    have told : (note event).told s = [event s] := rfl
    exact .of_begun (plain s).1 (plain s).2.2 told (List.forall_mem_nil _) course ⟨course, rfl,
      .refl _⟩
  exact .bind noted fun _ => follows

/-- A step into another scope, which exists if the one before did. -/
theorem Follows.moved {home : ScopeId} {place : α → ScopeId} {x : Eval α}
    {f : α → Observed Machine β} (leads : x.Leads (.outside home)) (placed : Eval.Places place x)
    (follows : ∀ a, (f a).Follows (.outside (place a))) : (Observed.lift x >>= f).Follows
    (.outside home) := by
  intro m
  have ends := leads m
  have first : (Observed.lift x).FollowsFrom (.outside home) m := Follows.lift leads m
  have erased : (Observed.lift x >>= f).erase m = Run.bind x (fun a => (f a).erase) m :=
    congrFun (erase_bind (Observed.lift x) f) m
  have told : (Observed.lift x >>= f).told m = [] ++ _ := told_bind (Observed.lift x) f m
  unfold Run.bind at erased
  rw [show (Observed.lift x).erase = x from rfl] at told
  cases ending : x m with
  | ok a m' =>
    rw [ending] at ends erased told
    have here : (Seat.outside (place a)).machine = (Seat.outside home).machine := rfl
    exact first.next here ends.course ends.orderly (fun linked _ => placed linked ending)
      (fun _ => rfl) (follows a m') told erased
  | unwind reason m' =>
    rw [ending] at ends erased told
    exact ⟨erased ▸ told ▸ ends, fun _ _ _ split => by simp [told] at split, ⟨m, told ▸ .refl m⟩⟩
  | cutOff =>
    rw [ending] at erased told
    exact ⟨erased ▸ trivial, fun _ _ _ split => by simp [told] at split, ⟨m, told ▸ .refl m⟩⟩

/-- The computation between two changes of the state. -/
def between (push drop : σ → σ) (x : Observed σ α) : Observed σ α := fun s =>
  (match x.erase (push s) with
    | .ok a s' => .ok a (drop s')
    | .unwind reason s' => .unwind reason (drop s')
    | .cutOff => .cutOff, x.told (push s))

theorem erase_between (push drop : σ → σ) (x : Observed σ α) (s : σ) :
    (x.between push drop).erase s = match x.erase (push s) with
      | .ok a s' => .ok a (drop s')
      | .unwind reason s' => .unwind reason (drop s')
      | .cutOff => .cutOff :=
  rfl

/-- A frame is kept while the computation runs. -/
theorem Follows.kept {rest : Except Unwind α → Observed σ β} {push drop : σ → σ}
    {frame : Frame} (follows : x.Follows seat)
    (pushed : ∀ s, seat.machine (push s) =
      { seat.machine s with shadow := (seat.machine s).shadow.pushInner frame })
    (dropped : ∀ s, seat.machine (drop s) = { seat.machine s with shadow :=
      (seat.machine s).shadow.dropInner })
    (homes : ∀ s, seat.home (push s) = seat.home s ∧ seat.home (drop s) = seat.home s)
    (restFollows : ∀ result, result ≠ .error (.fault .stalled) → (rest result).Follows seat) :
    (do
      Observed.lift (Run.modify push)
      let result ← x.attempt
      Observed.lift (Run.modify drop)
      rest result).Follows seat := by
  have ran : (do
      Observed.lift (Run.modify push)
      let result ← x.attempt
      Observed.lift (Run.modify drop)
      rest result) = (x.between push drop).attempt >>= rest := by
    funext s
    rw [modify_bind]
    show Observed.bind x.attempt _ (push s) = Observed.bind (x.between push drop).attempt rest s
    unfold between Observed.bind Observed.attempt Run.attempt Observed.erase Observed.told
    dsimp only
    rcases x (push s) with ⟨_ | _ | _, events⟩ <;> rfl
  rw [ran]
  refine .attempt (fun s => ⟨?_, fun before event after split notRaise => ?_, ?_⟩) restFollows
  · have ends := (follows (push s)).ends
    have back : ∀ {told s'}, seat.Leads told (push s) s' → seat.Leads told s (drop s') :=
        fun {told s'} leads => by
      obtain ⟨course, home, orderly⟩ := leads
      rw [pushed] at course orderly
      rw [(homes s).1] at home orderly
      refine ⟨?_, (homes s').2.trans home, ?_⟩
      · rw [dropped]
        exact .keep frame course
      · rw [dropped]
        exact orderly
    rw [erase_between]
    cases ending : x.erase (push s) with
    | ok a s' =>
      rw [ending] at ends
      exact back ends
    | unwind reason s' =>
      rw [ending] at ends
      exact ⟨ends.1, back ends.2⟩
    | cutOff => trivial
  · obtain ⟨⟨shadow, course⟩, orderly⟩ := (follows (push s)).passes _ _ _ split notRaise
    rw [pushed s] at course orderly
    rw [(homes s).1] at orderly
    have kept := Machine.Course.keep frame course
    exact ⟨⟨_, kept⟩, orderly⟩
  · obtain ⟨m, course⟩ := (follows (push s)).goes
    exact ⟨_, .keep frame (pushed s ▸ course)⟩

/-! ## Activations -/

theorem Follows.ofEval {x : Activation → Observed Machine α}
    (follows : ∀ act, (x act).Follows (.outside act.scope)) : (ofEval x).Follows .inside := by
  refine fun l => ⟨?_, (follows l.act l.machine).passes, (follows l.act l.machine).goes⟩
  have ends := (follows l.act l.machine).ends
  have erased : (Observed.ofEval x).erase l = Exec.ofEval (fun act => (x act).erase) l := rfl
  simp only [Exec.ofEval] at erased
  rw [erased]
  cases ending : (x l.act).erase l.machine with
  | ok a m =>
    rw [ending] at ends
    exact ⟨ends.course, rfl, ends.orderly⟩
  | unwind reason m =>
    rw [ending] at ends
    exact ⟨ends.1, ends.2.course, rfl, ends.2.orderly⟩
  | cutOff => trivial

theorem Follows.atPoint {context : Context} {label : Nat}
    {body : Context → Observed Local Completion} (follows : ∀ context,
      (body context).Follows .inside) : (atPoint context label body).Follows .inside :=
  fun l => ⟨(follows _ l).ends, (follows _ l).passes, (follows _ l).goes⟩

/-- A body in a new activation. -/
theorem Follows.inActivation {x : Observed Local Completion} (act : Activation)
    (follows : x.Follows .inside) : (inActivation act x).Follows (.outside act.scope) := by
  refine fun m => ⟨?_, (follows ⟨act, m⟩).passes, (follows ⟨act, m⟩).goes⟩
  have ends := (follows ⟨act, m⟩).ends
  rw [erase_inActivation]
  cases ending : x.erase ⟨act, m⟩ with
  | ok completion l =>
    rw [ending] at ends
    have leads : (Seat.outside act.scope).Leads ((Observed.inActivation act x).told m) m
        l.machine :=
      ⟨ends.course, rfl, ends.orderly⟩
    cases completion with
    | «break» | «continue» => exact ⟨by simp, leads⟩
    | _ => exact leads
  | unwind reason l =>
    rw [ending] at ends
    exact ⟨ends.1, ends.2.course, rfl, ends.2.orderly⟩
  | cutOff => trivial

variable {label : Nat} {body : Observed Local Completion}

theorem Follows.declare (name : String) (value : Value) :
    (Observed.lift (Exec.declare name value)).Follows .inside := by
  rw [Exec.declare, lift_ofEval]
  exact .ofEval fun act => .lift (.modifyStore fun s => .declare s act.scope name value)

theorem Follows.modifyAct {f : Activation → Activation} (same : ∀ act, (f act).scope = act.scope) :
    (Observed.lift (Exec.modifyAct f)).Follows .inside :=
  .lift (.modify fun l => ⟨.refl l.machine, same l.act, .refl _⟩)

section

variable (bodyFollows : body.Follows .inside)

include bodyFollows

theorem Follows.handle {handler : Observed Local Completion} {param : String}
    (handlerFollows : handler.Follows .inside) : (handle body param handler).Follows .inside := by
  refine .attempt bodyFollows fun result moving => ?_
  rcases result with (value | signal | fault) | completion
  · exact .bind (.declare param value) fun _ => handlerFollows
  · refine .bind (.lift (.read _)) fun outer => .bind (.modifyAct fun _ => rfl) fun _ => ?_
    exact .attempt handlerFollows fun result moving => .bind (.modifyAct fun _ => rfl) fun _ =>
      .lift (.settle moving)
  · exact .lift (.unwind fun stalled => moving (congrArg _ stalled))
  · exact .lift (.pure _)

theorem Follows.withFinal {final : Observed Local Completion}
    (finalFollows : final.Follows .inside) : (Observed.withFinal body final).Follows .inside := by
  refine .attempt bodyFollows fun result moving => .bind finalFollows fun completion => ?_
  cases completion with
  | normal => exact .lift (.settle moving)
  | _ => exact .lift (.pure _)

theorem Follows.recording : (Observed.recording label body).Follows .inside := by
  refine .attempt bodyFollows fun result moving => ?_
  rcases result with (value | (⟨handler, stack⟩ | stack | replacement) | fault) | completion
  · exact .lift (.settle moving)
  · exact .bind (.lift (.read _)) fun frame => .lift (.unwind nofun)
  all_goals exact .lift (.settle moving)

theorem Follows.shadowing : (Observed.shadowing label body).Follows .inside := by
  refine .bind (.lift (.read _)) fun frame => ?_
  have ofShadow : ∀ f, Exec.modifyShadow f = Run.modify fun l : Local =>
      ⟨l.act, { l.machine with shadow := f l.machine.shadow }⟩ := fun f => rfl
  rw [ofShadow, ofShadow]
  exact .kept bodyFollows (fun _ => rfl) (fun _ => rfl) (fun _ => ⟨rfl, rfl⟩) fun _ moving =>
    .lift (.settle moving)

end

end Observed

/-! ## Constructions and captures -/

section Captures

variable {w : Observer} {context : Context} {handler : CaptureHandler} {home : ScopeId}

theorem Eval.settleFramed_follows (strategy : Strategy) (frame : Frame) (this : Value)
    {result : Except Unwind Value} (moving : result ≠ .error (.fault .stalled)) :
    (Observed.lift (settleFramed strategy frame this result)).Follows (.outside home) := by
  rcases result with (value | (⟨handler, stack⟩ | stack | replacement) | fault) | value
  case ok =>
    unfold settleFramed
    rw [Observed.lift_bind]
    refine .bind (.lift (.read _)) fun capturing => ?_
    split
    · rw [Observed.lift_bind]
      exact .bind (.lift (.modify fun m => .of_store (.stack m _) rfl)) fun _ => .lift (.pure _)
    · exact .lift (.pure _)
  case error.fault => exact .lift (.unwind fun stalled => moving (congrArg _ stalled))
  all_goals exact .lift (.unwind nofun)

/-- The frame of the construction is put on top while the constructor runs, and taken away again. -/
theorem Observed.Follows.framed {x : Observed Machine Value} (strategy : Strategy) (frame : Frame)
    (this : Value) (follows : x.Follows (.outside home)) :
    (do
      Observed.lift (Eval.changeKept strategy (·.pushInner frame))
      let result ← x.attempt
      Observed.lift (Eval.changeKept strategy (·.dropInner))
      Observed.lift (Eval.settleFramed strategy frame this result)).Follows (.outside home) := by
  by_cases eager : strategy = .eager
  · simp only [Eval.changeKept, if_pos eager]
    exact .kept follows (fun _ => rfl) (fun _ => rfl) (fun _ => ⟨rfl, rfl⟩) fun _ =>
      Eval.settleFramed_follows _ _ _
  · simp only [Eval.changeKept, if_neg eager]
    exact .attempt follows fun _ => Eval.settleFramed_follows _ _ _

/-- A capture that is not handed to its handler at once is raised, and nothing more is told. -/
theorem Eval.observeCapture_raised (notGuest : ∀ func, m.strategy = .fudge →
    handler ≠ .guest func) : (Eval.observeCapture w context handler).told m =
      [.raise context handler m] ∧ ((Eval.observeCapture w context handler).erase m).Meets
        (fun _ m' => m' = m.raised handler) (fun reason m' => reason ≠ .fault .stalled ∧
          m' = m.raised handler) := by
  cases m with
  | mk strategy =>
    cases strategy with
    | eager | «lazy» => exact ⟨rfl, nofun, rfl⟩
    | retval => exact ⟨rfl, rfl⟩
    | fudge =>
      cases handler with
      | guest func => exact absurd rfl (notGuest func rfl)
      | reenter action => exact ⟨rfl, rfl⟩
      | yield => exact ⟨rfl, rfl⟩

/-- A capture that the guest asks for, or that makes room for a call. -/
theorem Eval.observeCapture_follows (performs : ∀ context action, (w.perform context action).Follows
    (.outside home)) (notYield : handler ≠ .yield) : (Eval.observeCapture w context handler).Follows
    (.outside home) := by
  intro m
  have course := Machine.Course.raise context m notYield
  by_cases guest : ∃ func, m.strategy = .fudge ∧ handler = .guest func
  · obtain ⟨func, fudge, rfl⟩ := guest
    have same : m.raised (.guest func) = m := by rw [Machine.raised, fudge]
    rw [same] at course
    -- the handler is called at once
    have called : Eval.observeCapture w context (.guest func) m =
        ((w.perform context (.call func .undefined [.fudged])).erase m,
          [.raise context (.guest func) m] ++ (w.perform context (.call func .undefined
            [.fudged])).told m) := by
      cases m
      cases fudge
      rfl
    have told : (Observed.note (.raise context (.guest func))).told m =
      [.raise context (.guest func) m] := rfl
    have noted : (Observed.note (.raise context (.guest func))).FollowsFrom (.outside home) m :=
      .of_begun rfl rfl told (List.forall_mem_nil _) course (.of_store course rfl)
    refine noted.goOn (.of_store course rfl) (performs context (.call func .undefined [.fudged]) m)
      ?_ ?_
    · rw [told, Observed.told, called]
    · rw [Observed.erase, called]
  · obtain ⟨told, ends⟩ : (Eval.observeCapture w context handler).told m =
        [.raise context handler m] ∧ _ :=
      Eval.observeCapture_raised fun func fudge h => guest ⟨func, fudge, h⟩
    have leads : (Seat.outside home).Leads [.raise context handler m] m (m.raised handler) :=
      .of_store course (m.raised_store handler)
    exact .of_begun rfl rfl told (List.forall_mem_nil _) course
      (ends.weaken (fun _ _ same => same ▸ leads) fun _ _ same => ⟨same.1, same.2 ▸ leads⟩)

theorem Eval.observeSafePoint_eq (m : Machine) : Eval.observeSafePoint w context m =
      if m.isDue then Eval.observeCapture w context .yield m.tick else (.ok .undefined m.tick,
        []) := by
  unfold Eval.observeSafePoint Machine.isDue Machine.tick
  rw [Observed.read_bind]
  cases interval_eq : m.yieldInterval with
  | none => rfl
  | some interval =>
    simp only [Observed.read_bind, Option.isSome_some, Bool.true_and, decide_eq_true_eq]
    rw [← interval_eq]
    by_cases few : m.countdown ≤ 1
    · rw [if_neg (by omega), if_pos few, if_pos few]
      rfl
    · rw [if_pos (by omega), if_neg few, if_neg few]
      rfl

/-- A safe point. -/
theorem Eval.observeSafePoint_follows :
    (Observed.note (.action .safePoint) >>= fun _ => Eval.observeSafePoint w context).Follows
    (.outside home) := by
  intro m
  have ran : (Observed.note (.action .safePoint) >>= fun _ => Eval.observeSafePoint w context) m =
      ((Eval.observeSafePoint w context m).1, .action .safePoint m ::
        (Eval.observeSafePoint w context m).2) := rfl
  rw [Eval.observeSafePoint_eq] at ran
  by_cases due : m.isDue = true
  · rw [if_pos due] at ran
    have course := Machine.Course.yield context due
    obtain ⟨told, ends⟩ : (Eval.observeCapture w context .yield).told m.tick =
        [.raise context .yield m.tick] ∧ _ :=
      Eval.observeCapture_raised fun _ _ => nofun
    have told : (Observed.note (.action .safePoint) >>= fun _ =>
        Eval.observeSafePoint w context).told m = [.action .safePoint m,
        .raise context .yield m.tick] :=
      (congrArg Prod.snd ran).trans (congrArg (Event.action .safePoint m :: ·) told)
    have leads : (Seat.outside home).Leads [.action .safePoint m, .raise context .yield m.tick] m
        (m.tick.raised .yield) := .of_store course ((m.tick.raised_store .yield).trans m.tick_store)
    refine .of_begun rfl rfl told (fun event mem => ?_) course ?_
    · rw [List.mem_singleton.mp mem]
      rfl
    · rw [Observed.erase, ran]
      exact ends.weaken (fun _ _ same => same ▸ leads) fun _ _ same => ⟨same.1, same.2 ▸ leads⟩
  · rw [if_neg due] at ran
    have course := Machine.Course.pass (Bool.eq_false_iff.mpr due)
    refine .of_begun rfl rfl (congrArg Prod.snd ran) (List.forall_mem_nil _) course ?_
    rw [Observed.erase, ran]
    exact .of_store course m.tick_store

end Captures

end Resumable
