import Mathlib.Data.List.Chain
import Resumable.Machine.Datum
import Resumable.Machine.Host
import Resumable.Proofs.Snapshot
import Resumable.Proofs.Walk

/-!
Lookups end.

The loops that look for the binding of a name and for a property follow links in the store, and what
they have of a measure is only the number of scopes and objects.  `Store.WaysEnd` says what the
loops find, whatever larger measure they are given: the first scope with the name on a path to the
globals that visits no scope twice, and a property of the object itself or of its one prototype.  It
holds of every machine that operations can lead to, and within a turn whenever something begins or
ends, because the links are in order there.
-/

namespace Resumable

/-! ## Ways -/

/-- The scopes on the way from one of them to the globals, each one's parent being the next. -/
structure Store.WayUp (s : Store) (id : ScopeId) (path : List ScopeId) : Prop where
  begins : path.head? = some id
  ends : path.getLast? = some Store.globals
  parents : path.IsChain fun inner outer => (s.scope inner).parent = some outer
  nodup : path.Nodup

/-- Every way up ends at the globals, every way to prototypes ends after a step, and lookups go
these ways, however many more steps they may take. -/
structure Store.WaysEnd (s : Store) : Prop where
  scopes : ∀ id : ScopeId, id.index < s.scopes.size → ∃ path, s.WayUp id path ∧ ∀ name steps,
    s.scopes.size ≤ steps → s.bindingScope? name steps id = path.find? fun scope =>
    (s.scope scope).vars.contains name
  prototypes : ∀ id proto, (s.object id).proto = some proto → (s.object proto).proto = none
  properties : ∀ id name steps, s.objects.size ≤ steps → s.property? name steps id =
    ((s.object id).props.get? name).or ((s.object id).proto.bind fun proto =>
    (s.object proto).props.get? name)
  instances : ∀ id proto steps, s.objects.size ≤ steps →
    s.hasPrototype proto steps id = decide ((s.object id).proto = some proto)

namespace Store.Linked

variable {s : Store}

theorem wayUp (linked : s.Linked) (id : ScopeId) (known : id.index < s.scopes.size) :
    ∃ path, s.WayUp id path ∧ (∀ scope ∈ path, scope.index ≤ id.index) ∧ ∀ name steps,
      id.index < steps → s.bindingScope? name steps id = path.find? fun scope =>
      (s.scope scope).vars.contains name := by
  -- the induction is on the number of the scope, as parents are older
  induction index : id.index using Nat.strongRecOn generalizing id with
  | _ n ih =>
    subst index
    cases up : (s.scope id).parent with
    | none =>
      have top : id = Store.globals := by
        refine congrArg ScopeId.mk (Nat.eq_zero_of_not_pos fun inside => ?_)
        have some := linked.inner id inside known
        rw [up] at some
        cases some
      refine ⟨[id], ⟨rfl, congrArg some top, .singleton _, by simp⟩, by simp,
        fun name steps enough => ?_⟩
      obtain ⟨steps, rfl⟩ : ∃ n, steps = n + 1 := ⟨steps - 1, by omega⟩
      rw [bindingScope?, up, List.find?_cons]
      cases (s.scope id).vars.contains name <;> rfl
    | some parent =>
      have older := linked.parents id parent up
      obtain ⟨path, ⟨begins, ends, parents, nodup⟩, below, finds⟩ :=
        ih parent.index older parent (Nat.lt_trans older known) rfl
      obtain ⟨rest, rfl⟩ : ∃ rest, path = parent :: rest := List.head?_eq_some_iff.mp begins
      refine ⟨id :: parent :: rest, ⟨rfl, ?_, .cons_cons up parents, ?_⟩, ?_,
        fun name steps enough => ?_⟩
      · rw [List.getLast?_cons_cons]
        exact ends
      · refine List.nodup_cons.mpr ⟨fun mem => ?_, nodup⟩
        have := below id mem
        omega
      · refine List.forall_mem_cons.mpr ⟨Nat.le_refl _, fun scope mem => ?_⟩
        have := below scope mem
        omega
      · obtain ⟨steps, rfl⟩ : ∃ n, steps = n + 1 := ⟨steps - 1, by omega⟩
        rw [bindingScope?, up, List.find?_cons]
        dsimp only
        rw [finds name steps (by omega)]
        cases (s.scope id).vars.contains name <;> rfl

/-- An object that has a prototype is not the only one. -/
theorem two_le (linked : s.Linked) {id proto : ObjectId}
    (found : (s.object id).proto = some proto) : 2 ≤ s.objects.size := by
  have root := linked.instances id proto found
  have known : id.index < s.objects.size := by
    by_contra outside
    rw [Store.object, Array.getD_eq_getD_getElem?,
      Array.getElem?_eq_none (Nat.le_of_not_lt outside)] at found
    cases found
  have other : id.index ≠ proto.index := fun same => by
    rw [show id = proto from congrArg ObjectId.mk same, root.2] at found
    cases found
  have := root.1
  omega

theorem waysEnd (linked : s.Linked) : s.WaysEnd where
  scopes id known := by
    obtain ⟨path, way, _, finds⟩ := linked.wayUp id known
    exact ⟨path, way, fun name steps enough => finds name steps (by omega)⟩
  prototypes id proto found := (linked.instances id proto found).2
  properties id name steps enough := by
    have some := (linked.prototypes ⟨0⟩).1
    obtain ⟨steps, rfl⟩ : ∃ n, steps = n + 1 := ⟨steps - 1, by omega⟩
    rw [property?]
    cases (s.object id).props.get? name with
    | some value => rfl
    | none =>
      cases found : (s.object id).proto with
      | none => rfl
      | some proto =>
        have two := linked.two_le found
        obtain ⟨steps, rfl⟩ : ∃ n, steps = n + 1 := ⟨steps - 1, by omega⟩
        have last := (linked.instances id proto found).2
        simp only [property?, last, Option.none_or, Option.bind_some]
        cases (s.object proto).props.get? name <;> rfl
  instances id proto steps enough := by
    have some := (linked.prototypes ⟨0⟩).1
    obtain ⟨steps, rfl⟩ : ∃ n, steps = n + 1 := ⟨steps - 1, by omega⟩
    rw [hasPrototype]
    cases found : (s.object id).proto with
    | none => rfl
    | some next =>
      have last : s.hasPrototype proto steps next = false := by
        cases steps with
        | zero => rfl
        | succ steps => rw [hasPrototype, (linked.instances id next found).2]
      simp [last]

end Store.Linked

/-! ## Data -/

mutual

theorem Store.Linked.place {s : Store} (linked : s.Linked) : (datum : Datum) →
    (s.place datum).2.Linked
  | .array items => (linked.placeList items).withArrays _
  | .object props => (linked.placeProps props).newObject nofun
  | .undefined | .null | .bool _ | .num _ | .str _ | .fudged | .error _ | .global _ => linked

theorem Store.Linked.placeList {s : Store} (linked : s.Linked) : (data : List Datum) →
    (s.placeList data).2.Linked
  | [] => linked
  | datum :: rest => (linked.place datum).placeList rest

theorem Store.Linked.placeProps {s : Store} (linked : s.Linked) :
    (props : List (String × Datum)) → (s.placeProps props).2.Linked
  | [] => linked
  | (_, datum) :: rest => (linked.place datum).placeProps rest

end

/-! ## Operations -/

/-- The machines that operations lead to, in any order and with any programs, stacks and values.  A
slice is a number of turns. -/
inductive Machine.Operated : Machine → Prop
  | new (strategy : Strategy) (options : RunOptions) : Machine.Operated (.new strategy options)
  | turn {m : Machine} {bound : Nat} {next : Next} {step : Turn × Machine} : Machine.Operated m →
      m.turn bound next = some step → Machine.Operated step.2
  | setInterval {m : Machine} (program : Program) : Machine.Operated m →
      Machine.Operated (m.setInterval program)
  | call {m m' : Machine} {bound : Nat} {func this : Value} {args : List Value} :
      Machine.Operated m → (Machine.call bound func this args m).state? = some m' →
        Machine.Operated m'
  | enqueue {m : Machine} (task : Task) : Machine.Operated m → Machine.Operated (m.enqueue task)
  | nextTask {m m' : Machine} {task : Task} : Machine.Operated m → m.nextTask? = some (task, m') →
      Machine.Operated m'
  | print {m : Machine} (line : String) : Machine.Operated m → Machine.Operated (m.print line)
  | setGlobal {m : Machine} (name : String) (value : Value) : Machine.Operated m →
      Machine.Operated (m.setGlobal name value)
  | place {m : Machine} (datum : Datum) : Machine.Operated m →
      Machine.Operated { m with store := (m.store.place datum).2 }

namespace Machine

variable {m m' : Machine} {next : Next} {bound : Nat}

theorem begin_store (next : Next) (m : Machine) : (m.begin next).store = m.store := by
  obtain ⟨_, _, _, _, _, _, begun⟩ := m.begin_eq next
  rw [begun]

/-- A turn keeps the links in order. -/
theorem turn_linked (linked : m.store.Linked) {step : Turn × Machine}
    (done : m.turn bound next = some step) : step.2.store.Linked := by
  refine turn_store (fun _ continuations linked => linked.withContinuations continuations) ?_ done
  cases isVoid : next.isVoid with
  | true =>
    rw [Eval.start_void isVoid]
    exact linked
  | false =>
    have kept : ∀ {m₁}, (Seat.outside Store.globals).Leads (m.chronicle bound next)
        (m.begin next) m₁ → m₁.store.Linked := fun {m₁} leads => by
      have orderly : (m.begin next).store.Orderly Store.globals m₁.store := leads.orderly
      rw [begin_store] at orderly
      exact orderly.linked linked linked.globals
    exact (start_leads bound isVoid m).weaken (fun _ _ => kept) fun _ _ ends => kept ends.2

theorem call_linked {func this : Value} {args : List Value} (linked : m.store.Linked)
    (ended : (call bound func this args m).state? = some m') : m'.store.Linked := by
  have ends := ((observer_follows bound bound).perform Store.globals []
    (.call func this args) m).ends
  rw [(observer bound bound).1.faithful, (observer bound bound).2] at ends
  have kept : ∀ {told m₁}, (Seat.outside Store.globals).Leads told m m₁ → m₁.store.Linked :=
    fun leads => leads.orderly.linked linked linked.globals
  have linkedAt : ∀ m', (call bound func this args m).state? = some m' → m'.store.Linked :=
    fun m' => Ending.Meets.state (p := fun m' => m'.store.Linked) (ends.weaken (fun _ _ => kept)
      fun _ _ ends => kept ends.2)
  exact linkedAt m' ended

namespace Operated

theorem linked (operated : m.Operated) : m.store.Linked := by
  induction operated with
  | new => exact initialStore_linked
  | turn _ done ih => exact turn_linked ih done
  | call _ ended ih => exact call_linked ih ended
  | nextTask _ taken ih =>
    obtain ⟨rest, _, rfl⟩ := nextTask_eq taken
    exact ih
  | setGlobal name value _ ih => exact ih.declare Store.globals name value
  | place datum _ ih => exact ih.place datum
  | setInterval | enqueue | print => assumption

theorem drive (operated : m.Operated) {turns : Nat} {result : Except Fault Outcome}
    (done : m.drive bound turns next = some (result, m')) : m'.Operated :=
  drive_induction (fun _ m => m.Operated) (fun _ m => m.Operated) (fun _ _ _ _ operated taken =>
    operated.turn taken) (fun _ _ _ _ operated taken => operated.turn taken) operated done

/-- A program is run, in whatever slices. -/
theorem run (operated : m.Operated) {program : Program} {result : Except Fault Outcome}
    (done : m.run bound program = some (result, m')) : m'.Operated := by
  simp only [Machine.run] at done
  split at done
  · cases done
    exact operated
  · exact (operated.setInterval program).drive done

/-- At the points of an activation whose scope exists, the links are in order if they were when the
event was told. -/
theorem linked_of_moment {event : Event} {act : Activation} {m' : Machine}
    (moment : event.Moment act m') (linked : event.machine.store.Linked)
    (known : ∀ scope ∈ event.scope?, scope.index < event.machine.store.scopes.size) :
    m'.store.Linked := by
  cases moment with
  | stmt | expr => exact linked
  | @stmtEnd s l l' bound depth ended =>
    have ends := ((Observed.Follows.walk bound).runs (observer_follows bound depth) s [] l).ends
    rw [Stmt.erase_observe, (observer bound depth).2] at ends
    have kept : ∀ {told l₁}, Seat.inside.Leads told l l₁ → l₁.machine.store.Linked := fun leads =>
      leads.orderly.linked linked (known _ rfl)
    exact (ends.weaken (fun _ _ => kept) fun _ _ ends => kept ends.2).state ended
  | @exprEnd e act m _ bound depth ended =>
    have follows : (e.observe (observer bound depth).1 [] act).Follows (.outside act.scope) :=
      (Observed.Follows.walk bound).expr (observer_follows bound depth) e
    have ends := (follows m).ends
    rw [Expr.erase_observe, (observer bound depth).2] at ends
    have kept : ∀ {told m₁}, (Seat.outside act.scope).Leads told m m₁ → m₁.store.Linked :=
      fun leads => leads.orderly.linked linked (known _ rfl)
    exact (ends.weaken (fun _ _ => kept) fun _ _ ends => kept ends.2).state ended

/-- **Lookups end.**  Of every machine that operations lead to, and of every turn that it takes,
whatever begins in it and wherever a statement or an expression of it ends: each scope has a way up
to the globals without repetition, the prototype of an object has none itself, and lookups of names
and properties and tests of instances go these ways and no further. -/
theorem lookups_end (operated : m.Operated) : m.store.WaysEnd ∧ ∀ bound next,
    ∀ event ∈ m.chronicle bound next, event.isRaise = false → event.machine.store.WaysEnd ∧
    ∀ act m', event.Moment act m' → m'.store.WaysEnd := by
  refine ⟨operated.linked.waysEnd, fun bound next event mem notRaise => ?_⟩
  obtain ⟨before, after, told⟩ := List.append_of_mem mem
  have orderly := (chronicle_course told notRaise).2
  rw [begin_store] at orderly
  have linked := orderly.linked operated.linked operated.linked.globals
  have known := orderly.known operated.linked operated.linked.globals
  exact ⟨linked.waysEnd, fun act m' moment => (linked_of_moment moment linked known).waysEnd⟩

/-- A program that constructs an object. -/
def oneInstance : Program :=
  { body := [.decl { name := some "F", body := [] }, .letS "o" (some (.new (.ident "F") []))] }

/-- The object has a prototype, and the constructor was called in a scope of its own. -/
theorem lookups_end_of_oneInstance : ∃ result m, (Machine.new .lazy {}).run 8 oneInstance = some
    (result, m) ∧ m.store.scopes.size = 2 ∧ (m.store.object ⟨2⟩).proto = some ⟨1⟩ ∧
    m.store.WaysEnd ∧
    ∀ bound next, ∀ event ∈ m.chronicle bound next, event.isRaise = false →
      event.machine.store.WaysEnd ∧ ∀ act m', event.Moment act m' → m'.store.WaysEnd := by
  have evaluated : ((Machine.new .lazy {}).run 8 oneInstance).map (fun step =>
      (step.2.store.scopes.size, (step.2.store.object ⟨2⟩).proto)) = some (2, some ⟨1⟩) := by
        decide +kernel
  obtain ⟨⟨result, m⟩, ran, found⟩ := Option.map_eq_some_iff.mp evaluated
  rw [Prod.mk.injEq] at found
  have operated : m.Operated := run (.new .lazy {}) ran
  exact ⟨result, m, ran, found.1, found.2, lookups_end operated⟩

end Operated

end Machine

end Resumable
