import Resumable.Proofs.Lockstep
import Resumable.Proofs.Scopes

/-!
Layouts and the meaning of names.

A program and the same program with layouts run in lockstep as long as every name is used in time:
no scope that is passed on the way up to its binding belongs to a call that has still to bind the
name.  That can be read off the chronicle of the run without layouts, which tells the uses of names
and the calls (`Timely`).

The main statement is `Program.withLayouts_run`.  `Program.withLayouts_early` has a name that is
used too early, and there the two runs differ.
-/

namespace Resumable

/-! ## Uses of names -/

/-- A name that is read, assigned or asked for its type: where it stands, and the store at that
time. -/
structure Use where
  name : String
  scope : ScopeId
  store : Store

/-- The use of a name that begins. -/
def Event.use? : Event → Option Use
  | .expr (.ident name) act m | .expr (.unary .typeOf (.ident name)) act m =>
    some ⟨name, act.scope, m.store⟩
  | .stmt (.assign (.ident name) _) l => some ⟨name, l.act.scope, l.machine.store⟩
  | _ => none

/-- The call that begins.  The top level is none. -/
def Event.call? : Event → Option Activation
  | .body act _ => if act.callee.isSome then some act else none
  | _ => none

/-- The locals that calls are going to bind. -/
def awaitedIn (options : CompileOptions) (events : List Event) : AwaitedLocals := fun scope name =>
  ∃ call ∈ events.filterMap Event.call?, call.scope = scope ∧ name ∈ call.func.layoutNames options

/-- No name is used while a call on the way up to its binding is still going to bind it. -/
def Timely (options : CompileOptions) (events : List Event) : Prop :=
  ∀ use ∈ events.filterMap Event.use?, ∀ scope ∈ use.store.passed use.scope use.name,
    ¬ awaitedIn options events scope use.name

instance (options : CompileOptions) (events : List Event) (scope : ScopeId) (name : String) :
    Decidable (awaitedIn options events scope name) :=
  inferInstanceAs (Decidable (∃ call ∈ events.filterMap Event.call?,
    call.scope = scope ∧ name ∈ call.func.layoutNames options))

instance (options : CompileOptions) (events : List Event) : Decidable (Timely options events) :=
  inferInstanceAs (Decidable (∀ use ∈ events.filterMap Event.use?,
    ∀ scope ∈ use.store.passed use.scope use.name, ¬ awaitedIn options events scope use.name))

/-- An event that is no transfer of control, in which no awaited local is used, and after which the
locals of the call that begins are awaited. -/
structure Event.Timely (options : CompileOptions) (awaited : AwaitedLocals) (event : Event) :
    Prop where
  calm : event.isTransfer = false
  used : ∀ use ∈ event.use?, ∀ scope ∈ use.store.passed use.scope use.name, ¬ awaited scope use.name
  called : ∀ call ∈ event.call?, ∀ name ∈ call.func.layoutNames options, awaited call.scope name

/-! ## States of two runs -/

/-- The same activation, of a function with layouts. -/
structure Activation.Laid (act act' : Activation) : Prop where
  rest : act' = { act with func := act'.func }
  params : act'.func.params = act.func.params

theorem Activation.Laid.scope {act act' : Activation} (acts : act.Laid act') :
    act'.scope = act.scope := by
  rw [acts.rest]

/-- Machines that differ in their stores only, where frames are not collected. -/
structure Machine.Laid (options : CompileOptions) (use : String → Prop) (awaited : AwaitedLocals)
    (base : Store) (m m' : Machine) : Prop where
  store : m.store.Laid options use awaited base m'.store
  rest : m' = { m with store := m'.store }
  idle : m.Idle

/-- Activations with that scope, and their machines. -/
structure Local.Laid (options : CompileOptions) (use : String → Prop) (awaited : AwaitedLocals)
    (scope : ScopeId) (base : Store) (l l' : Local) : Prop where
  act : l.act.Laid l'.act
  scope : l.act.scope = scope
  machine : l.machine.Laid options use awaited base l'.machine

section Runs

variable {options : CompileOptions} {use : String → Prop} {awaited : AwaitedLocals}
  {scope : ScopeId} {base older : Store}

namespace Machine.Laid

variable {m m' : Machine}

section

variable (laid : m.Laid options use awaited base m')

include laid

theorem withStore {s s' newBase : Store} (store : s.Laid options use awaited newBase s') :
    Machine.Laid options use awaited newBase { m with store := s } { m' with store := s' } where
  store := store
  rest := congrArg (fun m : Machine => { m with store := s' }) laid.rest
  idle := { laid.idle with }

theorem rebase : m.Laid options use awaited m.store m' :=
  { laid with store := laid.store.rebase }

theorem weaken (grows : older.Grows base) : m.Laid options use awaited older m' :=
  { laid with store := laid.store.weaken grows }

theorem bothIdle : m.Idle ∧ m'.Idle := by
  refine ⟨laid.idle, ?_⟩
  rw [laid.rest]
  exact { laid.idle with }

end

end Machine.Laid

instance : Machine.Mirrored (Machine.Laid options use awaited base) where
  strategy laid := by rw [laid.rest]
  alike laid := laid.store.alike
  objects f laid := laid.withStore (laid.store.withObjects f)
  arrays f laid := laid.withStore (laid.store.withArrays f)
  print line laid :=
    { store := laid.store, rest := congrArg (Machine.print · line) laid.rest,
      idle := { laid.idle with } }

/-- The computation and the one with layouts end alike, as long as names are used in time. -/
abbrev Observed.Laid (options : CompileOptions) (use : String → Prop) (awaited : AwaitedLocals)
    (base : Store) (x : Observed Machine α) (y : Eval α) : Prop :=
  x.Lockstep (Event.Timely options awaited) (Machine.Laid options use awaited base) y

/-- Likewise within an activation. -/
abbrev Observed.LaidWithin (options : CompileOptions) (use : String → Prop)
    (awaited : AwaitedLocals) (scope : ScopeId) (base : Store) (x : Observed Local α) (y : Exec α) :
    Prop :=
  x.Lockstep (Event.Timely options awaited) (Local.Laid options use awaited scope base) y

theorem Observed.ofEval_laid {x : Activation → Observed Machine α} {y : Activation → Eval α}
    (laid : ∀ act act', act.Laid act' → act.scope = scope → (x act).Laid options use awaited base
      (y act')) :
    (Observed.ofEval x).LaidWithin options use awaited scope base (Exec.ofEval y) :=
  .ofEval (fun _ _ related => related.machine)
    (fun _ _ _ _ related machine => ⟨related.act, related.scope, machine⟩)
    fun _ _ related => laid _ _ related.act related.scope

theorem Eval.modifyStore_laid {f f' : Store → Store}
    (keeps : ∀ s s', s.Laid options use awaited base s' → (f s).Laid options use awaited base
      (f' s')) :
    (modifyStore f).Twin (Machine.Laid options use awaited base) (modifyStore f') :=
  .modify fun _ _ related => related.withStore (keeps _ _ related.store)

theorem Eval.changeStore_laid {f f' : Store → α × Store}
    (keeps : ∀ s s', s.Laid options use awaited base s' →
      (f' s').1 = (f s).1 ∧ (f s).2.Laid options use awaited base (f' s').2) :
    (changeStore f).Twin (Machine.Laid options use awaited base) (changeStore f') :=
  .changeStore fun _ _ related =>
    ⟨(keeps _ _ related.store).1, related.withStore (keeps _ _ related.store).2⟩

/-! ## Names -/

section Names

variable {act act' : Activation} {m m' : Machine} {name : String}

theorem Eval.lookup_laid (acts : act.Laid act') (related : m.Laid options use awaited base m')
    (free : ∀ scope ∈ m.store.passed act.scope name, ¬ awaited scope name) :
    (lookup act name m).Twin (Machine.Laid options use awaited base) (lookup act' name m') := by
  rw [lookup, lookup, Run.read_bind, Run.read_bind, acts.scope, related.store.lookup? free]
  cases m.store.lookup? act.scope name with
  | none => exact Run.Twin.throw _ _ _ related
  | some value => exact .ok related

theorem Eval.typeOfName_laid (acts : act.Laid act') (related : m.Laid options use awaited base m')
    (free : ∀ scope ∈ m.store.passed act.scope name, ¬ awaited scope name) :
    (typeOfName act name m).Twin (Machine.Laid options use awaited base)
    (typeOfName act' name m') := by
  unfold typeOfName Run.read
  simp only [acts.scope, related.store.lookup? free]
  exact .ok related

theorem Eval.makeClosure_laid (acts : act.Laid act') (known : act.scope.index < base.scopes.size)
    {f : Func} (normal : f.Normal use) :
    (makeClosure act f).Twin (Machine.Laid options use awaited base)
      (makeClosure act' (f.transform (attachingLayouts options) ())) := by
  refine changeStore_laid fun s s' stores => ?_
  obtain ⟨same, made⟩ := stores.newClosure (Func.laid_transform f) normal
    (Nat.lt_of_lt_of_le known stores.grows.size)
  rw [acts.scope]
  exact ⟨congrArg Value.closure same, made⟩

theorem Eval.makeArguments_laid (acts : act.Laid act') :
    (makeArguments act).Twin (Machine.Laid options use awaited base) (makeArguments act') := by
  refine Run.Twin.bind (.read fun m m' related => ?_) fun items => makeArray_twin items
  have params : act'.paramValues m'.store = act.paramValues m.store := by
    unfold Activation.paramValues
    rw [acts.params, acts.scope]
    exact List.map_congr_left fun name _ => related.store.localD act.scope name
  unfold Activation.argumentValues
  rw [params, acts.rest]

end Names

/-! ## Expressions -/

/-- What the engine does with layouts is what the observer tells about. -/
structure Observer.Laid (options : CompileOptions) (use : String → Prop) (awaited : AwaitedLocals)
    (w : Observer) (g : Engine) : Prop where
  bound : g.bound = w.engine.bound
  call : ∀ base context func this args,
    (w.perform context (.call func this args)).Laid options use awaited base
    (g.perform (.call func this args))
  new : ∀ base context callee args,
    (w.perform context (.construct callee args)).Laid options use awaited base
      (g.perform (.construct callee args))

section Expressions

variable {w : Observer} {g : Engine} {act act' : Activation}

section

variable (acts : act.Laid act') (known : act.scope.index < base.scopes.size) (context : Context)

include acts known context

theorem Expr.Atom.observe_laid {e : Expr} (atom : e.Atom use (Func.Normal use)) :
    (e.observe w context act).Laid options use awaited base
      ((e.transform (attachingLayouts options) ()).eval g act') := by
  cases atom with
  | num => exact .noted (.lift (.pure _))
  | str => exact .noted (.lift (.pure _))
  | bool => exact .noted (.lift (.pure _))
  | null => exact .noted (.lift (.pure _))
  | undefined => exact .noted (.lift (.pure _))
  | @ident name _ =>
    intro m m' related calm
    have timely := calm _ (List.mem_cons_self ..)
    exact Eval.lookup_laid acts related (timely.used ⟨name, act.scope, m.store⟩ rfl)
  | this =>
    have same : act'.this = act.this := by rw [acts.rest]
    show Observed.Laid options use awaited base _ (pure act'.this)
    rw [same]
    exact .noted (.lift (.pure _))
  | arguments => exact .noted (.lift (Eval.makeArguments_laid acts))
  | func normal => exact .noted (.lift (Eval.makeClosure_laid acts known normal))

theorem Expr.observeList_laid {es : List Expr} (atoms : ∀ e ∈ es, e.Atom use (Func.Normal use)) :
    (Expr.observeList w context act es).Laid options use awaited base
      (Expr.evalList g act' (Expr.transformList (attachingLayouts options) () es)) := by
  induction es with
  | nil => exact .pure []
  | cons e rest ih =>
    rw [List.forall_mem_cons] at atoms
    rw [Expr.observeList, Expr.transformList, Expr.evalList]
    exact (atoms.1.observe_laid acts known context).bind fun _ => (ih atoms.2).bind fun _ => .pure _

theorem Expr.observeProps_laid {props : List (String × Expr)}
    (atoms : ∀ p ∈ props, p.2.Atom use (Func.Normal use)) :
      (Expr.observeProps w context act props).Laid options use awaited base (Expr.evalProps g act'
        (Expr.transformProps (attachingLayouts options) () props)) := by
  induction props with
  | nil => exact .pure []
  | cons prop rest ih =>
    rw [List.forall_mem_cons] at atoms
    rw [Expr.observeProps, Expr.transformProps, Expr.evalProps]
    exact (atoms.1.observe_laid acts known context).bind fun _ => (ih atoms.2).bind fun _ => .pure _

end

section

variable (engines : w.Laid options use awaited g) (acts : act.Laid act')
  (known : act.scope.index < base.scopes.size) (context : Context)

include engines acts known context

theorem Expr.Simple.observe_laid {e : Expr} (simple : e.Simple use (Func.Normal use)) :
    (e.observe w context act).Laid options use awaited base
      ((e.transform (attachingLayouts options) ()).eval g act') := by
  have operand {e : Expr} (atom : e.Atom use (Func.Normal use)) :
      (e.observe w context act).Laid options use awaited base
        ((e.transform (attachingLayouts options) ()).eval g act') :=
    atom.observe_laid acts known context
  cases simple with
  | atom atom => exact operand atom
  | @binary op left right leftAtom rightAtom =>
    show Observed.Laid options use awaited base _
      ((Expr.binary op (left.transform (attachingLayouts options) ())
        (right.transform (attachingLayouts options) ())).eval g act')
    cases op with
    | and =>
      rw [Expr.observe, Expr.eval]
      exact .noted ((operand leftAtom).bind fun _ => .ite (operand rightAtom) (.pure _))
    | or =>
      rw [Expr.observe, Expr.eval]
      exact .noted ((operand leftAtom).bind fun _ => .ite (.pure _) (operand rightAtom))
    | _ =>
      rw [Expr.observe, Expr.eval, engines.bound]
      · exact .noted ((operand leftAtom).bind fun _ => (operand rightAtom).bind fun _ =>
          .lift (Eval.mirrored.binary _ _ _))
      all_goals nofun
  | @unary op arg atom =>
    show Observed.Laid options use awaited base _
      ((Expr.unary op (arg.transform (attachingLayouts options) ())).eval g act')
    have inner := operand atom
    cases op with
    | typeOf =>
      cases atom with
      | @ident name _ =>
        intro m m' related calm
        have timely := calm _ (List.mem_cons_self ..)
        exact Eval.typeOfName_laid acts related (timely.used ⟨name, act.scope, m.store⟩ rfl)
      | _ =>
        rw [Expr.observe, Expr.eval]
        · exact .noted (inner.bind fun _ => .pure _)
        all_goals nofun
    | _ =>
      rw [Expr.observe, Expr.eval]
      exact .noted (inner.bind fun _ => .pure _)
  | cond test thenE elseE =>
    show Observed.Laid options use awaited base _ ((Expr.cond _ _ _).eval g act')
    rw [Expr.observe, Expr.eval]
    exact .noted ((operand test).bind fun _ => .ite (operand thenE) (operand elseE))
  | member base =>
    show Observed.Laid options use awaited _ _ ((Expr.member _ _).eval g act')
    rw [Expr.observe, Expr.eval, engines.bound]
    exact .noted ((operand base).bind fun _ => .lift (Eval.mirrored.getProperty _ _))
  | index base key =>
    show Observed.Laid options use awaited _ _ ((Expr.index _ _).eval g act')
    rw [Expr.observe, Expr.eval, engines.bound]
    exact .noted ((operand base).bind fun _ => (operand key).bind fun _ =>
      .lift (Eval.mirrored.getIndex _ _))
  | array elements =>
    show Observed.Laid options use awaited _ _ ((Expr.array _).eval g act')
    rw [Expr.observe, Expr.eval]
    exact .noted ((Expr.observeList_laid acts known context elements).bind fun _ =>
      .lift (Eval.makeArray_twin _))
  | object props =>
    show Observed.Laid options use awaited _ _ ((Expr.object _).eval g act')
    rw [Expr.observe, Expr.eval]
    exact .noted ((Expr.observeProps_laid acts known context props).bind fun _ =>
      .lift (Eval.makeObject_twin _))

theorem Expr.Whole.observe_laid {e : Expr} (whole : e.Whole use (Func.Normal use)) :
    (e.observe w context act).Laid options use awaited base
      ((e.transform (attachingLayouts options) ()).eval g act') := by
  have operand {e : Expr} (atom : e.Atom use (Func.Normal use)) :
      (e.observe w context act).Laid options use awaited base
        ((e.transform (attachingLayouts options) ()).eval g act') :=
    atom.observe_laid acts known context
  have operands {es : List Expr} (atoms : ∀ e ∈ es, e.Atom use (Func.Normal use)) :
      (Expr.observeList w context act es).Laid options use awaited base
        (Expr.evalList g act' (Expr.transformList (attachingLayouts options) () es)) :=
    Expr.observeList_laid acts known context atoms
  cases whole with
  | simple simple => exact simple.observe_laid engines acts known context
  | @call callee args atom atoms =>
    show Observed.Laid options use awaited _ _
      ((Expr.call (callee.transform (attachingLayouts options) ()) _).eval g act')
    have function := operand atom
    -- an atom is no member
    cases atom with
    | _ =>
      rw [Expr.observe, Expr.eval]
      · exact .noted (function.bind fun _ => (operands atoms).bind fun _ => engines.call _ _ _ _ _)
      all_goals exact fun _ _ h => by cases h
  | @method base property args atom atoms =>
    show Observed.Laid options use awaited _ _
      ((Expr.call (.member (base.transform (attachingLayouts options) ()) property) _).eval g act')
    rw [Expr.observe, Expr.eval, engines.bound]
    exact .noted ((operand atom).bind fun _ =>
      Observed.Lockstep.bind (.lift (Eval.mirrored.getProperty _ _)) fun _ =>
        (operands atoms).bind fun _ => engines.call _ _ _ _ _)
  | new atom atoms =>
    show Observed.Laid options use awaited _ _ ((Expr.new _ _).eval g act')
    rw [Expr.observe, Expr.eval]
    exact .noted ((operand atom).bind fun _ => (operands atoms).bind fun _ => engines.new _ _ _ _)

theorem Expr.observeOption_laid {value : Option Expr}
    (whole : ∀ e ∈ value, e.Whole use (Func.Normal use)) :
      (Expr.observeOption w context act value).Laid options use awaited base (Expr.evalOption g act'
        (Expr.transformOption (attachingLayouts options) () value)) := by
  cases value with
  | none => exact .pure _
  | some e => exact (whole e rfl).observe_laid engines acts known context

end

theorem Expr.Simple.observeTest_laid (engines : w.Laid options use awaited g)
    (known : scope.index < base.scopes.size) (context : Context) {test : Expr}
    (simple : test.Simple use (Func.Normal use)) :
    (test.observeTest w context).LaidWithin options use awaited scope base
      ((test.transform (attachingLayouts options) ()).test g) :=
  Observed.ofEval_laid fun _ _ acts here =>
    (simple.observe_laid engines acts (here ▸ known) context).bind fun _ => .pure _

/-- An assignment to a part of an object. -/
theorem Target.Normal.observe_laid (engines : w.Laid options use awaited g) (acts : act.Laid act')
    (known : act.scope.index < base.scopes.size) (context : Context) {target : Target}
    (normal : target.Normal use (Func.Normal use)) (part : ∀ name, target ≠ .ident name)
    {value : Expr}
    (whole : value.Whole use (Func.Normal use)) :
    (target.observe w context value act).Laid options use awaited base
      ((target.transform (attachingLayouts options) ()).assign g
        (value.transform (attachingLayouts options) ()) act') := by
  have operand {e : Expr} (atom : e.Atom use (Func.Normal use)) :
      (e.observe w context act).Laid options use awaited base
        ((e.transform (attachingLayouts options) ()).eval g act') :=
    atom.observe_laid acts known context
  have given := whole.observe_laid engines acts known context
  cases normal with
  | ident => exact absurd rfl (part _)
  | member base =>
    rw [Target.observe, Target.transform, Target.assign, engines.bound]
    exact (operand base).bind fun _ => given.bind fun _ => .lift (Eval.mirrored.giveProperty _ _ _)
  | index base key =>
    rw [Target.observe, Target.transform, Target.assign, engines.bound]
    exact (operand base).bind fun _ => (operand key).bind fun _ => given.bind fun _ =>
      .lift (Eval.mirrored.setIndex _ _ _)

/-- An assignment to a name that is not awaited on the way up when the assignment begins. -/
theorem Target.observe_ident_laid (engines : w.Laid options use awaited g) (acts : act.Laid act')
    (known : act.scope.index < base.scopes.size) (context : Context) {name : String}
    (free : ∀ scope ∈ base.passed act.scope name, ¬ awaited scope name) {value : Expr}
    (whole : value.Whole use (Func.Normal use)) :
    ((Target.ident name).observe w context value act).Laid options use awaited base
      ((Target.ident name).assign g (value.transform (attachingLayouts options) ()) act') := by
  rw [Target.observe, Target.assign, acts.scope]
  refine (whole.observe_laid engines acts known context).bind fun v => .lift ?_
  refine Eval.modifyStore_laid fun s s' stores => stores.assign (fun scope mem => ?_) v
  exact free scope (stores.grows.passed_subset stores.rooted known name scope mem)

end Expressions

/-! ## Statements -/

section Statements

variable {w : Observer} {g : Engine}

theorem Exec.declare_laid (name : String) (value : Value) :
    (Exec.declare name value).Twin (Local.Laid options use awaited scope base)
    (Exec.declare name value) := by
  intro l l' related
  have stores : (l.machine.store.declare l.act.scope name value).Laid options use awaited base
      (l'.machine.store.declare l'.act.scope name value) := by
    rw [related.act.scope]
    exact related.machine.store.declare l.act.scope name value
  exact .ok ⟨related.act, related.scope, related.machine.withStore stores⟩

theorem Stmt.observeList_laid {context : Context} {body : List Stmt}
    (laid : ∀ s ∈ body, (s.observe w context).LaidWithin options use awaited scope base
      ((s.transform (attachingLayouts options) ()).exec g)) :
    (Stmt.observeList w context body).LaidWithin options use awaited scope base
      (Stmt.execList g (Stmt.transformList (attachingLayouts options) () body)) := by
  induction body with
  | nil => exact .pure _
  | cons s rest ih =>
    rw [List.forall_mem_cons] at laid
    rw [Stmt.observeList, Stmt.transformList, Stmt.execList]
    refine laid.1.bind fun completion => ?_
    cases completion with
    | normal => exact ih laid.2
    | _ => exact .pure _

theorem Stmt.observeOption_laid {context : Context} {o : Option Stmt}
    (laid : ∀ s ∈ o, (s.observe w context).LaidWithin options use awaited scope base
      ((s.transform (attachingLayouts options) ()).exec g)) :
    (Stmt.observeOption w context o).LaidWithin options use awaited scope base
      (Stmt.execOption g (Stmt.transformOption (attachingLayouts options) () o)) := by
  cases o with
  | none => exact .pure _
  | some s => exact laid s rfl

theorem Handler.observeOption_laid {context : Context} {o : Option Handler}
    {body : Observed Local Completion} {body' : Exec Completion}
    (bodies : body.LaidWithin options use awaited scope base body')
    (laid : ∀ h ∈ o, (h.body.observe w context).LaidWithin options use awaited scope base
      ((h.body.transform (attachingLayouts options) ()).exec g)) :
    (Handler.observeOption w context body o).LaidWithin options use awaited scope base
      (Handler.execOption g body' (Handler.transformOption (attachingLayouts options) () o)) := by
  cases o with
  | none => exact bodies
  | some h =>
    obtain ⟨param, handler⟩ := h
    exact .handle bodies (Exec.declare_laid param) (laid ⟨param, handler⟩ rfl)

theorem Stmt.Normal.observe_laid (engines : w.Laid options use awaited g)
    (known : scope.index < base.scopes.size) (context : Context) {s : Stmt}
    (normal : s.Normal use (Func.Normal use)) :
    (s.observe w context).LaidWithin options use awaited scope base
      ((s.transform (attachingLayouts options) ()).exec g) := by
  induction normal with
  | block _ ih =>
    show Observed.LaidWithin options use awaited scope base _ ((Stmt.block _).exec g)
    rw [Stmt.observe, Stmt.exec]
    exact .noted (Stmt.observeList_laid ih)
  | letS _ whole =>
    show Observed.LaidWithin options use awaited scope base _ ((Stmt.letS _ _).exec g)
    rw [Stmt.observe, Stmt.exec]
    exact .noted (.bind (Observed.ofEval_laid fun _ _ acts here =>
      Expr.observeOption_laid engines acts (here ▸ known) context whole) fun value =>
        Observed.Lockstep.bind (.lift (Exec.declare_laid _ value)) fun _ => .pure _)
  | @assign target value normal whole =>
    show Observed.LaidWithin options use awaited scope base _
      ((Stmt.assign (target.transform (attachingLayouts options) ()) _).exec g)
    rw [Stmt.exec]
    by_cases named : ∃ name, target = .ident name
    · obtain ⟨name, rfl⟩ := named
      intro l l' related calm
      have timely := calm _ (List.mem_cons_self ..)
      have free := timely.used ⟨name, l.act.scope, l.machine.store⟩ rfl
      have known := Nat.lt_of_lt_of_le known related.machine.store.grows.size
      -- the value may bind names, so the assignment is looked at from where the statement begins
      have assigned : (Stmt.observe w context (.assign (.ident name) value)).LaidWithin options use
          awaited scope l.machine.store (do
            Exec.ofEval fun act =>
              (Target.ident name).assign g (value.transform (attachingLayouts options) ()) act
            return .normal) := by
        rw [Stmt.observe]
        refine .noted (.bind (Observed.ofEval_laid fun _ _ acts here => ?_) fun _ => .pure _)
        exact Target.observe_ident_laid engines acts (here ▸ known) context
          (by rw [here, ← related.scope]; exact free) whole
      exact (assigned l l' { related with machine := related.machine.rebase } calm).mono
        fun _ _ laid => { laid with machine := laid.machine.weaken related.machine.store.grows }
    · rw [Stmt.observe]
      exact .noted (.bind (Observed.ofEval_laid fun _ _ acts here =>
        normal.observe_laid engines acts (here ▸ known) context (fun name same =>
          named ⟨name, same⟩) whole) fun _ => .pure _)
  | expr whole =>
    show Observed.LaidWithin options use awaited scope base _ ((Stmt.expr _).exec g)
    rw [Stmt.observe, Stmt.exec]
    exact .noted (.bind (.bind (Observed.ofEval_laid fun _ _ acts here =>
      whole.observe_laid engines acts (here ▸ known) context) fun _ => .pure _) fun _ => .pure _)
  | ifS simple _ _ thenIH elseIH =>
    show Observed.LaidWithin options use awaited scope base _ ((Stmt.ifS _ _ _).exec g)
    rw [Stmt.observe, Stmt.exec]
    exact .noted ((simple.observeTest_laid engines known context).bind fun _ =>
      .ite thenIH (Stmt.observeOption_laid elseIH))
  | loop _ simple _ ih =>
    show Observed.LaidWithin options use awaited scope base _
      ((Stmt.labeled _ (.whileS _ _)).exec g)
    rw [Stmt.observe, Stmt.exec, engines.bound]
    exact .noted (.loop (some _) (simple.observeTest_laid engines known context) ih _)
  | @labeled label body _ inner ih =>
    show Observed.LaidWithin options use awaited scope base _
      ((Stmt.labeled label (body.transform (attachingLayouts options) ())).exec g)
    have notLoop := inner.not_loop
    have notLoop' := (Stmt.isLoop_transform (attachingLayouts_tame options) body).trans notLoop
    rw [Stmt.observe, Stmt.exec]
    · exact .noted (ih.bind fun _ => .pure _)
    · intro test loop same
      rw [same] at notLoop'
      cases notLoop'
    · rintro test loop rfl
      cases notLoop
  | breakS => exact .noted (.lift (.pure _))
  | returnS whole =>
    show Observed.LaidWithin options use awaited scope base _ ((Stmt.returnS _).exec g)
    rw [Stmt.observe, Stmt.exec]
    exact .noted (.bind (Observed.ofEval_laid fun _ _ acts here =>
      Expr.observeOption_laid engines acts (here ▸ known) context whole) fun _ => .pure _)
  | throwS simple =>
    show Observed.LaidWithin options use awaited scope base _ ((Stmt.throwS _).exec g)
    rw [Stmt.observe, Stmt.exec]
    exact .noted (.bind (Observed.ofEval_laid fun _ _ acts here =>
      simple.observe_laid engines acts (here ▸ known) context) fun _ => .lift (.throw _))
  | tryS _ _ _ _ bodyIH handlerIH finalIH =>
    show Observed.LaidWithin options use awaited scope base _ ((Stmt.tryS _ _ _).exec g)
    rw [Stmt.observe, Stmt.exec]
    exact .noted (.withFinal (Handler.observeOption_laid bodyIH handlerIH)
      (Stmt.observeOption_laid finalIH))
  | @decl f normal =>
    show Observed.LaidWithin options use awaited scope base _
      ((Stmt.decl (f.transform (attachingLayouts options) ())).exec g)
    rw [Stmt.observe]
    refine .noted ?_
    rw [Stmt.exec, Stmt.exec, Observed.lift_bind, Observed.lift_ofEval]
    refine .bind (Observed.ofEval_laid fun act act' acts here => .lift ?_) fun _ => .pure _
    rw [acts.scope, here]
    exact Eval.modifyStore_laid fun s s' stores => stores.declareFunc (Func.laid_transform f) normal
      (Nat.lt_of_lt_of_le known stores.grows.size)

/-- The body of a function, or of the top level. -/
theorem Eval.observeBody_laid (engines : w.Laid options use awaited g) (context : Context)
    {act act' : Activation} (acts : act.Laid act') (known : act.scope.index < base.scopes.size)
    {body : List Stmt}
    (normal : ∀ s ∈ body, s.Normal use (Func.Normal use)) :
    (observeBody w context act body).Laid options use awaited base
      (runBody g act' (Stmt.transformList (attachingLayouts options) () body)) :=
  observeBody_lockstep (fun _ _ related => ⟨acts, rfl, related⟩) (fun _ _ related =>
    related.machine) (Stmt.observeList_laid fun s mem => (normal s mem).observe_laid engines known
    context)

/-! ## Calls -/

section

variable (engines : w.Laid options use awaited g) (context : Context)

include engines context

/-- The scope of a call and its body.  What the layout binds at the beginning is awaited without it.
-/
theorem Eval.observeScope_laid {m m' : Machine} (related : m.Laid options use awaited base m')
    {f f' : Func} (func : f.Laid options f') (normal : f.Normal use) {env env' : ScopeId}
    (sameEnv : env' = env)
    (known : env.index < m.store.scopes.size) (closure : ClosureId) (this : Value)
    (args : List Value)
    (newTarget : Value) (calm : ∀ event ∈ (do
        let scope ← .lift (changeStore fun store => store.enterScope f env args)
        observeBody w context
          { scope, this, func := f, callee := some closure, args, argCount := args.length,
            newTarget }
          f.body : Observed Machine Value).told m, event.Timely options awaited) :
    ((do
        let scope ← .lift (changeStore fun store => store.enterScope f env args)
        observeBody w context
          { scope, this, func := f, callee := some closure, args, argCount := args.length,
            newTarget }
          f.body : Observed Machine Value).erase m).Twin (Machine.Laid options use awaited base)
      ((do
        let scope ← changeStore fun store => store.enterScope f' env' args
        runBody g
          { scope, this, func := f', callee := some closure, args, argCount := args.length,
            newTarget }
          f'.body) m') := by
  subst sameEnv
  let act : Activation :=
    { scope := ⟨m.store.scopes.size⟩, this, func := f, callee := some closure, args
      argCount := args.length, newTarget }
  have opened := (calm (.body act { m with store := (m.store.enterScope f env' args).2 })
    (List.mem_cons_self ..)).called act rfl
  obtain ⟨sameScope, entered⟩ := related.store.enterScope func normal known args opened
  have made : m.store.scopes.size < (m.store.newScope (some env')).2.scopes.size := by
    rw [Store.newScope, Array.size_push]
    exact Nat.lt_succ_self _
  have acts : act.Laid { act with scope := (m'.store.enterScope f' env' args).1, func := f' } :=
    ⟨by rw [sameScope]; rfl, func.params⟩
  have body : ∀ s ∈ f.body, s.Normal use (Func.Normal use) := by
    cases normal with
    | intro _ _ _ body => exact body
  have inner := observeBody_laid engines context acts made body _ _ (related.withStore entered) calm
  rw [← func.body] at inner
  exact inner.mono fun _ _ laid => laid.weaken (related.store.grows.newScope _)

theorem Eval.observeEnter_laid (closure : ClosureId) (this : Value) (args : List Value)
    (newTarget : Value) : (observeEnter w context closure this args newTarget).Laid options use
      awaited base (enter g closure this args newTarget) := by
  intro m m' related calm
  have code := related.store.code closure
  have known := related.store.rooted.closures closure
  exact observeScope_laid engines context related code.func code.normal code.env known closure this
    args newTarget calm

theorem Action.observeCall_laid (func this : Value) (args : List Value) :
    ((Action.call func this args).observe w context).Laid options use awaited base
      ((Action.call func this args).performWith g) := by
  intro m m' related calm
  obtain ⟨timely, calm⟩ := List.forall_mem_cons.mp calm
  have notTransfer := timely.calm
  cases func with
  | closure id =>
    exact Eval.observeEnter_laid engines context id this args .undefined m m' related calm
  | native native =>
    have notAbort : native ≠ .abortCC := by
      rintro rfl
      cases notTransfer
    exact Eval.observeNative_lockstep engines.bound (fun _ timely => timely.calm)
      (engines.call base) context notAbort this args m m' related calm
  | continuation id => cases notTransfer
  | fudged =>
    exact Eval.liftShown_lockstep engines.bound (Eval.firstArg args) .fudged m m' related calm
  | _ => exact Eval.liftShown_lockstep engines.bound _ .notFunction m m' related calm

theorem Eval.observeConstruct_laid (callee : Value) (args : List Value) :
    (observeConstruct w context callee args).Laid options use awaited base
    (construct g callee args) := by
  cases callee with
  | closure id =>
    exact Observed.Lockstep.bind (.lift (makeInstance_twin id)) fun this =>
      (observeEnter_laid engines context id this args (.closure id)).bind fun value => .pure _
  | native native =>
    show Observed.Laid options use awaited base
      (.lift (if native.isConstructor then callNative w.engine native .undefined args else _))
      (if native.isConstructor then callNative g native .undefined args else _)
    split
    · rename_i made
      have quiet : native ∉ [.captureCC, .callCC, .abortCC] := by
        cases native <;> first | decide | cases made
      exact .lift (callNative_twin quiet engines.bound .undefined args)
    · exact liftShown_lockstep engines.bound _ .notConstructor
  | _ => exact liftShown_lockstep engines.bound _ .notConstructor

end

/-- Within the same bounds, the engine does with layouts what the observer tells about. -/
theorem observer_laid (bound depth : Nat) :
    (observer bound depth).1.Laid options use awaited ⟨bound, perform bound depth⟩ := by
  induction depth with
  | zero =>
    exact ⟨rfl, fun _ _ _ _ _ => .lift fun _ _ _ => .cutOff, fun _ _ _ _ => .lift fun _ _ _ =>
      .cutOff⟩
  | succ depth ih =>
    exact ⟨rfl, fun _ context func this args => Action.observeCall_laid ih context func this args,
      fun _ context callee args => .noted (Eval.observeConstruct_laid ih context callee args)⟩

/-! ## Programs -/

theorem Action.observeTop_laid (engines : w.Laid options use awaited g) (context : Context)
    (known : 0 < base.scopes.size) {program : Program}
    (normal : ∀ s ∈ program.body, s.Normal use (Func.Normal use)) :
    ((Action.enterTop (Machine.top program)).observe w context).Laid options use awaited base
      ((Action.enterTop (Machine.top (program.withLayouts options))).performWith g) := by
  have acts : Activation.Laid { scope := Store.globals, func := Machine.top program }
      { scope := Store.globals, func := Machine.top (program.withLayouts options) } := ⟨rfl, rfl⟩
  refine .noted (.bind (.lift (Eval.modifyStore_laid fun s s' stores => ?_)) fun _ => ?_)
  · exact stores.hoist normal (Nat.lt_of_lt_of_le known stores.grows.size)
  · exact Eval.observeBody_laid engines context acts known normal

end Statements

/-- The turn that runs the program. -/
theorem Machine.Laid.start (bound : Nat) {m m' : Machine}
    (related : m.Laid options use awaited base m') (known : 0 < base.scopes.size)
    {program : Program}
    (normal : ∀ s ∈ program.body, s.Normal use (Func.Normal use))
    (timely : ∀ event ∈ Machine.chronicle bound (.run (.enterTop (Machine.top program))) m,
      event.Timely options awaited) :
    (Eval.start (engine bound) (.run (.enterTop (Machine.top program))) m).Twin
      (Machine.Laid options use awaited base)
      (Eval.start (engine bound)
          (.run (.enterTop (Machine.top (program.withLayouts options)))) m') := by
  rw [← Machine.erase_observed]
  let begin (m : Machine) : Machine :=
    { m with
      remaining := m.options.stackSize.map Int.ofNat, mode := .normal, stack := .empty
      shadow := .empty }
  have begun : (begin m).Laid options use awaited base (begin m') :=
    { store := related.store, rest := congrArg begin related.rest, idle := { related.idle with } }
  cases bound with
  | zero => exact .cutOff
  | succ bound =>
    exact Action.observeTop_laid (observer_laid (bound + 1) bound) [] known normal _ _ begun timely

end Runs

open NormalForm

theorem Machine.new_laid (options : CompileOptions) (use : String → Prop) (awaited : AwaitedLocals)
    (strategy : Strategy) (limits : RunOptions) :
    (Machine.new strategy limits).Laid options use awaited Machine.initialStore
    (Machine.new strategy limits) where
  store :=
    { grows := .refl _
      rooted := Machine.initialStore_linked.toRooted
      scopes := rfl
      parents _ := rfl
      vars _ _ := .inl rfl
      objects := rfl
      arrays := rfl
      closures := rfl
      code _ := ⟨⟨rfl, rfl, rfl, rfl, nofun⟩, .intro rfl nofun nofun nofun, rfl, rfl⟩ }
  rest := rfl
  idle := ⟨rfl, rfl⟩

/-- Layouts do not change what a program does, loaded or not, as long as every name is used in time.
If an accepted program begins no transfer of control when it is run, and uses no name that a call on
the way up to its binding has still to bind, then with layouts it ends within the same bound with
the same result, whether that is a value, an uncaught exception or a fault, and with the same
output, objects, arrays and globals. -/
theorem Program.withLayouts_run (bound : Nat) (options : CompileOptions) (strategy : Strategy)
    (limits : RunOptions) {program : Program} (accepted : NormalForm.errors program = [])
    (calm : ∀ event ∈ Machine.chronicle bound (.run (.enterTop (Machine.top program)))
      (Machine.new strategy limits), event.isTransfer = false)
    (timely : Timely options (Machine.chronicle bound (.run (.enterTop (Machine.top program)))
      (Machine.new strategy limits))) :
    Option.Rel
      (fun (plain laid : Except Fault Outcome × Machine) =>
        laid.1 = plain.1 ∧ laid.2.output = plain.2.output ∧
          laid.2.store.objects = plain.2.store.objects ∧
          laid.2.store.arrays = plain.2.store.arrays ∧
          ∀ name, laid.2.global? name = plain.2.global? name)
      ((Machine.new strategy limits).run bound program)
      ((Machine.new strategy limits).run bound (program.withLayouts options)) := by
  obtain ⟨plain, normal⟩ := Program.normal_of_accepted accepted
  let events := Machine.chronicle bound (.run (.enterTop (Machine.top program)))
    (Machine.new strategy limits)
  have runs (p : Program) (plain : p.instrumented = none) :
      (Machine.new strategy limits).run bound p = (Machine.new strategy limits).drive bound bound
      (.run (.enterTop (Machine.top p))) := by
    unfold Machine.run Machine.setInterval
    rw [plain]
    exact if_neg (not_not_intro rfl)
  have inTime : ∀ event ∈ events, event.Timely options (awaitedIn options events) :=
    fun event mem =>
    { calm := calm event mem
      used := fun use used => timely use (List.mem_filterMap.mpr ⟨event, mem, used⟩)
      called := fun call called name local_ => ⟨call, List.mem_filterMap.mpr ⟨event, mem, called⟩,
        rfl, local_⟩ }
  have begun := Machine.new_laid options Unreserved (awaitedIn options events) strategy limits
  have one : 0 < Machine.initialStore.scopes.size := by decide
  have slices := Machine.drive_twin (fun _ _ laid => laid.bothIdle)
    (begun.start bound one normal inTime)
  rw [runs program plain, runs (program.withLayouts options) plain]
  generalize Machine.drive bound bound (.run (.enterTop (Machine.top program))) _ =
    slice at slices ⊢
  generalize Machine.drive bound bound _ (Machine.new strategy limits) = slice' at slices ⊢
  cases slices with
  | none => exact .none
  | some ends =>
    obtain ⟨same, laid⟩ := ends
    exact .some ⟨same, by rw [laid.rest], laid.store.objects, laid.store.arrays,
      laid.store.local?_globals⟩

/-- A call whose locals hide globals and are changed by a function inside of it. -/
def Program.marking : Program :=
  { body := [
      .decl { name := some "mark", params := ["x"],
              body := [.letS "n" (some (.ident "x")),
                .decl { name := some "more",
                        body := [.assign (.ident "n") (.binary .add (.ident "n") (.str "!")),
                          .returnS (some (.ident "n"))] },
                .tryS (.block [.letS "t" (some (.call (.ident "more") [])), .throwS (.ident "t")])
                  (some ⟨"e", .block [.expr (.call (.ident "print") [.ident "e"]),
                    .assign (.ident "n") (.ident "e")]⟩) none,
                .returnS (some (.call (.ident "more") []))] },
      .letS "n" (some (.str "outside")),
      .letS "e" (some (.call (.ident "mark") [.str "a"])),
      .expr (.call (.ident "print") [.ident "n"]),
      .returnS (some (.ident "e"))] }

theorem Program.withLayouts_run_of_marking : NormalForm.errors Program.marking.load = [] ∧
      ((Machine.new .lazy {}).run 20 Program.marking.load).map (·.2.output) = some #["a!",
        "outside"] ∧
      Option.Rel
        (fun (plain laid : Except Fault Outcome × Machine) =>
          laid.1 = plain.1 ∧ laid.2.output = plain.2.output ∧ laid.2.store.objects =
            plain.2.store.objects ∧ laid.2.store.arrays = plain.2.store.arrays ∧ ∀ name,
            laid.2.global? name = plain.2.global? name)
        ((Machine.new .lazy {}).run 20 Program.marking.load)
        ((Machine.new .lazy {}).run 20 (Program.marking.load.withLayouts {})) := by
  have accepted : NormalForm.errors Program.marking.load = [] := by
    have none : (NormalForm.errors Program.marking.load).isEmpty = true := by decide +kernel
    exact List.isEmpty_iff.mp none
  have calm : ∀ event ∈ Machine.chronicle 20 (.run (.enterTop (Machine.top Program.marking.load)))
      (Machine.new .lazy {}), event.isTransfer = false := by
    decide +kernel
  have timely : Timely {} (Machine.chronicle 20
      (.run (.enterTop (Machine.top Program.marking.load))) (Machine.new .lazy {})) := by
    decide +kernel
  exact ⟨accepted, by decide +kernel, Program.withLayouts_run 20 {} .lazy {} accepted calm timely⟩

/-- A call that reads a name before it binds it. -/
def Program.early : Program :=
  { body := [
      .decl { name := some "f",
              body := [.expr (.call (.ident "print") [.ident "x"]),
                .letS "x" (some (.str "inside")), .returnS (some (.ident "x"))] },
      .letS "x" (some (.str "outside")),
      .expr (.call (.ident "f") []),
      .returnS (some (.ident "x"))] }

/-- Without layouts the name means the global, and with them the local, which is undefined then. -/
theorem Program.withLayouts_early :
    ((Machine.new .lazy {}).run 20 Program.early.load).map (·.2.output) = some #["outside"] ∧
      ((Machine.new .lazy {}).run 20 (Program.early.load.withLayouts {})).map (·.2.output) =
        some #["undefined"] := by
  decide +kernel

end Resumable
