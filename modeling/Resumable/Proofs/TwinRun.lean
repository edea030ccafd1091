import Resumable.Proofs.TwinStore

/-!
Runs of a pair of code in lockstep.

The first code runs under observation and the second as it is, on machines whose stores are those of
a pair.  As long as the first begins no transfer of control, the two end alike: with the same
result, unwinding for the same reason, or both cut off by their bounds.  `Observed.Twin` says so of
two computations; there is one rule for each combinator, one lemma for each operator, and then the
expressions are gone through case by case.

The second machine stays in normal mode, counts no calls and collects no frames.  Its shadow stack
and the guards of the second code are looked at by nothing else, so the relation does not mention
them.
-/

namespace Resumable

variable {σ α : Type} {x : Observed σ α} {y : Run σ α} {m : Machine}

/-- The computations end alike from related states, as long as the first begins no transfer of
control. -/
abbrev Observed.Twin (states : σ → σ → Prop) (x : Observed σ α) (y : Run σ α) : Prop :=
  x.Lockstep (·.isTransfer = false) states y

/-! ## Machines of a pair -/

/-- Machines with the same contents, of which the second is in normal mode and has nothing to count,
to collect or to build up. -/
structure Machine.Twin (sites : Sites) (floor : Nat) (m m' : Machine) : Prop where
  store : m.store.Twin sites floor m'.store
  strategy : m'.strategy = m.strategy
  output : m'.output = m.output
  tasks : m'.tasks = m.tasks
  idle : m.capturing = false
  pending : m.pending = .empty
  normal' : m'.mode = .normal
  uncounted' : m'.remaining = none
  idle' : m'.capturing = false
  pending' : m'.pending = .empty
  stats' : m'.stats = {}

/-- Activations of functions that stand for one another, with no signal held in the second. -/
structure Activation.Twin (sites : Sites) (a a' : Activation) : Prop where
  scope : a'.scope = a.scope
  this : a'.this = a.this
  func : a.func.Twin sites a'.func
  args : a'.args = a.args
  argCount : a'.argCount = a.argCount
  caught' : a'.caught = none

/-- The activations and machines of a pair, where the scope of the activation exists. -/
structure Local.Twin (sites : Sites) (floor : Nat) (l l' : Local) : Prop where
  act : l.act.Twin sites l'.act
  scope : l.act.scope.index < floor
  machine : l.machine.Twin sites floor l'.machine

section Machines

variable {sites : Sites} {floor lower : Nat}

theorem Machine.Twin.weaken {m' : Machine} (twin : m.Twin sites floor m') (le : lower ≤ floor) :
    m.Twin sites lower m' :=
  { twin with store := twin.store.weaken le }

theorem Observed.ofEval_twin {x : Activation → Observed Machine α} {y : Activation → Eval α}
    (twin : ∀ act act', act.Twin sites act' → act.scope.index < floor →
      (x act).Twin (Machine.Twin sites floor) (y act')) :
    (Observed.ofEval x).Twin (Local.Twin sites floor) (Exec.ofEval y) :=
  Observed.Lockstep.ofEval (fun _ _ related => related.machine)
    (fun _ _ _ _ related machine => ⟨related.act, related.scope, machine⟩)
    fun _ _ related => twin _ _ related.act related.scope

instance : Machine.Mirrored (Machine.Twin sites floor) where
  strategy twin := twin.strategy
  alike twin := twin.store.alike
  objects f twin := { twin with store := twin.store.withObjects f }
  arrays f twin := { twin with store := twin.store.withArrays f }
  print line twin := { twin with output := congrArg (Array.push · line) twin.output }

/-! ## The store -/

namespace Eval

theorem modifyStore_twin {f f' : Store → Store}
    (keeps : ∀ s s', s.Twin sites floor s' → (f s).Twin sites floor (f' s')) :
    (modifyStore f).Twin (Machine.Twin sites floor) (modifyStore f') :=
  .modify fun _ _ twin => { twin with store := keeps _ _ twin.store }

theorem changeStore_twin {f f' : Store → α × Store} (keeps : ∀ s s', s.Twin sites floor s' →
      (f' s').1 = (f s).1 ∧ (f s).2.Twin sites floor (f' s').2) :
    (changeStore f).Twin (Machine.Twin sites floor) (changeStore f') :=
  .changeStore fun _ _ twin => ⟨(keeps _ _ twin.store).1,
    { twin with store := (keeps _ _ twin.store).2 }⟩

end Eval

/-! ## Names -/

section

variable {act act' : Activation} (twin : act.Twin sites act')

include twin

theorem Eval.lookup_twin {name : String} (own : name ≠ tailResult) :
    (lookup act name).Twin (Machine.Twin sites floor) (lookup act' name) := by
  unfold lookup
  refine Run.Twin.bind (.read fun m m' machines => ?_) fun found => ?_
  · rw [twin.scope, machines.store.lookup? own]
  · cases found with
    | none => exact .throw _
    | some value => exact .pure value

theorem Eval.typeOfName_twin {name : String} (own : name ≠ tailResult) :
    (typeOfName act name).Twin (Machine.Twin sites floor) (typeOfName act' name) :=
  .read fun m m' machines => by rw [twin.scope, machines.store.lookup? own]

theorem Eval.makeClosure_twin {f f' : Func} (func : f.Twin sites f') :
    (makeClosure act f).Twin (Machine.Twin sites floor) (makeClosure act' f') := by
  refine changeStore_twin fun s s' stores => ?_
  obtain ⟨same, made⟩ := stores.newClosure func act.scope
  rw [twin.scope]
  exact ⟨congrArg Value.closure same, made⟩

theorem Activation.Twin.argumentValues {s s' : Store} (stores : s.Twin sites floor s') :
    act'.argumentValues s' = act.argumentValues s := by
  have params : act'.paramValues s' = act.paramValues s := by
    unfold Activation.paramValues
    cases twin.func with
    | intro _ same _ own _ _ =>
      rw [same, twin.scope]
      refine List.map_congr_left fun name mem => ?_
      have ownName : name ≠ tailResult := by
        rintro rfl
        exact own (List.mem_append_right _ mem)
      rw [Store.localD, stores.vars _ name ownName, Store.localD]
  unfold Activation.argumentValues
  rw [params, twin.args, twin.argCount]

theorem Eval.makeArguments_twin : (makeArguments act).Twin (Machine.Twin sites floor)
    (makeArguments act') :=
  Run.Twin.bind (.read fun _ _ machines => twin.argumentValues machines.store) fun items =>
    makeArray_twin items

end

/-! ## Expressions -/

/-- What the second engine does stands for what the first does under observation. -/
structure Observer.Twin (sites : Sites) (w : Observer) (g : Engine) : Prop where
  bound : g.bound = w.engine.bound
  call : ∀ floor context func this args,
    (w.perform context (.call func this args)).Twin (Machine.Twin sites floor)
      (g.perform (.call func this args))
  new : ∀ floor context callee args,
    (w.perform context (.construct callee args)).Twin (Machine.Twin sites floor)
      (g.perform (.handleNew callee args))

section Expressions

variable {w : Observer} {g : Engine} {act act' : Activation}

section

variable (engines : w.Twin sites g) (acts : act.Twin sites act') (context : Context)

include engines acts context

set_option linter.unusedSectionVars false in
mutual

theorem Expr.Twin.observe {e e' : Expr} : e.Twin sites e' →
    (e.observe w context act).Twin (Machine.Twin sites floor) (e'.eval g act')
  | .num => .noted (.lift (.pure _))
  | .str => .noted (.lift (.pure _))
  | .bool => .noted (.lift (.pure _))
  | .null => .noted (.lift (.pure _))
  | .undefined => .noted (.lift (.pure _))
  | .ident own => .noted (.lift (Eval.lookup_twin acts own))
  | @Expr.Twin.binary _ op _ _ _ _ left right => by
    have first := left.observe
    have second := right.observe
    cases op with
    | and =>
      rw [Expr.observe, Expr.eval]
      exact .noted (first.bind fun _ => .ite second (.pure _))
    | or =>
      rw [Expr.observe, Expr.eval]
      exact .noted (first.bind fun _ => .ite (.pure _) second)
    | _ =>
      rw [Expr.observe, Expr.eval, engines.bound]
      · exact .noted (first.bind fun _ => second.bind fun _ => .lift (Eval.mirrored.binary _ _ _))
      all_goals nofun
  | @Expr.Twin.unary _ op _ _ arg => by
    have inner := arg.observe
    cases op with
    | typeOf =>
      -- the type of a name is found without its value
      cases arg with
      | ident own => exact .noted (.lift (Eval.typeOfName_twin acts own))
      | _ =>
        rw [Expr.observe, Expr.eval]
        · exact .noted (inner.bind fun _ => .pure _)
        all_goals nofun
    | _ =>
      rw [Expr.observe, Expr.eval]
      exact .noted (inner.bind fun _ => .pure _)
  | .cond test thenE elseE => by
    rw [Expr.observe, Expr.eval]
    exact .noted ((test.observe).bind fun _ =>
      .ite (thenE.observe) (elseE.observe))
  | .member base => by
    rw [Expr.observe, Expr.eval, engines.bound]
    exact .noted ((base.observe).bind fun _ => .lift (Eval.mirrored.getProperty _ _))
  | .index base key => by
    rw [Expr.observe, Expr.eval, engines.bound]
    exact .noted ((base.observe).bind fun _ =>
      (key.observe).bind fun _ => .lift (Eval.mirrored.getIndex _ _))
  | .call callee args => by
    have inner := callee.observe
    have values := args.observe
    -- a call to a member keeps the value of its base
    cases callee with
    | member base =>
      rw [Expr.observe, Expr.eval, engines.bound]
      exact .noted ((base.observe).bind fun _ =>
        Observed.Lockstep.bind (.lift (Eval.mirrored.getProperty _ _)) fun _ =>
          values.bind fun _ => engines.call _ _ _ _ _)
    | _ =>
      rw [Expr.observe, Expr.eval]
      · exact .noted (inner.bind fun _ => values.bind fun _ => engines.call _ _ _ _ _)
      all_goals nofun
  | .new callee args => by
    rw [Expr.observe, Expr.eval]
    exact .noted ((callee.observe).bind fun _ =>
      (args.observe).bind fun _ => engines.new _ _ _ _)
  | .func f => .noted (.lift (Eval.makeClosure_twin acts f))
  | .array elements => by
    rw [Expr.observe, Expr.eval]
    exact .noted ((elements.observe).bind fun _ => .lift (Eval.makeArray_twin _))
  | .object props => by
    rw [Expr.observe, Expr.eval]
    exact .noted ((props.observe).bind fun _ => .lift (Eval.makeObject_twin _))
  | .this => by
    rw [Expr.observe, Expr.eval, Expr.eval, acts.this]
    exact .noted (.lift (.pure _))
  | .arguments => .noted (.lift (Eval.makeArguments_twin acts))

theorem Expr.TwinList.observe {es es' : List Expr} : Expr.TwinList sites es es' →
    (Expr.observeList w context act es).Twin (Machine.Twin sites floor) (Expr.evalList g act' es')
  | .nil => .pure []
  | .cons e rest => by
    rw [Expr.observeList, Expr.evalList]
    exact (e.observe).bind fun _ =>
      (rest.observe).bind fun _ => .pure _

theorem Expr.TwinProps.observe {props props' : List (String × Expr)} :
    Expr.TwinProps sites props props' → (Expr.observeProps w context act props).Twin
    (Machine.Twin sites floor) (Expr.evalProps g act' props')
  | .nil => .pure []
  | .cons e rest => by
    rw [Expr.observeProps, Expr.evalProps]
    exact (e.observe).bind fun _ =>
      (rest.observe).bind fun _ => .pure _

end

end

theorem Expr.TwinOption.observe (engines : w.Twin sites g) (acts : act.Twin sites act')
    (context : Context) {o o' : Option Expr} (twin : Expr.TwinOption sites o o') :
    (Expr.observeOption w context act o).Twin (Machine.Twin sites floor)
    (Expr.evalOption g act' o') := by
  cases twin with
  | none => exact .pure _
  | some e => exact e.observe engines acts context

theorem Target.Twin.observe (engines : w.Twin sites g) (acts : act.Twin sites act')
    (context : Context) {value value' : Expr} (values : value.Twin sites value')
    {target target' : Target}
    (twin : target.Twin sites target') :
    (target.observe w context value act).Twin (Machine.Twin sites floor)
    (target'.assign g value' act') := by
  cases twin with
  | ident own =>
    rw [Target.observe, Target.assign, acts.scope]
    exact (values.observe engines acts context).bind fun v =>
      .lift (Eval.modifyStore_twin fun s s' stores => stores.assign act.scope own v)
  | member base =>
    rw [Target.observe, Target.assign, engines.bound]
    exact (base.observe engines acts context).bind fun _ =>
      (values.observe engines acts context).bind fun _ => .lift (Eval.mirrored.giveProperty _ _ _)
  | index base key =>
    rw [Target.observe, Target.assign, engines.bound]
    exact (base.observe engines acts context).bind fun _ =>
      (key.observe engines acts context).bind fun _ =>
        (values.observe engines acts context).bind fun _ => .lift (Eval.mirrored.setIndex _ _ _)

/-! ## Tests -/

/-- A conjunction goes on with its second part if the first holds. -/
theorem Expr.eval_and {b : Bool} {first : Expr} (found : first.eval g act m = .ok (.bool b) m)
    (e : Expr) : (Expr.binary .and first e).eval g act m = if b then e.eval g act m else .ok
    (.bool false) m := by
  rw [Expr.eval]
  show Run.bind (first.eval g act) _ m = _
  unfold Run.bind
  rw [found]
  cases b <;> rfl

/-- A disjunction goes on with its second part if the first does not hold. -/
theorem Expr.eval_or {b : Bool} {first : Expr} (found : first.eval g act m = .ok (.bool b) m)
    (e : Expr) : (Expr.binary .or first e).eval g act m = if b then .ok (.bool true) m else e.eval g
    act m := by
  rw [Expr.eval]
  show Run.bind (first.eval g act) _ m = _
  unfold Run.bind
  rw [found]
  cases b <;> rfl

theorem Expr.eval_isNormal (normal : m.mode = .normal) : Expr.isNormal.eval g act m =
    .ok (.bool true) m := by
  show Ending.ok (Value.bool (m.mode = .normal)) m = _
  rw [normal]
  rfl

theorem Expr.eval_isRestoring (normal : m.mode = .normal) : Expr.isRestoring.eval g act m =
    .ok (.bool false) m := by
  show Ending.ok (Value.bool (m.mode = .restoring)) m = _
  rw [normal]
  rfl

/-- The truth of the value is the same. -/
theorem Expr.TwinTest.observe (engines : w.Twin sites g) (context : Context) {test test' : Expr}
    (tests : test.TwinTest sites test') :
    (test.observeTest w context).Twin (Local.Twin sites floor) (test'.test g) := by
  refine Observed.ofEval_twin fun act act' acts _ => ?_
  cases tests with
  | normal twin =>
    refine Observed.Lockstep.bind (.congr (twin.observe engines acts context) fun m m' machines =>
      ?_) fun _ => .pure _
    exact Expr.eval_and (Expr.eval_isNormal machines.normal') _
  | @orRestoring _ test' labels twin =>
    -- the second half is reached if the test fails, and fails then too
    rw [Expr.eval, bind_assoc]
    refine Observed.Lockstep.bind (.congr (twin.observe engines acts context) fun m m' machines =>
      ?_) fun v => ?_
    · exact Expr.eval_and (Expr.eval_isNormal machines.normal') _
    · refine .congr (.pure v.isTruthy) fun m m' machines => ?_
      have second : (Expr.binary .and .isRestoring (.targetIn labels)).eval g act' m' =
          .ok (.bool false) m' :=
        Expr.eval_and (Expr.eval_isRestoring machines.normal') _
      cases holds : v.isTruthy with
      | true => exact congrArg (Ending.ok · m') holds
      | false =>
        show Run.bind (Expr.eval g act' _) _ m' = _
        unfold Run.bind
        rw [second]
        rfl
  | restoringOr twin =>
    refine Observed.Lockstep.bind (.congr (twin.observe engines acts context) fun m m' machines =>
      ?_) fun _ => .pure _
    exact (Expr.eval_or (Expr.eval_and (Expr.eval_isRestoring machines.normal') _) _).trans
      (Expr.eval_and (Expr.eval_isNormal machines.normal') _)

end Expressions

end Machines

end Resumable
