import Resumable.Proofs.Retaining
import Resumable.Proofs.TwinExec

/-!
Frames as snapshots of activations.

A frame has the values of the locals of the layout, by position, and says how to call the function
again.  When it is entered the parameters are bound to the arguments of that call, the other locals
to nothing, and declared functions to closures; then the frame is taken, and its values replace what
they meet.  Whatever the scope of the paused activation bound is bound to the same value again,
since the layout and the parameters are all that it can bind (`Activation.InScope`), the local for a
result apart.

`SessionOf.snapshot_restores` says so of every call of a compiled function, at each of its points.
-/

namespace Resumable

variable {f : Func} {frame : CallFrame} {store : Store} {name : String} {args : List Value}
  {later : Machine}

/-! ## Bindings one after the other -/

namespace Store

variable {s : Store} {id other : ScopeId} {name : String}

/-- Names are bound to their values, in whatever order and however often. -/
theorem local?_declareAll_zip (known : id.index < s.scopes.size) (names : List String)
    (value : String → Value) (name : String) :
    (s.declareAll id (names.zip (names.map value))).local? id name =
      if name ∈ names then some (value name) else s.local? id name := by
  induction names generalizing s with
  | nil => rfl
  | cons first rest ih =>
    have known' : id.index < (s.declare id first (value first)).scopes.size := by
      rw [scopes_declare_size]
      exact known
    refine (ih known').trans ?_
    rw [local?_declare]
    by_cases same : name = first
    · subst same
      simp [known]
    · simp [same]

theorem local?_declareFunc (absent : f.name ≠ some name) :
    (s.declareFunc id f).local? other name = s.local? other name := by
  refine declareFunc_cases (fun t => t.local? other name = s.local? other name) rfl
    fun declared named _ => ?_
  refine (local?_declare _ _ _ _ _ _).trans (if_neg fun both => absent ?_)
  rw [named, both.2]

/-- A name that the body does not bind is not hoisted. -/
theorem local?_hoist {body : List Stmt} (absent : name ∉ Stmt.listBinds body) :
    (s.hoist id body).local? other name = s.local? other name := by
  have unnamed : ∀ f ∈ Stmt.declaredList body, f.name ≠ some name :=
    fun f mem named => absent ((Stmt.declaredList_in body f mem).2 name named)
  exact List.foldlRecOn (motive := fun t : Store => t.local? other name = s.local? other name) _ _
    rfl fun _ same f mem => (local?_declareFunc (unnamed f mem)).trans same

/-- A parameter that is no local besides has its argument when the call begins. -/
theorem local?_enterScope (s : Store) (f : Func) (env : ScopeId) (value : String → Value)
    (isParam : name ∈ f.params) (notLocal : name ∉ f.layoutLocals)
    (unbound : name ∉ Stmt.listBinds f.body) :
    (s.enterScope f env (f.params.map value)).2.local? ⟨s.scopes.size⟩ name =
    some (value name) := by
  let id : ScopeId := ⟨s.scopes.size⟩
  let opened := (s.newScope (some env)).2
  let missing := f.layoutLocals.filter fun name => !f.params.contains name
  have given : (f.params.zipIdx.map fun param =>
      (param.1, (f.params.map value).getD param.2 .undefined)) =
      f.params.zip (f.params.map value) := by
    refine List.ext_getElem (by simp) fun i inside _ => ?_
    have inside' : i < f.params.length := by simpa using inside
    simp [inside']
  have entered : (s.enterScope f env (f.params.map value)).2 =
      ((opened.declareAll id (f.params.zip (f.params.map value))).declareAll id
        (missing.map (·, Value.undefined))).hoist id f.body := by
    rw [← given]
    rfl
  have isOpen : id.index < opened.scopes.size := by
    show s.scopes.size < (s.scopes.push _).size
    rw [Array.size_push]
    exact Nat.lt_succ_self _
  have notMissing : ∀ v, (name, v) ∉ missing.map (·, Value.undefined) := fun v mem => by
    obtain ⟨other, listed, same⟩ := List.mem_map.mp mem
    have : other = name := congrArg Prod.fst same
    exact notLocal (this ▸ List.mem_of_mem_filter listed)
  rw [entered, local?_hoist unbound, Laid.local?_declareAll _ _ notMissing,
    local?_declareAll_zip isOpen, if_pos isParam]

end Store

/-! ## The way to the frame -/

section Prologue

variable {g : Engine} {l : Local}

/-- In restoring mode a call is counted, and goes on. -/
theorem Stmt.stackDec_restoring (restoring : l.machine.mode = .restoring) :
    ∃ remaining, Stmt.stackDec.exec g l = .ok .normal ⟨l.act, { l.machine with remaining }⟩ := by
  have counted : ∃ remaining, Eval.countCall g l.act.startAgain l.machine =
      .ok false { l.machine with remaining } := by
    rw [Eval.countCall, Run.read_bind]
    cases l.machine.remaining with
    | none => exact ⟨l.machine.remaining, rfl⟩
    | some remaining =>
      refine ⟨some (remaining - 1), ?_⟩
      show (if _ then _ else _ : Eval Bool) { l.machine with remaining := some (remaining - 1) } = _
      rw [if_pos (by simp [restoring])]
      rfl
  obtain ⟨remaining, eq⟩ := counted
  refine ⟨remaining, ?_⟩
  rw [Stmt.exec]
  show Run.bind (Exec.ofEval fun act => Eval.countCall g act.startAgain) _ l = _
  simp only [Run.bind, Exec.ofEval, eq]
  rfl

/-- Where a call of the closure begins, if the function of the closure is `f`. -/
def Local.begin (f : Func) (closure : ClosureId) (this : Value) (args : List Value) (m : Machine) :
    Local where
  act := {
    scope := ⟨m.store.scopes.size⟩, this, func := f, callee := some closure, args
    argCount := args.length, newTarget := .undefined }
  machine := { m with store := (m.store.enterScope f (m.store.closure closure).env args).2 }

theorem Eval.enter_begin {closure : ClosureId} {m : Machine}
    (func : (m.store.closure closure).func = f) (this : Value) (args : List Value) :
    Eval.enter g closure this args .undefined m =
      Eval.runBody g (Local.begin f closure this args m).act f.body
        (Local.begin f closure this args m).machine := by
  subst func
  rfl

/-- The outermost frame is taken, if it is one of the function. -/
theorem Stmt.restoreFrame_restoring (restoring : l.machine.mode = .restoring)
    (outermost : l.machine.stack.outermost? = some (.call frame))
    (shape : frame.locals.length = l.act.layoutLocals.length) :
    Stmt.restoreFrame.exec g l = .ok .normal (l.take frame) := by
  have restored : Exec.restoreFrame l = .ok () (l.take frame) := by
    rw [Exec.restoreFrame, Run.read_bind, if_pos restoring]
    exact Exec.takeFrame_call outermost shape
  rw [Stmt.exec]
  show Run.bind Exec.restoreFrame _ l = _
  simp only [Run.bind, restored]
  rfl

/-- What a function does in restoring mode until its frame is taken. -/
theorem Stmt.opening_restoring {opening : List Stmt}
    (opens : opening = [] ∨ opening = [.letS newTargetLocal (some .newTarget)])
    (restoring : l.machine.mode = .restoring) (outermost : l.machine.stack.outermost? =
      some (.call frame))
    (shape : frame.locals.length = l.act.layoutLocals.length) :
    ∃ store remaining, (store = l.machine.store ∨ opening ≠ [] ∧
        store = l.machine.store.declare l.act.scope newTargetLocal l.act.newTarget) ∧
      Stmt.execList g (opening ++ [.stackDec, .restoreFrame]) l =
        .ok .normal (Local.take frame ⟨l.act, { l.machine with store, remaining }⟩) := by
  have counted : ∀ store, ∃ remaining, Stmt.execList g [.stackDec, .restoreFrame]
      ⟨l.act, { l.machine with store }⟩ =
        .ok .normal (Local.take frame ⟨l.act, { l.machine with store, remaining }⟩) := by
    intro store
    let here : Local := ⟨l.act, { l.machine with store }⟩
    obtain ⟨remaining, counts⟩ : ∃ remaining, Stmt.stackDec.exec g here =
        .ok .normal ⟨here.act, { here.machine with remaining }⟩ := Stmt.stackDec_restoring restoring
    let counted : Local := ⟨here.act, { here.machine with remaining }⟩
    have taken : Stmt.restoreFrame.exec g counted = .ok .normal (counted.take frame) :=
      Stmt.restoreFrame_restoring restoring outermost shape
    refine ⟨remaining, ?_⟩
    rw [Stmt.execList]
    show Run.bind (Stmt.stackDec.exec g) _ here = _
    simp only [Run.bind, counts, Stmt.execList]
    show Run.bind (Stmt.restoreFrame.exec g) _ counted = _
    simp only [Run.bind, taken]
    rfl
  rcases opens with rfl | rfl
  · obtain ⟨remaining, eq⟩ := counted l.machine.store
    exact ⟨l.machine.store, remaining, .inl rfl, eq⟩
  · obtain ⟨remaining, eq⟩ := counted (l.machine.store.declare l.act.scope newTargetLocal
      l.act.newTarget)
    exact ⟨_, remaining, .inr ⟨nofun, rfl⟩, eq⟩

end Prologue

/-! ## Activations that are restored -/

/-- The activation is the paused one again, as it was on an earlier machine, and looks for the
label.  Its scope is new on a later one, and binds what the scope of the paused one bound, the local
for a result apart. -/
structure Activation.Restored (g : Engine) (paused : Activation) (before : Machine) (label : Nat)
    (later : Machine) (l : Local) : Prop where
  callee : l.act.callee = paused.callee
  func : l.act.func = paused.func
  this : l.act.this = paused.this
  target : l.act.target = some label
  isNew : later.store.scopes.size ≤ l.act.scope.index
  exists_ : l.act.scope.index < l.machine.store.scopes.size
  parent : ∀ closure ∈ paused.callee,
    (l.machine.store.scope l.act.scope).parent = some (before.store.closure closure).env ∧
      (before.store.scope paused.scope).parent = some (before.store.closure closure).env
  bindings : ∀ name, name ≠ resultLocal →
    l.machine.store.local? l.act.scope name = before.store.local? paused.scope name
  arguments : paused.func.mentionsArguments = true → ∃ array array' before' machine',
    Expr.arguments.eval g paused before = .ok (.array array) before' ∧
      Expr.arguments.eval g l.act l.machine = .ok (.array array') machine' ∧
      machine'.store.items array' = before'.store.items array

section Restored

variable {options : CompileOptions} {code : Func → Prop} {paused : Activation} {before : Machine}
  {closure : ClosureId}

/-- `arguments` is a new list of the arguments. -/
theorem Expr.arguments_eval (g : Engine) (act : Activation) (m : Machine) : ∃ array m',
    Expr.arguments.eval g act m = .ok (.array array) m' ∧
      m'.store.items array = (act.argumentValues m.store).toArray := by
  refine ⟨⟨m.store.arrays.size⟩, _, rfl, ?_⟩
  simp [Store.items]

/-- How the activation is saved: without its formals if the function does not read `arguments`, and
with them and with the number of its arguments if it does. -/
def CallFrame.Saves (paused : Activation) (store : Store) (args : List Value) (frame : CallFrame) :
    Prop :=
  paused.func.mentionsArguments = false ∧ frame.formals = none ∧ args = paused.paramValues store ∨
    paused.func.mentionsArguments = true ∧ frame.formals = some (paused.paramValues store) ∧
      frame.argCount = some paused.argCount ∧
      args = paused.paramValues store ++ paused.args.drop paused.func.params.length

/-- A frame calls the function again, and has the values of the locals.  Formals are saved all
together or not. -/
theorem Activation.captureFrame_call (called : paused.callee = some closure) (store : Store)
    (label : Nat) : ∃ frame, paused.captureFrame store label = .call frame ∧
      frame.resume = .enter closure paused.this (paused.reentryArgs store) .undefined ∧
      frame.label = label ∧
      frame.locals = paused.func.layoutLocals.map (store.localD paused.scope) ∧
      (frame.formals = none ∨ frame.formals = some (paused.paramValues store)) := by
  refine ⟨_, rfl, ?_, rfl, rfl, ?_⟩
  · show paused.invoke _ _ = _
    rw [Activation.invoke, called]
  · show (if _ then _ else _) = none ∨ (if _ then _ else _) = some _
    split
    · exact .inr rfl
    · exact .inl rfl

theorem Func.Stocked.saves (stocked : paused.func.Stocked options)
    (faithful : paused.func.mentionsArguments = false ∨ options.fidelity = .full) {label : Nat}
    (captured : paused.captureFrame store label = .call frame) :
    frame.Saves paused store (paused.reentryArgs store) := by
  obtain ⟨locals, _, layout⟩ := stocked.layout
  obtain rfl := Frame.call.inj captured
  cases mentions : paused.func.mentionsArguments with
  | false =>
    refine .inl ⟨mentions, ?_, ?_⟩
    · simp [layout, mentions]
    · simp [Activation.reentryArgs, layout, mentions]
  | true =>
    have full : options.fidelity = .full := faithful.resolve_left (by simp [mentions])
    refine .inr ⟨mentions, ?_, ?_, ?_⟩
    · simp [layout, mentions, full]
    · simp [layout, mentions, full]
    · simp [Activation.reentryArgs, layout, mentions, full, Activation.paramValues]

/-- What a call of the function may bind besides its parameters is in the layout. -/
theorem Func.Stocked.binds (stocked : f.Stocked options) (bound : name ∈ Stmt.listBinds f.body)
    (notResult : name ≠ resultLocal) : name ∈ f.layoutLocals := by
  obtain ⟨locals, binds, layout⟩ := stocked.layout
  rw [Func.layoutLocals, layout]
  exact (binds name bound).resolve_right notResult

theorem Func.Stocked.owns (stocked : f.Stocked options) : ∀ name ∈ Stmt.listBinds f.body,
    f.Owns name := by
  intro name bound
  by_cases result : name = resultLocal
  · exact .inr (.inr result)
  · exact .inr (.inl (stocked.binds bound result))

/-- The bindings of a name once the frame is taken. -/
theorem CallFrame.bindings (formals : frame.formals = none ∨
    frame.formals = some (paused.paramValues store)) (locals : frame.locals =
    paused.func.layoutLocals.map (store.localD paused.scope)) {id : ScopeId} {s : Store}
    (known : id.index < s.scopes.size) (name : String) :
    ((s.declareAll id (paused.func.layoutLocals.zip frame.locals)).declareAll id
      (paused.func.params.zip (frame.formals.getD []))).local? id name =
        if name ∈ paused.func.params ∧ frame.formals.isSome ∨ name ∈ paused.func.layoutLocals then
          some (store.localD paused.scope name)
        else s.local? id name := by
  have known' : id.index < (s.declareAll id
      (paused.func.layoutLocals.zip frame.locals)).scopes.size :=
    Nat.lt_of_lt_of_le known ((Store.Grows.refl s).declareAll id _).size
  have laid := Store.local?_declareAll_zip known paused.func.layoutLocals
    (store.localD paused.scope) name
  rw [← locals] at laid
  rcases formals with formals | formals
  · simp only [formals, Option.getD_none, List.zip_nil_right, Option.isSome_none,
      Bool.false_eq_true, and_false, false_or]
    exact laid
  · simp only [formals, Option.getD_some, Option.isSome_some, and_true]
    rw [Activation.paramValues, Store.local?_declareAll_zip known', laid]
    by_cases isParam : name ∈ paused.func.params <;> simp [isParam]

theorem CallFrame.Saves.formals (saves : frame.Saves paused store args) :
    frame.formals = none ∨ frame.formals = some (paused.paramValues store) :=
  saves.imp (·.2.1) (·.2.1)

/-- The arguments are the same if the parameters are, and the arguments after them. -/
theorem Activation.argumentValues_eq {act : Activation} {s s' : Store}
    (count : act.argCount = paused.argCount) (params : act.paramValues s' = paused.paramValues s)
    (args : act.args = paused.paramValues s ++ paused.args.drop paused.func.params.length) :
    act.argumentValues s' = paused.argumentValues s := by
  have length : (paused.paramValues s).length = paused.func.params.length := by
    simp [Activation.paramValues]
  unfold Activation.argumentValues
  rw [count, params, args]
  refine List.map_congr_left fun i _ => congrArg (Option.getD · Value.undefined) ?_
  by_cases inside : i < paused.func.params.length
  · rw [List.getElem?_eq_getElem (length.symm ▸ inside)]
    rfl
  · have outside : paused.func.params.length ≤ i := Nat.le_of_not_lt inside
    rw [List.getElem?_append_right (length.symm ▸ outside), length, List.getElem?_drop,
      Nat.add_sub_cancel' outside]

section

variable (ownScope : paused.OwnScope code closure before.store)

include ownScope

theorem Activation.OwnScope.localD (mem : name ∈ paused.func.params ∨
    name ∈ paused.func.layoutLocals) : before.store.local? paused.scope name =
    some (before.store.localD paused.scope name) := by
  rw [Store.localD]
  cases bound : before.store.local? paused.scope name with
  | none => exact absurd bound (ownScope.bound name mem)
  | some value => rfl

/-- A name that the frame does not have is bound as it was when the call begins. -/
theorem Activation.OwnScope.unsaved (stocked : paused.func.Stocked options)
    (saves : frame.Saves paused before.store args) (s : Store) (env : ScopeId)
    (notSaved : ¬(name ∈ paused.func.params ∧ frame.formals.isSome ∨
      name ∈ paused.func.layoutLocals))
    (notResult : name ≠ resultLocal) :
    (s.enterScope paused.func env args).2.local? ⟨s.scopes.size⟩ name =
      before.store.local? paused.scope name := by
  obtain ⟨notFormal, notLocal⟩ := not_or.mp notSaved
  by_cases isParam : name ∈ paused.func.params
  · have args_eq : args = paused.paramValues before.store := by
      rcases saves with ⟨_, _, args_eq⟩ | ⟨_, formals, _⟩
      · exact args_eq
      · exact absurd ⟨isParam, by rw [formals]; rfl⟩ notFormal
    rw [args_eq, ownScope.localD (.inl isParam)]
    exact s.local?_enterScope paused.func env _ isParam notLocal fun bound =>
      notLocal (stocked.binds bound notResult)
  · have notOwned : ¬paused.func.Owns name := not_or.mpr ⟨isParam, not_or.mpr ⟨notLocal, notResult⟩⟩
    have unbound := not_not.mp (mt (s.enterScope_bindsOnly stocked.owns env args name) notOwned)
    rw [unbound, not_not.mp (mt (ownScope.only name) notOwned)]

/-- A call that begins and takes the frame has the paused activation again. -/
theorem Activation.OwnScope.taken (called : paused.callee = some closure)
    (stocked : paused.func.Stocked options) (saves : frame.Saves paused before.store args)
    (locals : frame.locals = paused.func.layoutLocals.map (before.store.localD paused.scope))
    (g : Engine)
    (same : later.store.closure closure = before.store.closure closure) {l : Local}
    (act : l.act = (Local.begin paused.func closure paused.this args later).act)
    (grows : (Local.begin paused.func closure paused.this args later).machine.store.Grows
      l.machine.store)
    (opened : ∀ name, name ∉ paused.func.layoutLocals →
      l.machine.store.local? ⟨later.store.scopes.size⟩ name =
      (Local.begin paused.func closure paused.this args later).machine.store.local?
        ⟨later.store.scopes.size⟩ name) :
    paused.Restored g before frame.label later (l.take frame) := by
  obtain ⟨act, m⟩ := l
  subst act
  let id : ScopeId := ⟨later.store.scopes.size⟩
  let env := (later.store.closure closure).env
  obtain ⟨exists_, parent⟩ := later.store.enterScope_parent paused.func env args
  have known : id.index < m.store.scopes.size := Nat.lt_of_lt_of_le exists_ grows.size
  let taken := (m.store.declareAll id (paused.func.layoutLocals.zip frame.locals)).declareAll id
    (paused.func.params.zip (frame.formals.getD []))
  have takes : m.store.Grows taken := ((Store.Grows.refl m.store).declareAll id _).declareAll id _
  have saved : ∀ name, name ∈ paused.func.params ∧ frame.formals.isSome ∨
      name ∈ paused.func.layoutLocals → taken.local? id name =
      some (before.store.localD paused.scope name) :=
    fun name mem => (CallFrame.bindings saves.formals locals known name).trans (if_pos mem)
  exact {
    callee := called.symm
    func := rfl
    this := rfl
    target := rfl
    isNew := Nat.le_refl _
    exists_ := Nat.lt_of_lt_of_le known takes.size
    parent := by
      intro other called'
      obtain rfl : closure = other := Option.some.inj (called.symm.trans called')
      refine ⟨?_, ownScope.parent⟩
      show (taken.scope id).parent = _
      rw [takes.parents id known, grows.parents id exists_, ← same]
      exact parent
    bindings := by
      intro name notResult
      by_cases mem : name ∈ paused.func.params ∧ frame.formals.isSome ∨
        name ∈ paused.func.layoutLocals
      · exact (saved name mem).trans (ownScope.localD (mem.imp_left And.left)).symm
      · calc taken.local? id name
            = m.store.local? id name := (CallFrame.bindings saves.formals locals known name).trans
              (if_neg mem)
          _ = _ := opened name (not_or.mp mem).2
          _ = before.store.local? paused.scope name :=
            ownScope.unsaved stocked saves later.store env mem notResult
    arguments := by
      intro mentions
      obtain ⟨unmentioned, _⟩ | ⟨_, formals, count, args_eq⟩ := saves
      · exact absurd (mentions.symm.trans unmentioned) nofun
      · let again := Local.take frame ⟨(Local.begin paused.func closure paused.this args later).act,
          m⟩
        have params : again.act.paramValues again.machine.store =
            paused.paramValues before.store := by
          refine List.map_congr_left fun name mem => ?_
          show (taken.local? id name).getD .undefined = _
          rw [saved name (.inl ⟨mem, by rw [formals]; rfl⟩), Option.getD_some]
        have counts : again.act.argCount = paused.argCount := by
          show frame.argCount.getD _ = _
          rw [count, Option.getD_some]
        obtain ⟨array, before', eval, items⟩ := Expr.arguments_eval g paused before
        obtain ⟨array', machine', eval', items'⟩ := Expr.arguments_eval g again.act again.machine
        refine ⟨array, array', before', machine', eval, eval', ?_⟩
        rw [items, items', Activation.argumentValues_eq counts params args_eq] }

/-- What a function does before its frame is taken does not matter. -/
theorem Activation.OwnScope.opened (called : paused.callee = some closure)
    (stocked : paused.func.Stocked options) (faithful : paused.func.mentionsArguments = false ∨
      options.fidelity = .full) {label : Nat}
    (captured : paused.captureFrame before.store label = .call frame) (g : Engine)
    (same : later.store.closure closure = before.store.closure closure) {opening rest : List Stmt}
    (opens : opening = [] ∨ opening = [.letS newTargetLocal (some .newTarget)])
    (body : paused.func.body = opening ++ rest) {entered : Local}
    (begins : entered = Local.begin paused.func closure paused.this
      (paused.reentryArgs before.store) later)
    (opened : store = entered.machine.store ∨ opening ≠ [] ∧
      store = entered.machine.store.declare entered.act.scope newTargetLocal entered.act.newTarget)
    (remaining : Option Int) :
    paused.Restored g before label later
      (Local.take frame ⟨entered.act, { entered.machine with store, remaining }⟩) := by
  obtain ⟨frame, captured', _, label_eq, locals, _⟩ :=
    Activation.captureFrame_call called before.store label
  obtain rfl := Frame.call.inj (captured.symm.trans captured')
  subst begins
  rw [← label_eq]
  refine ownScope.taken called stocked (stocked.saves faithful captured) locals g same rfl ?_ ?_
  · rcases opened with rfl | ⟨_, rfl⟩
    · exact .refl _
    · exact (Store.Grows.refl _).declare _ _ _
  · intro name notLocal
    rcases opened with rfl | ⟨some, rfl⟩
    · rfl
    · refine (Store.local?_declare _ _ _ _ _ _).trans (if_neg fun both => notLocal ?_)
      rw [opens.resolve_left some] at body
      rw [both.2]
      refine stocked.binds ?_ (by decide)
      rw [body]
      exact .head _

end

/-- The resume of a frame calls the function, and the prologue of its body, up to where the frame is
taken, brings the paused activation back.  The rest of the body goes on from there. -/
def Activation.ComesBack (g : Engine) (paused : Activation) (before : Machine) (label : Nat)
    (later : Machine) : Prop :=
  ∃ frame prologue rest entered restored, paused.captureFrame before.store label = .call frame ∧
    frame.resume.performWith g later = Eval.runBody g entered.act paused.func.body entered.machine ∧
    paused.func.body = prologue ++ .restoreFrame :: rest ∧ .restoreFrame ∉ prologue ∧
    Stmt.execList g (prologue ++ [.restoreFrame]) entered = .ok .normal restored ∧
    Stmt.execList g paused.func.body entered = Stmt.execList g rest restored ∧
    paused.Restored g before label later restored

/-- The resume of a frame of the activation, in restoring mode and with the frame outermost, brings
it back. -/
theorem Activation.OwnScope.comesBack (ownScope : paused.OwnScope code closure before.store)
    (called : paused.callee = some closure) (stocked : paused.func.Stocked options)
    (faithful : paused.func.mentionsArguments = false ∨ options.fidelity = .full) (label : Nat)
    (g : Engine)
    (restoring : later.mode = .restoring)
    (outermost : later.stack.outermost? = some (paused.captureFrame before.store label))
    (same : later.store.closure closure = before.store.closure closure) :
    paused.ComesBack g before label later := by
  obtain ⟨frame, captured, resume, _, locals, _⟩ :=
    Activation.captureFrame_call called before.store label
  obtain ⟨opening, rest, opens, body⟩ := stocked.opening
  have func : (later.store.closure closure).func = paused.func := by
    rw [same]
    exact ownScope.func
  let entered := Local.begin paused.func closure paused.this (paused.reentryArgs before.store) later
  have enters : frame.resume.performWith g later = Eval.runBody g entered.act paused.func.body
      entered.machine := by
    rw [resume]
    exact Eval.enter_begin func paused.this _
  have shape : frame.locals.length = entered.act.layoutLocals.length := by
    rw [locals, List.length_map]
    rfl
  rw [captured] at outermost
  obtain ⟨store, remaining, opened, runs⟩ :=
    Stmt.opening_restoring (g := g) (l := entered) opens restoring outermost shape
  have prologue : paused.func.body = (opening ++ [.stackDec]) ++ .restoreFrame :: rest := by
    simp [body]
  have once : .restoreFrame ∉ opening ++ [.stackDec] := by rcases opens with rfl | rfl <;> simp
  have goesOn : Stmt.execList g paused.func.body entered = Stmt.execList g rest
      (Local.take frame ⟨entered.act, { entered.machine with store, remaining }⟩) := by
    have split : paused.func.body = (opening ++ [.stackDec, .restoreFrame]) ++ rest := by
      simp [body]
    rw [split, Stmt.execList_append]
    show Run.bind (Stmt.execList g (opening ++ [.stackDec, .restoreFrame])) _ entered = _
    simp only [Run.bind, runs]
  rw [← List.singleton_append, ← List.append_assoc] at runs
  refine ⟨frame, opening ++ [.stackDec], rest, entered, _, captured, enters, prologue, once, runs,
    goesOn, ?_⟩
  exact ownScope.opened called stocked faithful captured g same opens body rfl opened remaining

end Restored

/-! ## Moments of activations -/

/-- The points of an activation: where a statement or an expression of its function begins, and
where it ends. -/
inductive Event.Moment : Event → Activation → Machine → Prop
  | stmt {s : Stmt} {l : Local} : Moment (.stmt s l) l.act l.machine
  | stmtEnd {s : Stmt} {l l' : Local} {bound depth : Nat} :
      (s.exec ⟨bound, perform bound depth⟩ l).state? = some l' →
        Moment (.stmt s l) l'.act l'.machine
  | expr {e : Expr} {act : Activation} {m : Machine} : Moment (.expr e act m) act m
  | exprEnd {e : Expr} {act : Activation} {m m' : Machine} {bound depth : Nat} :
      (e.eval ⟨bound, perform bound depth⟩ act m).state? = some m' → Moment (.expr e act m) act m'

section Moments

variable {strategy : Strategy} {options : RunOptions} {code : Func → Prop} {event : Event}
  {act : Activation} {m : Machine}

/-- At each of its points an activation is in scope. -/
theorem Event.Moment.inScope (nests : Func.Nests code) (moment : event.Moment act m)
    (inScope : event.InScope strategy options code) : act.InScope code m.store := by
  cases moment with
  | stmt => exact inScope.1.act
  | @stmtEnd s l l' bound depth ends =>
    have walked := Stmt.retainsIn (observer_retains nests bound depth) nests s
      [] l inScope.2 inScope.1
    have meets := walked.ends
    rw [Stmt.erase_observe, (observer bound depth).2] at meets
    refine (meets.weaken (fun _ l' leaves => ?_) fun _ _ left => left.1.act).state ends
    exact (Completion.leaves_same.mp leaves).act
  | expr => exact inScope.1
  | @exprEnd e _ begun _ bound depth ends =>
    have walked : (e.observe (observer bound depth).1 [] act).Retains strategy options code
        begun.store begun :=
      (inScope.1.reading (observer_retains nests bound depth) nests).expr e inScope.2.2 begun
        inScope.2.1
    have meets := walked.ends
    rw [Expr.erase_observe, (observer bound depth).2] at meets
    have retained := (meets.weaken (fun _ _ retains => retains.retained) fun _ _ left =>
      left.1.retained).state ends
    exact inScope.1.later retained

end Moments

/-! ## Compiled functions -/

/-- A function that is written somewhere in the text. -/
inductive Func.WrittenIn (body : List Stmt) : Func → Prop
  | outer {f : Func} : f ∈ Stmt.listFunctions body → WrittenIn body f
  | inner {f g : Func} : WrittenIn body f → g ∈ Stmt.listFunctions f.body → WrittenIn body g

/-- The function is one of a program that was compiled with the options and loaded. -/
def Func.CompiledWith (given : CompileOptions) (f : Func) : Prop :=
  ∃ (source compiled : Program) (site : Nat), source.compile given = .ok compiled ∧
    f.WrittenIn (compiled.number site).1.body

/-- A program that was compiled for the strategy, with options of a kind, and loaded. -/
def Program.CompiledUnder (admits : CompileOptions → Prop) (strategy : Strategy)
    (program : Program) : Prop :=
  ∃ (source compiled : Program) (given : CompileOptions) (site : Nat), source.compile given =
    .ok compiled ∧ given.strategy = strategy ∧ program = (compiled.number site).1 ∧ admits given

section Compiled

variable {given : CompileOptions} {admits : CompileOptions → Prop} {strategy : Strategy} {f : Func}

theorem Func.WrittenIn.throughout {body : List Stmt} {p : Func → Prop} (written : f.WrittenIn body)
    (all : ∀ g ∈ Stmt.listFunctions body, g.Throughout p) : f.Throughout p := by
  induction written with
  | outer mem => exact all _ mem
  | inner _ mem ih =>
    cases ih with
    | intro _ inside => exact inside _ mem

theorem Func.CompiledWith.throughout (compiled : f.CompiledWith given) :
    f.Throughout (Func.Stocked given) := by
  obtain ⟨source, program, site, ok, written⟩ := compiled
  exact written.throughout (Program.number_stocked ok site)

theorem Func.CompiledWith.stocked (compiled : f.CompiledWith given) : f.Stocked given := by
  cases compiled.throughout with
  | intro stocked _ => exact stocked

theorem Func.CompiledWith.inner (compiled : f.CompiledWith given) {g : Func}
    (mem : g ∈ Stmt.listFunctions f.body) : g.CompiledWith given := by
  obtain ⟨source, program, site, ok, written⟩ := compiled
  exact ⟨source, program, site, ok, .inner written mem⟩

/-- Functions compiled with options of a kind are a class of their own. -/
theorem Func.compiledWith_nests : Func.Nests fun f => ∃ given, admits given ∧
    f.CompiledWith given where
  inner _ := fun ⟨given, admitted, compiled⟩ _ mem => ⟨given, admitted, compiled.inner mem⟩
  owns _ := fun ⟨_, _, compiled⟩ => compiled.stocked.owns

theorem Program.CompiledUnder.yields {kind : CompileOptions → Prop}
    (leads : ∀ given, given.strategy = strategy → admits given → kind given) :
    Program.Yields (Program.CompiledUnder admits strategy) strategy
      (Func.Around fun f => ∃ given, kind given ∧ f.CompiledWith given) where
  compiled _ := fun ⟨source, compiled, given, site, ok, runs, loaded, _⟩ =>
    ⟨source, compiled, given, site, ok, runs, loaded⟩
  top program := by
    rintro ⟨source, compiled, given, site, ok, runs, rfl, admitted⟩ f mem
    exact ⟨given, leads given runs admitted, source, compiled, site, ok, .outer mem⟩

end Compiled

/-! ## Snapshots -/

/-- At any point of a call, in any session, a frame is a snapshot without loss.  Where the function
does not read `arguments`, or was compiled to save them, the resume of the frame brings the
activation back, in restoring mode, with the frame outermost and on any machine that has the
closure. -/
theorem SessionOf.snapshot_restores {admits : CompileOptions → Prop} {strategy : Strategy}
    {options : RunOptions} {m m' : Machine} {next : Next}
    (session : SessionOf (Program.CompiledUnder admits strategy) strategy options m)
    (reaches : m.ReachesOf (Program.CompiledUnder admits strategy) next m') (bound : Nat)
    {event : Event}
    (told : event ∈ m'.chronicle bound next) {paused : Activation} {before : Machine}
    (moment : event.Moment paused before) {closure : ClosureId}
    (called : paused.callee = some closure) :
    (∃ given, admits given ∧ paused.func.CompiledWith given) ∧
      ∀ given, paused.func.CompiledWith given →
        paused.func.mentionsArguments = false ∨ given.fidelity = .full →
        ∀ label (g : Engine) (later : Machine), later.mode = .restoring →
          later.stack.outermost? = some (paused.captureFrame before.store label) →
          later.store.closure closure = before.store.closure closure →
          paused.ComesBack g before label later := by
  have inScope := moment.inScope Func.compiledWith_nests
    (reaches.inScope Func.compiledWith_nests (Program.CompiledUnder.yields fun _ _ =>
      id) session bound event told)
  have ownScope := inScope.ownScope closure called
  refine ⟨ownScope.code, fun given compiled faithful label g later restoring outermost same => ?_⟩
  exact ownScope.comesBack called compiled.stocked faithful label g restoring outermost same

/-- A program that calls a function with more arguments than it has parameters.  The function
assigns the first. -/
def Program.overgiven : Program :=
  { body := [.decl { name := some "f", params := ["a", "b"], body := [
        .assign (.ident "a") (.bool true), .letS "given" (some .arguments),
        .returnS (some (.ident "given"))] },
      .letS "r" (some (.call (.ident "f") [.bool false, .null, .bool false])),
        .returnS (some (.ident "r"))] }

/-- Where the function of a closure returns. -/
def Event.returning? : Event → Option Local
  | .stmt (.returnS _) l => if l.act.callee.isSome then some l else none
  | _ => none

theorem Event.moment_of_returning? {event : Event} {l : Local}
    (returns : event.returning? = some l) : event.Moment l.act l.machine := by
  unfold Event.returning? at returns
  split at returns
  · split at returns
    · obtain rfl := Option.some.inj returns
      exact .stmt
    · exact nomatch returns
  · exact nomatch returns

theorem Program.overgiven_returns :
    ((Program.overgiven.compile { fidelity := .full }).toOption.map fun compiled =>
      match (Machine.chronicle 8 (.run (.enterTop (Machine.top compiled.load)))
          ((Machine.new .lazy {}).setInterval compiled.load)).findSome? (·.returning?) with
      | some l => match l.act.callee, l.act.argumentValues l.machine.store,
          l.machine.store.local? l.act.scope "a" with
          | some _, [.bool true, .null, .bool false], some (.bool true) =>
            l.act.func.mentionsArguments
          | _, _, _ => false
      | none => false) = some true := by decide +kernel

/-- The frame of the call has the new value of the first parameter and all three arguments. -/
theorem SessionOf.snapshot_restores_of_overgiven :
    ∃ compiled, Program.overgiven.compile { fidelity := .full } = .ok compiled ∧
      ∃ (event : Event) (l : Local), event ∈ Machine.chronicle 8
          (.run (.enterTop (Machine.top compiled.load)))
          ((Machine.new .lazy {}).setInterval compiled.load) ∧
        event.Moment l.act l.machine ∧ l.act.func.mentionsArguments = true ∧
        l.machine.store.local? l.act.scope "a" = some (.bool true) ∧
        l.act.argumentValues l.machine.store = [.bool true, .null, .bool false] ∧
        ∀ label g, l.act.ComesBack g l.machine label
          { l.machine with
            mode := .restoring, stack := ⟨[l.act.captureFrame l.machine.store label]⟩ } := by
  obtain ⟨compiled, ok, split⟩ := Option.map_eq_some_iff.mp Program.overgiven_returns
  replace ok := Program.compile_of_toOption ok
  have accepted : Program.CompiledUnder (·.fidelity = .full) .lazy compiled.load :=
    ⟨Program.overgiven, compiled, _, Program.firstSite, ok, rfl, rfl, rfl⟩
  have session : SessionOf (Program.CompiledUnder (·.fidelity = .full) .lazy) .lazy {}
      (Machine.new .lazy {}) :=
    .new rfl
  split at split
  · rename_i l found
    split at split
    · rename_i closure called given first
      obtain ⟨event, told, returns⟩ := List.exists_of_findSome?_eq_some found
      have moment := Event.moment_of_returning? returns
      obtain ⟨⟨options, full, compiledWith⟩, restores⟩ :=
        session.snapshot_restores (.run accepted) 8 told moment called
      refine ⟨compiled, ok, event, l, told, moment, split, first, given, fun label g => ?_⟩
      exact restores options compiledWith (.inr full) label g _ rfl rfl rfl
    · cases split
  · cases split

end Resumable
