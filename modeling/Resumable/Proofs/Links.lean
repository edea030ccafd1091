import Resumable.Machine.Perform
import Resumable.Syntax.Transform

/-!
Links between scopes and between objects.

A call makes its scope inside of the one that its closure was made in, which is an older one, so
that every way up ends at the globals.  An object has no prototype or that of a closure, which has
none itself.  `Store.Linked` says so of a store, and `Store.Orderly` of a change, as long as the
scope in which it is made exists: closures are made there.
-/

namespace Resumable

/-! ## Declared functions -/

section

variable {r : Transform Unit} (keeps : ∀ s, (r.stmt () s).declared = s.declared)

include keeps

set_option linter.unusedSectionVars false in
mutual

/-- A transformation of statements that keeps what they declare transforms the functions that are
declared. -/
theorem Stmt.declared_transform : (s : Stmt) → (s.transform r ()).declared =
    s.declared.map (Func.transform r ())
  | .block body => (keeps _).trans (Stmt.declaredList_transform body)
  | .ifS _ thenS elseS => by
    rw [Stmt.transform, keeps, Stmt.declared, Stmt.declared_transform thenS,
      Stmt.declaredOption_transform elseS, Stmt.declared, List.map_append]
  | .whileS _ body | .labeled _ body | .recordOnCapture _ body | .shadowFrame _ body =>
    (keeps _).trans (Stmt.declared_transform body)
  | .tryS body handler final => by
    rw [Stmt.transform, keeps, Stmt.declared, Stmt.declared_transform body,
      Handler.declaredOption_transform handler, Stmt.declaredOption_transform final, Stmt.declared,
      List.map_append, List.map_append]
  | .decl _ | .letS .. | .assign .. | .expr _ | .breakS _ | .continueS _ | .returnS _ | .throwS
      _ | .restoreFrame
  | .stackDec | .stackInc | .returnIfCapturing _ | .rethrowSignal _ => keeps _

theorem Stmt.declaredList_transform : (body : List Stmt) →
    Stmt.declaredList (Stmt.transformList r () body) = (Stmt.declaredList body).map
    (Func.transform r ())
  | [] => rfl
  | s :: rest => by
    rw [Stmt.transformList, Stmt.declaredList, Stmt.declared_transform s,
      Stmt.declaredList_transform rest, Stmt.declaredList, List.map_append]

theorem Stmt.declaredOption_transform : (o : Option Stmt) →
    Stmt.declaredOption (Stmt.transformOption r () o) = (Stmt.declaredOption o).map
    (Func.transform r ())
  | none => rfl
  | some s => Stmt.declared_transform s

theorem Handler.declaredOption_transform : (o : Option Handler) →
    Handler.declaredOption (Handler.transformOption r () o) = (Handler.declaredOption o).map
    (Func.transform r ())
  | none => rfl
  | some ⟨_, body⟩ => Stmt.declared_transform body

end

end

/-! ## Bindings -/

theorem Bindings.lookup_cons_eq (key other : String) (value : Value)
    (rest : List (String × Value)) : ((key, value) :: rest).lookup other = if other =
    key then some value else rest.lookup other := by
  by_cases same : other = key
  · rw [if_pos same, same, List.lookup_cons_self]
  · rw [if_neg same, List.lookup_cons, beq_false_of_ne same]

theorem Bindings.lookup_insertEntry (entries : List (String × Value)) (name other : String)
    (value : Value) : (insertEntry name value entries).lookup other =
      if other = name then some value else entries.lookup other := by
  induction entries with
  | nil => exact lookup_cons_eq name other value []
  | cons entry rest ih =>
    obtain ⟨key, old⟩ := entry
    unfold insertEntry
    split
    · exact lookup_cons_eq name other value _
    · split
      · rename_i same
        simp only [lookup_cons_eq, same]
        split <;> rfl
      · rename_i notSame
        simp only [lookup_cons_eq, ih]
        grind

theorem Bindings.get?_insert (b : Bindings) (name other : String) (value : Value) :
    (b.insert name value).get? other = if other = name then some value else b.get? other :=
  lookup_insertEntry b.entries name other value

/-! ## Scopes -/

theorem getD_modify {α : Type} (items : Array α) (i j : Nat) (f : α → α) (default : α) :
    (items.modify i f).getD j default =
      if j = i ∧ i < items.size then f (items.getD i default) else items.getD j default := by
  simp only [Array.getD_eq_getD_getElem?, Array.getElem?_modify]
  grind

theorem getD_push {α : Type} (items : Array α) (item : α) (i : Nat) (default : α) :
    (items.push item).getD i default = if i = items.size then item else items.getD i default := by
  simp only [Array.getD_eq_getD_getElem?, Array.getElem?_push]
  split <;> rfl

namespace Store

theorem scopes_declare_size (s : Store) (id : ScopeId) (name : String) (value : Value) :
    (s.declare id name value).scopes.size = s.scopes.size :=
  Array.size_modify

theorem scope_declare (s : Store) (id other : ScopeId) (name : String) (value : Value) :
    (s.declare id name value).scope other =
      if other.index = id.index ∧ id.index < s.scopes.size then
        { s.scope id with vars := (s.scope id).vars.insert name value }
      else s.scope other :=
  getD_modify s.scopes id.index other.index _ _

theorem parent_declare (s : Store) (id other : ScopeId) (name : String) (value : Value) :
    ((s.declare id name value).scope other).parent = (s.scope other).parent := by
  rw [scope_declare]
  split
  · rename_i same
    rw [show other = id from congrArg ScopeId.mk same.1]
  · rfl

theorem local?_declare (s : Store) (id other : ScopeId) (name otherName : String) (value : Value) :
    (s.declare id name value).local? other otherName =
      if (other.index = id.index ∧ id.index < s.scopes.size) ∧ otherName = name then some value
      else s.local? other otherName := by
  rw [local?, scope_declare]
  by_cases same : other.index = id.index ∧ id.index < s.scopes.size
  · rw [if_pos same, Bindings.get?_insert]
    rw [local?, show other = id from congrArg ScopeId.mk same.1]
    simp only [same.2, true_and]
  · rw [if_neg same, if_neg fun both => same both.1, local?]

theorem scope_newScope (s : Store) (parent : Option ScopeId) (id : ScopeId) :
    (s.newScope parent).2.scope id = if id.index = s.scopes.size then { parent } else s.scope id :=
  getD_push s.scopes { parent } id.index {}

theorem closure_newClosure (s : Store) (func : Func) (env : ScopeId) (id : ClosureId) :
    (s.newClosure func env).2.closure id =
      if id.index = s.closures.size then ⟨func, env, ⟨s.objects.size⟩⟩ else s.closure id :=
  getD_push s.closures ⟨func, env, ⟨s.objects.size⟩⟩ id.index default

/-- A declared function that is not bound yet becomes a closure, which is bound to its name. -/
theorem declareFunc_cases (holds : Store → Prop) {s : Store} {id : ScopeId} {f : Func}
    (here : holds s) (binds : ∀ name ∈ f.name, ∀ closure,
      holds ((s.newClosure f id).2.declare id name (.closure closure))) :
    holds (s.declareFunc id f) := by
  unfold declareFunc
  split
  · exact here
  · rename_i name named
    split
    · exact here
    · exact binds name named _

/-- A name means its nearest binding. -/
theorem lookup?_of_local? {s : Store} {id : ScopeId} {name : String} {value : Value}
    (exists_ : id.index < s.scopes.size) (bound : s.local? id name = some value) :
    s.lookup? id name = some value := by
  have here : (s.scope id).vars.contains name = true := congrArg Option.isSome bound
  have found : s.resolve? id name = some id := by
    unfold resolve?
    cases size : s.scopes.size with
    | zero => omega
    | succ n => rw [bindingScope?, if_pos here]
  rw [lookup?, found]
  exact bound

end Store

/-! ## The way up -/

/-- The scopes on the way up, in at most `steps` steps, that are passed because they do not bind the
name. -/
def Store.passedScopes (s : Store) (name : String) : Nat → ScopeId → List ScopeId
  | 0, _ => []
  | steps + 1, id =>
    let scope := s.scope id
    if scope.vars.contains name then []
    else id :: match scope.parent with
      | some parent => s.passedScopes name steps parent
      | none => []

/-- The scopes that are passed where the binding of a name is looked for. -/
def Store.passed (s : Store) (id : ScopeId) (name : String) : List ScopeId :=
  s.passedScopes name s.scopes.size id

/-- Every way up ends: scopes are made inside of older ones. -/
structure Store.Rooted (s : Store) : Prop where
  parents : ∀ id parent, (s.scope id).parent = some parent → parent.index < id.index
  closures : ∀ id, (s.closure id).env.index < s.scopes.size

/-- Later stores have all scopes and bindings of earlier ones. -/
structure Store.Grows (base s : Store) : Prop where
  size : base.scopes.size ≤ s.scopes.size
  parents : ∀ id : ScopeId, id.index < base.scopes.size → (s.scope id).parent =
    (base.scope id).parent
  bound : ∀ id name, s.local? id name = none → base.local? id name = none

namespace Store.Grows

variable {base s t : Store}

theorem refl (s : Store) : s.Grows s :=
  ⟨Nat.le_refl _, fun _ _ => rfl, fun _ _ unbound => unbound⟩

theorem trans (first : base.Grows s) (second : s.Grows t) : base.Grows t where
  size := Nat.le_trans first.size second.size
  parents id known := (second.parents id (Nat.lt_of_lt_of_le known first.size)).trans
    (first.parents id known)
  bound id name unbound := first.bound id name (second.bound id name unbound)

section

variable (grows : base.Grows s)

include grows

theorem declare (id : ScopeId) (name : String) (value : Value) :
    base.Grows (s.declare id name value) where
  size := by
    rw [scopes_declare_size]
    exact grows.size
  parents other known := by
    rw [parent_declare]
    exact grows.parents other known
  bound other otherName unbound := by
    rw [local?_declare] at unbound
    split at unbound
    · cases unbound
    · exact grows.bound other otherName unbound

theorem declareAll (id : ScopeId) (bindings : List (String × Value)) :
    base.Grows (s.declareAll id bindings) :=
  List.foldlRecOn _ _ grows fun _ grows binding _ => grows.declare id binding.1 binding.2

theorem newScope (parent : Option ScopeId) : base.Grows (s.newScope parent).2 where
  size := by
    rw [Store.newScope, Array.size_push]
    exact Nat.le_succ_of_le grows.size
  parents id known := by
    rw [scope_newScope, if_neg (Nat.ne_of_lt (Nat.lt_of_lt_of_le known grows.size))]
    exact grows.parents id known
  bound id name unbound := by
    rw [local?, scope_newScope] at unbound
    split at unbound
    · rename_i new
      -- there is no binding in a scope that does not exist
      have absent : s.local? id name = none := by
        rw [local?, scope, new, Array.getD_eq_getD_getElem?, Array.getElem?_eq_none (Nat.le_refl _)]
        rfl
      exact grows.bound id name absent
    · exact grows.bound id name unbound

theorem declareFunc (id : ScopeId) (f : Func) : base.Grows (s.declareFunc id f) := by
  have made : base.Grows (s.newClosure f id).2 := ⟨grows.size, grows.parents, grows.bound⟩
  exact declareFunc_cases base.Grows grows fun _ _ _ => made.declare id _ _

theorem hoist (id : ScopeId) (body : List Stmt) : base.Grows (s.hoist id body) :=
  List.foldlRecOn _ _ grows fun _ grows f _ => grows.declareFunc id f

/-- What was not passed before is not passed later. -/
theorem passed_subset (rooted : s.Rooted) {id : ScopeId} (known : id.index < base.scopes.size)
    (name : String) : ∀ scope ∈ s.passed id name, scope ∈ base.passed id name := by
  -- as many steps as the number of a scope are enough
  suffices enough : ∀ steps steps' id, id.index < base.scopes.size → id.index < steps' →
      ∀ scope ∈ s.passedScopes name steps id, scope ∈ base.passedScopes name steps' id from
    enough _ _ id known known
  intro steps
  induction steps with
  | zero => nofun
  | succ steps ih =>
    intro steps' id known enough scope mem
    obtain ⟨steps', rfl⟩ : ∃ n, steps' = n + 1 := ⟨steps' - 1, by omega⟩
    unfold passedScopes at mem ⊢
    cases unbound : s.local? id name with
    | some value =>
      have bound : (s.scope id).vars.contains name = true := congrArg Option.isSome unbound
      rw [if_pos bound] at mem
      cases mem
    | none =>
      have absent : (s.scope id).vars.contains name = false := congrArg Option.isSome unbound
      have absent' : (base.scope id).vars.contains name = false :=
        congrArg Option.isSome (grows.bound id name unbound)
      simp only [absent, absent', Bool.false_eq_true, if_false, grows.parents id known] at mem ⊢
      refine (List.mem_cons.mp mem).elim (fun same => same ▸ List.mem_cons_self ..) fun later => ?_
      refine List.mem_cons_of_mem _ ?_
      cases up : (base.scope id).parent with
      | none =>
        rw [up] at later
        cases later
      | some parent =>
        rw [up] at later
        have older := rooted.parents id parent ((grows.parents id known).trans up)
        exact ih steps' parent (Nat.lt_trans older known) (by omega) scope later

end

end Store.Grows

namespace Store.Rooted

variable {s : Store}

theorem declare (rooted : s.Rooted) (id : ScopeId) (name : String) (value : Value) :
    (s.declare id name value).Rooted where
  parents other parent up := by
    rw [parent_declare] at up
    exact rooted.parents other parent up
  closures id := by
    rw [scopes_declare_size]
    exact rooted.closures id

theorem newScope (rooted : s.Rooted) {parent : ScopeId} (known : parent.index < s.scopes.size) :
    (s.newScope (some parent)).2.Rooted where
  parents id other up := by
    rw [scope_newScope] at up
    split at up
    · rename_i new
      cases up
      exact new ▸ known
    · exact rooted.parents id other up
  closures id := by
    rw [Store.newScope, Array.size_push]
    exact Nat.lt_succ_of_lt (rooted.closures id)

theorem newClosure (rooted : s.Rooted) (f : Func) {env : ScopeId}
    (known : env.index < s.scopes.size) : (s.newClosure f env).2.Rooted where
  parents := rooted.parents
  closures id := by
    rw [closure_newClosure]
    split
    · exact known
    · exact rooted.closures id

end Store.Rooted

/-! ## Links -/

/-- The object exists and has no prototype. -/
def Store.IsRoot (s : Store) (id : ObjectId) : Prop :=
  id.index < s.objects.size ∧ (s.object id).proto = none

/-- Every way up ends at the globals, and prototypes are those of closures. -/
structure Store.Linked (s : Store) : Prop extends s.Rooted where
  inner : ∀ id : ScopeId, 0 < id.index → id.index < s.scopes.size →
    (s.scope id).parent.isSome = true
  prototypes : ∀ id, s.IsRoot (s.closure id).prototype
  instances : ∀ id proto, (s.object id).proto = some proto → s.IsRoot proto

namespace Store

variable {s : Store}

theorem object_newObject (s : Store) (object : Object) (id : ObjectId) :
    (s.newObject object).2.object id = if id.index = s.objects.size then object else s.object id :=
  getD_push s.objects object id.index {}

theorem IsRoot.newObject {id : ObjectId} (root : s.IsRoot id) (object : Object) :
    (s.newObject object).2.IsRoot id := by
  refine ⟨Nat.lt_of_lt_of_le root.1 ?_, ?_⟩
  · rw [Store.newObject, Array.size_push]
    exact Nat.le_succ _
  · rw [object_newObject, if_neg (Nat.ne_of_lt root.1)]
    exact root.2

theorem isRoot_new (s : Store) : (s.newObject {}).2.IsRoot ⟨s.objects.size⟩ := by
  refine ⟨?_, ?_⟩
  · rw [newObject, Array.size_push]
    exact Nat.lt_succ_self _
  · rw [object_newObject, if_pos rfl]

theorem proto_setProperty (s : Store) (id other : ObjectId) (name : String) (value : Value) :
    ((s.setProperty id name value).object other).proto = (s.object other).proto := by
  have found : (s.setProperty id name value).object other = if other.index = id.index ∧
      id.index < s.objects.size then
      { s.object id with props := (s.object id).props.insert name value } else s.object other :=
    getD_modify s.objects id.index other.index _ _
  rw [found]
  split
  · rename_i same
    rw [show other = id from congrArg ObjectId.mk same.1]
  · rfl

theorem IsRoot.setProperty {other : ObjectId} (root : s.IsRoot other) (id : ObjectId)
    (name : String) (value : Value) : (s.setProperty id name value).IsRoot other := by
  refine ⟨?_, ?_⟩
  · rw [Store.setProperty, Array.size_modify]
    exact root.1
  · rw [proto_setProperty]
    exact root.2

namespace Linked

section

variable (linked : s.Linked)

include linked

theorem globals : globals.index < s.scopes.size :=
  Nat.zero_lt_of_lt (linked.closures ⟨0⟩)

theorem declare (id : ScopeId) (name : String) (value : Value) :
    (s.declare id name value).Linked where
  toRooted := linked.toRooted.declare id name value
  inner other inside known := by
    rw [parent_declare]
    rw [scopes_declare_size] at known
    exact linked.inner other inside known
  prototypes := linked.prototypes
  instances := linked.instances

theorem newScope {parent : ScopeId} (known : parent.index < s.scopes.size) :
    (s.newScope (some parent)).2.Linked where
  toRooted := linked.toRooted.newScope known
  inner id inside known := by
    rw [Store.newScope, Array.size_push] at known
    rw [scope_newScope]
    split
    · rfl
    · exact linked.inner id inside (by omega)
  prototypes := linked.prototypes
  instances := linked.instances

theorem newObject {object : Object} (rooted : ∀ proto, object.proto = some proto → s.IsRoot proto) :
    (s.newObject object).2.Linked where
  toRooted := { linked.toRooted with }
  inner := linked.inner
  prototypes id := (linked.prototypes id).newObject object
  instances id proto found := by
    rw [object_newObject] at found
    split at found
    · exact (rooted proto found).newObject object
    · exact (linked.instances id proto found).newObject object

theorem newClosure (f : Func) {env : ScopeId} (known : env.index < s.scopes.size) :
    (s.newClosure f env).2.Linked where
  toRooted := linked.toRooted.newClosure f known
  inner := linked.inner
  prototypes id := by
    show (s.newObject {}).2.IsRoot _
    rw [closure_newClosure]
    split
    · exact s.isRoot_new
    · exact (linked.prototypes id).newObject {}
  instances := (show (s.newObject {}).2.Linked from linked.newObject nofun).instances

theorem withArrays (arrays : Array (Array Value)) : { s with arrays }.Linked where
  toRooted := { linked.toRooted with }
  inner := linked.inner
  prototypes := linked.prototypes
  instances := linked.instances

theorem withContinuations (continuations : Array Stack) : { s with continuations }.Linked where
  toRooted := { linked.toRooted with }
  inner := linked.inner
  prototypes := linked.prototypes
  instances := linked.instances

theorem setProperty (id : ObjectId) (name : String) (value : Value) :
    (s.setProperty id name value).Linked where
  toRooted := { linked.toRooted with }
  inner := linked.inner
  prototypes other := (linked.prototypes other).setProperty id name value
  instances other proto found := by
    rw [proto_setProperty] at found
    exact (linked.instances other proto found).setProperty id name value

end

end Linked

end Store

/-- There is one scope in a new machine, and one object. -/
theorem Machine.initialStore_linked : Machine.initialStore.Linked := by
  have declared (s : Store) (bindings : List (String × Value)) (id : ScopeId) :
      ((s.declareAll Store.globals bindings).scope id).parent = (s.scope id).parent :=
    List.foldlRecOn (motive := fun t : Store => (t.scope id).parent = (s.scope id).parent) _ _ rfl
      fun _ same _ _ => (Store.parent_declare ..).trans same
  have top (id : ScopeId) : (Machine.initialStore.scope id).parent = none := by
    refine (declared _ _ id).trans ?_
    show ((Store.newScope { objects := #[{}] } none).2.scope id).parent = none
    rw [Store.scope_newScope]
    split <;> rfl
  have size : Machine.initialStore.scopes.size = 1 := by decide
  have proto (id : ObjectId) : (Machine.initialStore.object id).proto = none := by
    show ((#[{}] : Array Object).getD id.index {}).proto = none
    rw [Array.getD_eq_getD_getElem?]
    cases found : (#[{}] : Array Object)[id.index]? with
    | none => rfl
    | some object =>
      rw [Array.mem_singleton.mp (Array.mem_of_getElem? found)]
      rfl
  refine ⟨⟨fun id parent up => ?_, fun _ => ?_⟩, fun id inside known => ?_, fun id =>
    ?_, fun id other found => ?_⟩
  · rw [top] at up
    cases up
  · show 0 < Machine.initialStore.scopes.size
    omega
  · omega
  · exact ⟨show 0 < Machine.initialStore.objects.size by decide, proto _⟩
  · rw [proto] at found
    cases found

end Resumable
