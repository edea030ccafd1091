import Resumable.Proofs.Grammar
import Resumable.Proofs.TwinCompiled
import Resumable.Proofs.TwinStore

/-!
Scopes with and without layouts.

A call of a function that has a layout binds all its locals at its beginning.  Without a layout a
local is bound when its `let`, its handler or its declaration is reached, and until then the scope
of the call *awaits* it.  `Store.Laid` relates the store of a run without layouts to the store of
the same run with them: the second has a binding more for each local that is awaited, and is the
same otherwise.

On the way up from a scope to the binding of a name some scopes are passed.  The name means the same
in both stores if none of them awaits it (`Store.Laid.resolve?`), and as bindings are only ever
added, what was not passed before is not passed later (`Store.Grows.passed_subset`).
-/

namespace Resumable

variable {options : CompileOptions}

/-! ## Code -/

/-- The locals of the layout that instrumentation computes for the function. -/
def Func.layoutNames (options : CompileOptions) (f : Func) : List String :=
  ((analyze f.body).layout options).locals

/-- The same function with layouts for the functions inside of it.  Its own layout, if it has one,
has the locals that are computed. -/
structure Func.Laid (options : CompileOptions) (f f' : Func) : Prop where
  name : f'.name = f.name
  params : f'.params = f.params
  site : f'.site = f.site
  body : f'.body = Stmt.transformList (attachingLayouts options) () f.body
  locals : ∀ name ∈ f'.layoutLocals, name ∈ f.layoutNames options

theorem Func.laid_transform (f : Func) : f.Laid options (f.transform (attachingLayouts options)
    ()) := by
  obtain ⟨name, params, body, frame, site⟩ := f
  refine ⟨rfl, rfl, rfl, rfl, fun local_ mem => ?_⟩
  show local_ ∈ ((analyze body).layout options).locals
  rw [← analyze_layout (attachingLayouts_tame options)]
  exact mem

section Grammar

variable {use : String → Prop} {code : Func → Prop}

/-- What is declared in a body is in the class that the grammar is relative to. -/
theorem Stmt.Normal.declared {s : Stmt} (normal : s.Normal use code) : ∀ f ∈ s.declared,
    code f := by
  have list {body : List Stmt} (ih : ∀ s ∈ body, ∀ f ∈ s.declared, code f) :
      ∀ f ∈ Stmt.declaredList body, code f := by
    induction body with
    | nil => exact List.forall_mem_nil _
    | cons s rest restIH =>
      rw [List.forall_mem_cons] at ih
      exact List.forall_mem_append.mpr ⟨ih.1, restIH ih.2⟩
  have option {o : Option Stmt} (ih : ∀ s ∈ o, ∀ f ∈ s.declared, code f) :
      ∀ f ∈ Stmt.declaredOption o, code f := by
    cases o with
    | none => exact List.forall_mem_nil _
    | some s => exact ih s rfl
  have handler {o : Option Handler} (ih : ∀ h ∈ o, ∀ f ∈ h.body.declared, code f) :
      ∀ f ∈ Handler.declaredOption o, code f := by
    cases o with
    | none => exact List.forall_mem_nil _
    | some h =>
      obtain ⟨param, body⟩ := h
      exact ih ⟨param, body⟩ rfl
  induction normal with
  | block _ ih => exact list ih
  | ifS _ _ _ thenIH elseIH => exact List.forall_mem_append.mpr ⟨thenIH, option elseIH⟩
  | loop _ _ _ ih => exact ih
  | labeled _ _ ih => exact ih
  | tryS _ _ _ _ bodyIH handlerIH finalIH =>
    exact List.forall_mem_append.mpr
      ⟨List.forall_mem_append.mpr ⟨bodyIH, handler handlerIH⟩, option finalIH⟩
  | decl declared => exact List.forall_mem_singleton.mpr declared
  | _ => exact List.forall_mem_nil _

theorem Stmt.Normal.declaredList {body : List Stmt} (normal : ∀ s ∈ body, s.Normal use code) :
    ∀ f ∈ Stmt.declaredList body, code f :=
  (Stmt.Normal.block normal).declared

end Grammar

/-! ## Stores of two runs -/

/-- Which scopes are going to bind which names. -/
abbrev AwaitedLocals := ScopeId → String → Prop

/-- The same closure, with layouts for its code, which is in normal form. -/
structure Closure.Laid (options : CompileOptions) (use : String → Prop) (c c' : Closure) :
    Prop where
  func : c.func.Laid options c'.func
  normal : c.func.Normal use
  env : c'.env = c.env
  prototype : c'.prototype = c.prototype

/-- Stores that are the same but for layouts and for the locals that are awaited, which are
undefined in the second.  The first has grown from `base`. -/
structure Store.Laid (options : CompileOptions) (use : String → Prop) (awaited : AwaitedLocals)
    (s base s' : Store) : Prop where
  grows : base.Grows s
  rooted : s.Rooted
  scopes : s'.scopes.size = s.scopes.size
  parents : ∀ id, (s'.scope id).parent = (s.scope id).parent
  vars : ∀ id name, s'.local? id name = s.local? id name ∨
    s.local? id name = none ∧ s'.local? id name = some .undefined ∧ awaited id name ∧ id ≠ globals
  objects : s'.objects = s.objects
  arrays : s'.arrays = s.arrays
  closures : s'.closures.size = s.closures.size
  code : ∀ id, (s.closure id).Laid options use (s'.closure id)

namespace Store.Laid

variable {use : String → Prop} {awaited : AwaitedLocals} {base s s' : Store} {id : ScopeId}
  {name : String}

/-- The first store is the one that is grown from. -/
theorem rebase (laid : s.Laid options use awaited base s') : s.Laid options use awaited s s' :=
  { laid with grows := .refl s }

theorem weaken {older : Store} (laid : s.Laid options use awaited base s')
    (grows : older.Grows base) : s.Laid options use awaited older s' :=
  { laid with grows := grows.trans laid.grows }

/-! ## Names -/

section

variable (laid : s.Laid options use awaited base s')

include laid

theorem local?_of_some {value : Value} (bound : s.local? id name = some value) :
    s'.local? id name = some value := by
  obtain same | ⟨unbound, -⟩ := laid.vars id name
  · rw [same, bound]
  · cases unbound.symm.trans bound

theorem local?_of_not_awaited (free : ¬ awaited id name) :
    s'.local? id name = s.local? id name := by
  obtain same | ⟨-, -, awaits, -⟩ := laid.vars id name
  · exact same
  · exact absurd awaits free

/-- Nothing is awaited at the top level. -/
theorem local?_globals (name : String) : s'.local? globals name = s.local? globals name := by
  obtain same | ⟨-, -, -, inner⟩ := laid.vars globals name
  · exact same
  · exact absurd rfl inner

theorem localD (id : ScopeId) (name : String) : s'.localD id name = s.localD id name := by
  unfold Store.localD
  obtain same | ⟨unbound, bound, -⟩ := laid.vars id name
  · rw [same]
  · rw [unbound, bound]
    rfl

theorem bindingScope? (steps : Nat) (id : ScopeId)
    (free : ∀ scope ∈ s.passedScopes name steps id, ¬ awaited scope name) :
    s'.bindingScope? name steps id = s.bindingScope? name steps id := by
  induction steps generalizing id with
  | zero => rfl
  | succ steps ih =>
    unfold Store.bindingScope?
    unfold passedScopes at free
    cases bound : s.local? id name with
    | some value =>
      have here : (s.scope id).vars.contains name = true := congrArg Option.isSome bound
      have here' : (s'.scope id).vars.contains name = true :=
        congrArg Option.isSome (laid.local?_of_some bound)
      simp only [here, here', if_true]
    | none =>
      have absent : (s.scope id).vars.contains name = false := congrArg Option.isSome bound
      simp only [absent, Bool.false_eq_true, if_false, List.forall_mem_cons] at free
      have absent' : (s'.scope id).vars.contains name = false :=
        congrArg Option.isSome ((laid.local?_of_not_awaited free.1).trans bound)
      simp only [absent, absent', Bool.false_eq_true, if_false, laid.parents]
      cases up : (s.scope id).parent with
      | none => rfl
      | some parent =>
        rw [up] at free
        exact ih parent free.2

/-- A name means the same unless a scope that is passed on the way awaits it. -/
theorem resolve? (free : ∀ scope ∈ s.passed id name, ¬ awaited scope name) :
    s'.resolve? id name = s.resolve? id name := by
  rw [Store.resolve?, laid.scopes, laid.bindingScope? _ _ free]
  rfl

end

end Store.Laid

/-- What a name means binds it. -/
theorem Store.local?_of_bindingScope? {s : Store} {name : String} {steps : Nat} {id scope : ScopeId}
    (found : s.bindingScope? name steps id = some scope) : ∃ value, s.local? scope name =
    some value := by
  induction steps generalizing id with
  | zero => cases found
  | succ steps ih =>
    simp only [Store.bindingScope?] at found
    split at found
    · rename_i bound
      cases found
      exact Option.isSome_iff_exists.mp bound
    · split at found
      · exact ih found
      · cases found

namespace Store.Laid

variable {use : String → Prop} {awaited : AwaitedLocals} {base s s' : Store} {id : ScopeId}
  {name : String}

section

variable (laid : s.Laid options use awaited base s')

include laid

theorem lookup? (free : ∀ scope ∈ s.passed id name, ¬ awaited scope name) :
    s'.lookup? id name = s.lookup? id name := by
  unfold Store.lookup?
  rw [laid.resolve? free]
  cases found : s.resolve? id name with
  | none => rfl
  | some scope =>
    obtain ⟨value, bound⟩ := local?_of_bindingScope? found
    exact (laid.local?_of_some bound).trans bound.symm

theorem declare (id : ScopeId) (name : String) (value : Value) :
    (s.declare id name value).Laid options use awaited base (s'.declare id name value) where
  grows := laid.grows.declare id name value
  rooted := laid.rooted.declare id name value
  scopes := by rw [scopes_declare_size, scopes_declare_size, laid.scopes]
  parents other := by rw [parent_declare, parent_declare, laid.parents]
  vars other otherName := by
    rw [local?_declare, local?_declare, laid.scopes]
    split
    · exact .inl rfl
    · exact laid.vars other otherName
  objects := laid.objects
  arrays := laid.arrays
  closures := laid.closures
  code := laid.code

theorem declareAll (id : ScopeId) (bindings : List (String × Value)) :
    (s.declareAll id bindings).Laid options use awaited base (s'.declareAll id bindings) := by
  induction bindings generalizing s s' with
  | nil => exact laid
  | cons binding rest ih => exact ih (laid.declare id binding.1 binding.2)

/-- The second store alone binds a local that is awaited. -/
theorem await (inner : id ≠ globals) (awaits : awaited id name)
    (unbound : s.local? id name = none) : s.Laid options use awaited base
    (s'.declare id name .undefined) where
  grows := laid.grows
  rooted := laid.rooted
  scopes := by rw [scopes_declare_size, laid.scopes]
  parents other := by rw [parent_declare, laid.parents]
  vars other otherName := by
    rw [local?_declare]
    split
    · rename_i same
      obtain ⟨⟨sameId, -⟩, rfl⟩ := same
      obtain rfl : other = id := congrArg ScopeId.mk sameId
      exact .inr ⟨unbound, rfl, awaits, inner⟩
    · exact laid.vars other otherName
  objects := laid.objects
  arrays := laid.arrays
  closures := laid.closures
  code := laid.code

theorem awaitAll (inner : id ≠ globals) {names : List String} (awaits : ∀ name ∈ names,
    awaited id name) (unbound : ∀ name ∈ names, s.local? id name = none) :
    s.Laid options use awaited base (s'.declareAll id (names.map (·, .undefined))) := by
  induction names generalizing s' with
  | nil => exact laid
  | cons name rest ih =>
    rw [List.forall_mem_cons] at awaits unbound
    exact ih (laid.await inner awaits.1 unbound.1) awaits.2 unbound.2

theorem assign (free : ∀ scope ∈ s.passed id name, ¬ awaited scope name) (value : Value) :
    (s.assign id name value).Laid options use awaited base (s'.assign id name value) := by
  rw [Store.assign, Store.assign, laid.resolve? free]
  exact laid.declare _ name value

end

/-! ## Scopes and closures -/

theorem newScope (laid : s.Laid options use awaited base s') {parent : ScopeId}
    (known : parent.index < s.scopes.size) :
    (s.newScope (some parent)).2.Laid options use awaited base (s'.newScope (some parent)).2 where
  grows := laid.grows.newScope _
  rooted := laid.rooted.newScope known
  scopes := by rw [Store.newScope, Store.newScope, Array.size_push, Array.size_push, laid.scopes]
  parents id := by
    rw [scope_newScope, scope_newScope, laid.scopes]
    split
    · rfl
    · exact laid.parents id
  vars id name := by
    rw [local?, local?, scope_newScope, scope_newScope, laid.scopes]
    split
    · exact .inl rfl
    · exact laid.vars id name
  objects := laid.objects
  arrays := laid.arrays
  closures := laid.closures
  code := laid.code

section

variable {f f' : Func} (laid : s.Laid options use awaited base s') (func : f.Laid options f')

include laid func

theorem newClosure (normal : f.Normal use) {env : ScopeId} (known : env.index < s.scopes.size) :
    (s'.newClosure f' env).1 = (s.newClosure f env).1 ∧
      (s.newClosure f env).2.Laid options use awaited base (s'.newClosure f' env).2 := by
  refine ⟨congrArg ClosureId.mk laid.closures, ?_⟩
  constructor
  · exact { laid.grows with }
  · exact laid.rooted.newClosure f known
  · exact laid.scopes
  · exact laid.parents
  · exact laid.vars
  · exact congrArg (·.push {}) laid.objects
  · exact laid.arrays
  · rw [Store.newClosure, Store.newClosure, Array.size_push, Array.size_push]
    exact congrArg (· + 1) laid.closures
  · intro id
    rw [closure_newClosure, closure_newClosure, laid.closures, laid.objects]
    split
    · exact ⟨func, normal, rfl, rfl⟩
    · exact laid.code id

theorem isClosureOf (value : Value) : s'.isClosureOf f' value = s.isClosureOf f value := by
  cases value with
  | closure id => simp only [Store.isClosureOf, (laid.code id).func.site, func.site]
  | _ => rfl

/-- Bind a declared function.  A local that is awaited is bound to no closure. -/
theorem declareFunc (normal : f.Normal use) (known : id.index < s.scopes.size) :
    (s.declareFunc id f).Laid options use awaited base (s'.declareFunc id f') := by
  unfold Store.declareFunc
  rw [func.name]
  cases f.name with
  | none => exact laid
  | some name =>
    have same : ((s'.local? id name).map (s'.isClosureOf f')).getD false =
        ((s.local? id name).map (s.isClosureOf f)).getD false := by
      rw [funext (laid.isClosureOf func)]
      obtain same | ⟨unbound, bound, -⟩ := laid.vars id name
      · rw [same]
      · rw [unbound, bound]
        rfl
    simp only [same]
    split
    · exact laid
    · obtain ⟨sameId, made⟩ := laid.newClosure func normal known
      rw [sameId]
      exact made.declare id name _

end

theorem scopes_declareFunc (s : Store) (id : ScopeId) (f : Func) :
    (s.declareFunc id f).scopes.size = s.scopes.size :=
  declareFunc_cases (·.scopes.size = s.scopes.size) rfl fun _ _ _ => scopes_declare_size _ _ _ _

theorem hoist {body : List Stmt} (laid : s.Laid options use awaited base s')
    (normal : ∀ s ∈ body, s.Normal use (Func.Normal use)) (known : id.index < s.scopes.size) :
    (s.hoist id body).Laid options use awaited base
      (s'.hoist id (Stmt.transformList (attachingLayouts options) () body)) := by
  unfold Store.hoist
  rw [Stmt.declaredList_transform fun _ => rfl]
  have code := Stmt.Normal.declaredList normal
  revert code
  generalize Stmt.declaredList body = fs
  intro code
  induction fs generalizing s s' with
  | nil => exact laid
  | cons f rest ih =>
    rw [List.forall_mem_cons] at code
    refine ih (laid.declareFunc (Func.laid_transform f) code.1 known) ?_ code.2
    rw [scopes_declareFunc]
    exact known

/-- The parameters are the only locals that are bound when a call begins. -/
theorem local?_declareAll {bindings : List (String × Value)} (s : Store) (id : ScopeId)
    (fresh : ∀ value, (name, value) ∉ bindings) : (s.declareAll id bindings).local? id name =
    s.local? id name := by
  refine List.foldlRecOn (motive := fun t : Store => t.local? id name = s.local? id name) _ _ rfl
    fun t same (other, value) mem => ?_
  have differs : name ≠ other := by
    rintro rfl
    exact fresh value mem
  rw [local?_declare, if_neg fun both => differs both.2]
  exact same

section

variable (laid : s.Laid options use awaited base s')

include laid

/-- The scope of a call.  With a layout it has the locals that are awaited. -/
theorem enterScope {f f' : Func} (func : f.Laid options f') (normal : f.Normal use) {env : ScopeId}
    (known : env.index < s.scopes.size) (args : List Value)
    (awaits : ∀ name ∈ f.layoutNames options, awaited ⟨s.scopes.size⟩ name) :
    (s'.enterScope f' env args).1 = (s.enterScope f env args).1 ∧
      (s.enterScope f env args).2.Laid options use awaited (s.newScope (some env)).2
        (s'.enterScope f' env args).2 := by
  obtain ⟨noFrame, body⟩ : f.frame = none ∧ ∀ s ∈ f.body, s.Normal use (Func.Normal use) := by
    cases normal with
    | intro frame _ _ body => exact ⟨frame, body⟩
  have sameId : (s'.newScope (some env)).1 = ⟨s.scopes.size⟩ := congrArg ScopeId.mk laid.scopes
  refine ⟨sameId, ?_⟩
  let params := f.params.zipIdx.map fun param => (param.1, args.getD param.2 .undefined)
  let missing := f'.layoutLocals.filter fun name => !f.params.contains name
  have plain : (s.enterScope f env args).2 =
      ((s.newScope (some env)).2.declareAll ⟨s.scopes.size⟩ params).hoist
      ⟨s.scopes.size⟩ f.body := by
    unfold Store.enterScope
    rw [noFrame]
    rfl
  have laidOut : (s'.enterScope f' env args).2 =
      (((s'.newScope (some env)).2.declareAll ⟨s.scopes.size⟩ params).declareAll ⟨s.scopes.size⟩
        (missing.map (·, .undefined))).hoist ⟨s.scopes.size⟩
        (Stmt.transformList (attachingLayouts options) () f.body) := by
    unfold Store.enterScope
    rw [func.params, func.body]
    simp only [sameId]
    rfl
  have made := (laid.newScope known).rebase.declareAll ⟨s.scopes.size⟩ params
  have inner : (⟨s.scopes.size⟩ : ScopeId) ≠ globals := by
    intro same
    have none : s.scopes.size = 0 := congrArg ScopeId.index same
    omega
  have unbound : ∀ name ∈ missing,
      ((s.newScope (some env)).2.declareAll ⟨s.scopes.size⟩ params).local? ⟨s.scopes.size⟩ name =
      none := by
    intro name mem
    have fresh : ∀ value, (name, value) ∉ params := by
      intro value mem'
      obtain ⟨⟨param, i⟩, indexed, same⟩ := List.mem_map.mp mem'
      obtain ⟨rfl, rfl⟩ := Prod.mk.inj same
      have isParam : param ∈ f.params :=
        List.mem_of_getElem? (List.mem_zipIdx_iff_getElem?.mp indexed)
      have notParam := (List.mem_filter.mp mem).2
      simp [isParam] at notParam
    rw [local?_declareAll _ _ fresh, local?, scope_newScope, if_pos rfl]
    rfl
  have known' : s.scopes.size <
      ((s.newScope (some env)).2.declareAll ⟨s.scopes.size⟩ params).scopes.size := by
    refine Nat.lt_of_lt_of_le ?_ made.grows.size
    rw [Store.newScope, Array.size_push]
    exact Nat.lt_succ_self _
  rw [plain, laidOut]
  refine (made.awaitAll inner (fun name mem => awaits name ?_) unbound).hoist body known'
  exact func.locals name (List.mem_filter.mp mem).1

/-! ## Values -/

theorem withObjects (f : Array Object → Array Object) :
    ({ s with objects := f s.objects } : Store).Laid options use awaited base
      { s' with objects := f s'.objects } :=
  { laid with
    grows := { laid.grows with }, rooted := { laid.rooted with }
    objects := congrArg f laid.objects }

theorem withArrays (f : Array (Array Value) → Array (Array Value)) :
    ({ s with arrays := f s.arrays } : Store).Laid options use awaited base
      { s' with arrays := f s'.arrays } :=
  { laid with
    grows := { laid.grows with }, rooted := { laid.rooted with }
    arrays := congrArg f laid.arrays }

theorem alike : s.Alike s' where
  objects := laid.objects
  arrays := laid.arrays
  names id := by rw [Func.displayName, (laid.code id).func.name, Func.displayName]
  prototypes id := (laid.code id).prototype

end

end Store.Laid

end Resumable
