import Resumable.Proofs.Links
import Resumable.Proofs.Lockstep
import Resumable.Proofs.Twin

/-!
Stores of two machines that run code of a pair.

The stores are the same but for the code of closures, which stands for one another, and for the
local that only the second code uses.  `Store.Twin` is kept by every operation that changes a store,
and what the operations find in two such stores is the same.
-/

namespace Resumable

/-! ## Stores of a pair -/

/-- Closures whose code stands for one another. -/
structure Closure.Twin (sites : Sites) (c c' : Closure) : Prop where
  func : c.func.Twin sites c'.func
  env : c'.env = c.env
  prototype : c'.prototype = c.prototype

/-- Stores that are the same but for code and the local of returned calls.  There are at least
`floor` scopes. -/
structure Store.Twin (sites : Sites) (floor : Nat) (s s' : Store) : Prop where
  floor : floor ≤ s.scopes.size
  scopes : s'.scopes.size = s.scopes.size
  parents : ∀ id, (s'.scope id).parent = (s.scope id).parent
  vars : ∀ id name, name ≠ tailResult → s'.local? id name = s.local? id name
  objects : s'.objects = s.objects
  arrays : s'.arrays = s.arrays
  closures : s'.closures.size = s.closures.size
  code : ∀ id, (s.closure id).Twin sites (s'.closure id)

namespace Store.Twin

variable {sites : Sites} {floor lower : Nat} {s s' : Store} {id : ScopeId} {name : String}
  {value : Value}

theorem weaken (twin : s.Twin sites floor s') (le : lower ≤ floor) : s.Twin sites lower s' :=
  { twin with floor := Nat.le_trans le twin.floor }

/-! ## Names -/

section

variable (twin : s.Twin sites floor s')

include twin

theorem bindingScope? (own : name ≠ tailResult) (steps : Nat) (id : ScopeId) :
    s'.bindingScope? name steps id = s.bindingScope? name steps id := by
  induction steps generalizing id with
  | zero => rfl
  | succ steps ih =>
    have same : (s'.scope id).vars.contains name = (s.scope id).vars.contains name :=
      congrArg Option.isSome (twin.vars id name own)
    simp only [Store.bindingScope?, same, twin.parents, ih]

theorem resolve? (own : name ≠ tailResult) (id : ScopeId) :
    s'.resolve? id name = s.resolve? id name := by
  rw [Store.resolve?, twin.scopes, twin.bindingScope? own]
  rfl

theorem lookup? (own : name ≠ tailResult) (id : ScopeId) :
    s'.lookup? id name = s.lookup? id name := by
  unfold Store.lookup?
  rw [twin.resolve? own]
  cases s.resolve? id name with
  | none => rfl
  | some scope => exact twin.vars scope name own

theorem declare (id : ScopeId) (name : String) (value : Value) :
    (s.declare id name value).Twin sites floor (s'.declare id name value) where
  floor := by
    rw [scopes_declare_size]
    exact twin.floor
  scopes := by rw [scopes_declare_size, scopes_declare_size, twin.scopes]
  parents other := by rw [parent_declare, parent_declare, twin.parents]
  vars other otherName own := by
    rw [local?_declare, local?_declare, twin.scopes, twin.vars other otherName own]
  objects := twin.objects
  arrays := twin.arrays
  closures := twin.closures
  code := twin.code

/-- The second store alone may bind the local of returned calls. -/
theorem declareTail (id : ScopeId) (value : Value) :
    s.Twin sites floor (s'.declare id tailResult value) where
  floor := twin.floor
  scopes := by rw [scopes_declare_size, twin.scopes]
  parents other := by rw [parent_declare, twin.parents]
  vars other otherName own := by
    rw [local?_declare, if_neg fun both => own both.2, twin.vars other otherName own]
  objects := twin.objects
  arrays := twin.arrays
  closures := twin.closures
  code := twin.code

theorem declareAll (id : ScopeId) (bindings : List (String × Value)) :
    (s.declareAll id bindings).Twin sites floor (s'.declareAll id bindings) := by
  induction bindings generalizing s s' with
  | nil => exact twin
  | cons binding rest ih => exact ih (twin.declare id binding.1 binding.2)

theorem assign (id : ScopeId) (own : name ≠ tailResult) (value : Value) :
    (s.assign id name value).Twin sites floor (s'.assign id name value) := by
  rw [Store.assign, Store.assign, twin.resolve? own]
  exact twin.declare _ name value

end

/-! ## New scopes -/

section

variable (twin : s.Twin sites floor s')

include twin

theorem newScope (parent : Option ScopeId) : (s'.newScope parent).1 = (s.newScope parent).1 ∧
      (s.newScope parent).2.Twin sites (s.scopes.size + 1) (s'.newScope parent).2 := by
  refine ⟨congrArg ScopeId.mk twin.scopes, ?_⟩
  constructor
  · exact Nat.le_of_eq (Array.size_push _).symm
  · rw [Store.newScope, Store.newScope, Array.size_push, Array.size_push, twin.scopes]
  · intro id
    rw [scope_newScope, scope_newScope, twin.scopes]
    split
    · rfl
    · exact twin.parents id
  · intro id name own
    rw [local?, local?, scope_newScope, scope_newScope, twin.scopes]
    split
    · rfl
    · exact twin.vars id name own
  · exact twin.objects
  · exact twin.arrays
  · exact twin.closures
  · exact twin.code

/-! ## Objects and arrays -/

theorem withObjects (f : Array Object → Array Object) :
    ({ s with objects := f s.objects } : Store).Twin sites floor
    { s' with objects := f s'.objects } :=
  { twin with objects := congrArg f twin.objects }

theorem withArrays (f : Array (Array Value) → Array (Array Value)) :
    ({ s with arrays := f s.arrays } : Store).Twin sites floor { s' with arrays := f s'.arrays } :=
  { twin with arrays := congrArg f twin.arrays }

/-! ## Closures -/

theorem newClosure {f f' : Func} (func : f.Twin sites f') (env : ScopeId) :
    (s'.newClosure f' env).1 = (s.newClosure f env).1 ∧
      (s.newClosure f env).2.Twin sites floor (s'.newClosure f' env).2 := by
  refine ⟨congrArg ClosureId.mk twin.closures, ?_⟩
  constructor
  · exact twin.floor
  · exact twin.scopes
  · exact twin.parents
  · exact twin.vars
  · exact congrArg (·.push {}) twin.objects
  · exact twin.arrays
  · rw [Store.newClosure, Store.newClosure, Array.size_push, Array.size_push]
    exact congrArg (· + 1) twin.closures
  · intro id
    rw [closure_newClosure, closure_newClosure, twin.closures, twin.objects]
    split
    · exact ⟨func, rfl, rfl⟩
    · exact twin.code id

end

section

variable (oneToOne : sites.OneToOne) (twin : s.Twin sites floor s')

include oneToOne twin

theorem isClosureOf {f f' : Func} (func : f.Twin sites f') (value : Value) :
    s'.isClosureOf f' value = s.isClosureOf f value := by
  cases value with
  | closure id =>
    cases func with
    | intro _ _ _ _ site _ =>
      cases (twin.code id).func with
      | intro _ _ _ _ otherSite _ =>
        simp only [Store.isClosureOf, ← oneToOne otherSite site]
  | _ => rfl

/-- Bind a declared function. -/
theorem declareFunc {f f' : Func} (func : f.Twin sites f') (scope : ScopeId) :
    (s.declareFunc scope f).Twin sites floor (s'.declareFunc scope f') := by
  have same := twin.isClosureOf oneToOne func
  obtain ⟨sameName, own⟩ : f'.name = f.name ∧ tailResult ∉ f.name.toList ++ f.params := by
    cases func with
    | intro name _ _ own _ _ => exact ⟨name, own⟩
  unfold Store.declareFunc
  rw [sameName]
  cases named : f.name with
  | none => exact twin
  | some name =>
    have ownName : name ≠ tailResult := by
      rintro rfl
      exact own (List.mem_append_left _ (by rw [named]; exact List.mem_singleton.mpr rfl))
    simp only [twin.vars scope name ownName, funext same]
    split
    · exact twin
    · obtain ⟨sameId, made⟩ := twin.newClosure func scope
      rw [sameId]
      exact made.declare scope name _

theorem hoistAll {fs fs' : List Func} (funcs : List.Forall₂ (Func.Twin sites) fs fs')
    (scope : ScopeId) : (fs.foldl (fun s f => s.declareFunc scope f) s).Twin sites floor
      (fs'.foldl (fun s f => s.declareFunc scope f) s') := by
  induction funcs generalizing s s' with
  | nil => exact twin
  | cons func _ ih => exact ih (twin.declareFunc oneToOne func scope)

theorem hoist {body body' : List Stmt} (twins : Stmt.Twins sites body body') (scope : ScopeId) :
    (s.hoist scope body).Twin sites floor (s'.hoist scope body') :=
  twin.hoistAll oneToOne twins.declared scope

/-- The scope of a call. -/
theorem enterScope {f f' : Func} (func : f.Twin sites f') (env : ScopeId) (args : List Value) :
    (s'.enterScope f' env args).1 = (s.enterScope f env args).1 ∧
      (s.enterScope f env args).2.Twin sites (s.scopes.size + 1) (s'.enterScope f' env args).2 := by
  cases func with
  | intro _ sameParams sameLocals _ _ body =>
    obtain ⟨sameId, made⟩ := twin.newScope (some env)
    refine ⟨sameId, ?_⟩
    have sameLayout : (f'.frame.map (·.locals)).getD [] = (f.frame.map (·.locals)).getD [] :=
      sameLocals
    unfold Store.enterScope
    simp only [sameId, sameParams, sameLayout]
    exact ((made.declareAll _ _).declareAll _ _).hoist oneToOne body _

end

/-! ## Values -/

theorem alike (twin : s.Twin sites floor s') : s.Alike s' where
  objects := twin.objects
  arrays := twin.arrays
  names id := by
    cases (twin.code id).func with
    | intro same _ _ _ _ _ => rw [Func.displayName, same, Func.displayName]
  prototypes id := (twin.code id).prototype

end Store.Twin

end Resumable
