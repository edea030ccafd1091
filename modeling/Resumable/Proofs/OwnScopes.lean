import Resumable.Proofs.Locals
import Resumable.Proofs.Provenance
import Resumable.Proofs.Scopes
import Resumable.Proofs.Telling

/-!
Scopes that belong to calls.

The scope of a call binds the parameters of the function and the locals of its layout from the
beginning, and never any name that is not the function's own.  The call itself binds no others, and
nothing else binds a name in the scope of a call: an assignment changes bindings that are there, or
makes global ones.

`Store.Retained` relates an earlier store to a later one by what is left alone in between, and
`Activation.InScope` is what an activation can rely on.  A function is entered with an activation
that is in scope, and all that it tells is told by one.
-/

namespace Resumable

variable {f : Func} {bindings : List (String × Value)}

/-! ## Stores -/

/-- The later store has the scopes and the bindings of the earlier one, and in the scopes of calls
no name that they did not bind.  Its closures are those of the earlier one with others of the class
added. -/
structure Store.Retained (code : Func → Prop) (base s : Store) : Prop extends base.Grows s,
    base.Calm code s where
  names : ∀ id name, id.index < base.scopes.size → id ≠ Store.globals → base.local? id name = none →
    s.local? id name = none

/-- The scope binds no other names. -/
def Store.BindsOnly (s : Store) (id : ScopeId) (own : String → Prop) : Prop :=
  ∀ name, s.local? id name ≠ none → own name

/-- The scope is not among those of calls that were there before. -/
def ScopeId.Outside (base : Store) (id : ScopeId) : Prop :=
  base.scopes.size ≤ id.index ∨ id = Store.globals

namespace Store

variable {code : Func → Prop} {base s t : Store} {id : ScopeId} {name : String}
  {own : String → Prop}

theorem Retained.refl (s : Store) : s.Retained code s :=
  { Grows.refl s, Calm.refl s with names := fun _ _ _ _ unbound => unbound }

theorem Retained.trans (first : base.Retained code s) (second : s.Retained code t) :
    base.Retained code t where
  toGrows := first.toGrows.trans second.toGrows
  toCalm := first.toCalm.trans second.toCalm
  names id name known notGlobal unbound :=
    second.names id name (Nat.lt_of_lt_of_le known first.size) notGlobal
      (first.names id name known notGlobal unbound)

/-- Where there were no scopes before, there is nothing to retain. -/
theorem Retained.of_scopes (scopes : base.scopes = #[]) (calm : base.Calm code s) :
    base.Retained code s where
  size := by
    rw [scopes]
    exact Nat.zero_le _
  parents id known := by
    rw [scopes] at known
    cases known
  bound id name _ := by
    rw [local?, scope, scopes]
    rfl
  names id name known := by
    rw [scopes] at known
    cases known
  toCalm := calm

section

variable (retained : base.Retained code s)

include retained

/-- Objects and arrays do not matter. -/
theorem Retained.of_contents (objects : Array Object) (arrays : Array (Array Value)) :
    base.Retained code { s with objects, arrays } :=
  { retained with }

/-- A name is bound in a scope that is new or global, or that binds it already. -/
theorem Retained.declare (may : id.Outside base ∨ s.local? id name ≠ none) (value : Value) :
    base.Retained code (s.declare id name value) where
  toGrows := retained.toGrows.declare id name value
  names other otherName known notGlobal unbound := by
    have absent := retained.names other otherName known notGlobal unbound
    rw [local?_declare]
    split
    · rename_i same
      have sameId : other = id := congrArg ScopeId.mk same.1.1
      subst sameId
      rw [same.2] at absent
      rcases may with (isNew | isGlobal) | bound
      · exact absurd known (Nat.not_lt.mpr isNew)
      · exact absurd isGlobal notGlobal
      · exact absurd absent bound
    · exact absent
  toCalm := retained.toCalm.trans (declare_calm s id name value)

theorem Retained.declareAll (outside : id.Outside base) (bindings : List (String × Value)) :
    base.Retained code (s.declareAll id bindings) :=
  List.foldlRecOn _ _ retained fun _ retained binding _ => retained.declare (.inl outside) binding.2

/-- An assignment finds the name bound, or makes it global. -/
theorem Retained.assign (id : ScopeId) (name : String) (value : Value) :
    base.Retained code (s.assign id name value) := by
  unfold Store.assign
  cases found : s.resolve? id name with
  | none => exact retained.declare (.inl (.inr rfl)) value
  | some scope =>
    obtain ⟨old, bound⟩ := local?_of_bindingScope? found
    exact retained.declare (.inr (bound ▸ nofun)) value

theorem Retained.newScope (parent : Option ScopeId) : base.Retained code (s.newScope parent).2 where
  toGrows := retained.toGrows.newScope parent
  names id name known notGlobal unbound := by
    rw [local?, scope_newScope, if_neg (Nat.ne_of_lt (Nat.lt_of_lt_of_le known retained.size))]
    exact retained.names id name known notGlobal unbound
  toCalm := retained.toCalm.trans (.of_eq rfl rfl)

theorem Retained.newClosure (ofCode : code f) (env : ScopeId) :
    base.Retained code (s.newClosure f env).2 where
  size := retained.size
  parents := retained.parents
  bound := retained.bound
  names := retained.names
  toCalm := retained.toCalm.trans (newClosure_calm s ofCode env)

theorem Retained.declareFunc (outside : id.Outside base) (ofCode : code f) :
    base.Retained code (s.declareFunc id f) :=
  declareFunc_cases (base.Retained code) retained fun _ _ _ =>
    (retained.newClosure ofCode id).declare (.inl outside) _

theorem Retained.hoist (outside : id.Outside base) {body : List Stmt}
    (ofCode : ∀ f ∈ Stmt.listFunctions body, code f) : base.Retained code (s.hoist id body) := by
  have declaredCode : ∀ f ∈ Stmt.declaredList body, code f :=
    fun f mem => ofCode f (Stmt.declaredList_in body f mem).1
  exact List.foldlRecOn _ _ retained fun _ retained f mem => retained.declareFunc outside
    (declaredCode f mem)

end

/-! ## The names of a scope -/

section

variable (only : s.BindsOnly id own) (other : ScopeId)

include only other

theorem BindsOnly.declare (owned : own name) (value : Value) :
    (s.declare other name value).BindsOnly id own := by
  intro otherName bound
  rw [local?_declare] at bound
  split at bound
  · rename_i same
    rw [same.2]
    exact owned
  · exact only otherName bound

theorem BindsOnly.declareAll (owned : ∀ binding ∈ bindings, own binding.1) :
    (s.declareAll other bindings).BindsOnly id own :=
  List.foldlRecOn (motive := (BindsOnly · id own)) _ _ only fun _ only binding mem =>
    only.declare other (owned binding mem) binding.2

theorem BindsOnly.declareFunc (owned : ∀ name ∈ f.name, own name) :
    (s.declareFunc other f).BindsOnly id own := by
  have made : (s.newClosure f other).2.BindsOnly id own := only
  exact declareFunc_cases (BindsOnly · id own) only fun name named _ =>
    made.declare other (owned name named) _

theorem BindsOnly.hoist {body : List Stmt} (owned : ∀ name ∈ Stmt.listBinds body, own name) :
    (s.hoist other body).BindsOnly id own := by
  have named : ∀ f ∈ Stmt.declaredList body, ∀ name ∈ f.name, own name :=
    fun f mem name isName => owned name ((Stmt.declaredList_in body f mem).2 name isName)
  exact List.foldlRecOn (motive := (BindsOnly · id own)) _ _ only fun _ only f mem =>
    only.declareFunc other (named f mem)

end

/-- All names of a list are bound. -/
theorem bound_declareAll (known : id.index < s.scopes.size) (mem : name ∈ bindings.map Prod.fst) :
    (s.declareAll id bindings).local? id name ≠ none := by
  induction bindings generalizing s with
  | nil => cases mem
  | cons binding rest ih =>
    have known' : id.index < (s.declare id binding.1 binding.2).scopes.size := by
      rw [scopes_declare_size]
      exact known
    by_cases later : name ∈ rest.map Prod.fst
    · exact ih known' later
    · have same : name = binding.1 := (List.mem_cons.mp mem).resolve_right later
      intro unbound
      have grows := (Grows.refl (s.declare id binding.1 binding.2)).declareAll id rest
      have absent := grows.bound id name unbound
      rw [local?_declare, if_pos ⟨⟨rfl, known⟩, same⟩] at absent
      cases absent

end Store

/-! ## Activations -/

/-- The name is one that a call of the function may bind. -/
def Func.Owns (f : Func) (name : String) : Prop :=
  name ∈ f.params ∨ name ∈ f.layoutLocals ∨ name = resultLocal

/-- All functions that are written in the function are of the class. -/
def Func.Around (code : Func → Prop) (f : Func) : Prop :=
  ∀ g ∈ Stmt.listFunctions f.body, code g

/-- The class has all functions inside of its functions, and these bind only names of their own. -/
structure Func.Nests (code : Func → Prop) : Prop where
  inner : ∀ f, code f → f.Around code
  owns : ∀ f, code f → ∀ name ∈ Stmt.listBinds f.body, f.Owns name

/-- The activation of a closure has a scope of its own, inside of the one that the closure was made
in. -/
structure Activation.OwnScope (code : Func → Prop) (act : Activation) (closure : ClosureId)
    (s : Store) : Prop where
  code : code act.func
  known : closure.index < s.closures.size
  func : (s.closure closure).func = act.func
  exists_ : act.scope.index < s.scopes.size
  notGlobal : act.scope ≠ Store.globals
  parent : (s.scope act.scope).parent = some (s.closure closure).env
  bound : ∀ name, name ∈ act.func.params ∨ name ∈ act.func.layoutLocals →
    s.local? act.scope name ≠ none
  only : s.BindsOnly act.scope act.func.Owns

/-- The activation is that of a closure, or of a top level, whose scope is the global one. -/
structure Activation.InScope (code : Func → Prop) (act : Activation) (s : Store) : Prop where
  around : act.func.Around code
  global : act.callee = none → act.scope = Store.globals
  ownScope : ∀ closure ∈ act.callee, act.OwnScope code closure s

namespace Activation

variable {code : Func → Prop} {act : Activation} {closure : ClosureId} {base s : Store}
  {name : String}

theorem OwnScope.later (ownScope : act.OwnScope code closure base)
    (retained : base.Retained code s) : act.OwnScope code closure s where
  code := ownScope.code
  known := Nat.lt_of_lt_of_le ownScope.known retained.size_le
  func := by
    rw [retained.closure_eq ownScope.known]
    exact ownScope.func
  exists_ := Nat.lt_of_lt_of_le ownScope.exists_ retained.size
  notGlobal := ownScope.notGlobal
  parent := by
    rw [retained.parents _ ownScope.exists_, retained.closure_eq ownScope.known]
    exact ownScope.parent
  bound name mem unbound := ownScope.bound name mem (retained.bound _ name unbound)
  only name bound := ownScope.only name fun unbound =>
    bound (retained.names _ name ownScope.exists_ ownScope.notGlobal unbound)

/-- The call binds a name of its own. -/
theorem OwnScope.declare (ownScope : act.OwnScope code closure s) (owned : act.func.Owns name)
    (value : Value) : act.OwnScope code closure (s.declare act.scope name value) where
  code := ownScope.code
  known := ownScope.known
  func := ownScope.func
  exists_ := by
    rw [Store.scopes_declare_size]
    exact ownScope.exists_
  notGlobal := ownScope.notGlobal
  parent := by
    rw [Store.parent_declare]
    exact ownScope.parent
  bound other mem unbound := by
    have grows := (Store.Grows.refl s).declare act.scope name value
    exact ownScope.bound other mem (grows.bound _ other unbound)
  only := ownScope.only.declare act.scope owned value

theorem InScope.later (inScope : act.InScope code base) (retained : base.Retained code s) :
    act.InScope code s where
  around := inScope.around
  global := inScope.global
  ownScope closure mem := (inScope.ownScope closure mem).later retained

section

variable (inScope : act.InScope code s)

include inScope

theorem InScope.declare (owned : act.callee ≠ none → act.func.Owns name) (value : Value) :
    act.InScope code (s.declare act.scope name value) where
  around := inScope.around
  global := inScope.global
  ownScope closure mem := (inScope.ownScope closure mem).declare (owned fun none => by
    rw [none] at mem; cases mem) value

theorem InScope.declareAll (owned : ∀ binding ∈ bindings, act.func.Owns binding.1) :
    act.InScope code (s.declareAll act.scope bindings) :=
  List.foldlRecOn _ _ inScope fun _ inScope binding mem => inScope.declare (fun _ =>
    owned binding mem) binding.2

theorem InScope.declareFunc (ofCode : code f) (owned : act.callee ≠ none → ∀ name ∈ f.name,
    act.func.Owns name) : act.InScope code (s.declareFunc act.scope f) := by
  have made := inScope.later ((Store.Retained.refl s).newClosure ofCode act.scope)
  exact Store.declareFunc_cases (act.InScope code) inScope fun name named _ =>
    made.declare (fun called => owned called name named) _

/-- A call may bind whatever its body binds. -/
theorem InScope.owns (nests : Func.Nests code) (called : act.callee ≠ none)
    (bound : name ∈ Stmt.listBinds act.func.body) : act.func.Owns name := by
  cases callee : act.callee with
  | none => exact absurd callee called
  | some closure => exact nests.owns _ (inScope.ownScope closure callee).code name bound

end

end Activation

namespace Store

variable {s : Store} {id : ScopeId}

theorem enterScope_retained {code : Func → Prop} (s : Store) (around : f.Around code)
    (env : ScopeId) (args : List Value) : s.Retained code (s.enterScope f env args).2 := by
  have isNew : ScopeId.Outside s ⟨s.scopes.size⟩ := .inl (Nat.le_refl _)
  exact ((((Retained.refl s).newScope _).declareAll isNew _).declareAll isNew _).hoist isNew around

/-- A call has a new scope, inside of the one that its closure was made in. -/
theorem enterScope_parent (s : Store) (f : Func) (env : ScopeId) (args : List Value) :
    s.scopes.size < (s.enterScope f env args).2.scopes.size ∧
      ((s.enterScope f env args).2.scope ⟨s.scopes.size⟩).parent = some env := by
  have isOpen : s.scopes.size < (s.newScope (some env)).2.scopes.size := by
    show s.scopes.size < (s.scopes.push _).size
    rw [Array.size_push]
    exact Nat.lt_succ_self _
  have grows : (s.newScope (some env)).2.Grows (s.enterScope f env args).2 :=
    (((Grows.refl _).declareAll _ _).declareAll _ _).hoist _ _
  refine ⟨Nat.lt_of_lt_of_le isOpen grows.size, ?_⟩
  rw [grows.parents ⟨s.scopes.size⟩ isOpen, scope_newScope, if_pos rfl]

theorem params_names (params : List String) (args : List Value) :
    (params.zipIdx.map fun (param, i) => (param, args.getD i .undefined)).map Prod.fst =
    params := by
  rw [List.map_map]
  exact List.zipIdx_map_fst 0 params

/-- The parameters and the locals of the layout are bound when a call begins. -/
theorem enterScope_bound (s : Store) (f : Func) (env : ScopeId) (args : List Value) {name : String}
    (mem : name ∈ f.params ∨ name ∈ f.layoutLocals) :
    (s.enterScope f env args).2.local? ⟨s.scopes.size⟩ name ≠ none := by
  let id : ScopeId := ⟨s.scopes.size⟩
  let opened := (s.newScope (some env)).2
  let given := opened.declareAll id (f.params.zipIdx.map fun (param, i) =>
    (param, args.getD i .undefined))
  let missing := (f.layoutLocals.filter fun name => !f.params.contains name).map
    (·, Value.undefined)
  have isOpen : id.index < opened.scopes.size := by
    show s.scopes.size < (s.scopes.push _).size
    rw [Array.size_push]
    exact Nat.lt_succ_self _
  have grows : given.Grows (given.declareAll id missing) := (Grows.refl given).declareAll id missing
  have hoisted : (given.declareAll id missing).Grows (s.enterScope f env args).2 :=
    (Grows.refl _).hoist id f.body
  intro unbound
  replace unbound : (given.declareAll id missing).local? id name = none :=
    hoisted.bound id name unbound
  by_cases isParam : name ∈ f.params
  · exact bound_declareAll isOpen ((params_names f.params args).symm ▸ isParam)
      (grows.bound id name unbound)
  · have listed : name ∈ missing.map Prod.fst := by simpa [missing, isParam] using mem
    have opens : opened.Grows given := (Grows.refl opened).declareAll id _
    have isGiven := Nat.lt_of_lt_of_le isOpen opens.size
    exact bound_declareAll isGiven listed unbound

/-- When a call begins its scope binds only names of the function. -/
theorem enterScope_bindsOnly (s : Store) (owns : ∀ name ∈ Stmt.listBinds f.body, f.Owns name)
    (env : ScopeId) (args : List Value) : (s.enterScope f env args).2.BindsOnly
    ⟨s.scopes.size⟩ f.Owns := by
  have empty : (s.newScope (some env)).2.BindsOnly ⟨s.scopes.size⟩ f.Owns := by
    refine fun name bound => absurd ?_ bound
    rw [local?, scope_newScope, if_pos rfl]
    rfl
  have given : ((s.newScope (some env)).2.declareAll ⟨s.scopes.size⟩ (f.params.zipIdx.map
      fun (param, i) => (param, args.getD i .undefined))).BindsOnly ⟨s.scopes.size⟩ f.Owns := by
    refine empty.declareAll _ fun binding mem => .inl ?_
    rw [← params_names f.params args]
    exact List.mem_map_of_mem mem
  refine (given.declareAll _ fun binding mem => .inr (.inl ?_)).hoist _ owns
  obtain ⟨name, listed, rfl⟩ := List.mem_map.mp mem
  exact List.mem_of_mem_filter listed

/-- The scope of a call of a closure. -/
theorem enterScope_ownScope {code : Func → Prop} (nests : Func.Nests code)
    (rooted : 0 < s.scopes.size) {closure : ClosureId} (known : closure.index < s.closures.size)
    {act : Activation}
    (func : (s.closure closure).func = act.func) (coded : code act.func) (args : List Value)
    (scope : act.scope = ⟨s.scopes.size⟩) :
    act.OwnScope code closure (s.enterScope act.func (s.closure closure).env args).2 := by
  have retained := s.enterScope_retained (nests.inner _ coded) (s.closure closure).env args
  obtain ⟨exists_, parent⟩ := s.enterScope_parent act.func (s.closure closure).env args
  exact {
    code := coded
    known := Nat.lt_of_lt_of_le known retained.size_le
    func := by
      rw [retained.closure_eq known]
      exact func
    exists_ := by
      rw [scope]
      exact exists_
    notGlobal := by
      rw [scope]
      exact fun same => absurd (congrArg ScopeId.index same) (Nat.ne_of_gt rooted)
    parent := by
      rw [scope, retained.closure_eq known]
      exact parent
    bound := fun name mem => by
      rw [scope]
      exact s.enterScope_bound act.func _ args mem
    only := by
      rw [scope]
      exact s.enterScope_bindsOnly (nests.owns _ coded) _ args }

end Store

/-! ## Statements that a run can come to -/

mutual

/-- The statement returns, in whatever mode it runs. -/
def Stmt.returns : Stmt → Bool
  | .returnS _ => true
  | .block body => Stmt.listReturns body
  | _ => false

def Stmt.listReturns : List Stmt → Bool
  | [] => false
  | s :: rest => s.returns || Stmt.listReturns rest

end

/-- The statement is in the list, and none that is before it returns. -/
inductive Stmt.Met (s : Stmt) : List Stmt → Prop
  | head {rest : List Stmt} : Stmt.Met s (s :: rest)
  | tail {other : Stmt} {rest : List Stmt} : other.returns = false → Stmt.Met s rest →
      Stmt.Met s (other :: rest)

/-- A run of the body can come to the statement. -/
inductive Stmt.Reached (body : List Stmt) : Stmt → Prop
  | outer {s : Stmt} : s.Met body → Stmt.Reached body s
  | block {inner : List Stmt} {s : Stmt} : Stmt.Reached body (.block inner) → s.Met inner →
      Stmt.Reached body s
  | thenS {test : Expr} {s : Stmt} {elseS : Option Stmt} :
      Stmt.Reached body (.ifS test s elseS) → Stmt.Reached body s
  | elseS {test : Expr} {thenS s : Stmt} : Stmt.Reached body (.ifS test thenS (some s)) →
      Stmt.Reached body s
  | loop {test : Expr} {s : Stmt} : Stmt.Reached body (.whileS test s) → Stmt.Reached body s
  | labeled {label : String} {s : Stmt} : Stmt.Reached body (.labeled label s) → Stmt.Reached body s
  | tried {s : Stmt} {handler : Option Handler} {final : Option Stmt} :
      Stmt.Reached body (.tryS s handler final) → Stmt.Reached body s
  | handler {tried s : Stmt} {param : String} {final : Option Stmt} :
      Stmt.Reached body (.tryS tried (some ⟨param, s⟩) final) → Stmt.Reached body s
  | final {tried s : Stmt} {handler : Option Handler} :
      Stmt.Reached body (.tryS tried handler (some s)) → Stmt.Reached body s
  | recorded {label : Nat} {s : Stmt} : Stmt.Reached body (.recordOnCapture label s) →
      Stmt.Reached body s
  | shadowed {label : Nat} {s : Stmt} : Stmt.Reached body (.shadowFrame label s) →
      Stmt.Reached body s

namespace Stmt

variable {body : List Stmt} {s : Stmt} {g : Engine} {l l' : Local}

mutual

/-- What returns does not end normally. -/
theorem exec_of_returns : (s : Stmt) → s.returns = true → ∀ l l', s.exec g l ≠ .ok .normal l'
  | .returnS value, _, l, l' => fun ended => by
    rw [exec] at ended
    replace ended : Run.bind _ _ l = _ := ended
    unfold Run.bind at ended
    split at ended <;> cases ended
  | .block body, returns, l, l' => by
    rw [exec]
    exact execList_of_returns body returns l l'

theorem execList_of_returns : (body : List Stmt) → listReturns body = true →
    ∀ l l', execList g body l ≠ .ok .normal l'
  | s :: rest, returns, l, l' => fun ended => by
    rw [execList] at ended
    replace ended : Run.bind _ _ l = _ := ended
    unfold Run.bind at ended
    cases first : s.exec g l with
    | ok completion l₁ =>
      rw [first] at ended
      cases completion with
      | normal =>
        rcases Bool.or_eq_true_iff.mp returns with here | later
        · exact exec_of_returns s here l l₁ first
        · exact execList_of_returns rest later l₁ l' ended
      | _ => cases ended
    | unwind reason l₁ =>
      rw [first] at ended
      cases ended
    | cutOff =>
      rw [first] at ended
      cases ended

end

theorem Met.functions (met : s.Met body) : s.functions ⊆ listFunctions body := by
  induction met with
  | head => exact List.subset_append_left _ _
  | tail _ _ ih => exact List.subset_append_of_subset_right _ ih

theorem Met.binds (met : s.Met body) : s.binds ⊆ listBinds body := by
  induction met with
  | head => exact List.subset_append_left _ _
  | tail _ _ ih => exact List.subset_append_of_subset_right _ ih

theorem Reached.functions (reached : Reached body s) : s.functions ⊆ listFunctions body := by
  induction reached with
  | outer met => exact met.functions
  | block _ met ih => exact fun f mem => ih (met.functions mem)
  | thenS _ ih | elseS _ ih | tried _ ih | handler _ ih | final _ ih =>
    refine fun f mem => ih ?_
    simp [Stmt.functions, Stmt.optionFunctions, Handler.optionFunctions, mem]
  | loop _ ih => exact fun f mem => ih (List.mem_append_right _ mem)
  | labeled _ ih | recorded _ ih | shadowed _ ih => exact ih

theorem Reached.binds (reached : Reached body s) : s.binds ⊆ listBinds body := by
  induction reached with
  | outer met => exact met.binds
  | block _ met ih => exact fun f mem => ih (met.binds mem)
  | thenS _ ih | elseS _ ih | tried _ ih | handler _ ih | final _ ih =>
    refine fun f mem => ih ?_
    simp [Stmt.binds, Stmt.optionBinds, Handler.optionBinds, mem]
  | loop _ ih | labeled _ ih | recorded _ ih | shadowed _ ih => exact ih

/-- The parameter of a handler is a name that the body binds. -/
theorem Reached.handlerParam {tried handler : Stmt} {param : String} {final : Option Stmt}
    (reached : Stmt.Reached body (.tryS tried (some ⟨param, handler⟩) final)) :
    param ∈ Stmt.listBinds body :=
  reached.binds (by simp [Stmt.binds, Handler.optionBinds])

end Stmt

/-! ## Machines -/

/-- All closures are of the class, and there are global bindings. -/
structure Store.Stocks (code : Func → Prop) (s : Store) : Prop where
  closures : ∀ c ∈ s.closures, code c.func
  rooted : 0 < s.scopes.size

/-- All code of the machine is of the class, and what is in an earlier store is retained. -/
structure Machine.Retains (strategy : Strategy) (options : RunOptions) (code : Func → Prop)
    (base : Store) (m : Machine) : Prop where
  hosts : m.Hosts strategy options (Func.Around code)
  stocks : m.store.Stocks code
  retained : base.Retained code m.store

/-- An activation and its machine, where the activation is one of the function. -/
structure Local.InScope (strategy : Strategy) (options : RunOptions) (code : Func → Prop)
    (base : Store) (f : Func) (l : Local) : Prop where
  machine : l.machine.Retains strategy options code base
  act : l.act.InScope code l.machine.store
  func : l.act.func = f
  outside : l.act.scope.Outside base
  caught : ∀ signal ∈ l.act.caught, signal.OfCode (Func.Around code)

/-- Statements and expressions begin in activations that are in scope, where a run of the function
can come to. -/
def Event.InScope (strategy : Strategy) (options : RunOptions) (code : Func → Prop) : Event → Prop
  | .stmt s l => l.InScope strategy options code { l.machine.store with scopes := #[] } l.act.func ∧
      Stmt.Reached l.act.func.body s
  | .expr e act m =>
    act.InScope code m.store ∧ m.Retains strategy options code m.store ∧ ∀ f ∈ e.functions, code f
  | _ => True

/-- All that is told is told by activations that are in scope, and what is in the earlier store is
retained. -/
abbrev Observed.Retains (strategy : Strategy) (options : RunOptions) (code : Func → Prop)
    (base : Store) (x : Observed Machine α) (m : Machine) : Prop :=
  x.Tells (Event.InScope strategy options code) m (fun _ m' =>
    m'.Retains strategy options code base) (fun reason m' => m'.Retains strategy options code base ∧
    reason.OfCode (Func.Around code))

/-- Actions retain what is in earlier stores. -/
def Observer.Retains (strategy : Strategy) (options : RunOptions) (code : Func → Prop)
    (w : Observer) : Prop :=
  ∀ context action base m, m.Retains strategy options code base → action.OfCode (Func.Around code) →
    (w.perform context action).Retains strategy options code base m

section Machines

variable {strategy : Strategy} {options : RunOptions} {code : Func → Prop} {base : Store}
  {m m' : Machine}

section

variable (retains : m.Retains strategy options code base)

include retains

theorem Machine.Retains.of_grown (nests : Func.Nests code) {store : Store}
    (grows : m.store.Grows store) (calm : m.store.Calm code store)
    (retained : base.Retained code store) :
    { m with store }.Retains strategy options code base where
  hosts :=
    { retains.hosts with
      closures := fun c mem => nests.inner _ (calm.closures_code retains.stocks.closures c mem)
      continuations := fun stack mem => retains.hosts.continuations stack
        (calm.continuations ▸ mem) }
  stocks := ⟨calm.closures_code retains.stocks.closures, Nat.lt_of_lt_of_le retains.stocks.rooted
    grows.size⟩
  retained := retained

theorem Machine.Retains.of_store (nests : Func.Nests code) {store : Store}
    (retained : m.store.Retained code store) : { m with store }.Retains strategy options
    code base :=
  retains.of_grown nests retained.toGrows retained.toCalm (retains.retained.trans retained)

/-- What is there now is retained from now on. -/
theorem Machine.Retains.here : m.Retains strategy options code m.store :=
  { retains with retained := .refl _ }

theorem Machine.Retains.since (later : m'.Retains strategy options code m.store) :
    m'.Retains strategy options code base :=
  { later with retained := retains.retained.trans later.retained }

/-- Without scopes there is nothing to retain. -/
theorem Machine.Retains.unscoped : m.Retains strategy options code { m.store with scopes := #[] } :=
  { retains with retained := .of_scopes rfl (.of_eq rfl rfl) }

theorem Machine.Retains.of_hosts (store : m'.store = m.store)
    (hosts : m'.Hosts strategy options (Func.Around code)) :
    m'.Retains strategy options code base where
  hosts := hosts
  stocks := store ▸ retains.stocks
  retained := store ▸ retains.retained

end

theorem Machine.install_store {stack : Stack} : (m.install stack).store = m.store := by
  unfold Machine.install Machine.segment
  cases m.options.stackSize <;> rfl

/-- An operation that leaves scopes, closures and continuations alone. -/
theorem Eval.Still.retains {x : Eval α} (still : Eval.Still x)
    (retains : m.Retains strategy options code base) (nests : Func.Nests code) :
    (Observed.lift x).Retains strategy options code base m := by
  have kept : ∀ {m'}, m.Alike m' → m'.Retains strategy options code base := by
    rintro _ ⟨objects, arrays, rfl, _⟩
    exact retains.of_store nests ((Store.Retained.refl _).of_contents objects arrays)
  refine .lift ?_
  have ends := still m
  cases ending : x m with
  | ok a m' =>
    rw [ending] at ends
    exact kept ends
  | unwind reason m' =>
    rw [ending] at ends
    obtain ⟨alike, value, rfl⟩ := ends
    exact ⟨kept alike, trivial⟩
  | cutOff => trivial

end Machines

end Resumable
