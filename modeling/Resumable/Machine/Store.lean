import Resumable.Machine.Frame

/-!
The store: scopes, objects, arrays, closures and continuations, each referred to by its number.

A scope is made as a child of an older one, so that the way up from a scope ends after as many steps
as there are scopes; the same holds for an object and its prototypes.
-/

namespace Resumable

/-! ## Bindings -/

/-- Names with values, in the order of the names. -/
structure Bindings where
  entries : List (String × Value) := []
  deriving Inhabited

namespace Bindings

def get? (b : Bindings) (name : String) : Option Value :=
  b.entries.lookup name

def contains (b : Bindings) (name : String) : Bool :=
  (b.get? name).isSome

/-- A list of entries in order, with one more, which takes the place of an older one of that name.
-/
def insertEntry (name : String) (value : Value) : List (String × Value) → List (String × Value)
  | [] => [(name, value)]
  | (key, old) :: rest =>
    if name < key then (name, value) :: (key, old) :: rest
    else if key = name then (name, value) :: rest
    else (key, old) :: insertEntry name value rest

def insert (b : Bindings) (name : String) (value : Value) : Bindings :=
  ⟨insertEntry name value b.entries⟩

/-- The bindings of a list in which later entries win. -/
def ofList (entries : List (String × Value)) : Bindings :=
  entries.foldl (fun b (name, value) => b.insert name value) {}

end Bindings

/-! ## Contents of the store -/

/-- The bindings of an activation, or the global ones. -/
structure Scope where
  vars : Bindings := {}
  parent : Option ScopeId := none
  deriving Inhabited

structure Object where
  props : Bindings := {}
  proto : Option ObjectId := none
  deriving Inhabited

/-- A guest function with the scope it was made in. -/
structure Closure where
  func : Func
  env : ScopeId
  /-- The prototype of the objects that the closure constructs. -/
  prototype : ObjectId

instance : Inhabited Closure :=
  ⟨{ func := { body := [] }, env := ⟨0⟩, prototype := ⟨0⟩ }⟩

structure Store where
  scopes : Array Scope := #[]
  objects : Array Object := #[]
  arrays : Array (Array Value) := #[]
  closures : Array Closure := #[]
  continuations : Array Stack := #[]
  deriving Inhabited

namespace Store

/-! ## Scopes -/

/-- The scope that is made first. -/
def globals : ScopeId :=
  ⟨0⟩

def scope (s : Store) (id : ScopeId) : Scope :=
  s.scopes.getD id.index {}

/-- A new scope inside of `parent`. -/
def newScope (s : Store) (parent : Option ScopeId) : ScopeId × Store :=
  (⟨s.scopes.size⟩, { s with scopes := s.scopes.push { parent } })

/-- Bind a name in a scope. -/
def declare (s : Store) (id : ScopeId) (name : String) (value : Value) : Store :=
  { s with scopes := s.scopes.modify id.index fun scope =>
      { scope with vars := scope.vars.insert name value } }

/-- Bind names in a scope, one after the other. -/
def declareAll (s : Store) (id : ScopeId) (bindings : List (String × Value)) : Store :=
  bindings.foldl (fun s (name, value) => s.declare id name value) s

/-- The binding in this very scope. -/
def local? (s : Store) (id : ScopeId) (name : String) : Option Value :=
  (s.scope id).vars.get? name

/-- The binding in this very scope, undefined if there is none. -/
def localD (s : Store) (id : ScopeId) (name : String) : Value :=
  (s.local? id name).getD .undefined

/-- The nearest scope on the way up, in at most `steps` steps, that binds the name. -/
def bindingScope? (s : Store) (name : String) : Nat → ScopeId → Option ScopeId
  | 0, _ => none
  | steps + 1, id =>
    let scope := s.scope id
    if scope.vars.contains name then some id
    else match scope.parent with
      | some parent => s.bindingScope? name steps parent
      | none => none

/-- The scope whose binding a name means. -/
def resolve? (s : Store) (id : ScopeId) (name : String) : Option ScopeId :=
  s.bindingScope? name s.scopes.size id

/-- The value that a name has. -/
def lookup? (s : Store) (id : ScopeId) (name : String) : Option Value := do
  s.local? (← s.resolve? id name) name

/-- Give a new value to a name.  A name without a binding becomes global. -/
def assign (s : Store) (id : ScopeId) (name : String) (value : Value) : Store :=
  s.declare ((s.resolve? id name).getD globals) name value

/-! ## Objects and arrays -/

def object (s : Store) (id : ObjectId) : Object :=
  s.objects.getD id.index {}

def newObject (s : Store) (object : Object) : ObjectId × Store :=
  (⟨s.objects.size⟩, { s with objects := s.objects.push object })

/-- The property of an object or of one of its prototypes, in at most `steps` steps. -/
def property? (s : Store) (name : String) : Nat → ObjectId → Option Value
  | 0, _ => none
  | steps + 1, id =>
    let object := s.object id
    match object.props.get? name with
    | some value => some value
    | none => match object.proto with
      | some proto => s.property? name steps proto
      | none => none

/-- The property that an object has, by itself or by its prototypes. -/
def getProperty? (s : Store) (id : ObjectId) (name : String) : Option Value :=
  s.property? name s.objects.size id

def setProperty (s : Store) (id : ObjectId) (name : String) (value : Value) : Store :=
  { s with objects := s.objects.modify id.index fun object =>
      { object with props := object.props.insert name value } }

/-- One of the prototypes of an object is `proto`, within that many steps. -/
def hasPrototype (s : Store) (proto : ObjectId) : Nat → ObjectId → Bool
  | 0, _ => false
  | steps + 1, id => match (s.object id).proto with
    | some next => next = proto || s.hasPrototype proto steps next
    | none => false

/-- The closure's prototype is among the prototypes of the object. -/
def isInstance (s : Store) (id : ObjectId) (closure : Closure) : Bool :=
  s.hasPrototype closure.prototype s.objects.size id

def items (s : Store) (id : ArrayId) : Array Value :=
  s.arrays.getD id.index #[]

def newArray (s : Store) (items : Array Value) : ArrayId × Store :=
  (⟨s.arrays.size⟩, { s with arrays := s.arrays.push items })

def modifyItems (s : Store) (id : ArrayId) (f : Array Value → Array Value) : Store :=
  { s with arrays := s.arrays.modify id.index f }

/-! ## Closures and continuations -/

def closure (s : Store) (id : ClosureId) : Closure :=
  s.closures.getD id.index default

/-- A new closure, with an empty prototype of its own. -/
def newClosure (s : Store) (func : Func) (env : ScopeId) : ClosureId × Store :=
  let (prototype, s) := s.newObject {}
  (⟨s.closures.size⟩, { s with closures := s.closures.push { func, env, prototype } })

/-- The frames of a continuation. -/
def continuation (s : Store) (id : ContinuationId) : Stack :=
  s.continuations.getD id.index {}

def newContinuation (s : Store) (stack : Stack) : ContinuationId × Store :=
  (⟨s.continuations.size⟩, { s with continuations := s.continuations.push stack })

end Store

end Resumable
