import Resumable.Proofs.Chronicle

/-!
Operations on values.

Operators, accesses to properties and elements and most natives only look at values, change objects
and arrays, and throw.  `Eval.Mirrors` are the rules for a relation between two computations that do
these few things side by side.  A relation that obeys them relates each of the operations to itself,
on stores whose values look the same and with texts of values that may be cut off at two depths.
-/

namespace Resumable

/-! ## Stores whose values look the same -/

/-- The same objects and arrays, and closures that nobody can tell apart by looking at them. -/
structure Store.Alike (s s' : Store) : Prop where
  objects : s'.objects = s.objects
  arrays : s'.arrays = s.arrays
  names : ∀ id, (s'.closure id).func.displayName = (s.closure id).func.displayName
  prototypes : ∀ id, (s'.closure id).prototype = (s.closure id).prototype

namespace Store.Alike

variable {s s' : Store}

section

variable (alike : s.Alike s')

include alike

theorem object (id : ObjectId) : s'.object id = s.object id := by
  rw [Store.object, alike.objects]
  rfl

theorem property? (name : String) (steps : Nat) (id : ObjectId) :
    s'.property? name steps id = s.property? name steps id := by
  induction steps generalizing id with
  | zero => rfl
  | succ steps ih => simp only [Store.property?, alike.object, ih]

theorem getProperty? (id : ObjectId) (name : String) : s'.getProperty? id name =
    s.getProperty? id name := by
  rw [Store.getProperty?, alike.property?, alike.objects]
  rfl

theorem hasPrototype (proto : ObjectId) (steps : Nat) (id : ObjectId) :
    s'.hasPrototype proto steps id = s.hasPrototype proto steps id := by
  induction steps generalizing id with
  | zero => rfl
  | succ steps ih => simp only [Store.hasPrototype, alike.object, ih]

theorem isInstance (id : ObjectId) (closure : ClosureId) :
    s'.isInstance id (s'.closure closure) = s.isInstance id (s.closure closure) := by
  rw [Store.isInstance, alike.hasPrototype, alike.objects, alike.prototypes]
  rfl

theorem items (id : ArrayId) : s'.items id = s.items id := by
  rw [Store.items, alike.arrays]
  rfl

theorem closureProperty (id : ClosureId) (name : String) :
    Eval.closureProperty (s'.closure id) name = Eval.closureProperty (s.closure id) name := by
  unfold Eval.closureProperty
  rw [alike.prototypes, alike.names]

theorem display (depth : Nat) (value : Value) : s'.display depth value = s.display depth value := by
  induction depth generalizing value with
  | zero => rfl
  | succ depth ih =>
    cases value with
    | array id => simp only [Store.display, alike.items, ih]
    | object id => simp only [Store.display, alike.object, ih]
    | closure id => simp only [Store.display, alike.names]
    | _ => rfl

end

end Store.Alike

/-! ## Rules -/

/-- A relation between computations that do the same to objects and arrays. -/
structure Eval.Mirrors (sim : {α : Type} → Eval α → Eval α → Prop) (depth depth' : Nat) : Prop where
  pure {α : Type} (a : α) : sim (Pure.pure a : Eval α) (Pure.pure a)
  bind {α β : Type} {x y : Eval α} {f g : α → Eval β} : sim x y → (∀ a, sim (f a) (g a)) →
    sim (x >>= f) (y >>= g)
  throw {α : Type} (value : Value) : sim (Run.throw value : Eval α) (Run.throw value)
  display (value : Value) : sim (Eval.display depth value) (Eval.display depth' value)
  read {α : Type} {f : Machine → α} : (∀ m m', m.store.Alike m'.store → f m' = f m) →
    sim (Run.read f) (Run.read f)
  makeObject {object : Object} : object.proto = none → sim (Eval.makeObject object)
    (Eval.makeObject object)
  makeInstance (closure : ClosureId) : sim (Eval.makeInstance closure) (Eval.makeInstance closure)
  makeArray (items : List Value) : sim (Eval.makeArray items) (Eval.makeArray items)
  setProperty (id : ObjectId) (name : String) (value : Value) :
    sim (Eval.modifyStore fun store => store.setProperty id name value)
      (Eval.modifyStore fun store => store.setProperty id name value)
  modifyItems (id : ArrayId) (f : Array Value → Array Value) :
    sim (Eval.modifyStore fun store => store.modifyItems id f) (Eval.modifyStore fun store =>
      store.modifyItems id f)

namespace Eval.Mirrors

variable {sim : {α : Type} → Eval α → Eval α → Prop} {depth depth' : Nat}
  (mirrors : Eval.Mirrors sim depth depth')

include mirrors

theorem raise {α : Type} (e : GuestError) : sim (Eval.raise e : Eval α) (Eval.raise e) :=
  mirrors.throw _

/-- An error whose message shows a value. -/
theorem complain {α : Type} (value : Value) (e : String → GuestError) :
    sim (Eval.display depth value >>= fun shown => (Eval.raise (e shown) : Eval α))
      (Eval.display depth' value >>= fun shown => Eval.raise (e shown)) :=
  mirrors.bind (mirrors.display value) fun _ => mirrors.raise _

theorem items {α : Type} (id : ArrayId) (f : Array Value → α) :
    sim (Run.read fun m => f (m.store.items id)) (Run.read fun m => f (m.store.items id)) :=
  mirrors.read fun _ _ alike => congrArg f (alike.items id)

/-! ## Operators -/

theorem add (left right : Value) : sim (Eval.add depth left right)
    (Eval.add depth' left right) := by
  unfold Eval.add
  split
  · exact mirrors.bind (mirrors.display _) fun _ => mirrors.pure _
  · exact mirrors.bind (mirrors.display _) fun _ => mirrors.pure _
  · exact mirrors.pure _

theorem instanceOf (value constructor : Value) :
    sim (Eval.instanceOf depth value constructor) (Eval.instanceOf depth' value constructor) := by
  unfold Eval.instanceOf
  split
  · exact mirrors.pure _
  · rename_i closure
    split
    · rename_i id
      exact mirrors.read fun _ _ alike => alike.isInstance id closure
    · exact mirrors.pure _
  · exact mirrors.complain _ _

theorem binary (op : BinaryOp) (left right : Value) :
    sim (Eval.binary depth op left right) (Eval.binary depth' op left right) := by
  cases op with
  | add => exact mirrors.add left right
  | instanceOf => exact mirrors.bind (mirrors.instanceOf left right) fun _ => mirrors.pure _
  | _ => exact mirrors.pure _

/-! ## Properties and elements -/

theorem getProperty (base : Value) (name : String) :
    sim (Eval.getProperty depth base name) (Eval.getProperty depth' base name) := by
  cases base with
  | object id =>
    exact mirrors.read fun _ _ alike => congrArg (·.getD .undefined) (alike.getProperty? id name)
  | array id => exact mirrors.items id (arrayProperty · name)
  | closure id => exact mirrors.read fun _ _ alike => alike.closureProperty id name
  | undefined => exact mirrors.complain _ _
  | null => exact mirrors.complain _ _
  | _ => exact mirrors.pure _

theorem giveProperty (base : Value) (name : String) (value : Value) :
    sim (Eval.setProperty depth base name value) (Eval.setProperty depth' base name value) := by
  cases base with
  | object id => exact mirrors.setProperty id name value
  | _ => exact mirrors.complain _ _

theorem getIndex (base key : Value) : sim (Eval.getIndex depth base key)
    (Eval.getIndex depth' base key) := by
  unfold Eval.getIndex
  split
  · rename_i id i _
    exact mirrors.items id (·.getD i .undefined)
  · exact mirrors.pure _
  · exact mirrors.bind (mirrors.display key) fun name => mirrors.getProperty _ name

theorem setIndex (base key value : Value) :
    sim (Eval.setIndex depth base key value) (Eval.setIndex depth' base key value) := by
  unfold Eval.setIndex
  split
  · rename_i id i _
    refine mirrors.bind (mirrors.items id Array.size) fun length => ?_
    have stored := mirrors.modifyItems id fun items => storeItem items i value
    split
    · exact mirrors.bind (mirrors.display key) fun _ => mirrors.bind (mirrors.raise _)
        fun _ => stored
    · exact stored
  · exact mirrors.bind (mirrors.display key) fun name => mirrors.giveProperty _ name value

/-! ## Natives -/

theorem displayList (values : List Value) :
    sim (Eval.displayList depth values) (Eval.displayList depth' values) := by
  have shown : sim (values.mapM (Eval.display depth)) (values.mapM (Eval.display depth')) := by
    induction values with
    | nil => exact mirrors.pure []
    | cons value rest ih =>
      rw [List.mapM_cons, List.mapM_cons]
      exact mirrors.bind (mirrors.display value) fun _ => mirrors.bind ih fun _ => mirrors.pure _
  exact mirrors.bind shown fun _ => mirrors.pure _

variable {p q : Action → Eval Value} {native : Native} (this : Value) (args : List Value)

/-- The natives that only look at values and make new ones. -/
theorem callNative (plain : native ∉ [.print, .captureCC, .callCC, .abortCC]) :
    sim (Eval.callNative ⟨depth, p⟩ native this args)
    (Eval.callNative ⟨depth', q⟩ native this args) := by
  cases native with
  | object => exact mirrors.makeObject rfl
  | array => exact mirrors.makeArray args
  | error =>
    cases args with
    | nil => exact mirrors.pure _
    | cons value rest => exact mirrors.bind (mirrors.display value) fun _ => mirrors.pure _
  | push =>
    cases this with
    | array id =>
      exact mirrors.bind (mirrors.modifyItems id _) fun _ =>
        mirrors.items id fun items => Value.num (Float.ofNat items.size)
    | _ => exact mirrors.raise _
  | pop =>
    cases this with
    | array id =>
      exact mirrors.bind (mirrors.items id Array.back?) fun _ =>
        mirrors.bind (mirrors.modifyItems id _) fun _ => mirrors.pure _
    | _ => exact mirrors.raise _
  | _ => simp at plain

/-- The natives that leave the call in progress alone, for a relation that is kept by printing. -/
theorem callPlain (print : ∀ line, sim (Run.modify (·.print line)) (Run.modify (·.print line)))
    (quiet : native ∉ [.captureCC, .callCC, .abortCC]) :
    sim (Eval.callNative ⟨depth, p⟩ native this args)
    (Eval.callNative ⟨depth', q⟩ native this args) := by
  by_cases prints : native = .print
  · subst prints
    exact mirrors.bind (mirrors.displayList args) fun line => mirrors.bind (print line) fun _ =>
      mirrors.pure _
  · exact mirrors.callNative this args (by simpa [prints] using quiet)

end Eval.Mirrors

end Resumable
