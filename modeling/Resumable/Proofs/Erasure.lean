import Resumable.Instrument.SafePoint
import Resumable.Machine.Host
import Resumable.Proofs.Links
import Resumable.Proofs.Operations

/-!
Erasure of safe points.

`SafePoint.erasing` deletes the safe points of a program and makes blocks of the bodies of its
loops, or does only one of the two.  States have code in them, in closures and in frames, so there
is a state without safe points for every state.

`Run.RefinesBy` says that a computation and the one on the state without safe points end alike,
unless one of them is cut off.  It has one rule for each combinator.  The bounds of the two differ,
since a safe point takes one action: which of them may be cut off where the other is not is a part
of the `Comparison`, so that one proof gives both directions.
-/

namespace Resumable

/-! ## Code -/

namespace SafePoint

/-- The statement is a safe point. -/
def isPoint : Stmt → Bool
  | .expr .suspend => true
  | _ => false

/-- Statements, without the safe points among them if they are deleted. -/
def clear (deletes : Bool) (body : List Stmt) : List Stmt :=
  body.filter fun s => !(deletes && isPoint s)

/-- The statement as a block. -/
def asBlock : Stmt → Stmt
  | .block body => .block body
  | s => .block [s]

/-- Deletes safe points from blocks and functions, and makes blocks of the bodies of loops, or only
one of the two. -/
def erasing (deletes wraps : Bool) : Transform Unit where
  stmt _
    | .block body => .block (clear deletes body)
    | .whileS test body => .whileS test (bif wraps then asBlock body else body)
    | s => s
  func _ f := { f with body := clear deletes f.body }

end SafePoint

open SafePoint

/-- What is erased. -/
structure Erasure where
  deletes : Bool
  wraps : Bool

/-- How a run is compared with one without safe points. -/
structure Comparison extends Erasure where
  /-- The run with safe points may be cut off where the other is not, and not the other way round.
  -/
  early : Bool

instance : Coe Comparison Erasure :=
  ⟨Comparison.toErasure⟩

variable {k : Erasure}

abbrev Erasure.code (k : Erasure) : Transform Unit :=
  erasing k.deletes k.wraps

abbrev Expr.bare (k : Erasure) (e : Expr) : Expr :=
  e.transform k.code ()

abbrev Stmt.bare (k : Erasure) (s : Stmt) : Stmt :=
  s.transform k.code ()

abbrev Func.bare (k : Erasure) (f : Func) : Func :=
  f.transform k.code ()

/-! ## States -/

mutual

def Action.bare (k : Erasure) : Action → Action
  | .enterTop top => .enterTop (top.bare k)
  | .sequence actions => .sequence (Action.bareList k actions)
  | action => action

def Action.bareList (k : Erasure) : List Action → List Action
  | [] => []
  | action :: rest => action.bare k :: Action.bareList k rest

end

def CallFrame.bare (k : Erasure) (frame : CallFrame) : CallFrame :=
  { frame with resume := frame.resume.bare k }

def Frame.bare (k : Erasure) : Frame → Frame
  | .top action => .top (action.bare k)
  | .call frame => .call (frame.bare k)

def Stack.bare (k : Erasure) (stack : Stack) : Stack :=
  ⟨stack.frames.map (Frame.bare k)⟩

def CaptureHandler.bare (k : Erasure) : CaptureHandler → CaptureHandler
  | .reenter action => .reenter (action.bare k)
  | handler => handler

def Signal.bare (k : Erasure) : Signal → Signal
  | .capture handler stack => .capture (handler.bare k) (stack.bare k)
  | .restore stack => .restore (stack.bare k)
  | .discard replacement => .discard replacement

def Unwind.bare (k : Erasure) : Unwind → Unwind
  | .signal inner => .signal (inner.bare k)
  | reason => reason

def Closure.bare (k : Erasure) (closure : Closure) : Closure :=
  { closure with func := closure.func.bare k }

def Store.bare (k : Erasure) (s : Store) : Store :=
  { s with
    closures := s.closures.map (Closure.bare k)
    continuations := s.continuations.map (Stack.bare k) }

mutual

def Task.bare (k : Erasure) : Task → Task
  | .resume stack => .resume (stack.bare k)
  | .host lines queued => .host lines (Task.bareList k queued)

def Task.bareList (k : Erasure) : List Task → List Task
  | [] => []
  | task :: rest => task.bare k :: Task.bareList k rest

end

def Machine.bare (k : Erasure) (m : Machine) : Machine :=
  { m with
    stack := m.stack.bare k
    shadow := m.shadow.bare k
    pending := m.pending.bare k
    pendingHandler := m.pendingHandler.map (CaptureHandler.bare k)
    store := m.store.bare k
    tasks := m.tasks.map (Task.bare k) }

def Activation.bare (k : Erasure) (act : Activation) : Activation :=
  { act with func := act.func.bare k, caught := act.caught.map (Signal.bare k) }

/-- Safe points that are deleted have no effect on the machine. -/
def Machine.Calm (k : Erasure) (m : Machine) : Prop :=
  k.deletes = true → m.yieldInterval = none

/-! ## Computations -/

/-- States that have code. -/
class Erasable (σ : Type) where
  machine : σ → Machine
  bare : Erasure → σ → σ

open Erasable

instance : Erasable Machine :=
  ⟨id, Machine.bare⟩

instance : Erasable Local :=
  ⟨Local.machine, fun k l => ⟨l.act.bare k, l.machine.bare k⟩⟩

/-- The second end is the first without safe points, unless the computation that may be cut off is.
-/
inductive Ending.RefinesBy [Erasable σ] (k : Comparison) (g : α → β) : Ending σ α →
    Ending σ β → Prop
  | ok {a : α} {s : σ} : (machine s).Calm k → Ending.RefinesBy k g (.ok a s) (.ok (g a) (bare k s))
  | unwind {reason : Unwind} {s : σ} : (machine s).Calm k →
      Ending.RefinesBy k g (.unwind reason s) (.unwind (reason.bare k) (bare k s))
  | first {e : Ending σ β} : k.early = true → Ending.RefinesBy k g .cutOff e
  | second {e : Ending σ α} : k.early = false → Ending.RefinesBy k g e .cutOff

def Run.RefinesBy [Erasable σ] (k : Comparison) (g : α → β) (x : Run σ α) (y : Run σ β) : Prop :=
  ∀ s, (machine s).Calm k → (x s).RefinesBy k g (y (bare k s))

abbrev Run.Refines [Erasable σ] (k : Comparison) (x y : Run σ α) : Prop :=
  x.RefinesBy k id y

def Except.bare (k : Erasure) : Except Unwind α → Except Unwind α
  | .ok a => .ok a
  | .error reason => .error (reason.bare k)

namespace Run.RefinesBy

variable {k : Comparison} {σ α β γ δ : Type} [Erasable σ] {g : α → β} {h : γ → δ} {x : Run σ α}
  {y : Run σ β}

theorem pure (a : α) : (Pure.pure a : Run σ α).RefinesBy k g (Pure.pure (g a)) :=
  fun _ calm => .ok calm

theorem unwind (reason : Unwind) : (Run.unwind reason : Run σ α).RefinesBy k g
    (Run.unwind (reason.bare k)) :=
  fun _ calm => .unwind calm

theorem bind {f : α → Run σ γ} {f' : β → Run σ δ} (first : x.RefinesBy k g y)
    (second : ∀ a, (f a).RefinesBy k h (f' (g a))) : (x >>= f).RefinesBy k h (y >>= f') := by
  intro s calm
  have refines := first s calm
  show (Run.bind x f s).RefinesBy k h (Run.bind y f' (bare k s))
  unfold Run.bind
  generalize x s = e at refines
  generalize y (bare k s) = e' at refines
  cases refines with
  | ok calm => exact second _ _ calm
  | unwind calm => exact .unwind calm
  | first early => exact .first early
  | second late => exact .second late

theorem discard {x y : Run σ α} (refines : x.Refines k y) : (Functor.discard x).Refines k
    (Functor.discard y) :=
  refines.bind fun _ => .pure ()

theorem attempt {x y : Run σ α} (refines : x.Refines k y) :
    x.attempt.RefinesBy k (Except.bare k) y.attempt := by
  intro s calm
  have inner := refines s calm
  unfold Run.attempt
  generalize x s = e at inner
  generalize y (bare k s) = e' at inner
  cases inner with
  | ok calm => exact .ok calm
  | unwind calm => exact .ok calm
  | first early => exact .first early
  | second late => exact .second late

theorem settle (result : Except Unwind α) :
    (Run.settle result : Run σ α).Refines k (Run.settle (Except.bare k result)) := by
  cases result with
  | ok a => exact .pure a
  | error reason => exact .unwind reason

theorem read {f : σ → α} {f' : σ → β} (same : ∀ s, f' (bare k s) = g (f s)) :
    (Run.read f).RefinesBy k g (Run.read f') := by
  intro s calm
  unfold Run.read
  rw [same]
  exact .ok calm

theorem same {f f' : σ → α} (same : ∀ s, f' (bare k s) = f s) : (Run.read f).Refines k
    (Run.read f') :=
  .read same

theorem modify {f f' : σ → σ} (same : ∀ s, f' (bare k s) = bare k (f s) ∧
    (machine (f s)).yieldInterval = (machine s).yieldInterval) : (Run.modify f).Refines k
    (Run.modify f') := by
  intro s calm
  unfold Run.modify
  rw [(same s).1]
  exact .ok fun deletes => (same s).2.trans (calm deletes)

theorem ite {p : Prop} [Decidable p] {x x' : Run σ α} {y y' : Run σ β} (yes : x.RefinesBy k g y)
    (no : x'.RefinesBy k g y') : (if p then x else x').RefinesBy k g (if p then y else y') := by
  split
  · exact yes
  · exact no

/-- A check before what follows. -/
theorem check {p : Prop} [Decidable p] {reason : Fault} (refines : x.RefinesBy k g y) :
    (if p then Run.fault reason >>= fun (_ : Unit) => x else x).RefinesBy k g
      (if p then Run.fault reason >>= fun (_ : Unit) => y else y) :=
  .ite (.bind (g := id) (.unwind _) fun _ => refines) refines

end Run.RefinesBy

/-! ## Functions -/

theorem SafePoint.declaredList_clear (deletes : Bool) (body : List Stmt) :
    Stmt.declaredList (clear deletes body) = Stmt.declaredList body := by
  induction body with
  | nil => rfl
  | cons s rest ih =>
    rw [clear, List.filter_cons]
    split
    · exact congrArg (s.declared ++ ·) ih
    · rename_i point
      cases s with
      | expr e => exact ih
      | _ => simp [isPoint] at point

theorem SafePoint.erasing_declared (deletes wraps : Bool) (s : Stmt) :
    ((erasing deletes wraps).stmt () s).declared = s.declared := by
  cases s with
  | block body => exact declaredList_clear deletes body
  | whileS test body =>
    cases wraps with
    | false => rfl
    | true =>
      cases body with
      | block body => rfl
      | _ => exact List.append_nil _
  | _ => rfl

namespace Func

variable (f : Func)

theorem bare_eq : f.bare k = { f with body := clear k.deletes (Stmt.transformList k.code
    () f.body) } := by
  cases f
  rfl

theorem bare_params : (f.bare k).params = f.params := by
  rw [bare_eq]

theorem bare_frame : (f.bare k).frame = f.frame := by
  rw [bare_eq]

theorem bare_displayName : (f.bare k).displayName = f.displayName := by
  rw [displayName, bare_eq]
  rfl

theorem bare_declared : Stmt.declaredList (f.bare k).body = (Stmt.declaredList f.body).map
    (bare k) := by
  rw [bare_eq, declaredList_clear]
  exact Stmt.declaredList_transform (erasing_declared _ _) f.body

end Func

/-! ## Stores -/

namespace Store

variable (s : Store)

theorem bare_bindingScope? (name : String) (steps : Nat) (id : ScopeId) :
    (s.bare k).bindingScope? name steps id = s.bindingScope? name steps id := by
  induction steps generalizing id with
  | zero => rfl
  | succ steps ih =>
    simp only [bindingScope?, ih]
    rfl

theorem bare_resolve? (id : ScopeId) (name : String) : (s.bare k).resolve? id name =
    s.resolve? id name :=
  s.bare_bindingScope? name s.scopes.size id

theorem bare_lookup? (id : ScopeId) (name : String) : (s.bare k).lookup? id name =
    s.lookup? id name := by
  rw [lookup?, bare_resolve?]
  rfl

theorem bare_closure (id : ClosureId) : (s.bare k).closure id = (s.closure id).bare k := by
  simp only [closure, bare, Array.getD_eq_getD_getElem?, Array.getElem?_map]
  cases s.closures[id.index]? <;> rfl

theorem bare_continuation (id : ContinuationId) : (s.bare k).continuation id =
    (s.continuation id).bare k := by
  simp only [continuation, bare, Array.getD_eq_getD_getElem?, Array.getElem?_map]
  cases s.continuations[id.index]? <;> rfl

theorem bare_alike : s.Alike (s.bare k) where
  objects := rfl
  arrays := rfl
  names id := by
    rw [bare_closure]
    exact Func.bare_displayName _
  prototypes id := by
    rw [bare_closure]
    rfl

theorem bare_newClosure (f : Func) (env : ScopeId) :
    (s.bare k).newClosure (f.bare k) env = ((s.newClosure f env).1,
      (s.newClosure f env).2.bare k) := by
  simp only [newClosure, newObject, bare, Array.map_push, Array.size_map]
  rfl

theorem bare_declareAll (id : ScopeId) (bindings : List (String × Value)) :
    (s.bare k).declareAll id bindings = (s.declareAll id bindings).bare k :=
  List.foldl_hom (bare k) fun _ _ => rfl

theorem bare_isClosureOf (f : Func) : (s.bare k).isClosureOf (f.bare k) = s.isClosureOf f := by
  funext value
  cases value with
  | closure id => simp only [isClosureOf, bare_closure, Closure.bare, Func.bare_eq]
  | _ => rfl

theorem bare_declareFunc (id : ScopeId) (f : Func) :
    (s.bare k).declareFunc id (f.bare k) = (s.declareFunc id f).bare k := by
  unfold declareFunc
  rw [show (f.bare k).name = f.name by rw [Func.bare_eq]]
  cases f.name with
  | none => rfl
  | some name =>
    simp only [bare_isClosureOf, bare_newClosure]
    show (if ((s.local? id name).map (s.isClosureOf f)).getD false then _ else _) = _
    split <;> rfl

theorem bare_hoist (id : ScopeId) (f : Func) : (s.bare k).hoist id (f.bare k).body =
    (s.hoist id f.body).bare k := by
  rw [hoist, f.bare_declared, List.foldl_map]
  exact List.foldl_hom (bare k) fun s f => s.bare_declareFunc id f

theorem bare_enterScope (f : Func) (env : ScopeId) (args : List Value) :
    (s.bare k).enterScope (f.bare k) env args = ((s.enterScope f env args).1,
      (s.enterScope f env args).2.bare k) := by
  have fresh : (s.bare k).newScope (some env) = ((s.newScope (some env)).1,
    (s.newScope (some env)).2.bare k) := rfl
  simp only [enterScope, f.bare_params, f.bare_frame, fresh, bare_declareAll, bare_hoist]

end Store

/-! ## Bounds -/

variable {k : Comparison}

/-- The second of two bounds leaves room for what the first one lets happen, or the other way round,
and a safe point more. -/
def Comparison.Reaches (k : Comparison) (bound bound' : Nat) : Prop :=
  bif k.early then bound ≤ bound' else bound' + k.deletes.toNat ≤ bound

/-- Induction on both bounds: the one that may be too small is used up first. -/
@[elab_as_elim]
theorem Comparison.Reaches.induct {motive : Nat → Nat → Prop} {n n' : Nat}
    (reaches : k.Reaches n n') (first : k.early = true → ∀ n', motive 0 n')
    (second : k.early = false → ∀ n, motive n 0)
    (step : ∀ n n', k.Reaches n n' → motive n n' → motive (n + 1) (n' + 1)) : motive n n' := by
  unfold Reaches at *
  cases early : k.early with
  | true =>
    rw [early] at reaches step
    induction n generalizing n' with
    | zero => exact first early n'
    | succ n ih =>
      obtain ⟨n', rfl⟩ := Nat.exists_eq_add_of_le' (Nat.le_trans (Nat.le_add_left 1 n) reaches)
      have less := Nat.le_of_succ_le_succ reaches
      exact step n n' less (ih less)
  | false =>
    rw [early] at reaches step
    simp only [cond_false] at reaches step
    induction n' generalizing n with
    | zero => exact second early n
    | succ n' ih =>
      obtain ⟨n, rfl⟩ := Nat.exists_eq_add_of_le' (show 1 ≤ n by omega)
      have less : n' + k.deletes.toNat ≤ n := by omega
      exact step n n' less (ih less)

/-- What is found for all items is found by a function that finds more. -/
theorem mapM_eq_some_of_imp {β : Type} {f g : α → Option β} (more : ∀ a b, f a = some b →
    g a = some b) (items : List α) : ∀ results, items.mapM f = some results →
    items.mapM g = some results := by
  induction items with
  | nil => exact fun _ found => found
  | cons item rest ih =>
    intro results found
    rw [List.mapM_cons] at found ⊢
    obtain ⟨first, firstFound, found⟩ := Option.bind_eq_some_iff.mp found
    obtain ⟨others, othersFound, found⟩ := Option.bind_eq_some_iff.mp found
    exact Option.bind_eq_some_iff.mpr ⟨first, more item first firstFound,
      Option.bind_eq_some_iff.mpr ⟨others, ih others othersFound, found⟩⟩

theorem Store.display_of_le (s : Store) {value : Value} {text : String} {depth depth' : Nat}
    (le : depth ≤ depth') (shown : s.display depth value = some text) : s.display depth' value =
    some text := by
  induction depth generalizing depth' value text with
  | zero => cases shown
  | succ depth ih =>
    obtain ⟨depth', rfl⟩ := Nat.exists_eq_add_of_le' (Nat.le_trans (Nat.le_add_left 1 depth) le)
    have le := Nat.le_of_succ_le_succ le
    cases value with
    | array id =>
      rw [Store.display] at shown ⊢
      obtain ⟨texts, found, shown⟩ := Option.bind_eq_some_iff.mp shown
      refine Option.bind_eq_some_iff.mpr ⟨texts, mapM_eq_some_of_imp (fun item text found =>
        ?_) _ _ found, shown⟩
      split at found
      · exact found
      · exact ih le found
    | object id =>
      rw [Store.display] at shown ⊢
      obtain ⟨texts, found, shown⟩ := Option.bind_eq_some_iff.mp shown
      refine Option.bind_eq_some_iff.mpr ⟨texts, mapM_eq_some_of_imp (fun entry text found =>
        ?_) _ _ found, shown⟩
      obtain ⟨itemText, itemFound, found⟩ := Option.bind_eq_some_iff.mp found
      exact Option.bind_eq_some_iff.mpr ⟨itemText, ih le itemFound, found⟩
    | _ => exact shown

/-- The second engine runs code without safe points, and the first one passes safe points without
effect. -/
structure Engine.Refines (k : Comparison) (g g' : Engine) : Prop where
  bound : k.Reaches g.bound g'.bound
  perform : ∀ action, (g.perform action).Refines k (g'.perform (action.bare k))
  passes : k.deletes = true → (g.perform .safePoint).Refines k (pure .undefined)

/-- Something that is found within a bound. -/
theorem Comparison.Reaches.found {bound bound' : Nat} (reaches : k.Reaches bound bound')
    (find : Nat → Option α) (mono : ∀ {n n' a}, n ≤ n' → find n = some a → find n' = some a) :
    k.early = true ∧ find bound = none ∨ k.early = false ∧ find bound' = none ∨
      ∃ a, find bound = some a ∧ find bound' = some a := by
  obtain ⟨erasure, early⟩ := k
  unfold Reaches at reaches
  cases early with
  | true =>
    cases here : find bound with
    | none => exact .inl ⟨rfl, rfl⟩
    | some a => exact .inr (.inr ⟨a, rfl, mono reaches here⟩)
  | false =>
    cases there : find bound' with
    | none => exact .inr (.inl ⟨rfl, rfl⟩)
    | some a => exact .inr (.inr ⟨a, mono (Nat.le_of_add_right_le reaches) there, rfl⟩)

end Resumable
