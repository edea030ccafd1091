import Resumable.Proofs.Code
import Resumable.Proofs.Links
import Resumable.Proofs.Operations

/-!
Quiet computations.

A quiet computation stays in its activation: of the machine it changes only the store, to which it
may add closures with code of a given class, and it unwinds only by a guest exception.  The
evaluation of a quiet expression is of that kind, and so is that of an application up to the point
where it leaves the activation.
-/

namespace Resumable

variable {f : Func} {code : Func → Prop} {m m' : Machine} {e : Expr}

/-! ## Stores -/

/-- The store has the continuations of an older one, and its closures with others of the class
added. -/
structure Store.Calm (code : Func → Prop) (s s' : Store) : Prop where
  continuations : s'.continuations = s.continuations
  closures : ∃ added : Array Closure, s'.closures = s.closures ++ added ∧ ∀ c ∈ added, code c.func

namespace Store

variable {code : Func → Prop} {s s' s'' : Store}

theorem Calm.of_eq (continuations : s'.continuations = s.continuations)
    (closures : s'.closures = s.closures) : s.Calm code s' :=
  ⟨continuations, #[], by rw [closures, Array.append_empty], fun _ mem => by simp at mem⟩

theorem Calm.refl (s : Store) : s.Calm code s :=
  .of_eq rfl rfl

theorem Calm.trans (first : s.Calm code s') (second : s'.Calm code s'') : s.Calm code s'' := by
  obtain ⟨added, eq, ofCode⟩ := first.closures
  obtain ⟨added', eq', ofCode'⟩ := second.closures
  refine ⟨second.continuations.trans first.continuations, added ++ added', ?_, ?_⟩
  · rw [eq', eq, Array.append_assoc]
  · intro c mem
    rcases Array.mem_append.mp mem with mem | mem
    · exact ofCode c mem
    · exact ofCode' c mem

/-- A closure of the older store is still the same. -/
theorem Calm.closure_eq (calm : s.Calm code s') {id : ClosureId}
    (known : id.index < s.closures.size) : s'.closure id = s.closure id := by
  obtain ⟨added, eq, _⟩ := calm.closures
  simp only [closure, Array.getD_eq_getD_getElem?, eq, Array.getElem?_append_left known]

theorem Calm.size_le (calm : s.Calm code s') : s.closures.size ≤ s'.closures.size := by
  obtain ⟨added, eq, _⟩ := calm.closures
  simp [eq]

theorem Calm.closures_code (calm : s.Calm code s') (ofCode : ∀ c ∈ s.closures, code c.func) :
    ∀ c ∈ s'.closures, code c.func := by
  obtain ⟨added, eq, addedCode⟩ := calm.closures
  intro c mem
  rw [eq] at mem
  rcases Array.mem_append.mp mem with mem | mem
  · exact ofCode c mem
  · exact addedCode c mem

/-- A closure is of the class that all closures are of, or there is none and its code is empty. -/
theorem closure_cases (s : Store) (ofCode : ∀ c ∈ s.closures, code c.func) (id : ClosureId) :
    code (s.closure id).func ∧ id.index < s.closures.size ∨ (s.closure id).func.body = [] := by
  unfold closure
  by_cases inRange : id.index < s.closures.size
  · left
    rw [Array.getD_eq_getD_getElem?, Array.getElem?_eq_getElem inRange, Option.getD_some]
    exact ⟨ofCode _ (Array.getElem_mem inRange), inRange⟩
  · right
    rw [Array.getD_eq_getD_getElem?, Array.getElem?_eq_none (Nat.le_of_not_lt inRange)]
    rfl

theorem declare_calm (s : Store) (id : ScopeId) (name : String) (value : Value) :
    s.Calm code (s.declare id name value) :=
  .of_eq rfl rfl

theorem declareAll_calm (s : Store) (id : ScopeId) (bindings : List (String × Value)) :
    s.Calm code (s.declareAll id bindings) :=
  List.foldlRecOn _ _ (.refl s) fun _ calm binding _ =>
    calm.trans (declare_calm _ id binding.1 binding.2)

theorem assign_calm (s : Store) (id : ScopeId) (name : String) (value : Value) :
    s.Calm code (s.assign id name value) :=
  declare_calm s _ name value

theorem newClosure_calm (s : Store) (ofCode : code f) (env : ScopeId) :
    s.Calm code (s.newClosure f env).2 := by
  refine ⟨rfl, #[{ func := f, env, prototype := (s.newObject {}).1 }], ?_, ?_⟩
  · simp [newClosure, newObject]
  · intro c mem
    rw [Array.mem_singleton.mp mem]
    exact ofCode

theorem declareFunc_calm (s : Store) (scope : ScopeId) (ofCode : code f) :
    s.Calm code (s.declareFunc scope f) :=
  declareFunc_cases (s.Calm code) (.refl s) fun _ _ _ => (newClosure_calm s ofCode scope).trans
    (declare_calm _ _ _ _)

theorem hoist_calm (s : Store) (scope : ScopeId) {body : List Stmt}
    (ofCode : ∀ f ∈ Stmt.declaredList body, code f) : s.Calm code (s.hoist scope body) :=
  List.foldlRecOn _ _ (.refl s) fun _ calm f mem =>
    calm.trans (declareFunc_calm _ scope (ofCode f mem))

theorem enterScope_calm (s : Store) {func : Func} (env : ScopeId) (args : List Value)
    (ofCode : ∀ f ∈ Stmt.declaredList func.body, code f) :
    s.Calm code (s.enterScope func env args).2 := by
  have opened : s.Calm code (s.newScope (some env)).2 := .of_eq rfl rfl
  exact ((opened.trans (declareAll_calm _ _ _)).trans (declareAll_calm _ _ _)).trans
    (hoist_calm _ _ ofCode)

end Store

/-! ## Computations -/

/-- Only the store is another, and it is calm. -/
def Machine.Undisturbed (code : Func → Prop) (m m' : Machine) : Prop :=
  ∃ store, m' = { m with store } ∧ m.store.Calm code store

namespace Machine

variable {code : Func → Prop} {m m' m'' : Machine}

theorem Undisturbed.refl (m : Machine) : m.Undisturbed code m :=
  ⟨m.store, rfl, .refl _⟩

theorem Undisturbed.trans (first : m.Undisturbed code m') (second : m'.Undisturbed code m'') :
    m.Undisturbed code m'' := by
  obtain ⟨store, rfl, calm⟩ := first
  obtain ⟨store', rfl, calm'⟩ := second
  exact ⟨store', rfl, calm.trans calm'⟩

end Machine

/-- The computation ended with the machine undisturbed, and in no other way than a guest exception
if it has no result. -/
def Ending.Quietly (code : Func → Prop) (m : Machine) : Ending Machine α → Prop
  | .ok _ m' => m.Undisturbed code m'
  | .unwind reason m' => m.Undisturbed code m' ∧ ∃ value, reason = .throw value
  | .cutOff => True

theorem Ending.Quietly.after {ending : Ending Machine α} (rest : ending.Quietly code m')
    (first : m.Undisturbed code m') : ending.Quietly code m := by
  cases ending with
  | ok a m'' => exact first.trans rest
  | unwind reason m'' => exact ⟨first.trans rest.1, rest.2⟩
  | cutOff => trivial

/-- The computation ends quietly whatever machine it begins on. -/
def Eval.Quiet (code : Func → Prop) (x : Eval α) : Prop :=
  ∀ m, (x m).Quietly code m

namespace Eval

variable {code : Func → Prop}

theorem Quiet.pure (a : α) : Quiet code (Pure.pure a : Eval α) :=
  fun m => .refl m

theorem Quiet.read (f : Machine → α) : Quiet code (Run.read f) :=
  fun m => .refl m

theorem Quiet.bind {x : Eval α} {f : α → Eval β} (first : Quiet code x)
    (second : ∀ a, Quiet code (f a)) : Quiet code (x >>= f) := by
  intro m
  have quiet := first m
  show (Run.bind x f m).Quietly code m
  unfold Run.bind
  cases ending : x m with
  | ok a m' =>
    rw [ending] at quiet
    exact (second a m').after quiet
  | unwind reason m' =>
    rw [ending] at quiet
    exact quiet
  | cutOff => trivial

theorem Quiet.changeStore {f : Store → α × Store} (calm : ∀ s : Store, s.Calm code (f s).2) :
    Quiet code (changeStore f) :=
  fun m => ⟨(f m.store).2, rfl, calm m.store⟩

theorem Quiet.modifyStore {f : Store → Store} (calm : ∀ s : Store, s.Calm code (f s)) :
    Quiet code (modifyStore f) :=
  fun m => ⟨f m.store, rfl, calm m.store⟩

theorem makeClosure_quiet (act : Activation) (ofCode : code f) : Quiet code (makeClosure act f) :=
  .changeStore fun s => s.newClosure_calm ofCode act.scope

end Eval

/-! ## Operations -/

/-- Only the store is another, and of that only the objects and the arrays, with links that are as
good. -/
def Machine.Alike (m m' : Machine) : Prop :=
  ∃ objects arrays, m' = { m with store := { m.store with objects, arrays } } ∧
    (m.store.Linked → m'.store.Linked)

theorem Machine.Alike.refl (m : Machine) : m.Alike m :=
  ⟨m.store.objects, m.store.arrays, rfl, id⟩

theorem Machine.Alike.trans {m'' : Machine} (first : m.Alike m') (second : m'.Alike m'') :
    m.Alike m'' := by
  obtain ⟨_, _, rfl, linked⟩ := first
  obtain ⟨objects, arrays, rfl, linked'⟩ := second
  exact ⟨objects, arrays, rfl, linked' ∘ linked⟩

/-- Scopes, closures and continuations are left as they are, and there is no result only by a guest
exception. -/
def Ending.Still (m : Machine) : Ending Machine α → Prop
  | .ok _ m' => m.Alike m'
  | .unwind reason m' => m.Alike m' ∧ ∃ value, reason = .throw value
  | .cutOff => True

theorem Ending.Still.after {ending : Ending Machine α} (rest : ending.Still m')
    (first : m.Alike m') : ending.Still m := by
  cases ending with
  | ok a m'' => exact first.trans rest
  | unwind reason m'' => exact ⟨first.trans rest.1, rest.2⟩
  | cutOff => trivial

/-- The computation ends so whatever machine it begins on. -/
def Eval.Still (x : Eval α) : Prop :=
  ∀ m, (x m).Still m

namespace Eval

theorem Still.pure (a : α) : Still (Pure.pure a : Eval α) :=
  fun m => .refl m

theorem Still.read (f : Machine → α) : Still (Run.read f) :=
  fun m => .refl m

theorem Still.throw (value : Value) : Still (Run.throw value : Eval α) :=
  fun m => ⟨.refl m, value, rfl⟩

theorem Still.bind {x : Eval α} {f : α → Eval β} (first : Still x) (second : ∀ a, Still (f a)) :
    Still (x >>= f) := by
  intro m
  have still := first m
  show (Run.bind x f m).Still m
  unfold Run.bind
  cases ending : x m with
  | ok a m' =>
    rw [ending] at still
    exact (second a m').after still
  | unwind reason m' =>
    rw [ending] at still
    exact still
  | cutOff => trivial

theorem makeArray_still (items : List Value) : Still (makeArray items) :=
  fun _ => ⟨_, _, rfl, fun linked => linked.withArrays _⟩

/-- An object without a prototype. -/
theorem makeObject_still {object : Object} (plain : object.proto = none) :
    Still (makeObject object) :=
  fun _ => ⟨_, _, rfl, fun linked => linked.newObject fun _ proto => nomatch plain.symm.trans proto⟩

theorem makeInstance_still (closure : ClosureId) : Still (makeInstance closure) := by
  refine fun m => ⟨_, _, rfl, fun linked => linked.newObject fun proto found => ?_⟩
  obtain rfl := Option.some.inj found
  exact linked.prototypes closure

/-- Operations on values. -/
theorem still {depth : Nat} : Mirrors (fun x _ => Still x) depth depth where
  pure := .pure
  bind first second := first.bind second
  throw := .throw
  display value := by
    refine .bind (.read _) fun shown => ?_
    cases shown with
    | none => exact fun _ => trivial
    | some text => exact .pure text
  read _ := .read _
  makeObject := makeObject_still
  makeInstance := makeInstance_still
  makeArray := makeArray_still
  setProperty id name value _ := ⟨_, _, rfl, fun linked => linked.setProperty id name value⟩
  modifyItems _ _ _ := ⟨_, _, rfl, fun linked => linked.withArrays _⟩

theorem Still.quiet {x : Eval α} (still : Still x) : Quiet code x := by
  have undisturbed : ∀ {m m' : Machine}, m.Alike m' → m.Undisturbed code m' := by
    rintro m _ ⟨objects, arrays, rfl, _⟩
    exact ⟨_, rfl, .of_eq rfl rfl⟩
  intro m
  have ends := still m
  cases ending : x m with
  | ok a m' =>
    rw [ending] at ends
    exact undisturbed ends
  | unwind reason m' =>
    rw [ending] at ends
    exact ⟨undisturbed ends.1, ends.2⟩
  | cutOff => trivial

theorem lookup_still (act : Activation) (name : String) : Still (lookup act name) := by
  refine .bind (.read _) fun value => ?_
  cases value with
  | none => exact .throw _
  | some value => exact .pure value

theorem makeArguments_still (act : Activation) : Still (makeArguments act) :=
  .bind (.read _) fun _ => makeArray_still _

/-- The natives that only look at values and make new ones. -/
theorem callNative_still {g : Engine} {native : Native} {this : Value} {args : List Value}
    (plain : native ∉ [.print, .captureCC, .callCC, .abortCC]) :
    Still (callNative g native this args) :=
  still.callNative (q := g.perform) this args plain

end Eval

/-! ## Expressions -/

def Event.isExpr : Event → Bool
  | .expr .. => true
  | _ => false

/-- The computation is quiet, and begins nothing but the evaluation of expressions. -/
structure Observed.Quiet (code : Func → Prop) (x : Observed Machine α) : Prop where
  told : ∀ m, ∀ event ∈ x.told m, event.isExpr = true
  erase : Eval.Quiet code x.erase

namespace Observed

variable {code : Func → Prop}

theorem told_bind (x : Observed σ α) (f : α → Observed σ β) (s : σ) :
    (x >>= f).told s = x.told s ++ match x.erase s with
      | .ok a s => (f a).told s
      | _ => [] :=
  told_of_bind x f s

/-- What is told by two computations is told by the first, or by the second where it begins. -/
theorem mem_told_bind {x : Observed σ α} {f : α → Observed σ β} {s : σ} {event : Event} :
    event ∈ (x >>= f).told s ↔
      event ∈ x.told s ∨ ∃ a s', x.erase s = .ok a s' ∧ event ∈ (f a).told s' := by
  rw [told_bind, List.mem_append]
  cases x.erase s <;> simp [and_assoc]

theorem Quiet.lift {x : Eval α} (quiet : Eval.Quiet code x) : Quiet code (lift x) :=
  ⟨fun _ _ mem => (nomatch mem), quiet⟩

theorem Quiet.pure (a : α) : Quiet code (Pure.pure a : Observed Machine α) :=
  .lift (.pure a)

theorem Quiet.bind {x : Observed Machine α} {f : α → Observed Machine β} (first : Quiet code x)
    (second : ∀ a, Quiet code (f a)) : Quiet code (x >>= f) := by
  refine ⟨fun m event mem => ?_, ?_⟩
  · rcases mem_told_bind.mp mem with mem | ⟨a, m', _, mem⟩
    · exact first.told m event mem
    · exact (second a).told m' event mem
  · rw [erase_bind]
    exact .bind first.erase fun a => (second a).erase

theorem Quiet.noted {x : Observed Machine α} {event : Machine → Event}
    (isExpr : ∀ m, (event m).isExpr = true) (quiet : Quiet code x) :
    Quiet code (note event >>= fun _ => x) := by
  refine .bind ⟨fun m _ mem => ?_, .pure ()⟩ fun _ => quiet
  rw [List.mem_singleton.mp mem]
  exact isExpr m

theorem Quiet.ite {p : Prop} [Decidable p] {x y : Observed Machine α} (yes : Quiet code x)
    (no : Quiet code y) : Quiet code (if p then x else y) := by
  split
  · exact yes
  · exact no

end Observed

section Expressions

variable {code : Func → Prop} {w : Observer} {context : Context} {act : Activation}

theorem Expr.observeList_quiet {es : List Expr}
    (quiet : ∀ e ∈ es, (e.observe w context act).Quiet code) :
    (Expr.observeList w context act es).Quiet code := by
  induction es with
  | nil => exact .pure []
  | cons e rest ih =>
    rw [List.forall_mem_cons] at quiet
    exact .bind quiet.1 fun _ => .bind (ih quiet.2) fun _ => .pure _

theorem Expr.observeProps_quiet {props : List (String × Expr)}
    (quiet : ∀ p ∈ props, (p.2.observe w context act).Quiet code) :
    (Expr.observeProps w context act props).Quiet code := by
  induction props with
  | nil => exact .pure []
  | cons p rest ih =>
    rw [List.forall_mem_cons] at quiet
    exact .bind quiet.1 fun _ => .bind (ih quiet.2) fun _ => .pure _

/-- Evaluation of a quiet expression. -/
theorem Expr.Quiet.observe (quiet : e.Quiet code) : (e.observe w context act).Quiet code := by
  induction quiet with
  | num | str | bool | null | undefined | this | targetIn | newTarget =>
    rw [Expr.observe]
    exact .noted (fun _ => rfl) (.lift (.pure _))
  | isNormal | isRestoring | capturing =>
    rw [Expr.observe]
    exact .noted (fun _ => rfl) (.lift (.read _))
  | ident =>
    rw [Expr.observe]
    exact .noted (fun _ => rfl) (.lift (Eval.lookup_still act _).quiet)
  | arguments =>
    rw [Expr.observe]
    exact .noted (fun _ => rfl) (.lift (Eval.makeArguments_still act).quiet)
  | func ofCode =>
    rw [Expr.observe]
    exact .noted (fun _ => rfl) (.lift (Eval.makeClosure_quiet act ofCode))
  | @binary op left right _ _ leftIH rightIH =>
    have strict : ∀ op, Observed.Quiet code (do
        let left ← left.observe w context act
        let right ← right.observe w context act
        .lift (Eval.binary w.engine.bound op left right)) := fun op =>
      .bind leftIH fun _ => .bind rightIH fun _ => .lift (Eval.still.binary op _ _).quiet
    cases op with
    | and =>
      rw [Expr.observe]
      exact .noted (fun _ => rfl) (.bind leftIH fun _ => .ite rightIH (.pure _))
    | or =>
      rw [Expr.observe]
      exact .noted (fun _ => rfl) (.bind leftIH fun _ => .ite (.pure _) rightIH)
    | _ =>
      simp only [Expr.observe]
      exact .noted (fun _ => rfl) (strict _)
  | @unary op arg _ ih =>
    cases op with
    | typeOf =>
      by_cases named : ∃ name, arg = .ident name
      · obtain ⟨name, rfl⟩ := named
        rw [Expr.observe]
        exact .noted (fun _ => rfl) (.lift (.read _))
      · rw [Expr.observe]
        · exact .noted (fun _ => rfl) (.bind ih fun _ => .pure _)
        · exact fun name h => named ⟨name, h⟩
    | not | neg =>
      rw [Expr.observe]
      exact .noted (fun _ => rfl) (.bind ih fun _ => .pure _)
  | cond _ _ _ testIH thenIH elseIH =>
    rw [Expr.observe]
    exact .noted (fun _ => rfl) (.bind testIH fun _ => .ite thenIH elseIH)
  | member _ ih =>
    rw [Expr.observe]
    exact .noted (fun _ => rfl) (.bind ih fun _ => .lift (Eval.still.getProperty _ _).quiet)
  | index _ _ baseIH keyIH =>
    rw [Expr.observe]
    exact .noted (fun _ => rfl)
      (.bind baseIH fun _ => .bind keyIH fun _ => .lift (Eval.still.getIndex _ _).quiet)
  | array _ ih =>
    rw [Expr.observe]
    exact .noted (fun _ => rfl)
      (.bind (Expr.observeList_quiet ih) fun _ => .lift (Eval.makeArray_still _).quiet)
  | object _ ih =>
    rw [Expr.observe]
    exact .noted (fun _ => rfl)
      (.bind (Expr.observeProps_quiet ih) fun _ => .lift (Eval.makeObject_still rfl).quiet)

end Expressions

/-! ## Applications -/

/-- The actions that applications lead to. -/
def Action.isApplication : Action → Bool
  | .call .. | .construct .. | .handleNew .. | .safePoint => true
  | _ => false

/-- The action that an application leads to. -/
def Expr.observeAction (w : Observer) (context : Context) (act : Activation) :
    Expr → Observed Machine { a : Action // a.isApplication = true }
  | .call (.member base property) args => do
    let base ← base.observe w context act
    let func ← .lift (Eval.getProperty w.engine.bound base property)
    let args ← Expr.observeList w context act args
    return ⟨.call func base args, rfl⟩
  | .call callee args => do
    let func ← callee.observe w context act
    let args ← Expr.observeList w context act args
    return ⟨.call func .undefined args, rfl⟩
  | .new callee args => do
    let callee ← callee.observe w context act
    let args ← Expr.observeList w context act args
    return ⟨.construct callee args, rfl⟩
  | .handleNew callee args => do
    let callee ← callee.observe w context act
    let args ← Expr.observeList w context act args
    return ⟨.handleNew callee args, rfl⟩
  | _ => return ⟨.safePoint, rfl⟩

section Applications

variable {code : Func → Prop} {w : Observer} {context : Context} {act : Activation}

/-- An application leaves the activation with the action it leads to, and only there. -/
theorem Expr.observe_application (isApp : e.isApplication = true) :
    e.observe w context act = (do
      Observed.note (.expr e act)
      let action ← e.observeAction w context act
      w.perform context action) := by
  cases e with
  | call callee args =>
    by_cases member : ∃ base property, callee = .member base property
    · obtain ⟨base, property, rfl⟩ := member
      simp [Expr.observe, Expr.observeAction]
    · have notMember : ∀ base property, callee = .member base property → False :=
        fun base property h => member ⟨base, property, h⟩
      rw [Expr.observe, Expr.observeAction]
      · simp
      · exact notMember
      · exact notMember
  | new callee args => simp [Expr.observe, Expr.observeAction]
  | handleNew callee args => simp [Expr.observe, Expr.observeAction]
  | suspend => simp [Expr.observe, Expr.observeAction]
  | _ => cases isApp

/-- Up to that point the evaluation is quiet. -/
theorem Expr.Live.observeAction (live : e.Live code) (isApp : e.isApplication = true) :
    (e.observeAction w context act).Quiet code := by
  cases live with
  | quiet quiet => cases quiet <;> cases isApp
  | @call callee args calleeQuiet argsQuiet =>
    have listQuiet : (Expr.observeList w context act args).Quiet code :=
      Expr.observeList_quiet fun e mem => (argsQuiet e mem).observe
    by_cases member : ∃ base property, callee = .member base property
    · obtain ⟨base, property, rfl⟩ := member
      cases calleeQuiet with
      | member baseQuiet =>
        rw [Expr.observeAction]
        exact .bind baseQuiet.observe fun _ =>
          .bind (.lift (Eval.still.getProperty _ _).quiet) fun _ => .bind listQuiet fun _ => .pure _
    · rw [Expr.observeAction]
      · exact .bind calleeQuiet.observe fun _ => .bind listQuiet fun _ => .pure _
      · exact fun base property h => member ⟨base, property, h⟩
  | new calleeQuiet argsQuiet | handleNew calleeQuiet argsQuiet =>
    exact .bind calleeQuiet.observe fun _ =>
      .bind (Expr.observeList_quiet fun e mem => (argsQuiet e mem).observe) fun _ => .pure _
  | suspend => exact .pure _

end Applications

/-! ## Calls -/

namespace Eval

variable {w : Observer} {context : Context} {func callee this : Value} {args : List Value}
  (holds : Observed Machine Value → Prop) (still : ∀ {x : Eval Value}, Still x → holds (.lift x))

include still

/-- A property of what is still holds of calls if it holds of what a call can do besides. -/
theorem observeCall_cases (enter : ∀ id, holds (observeEnter w context id this args .undefined))
    (capture : ∀ handler, holds (observeCapture w context (.guest handler)))
    (print : holds (.lift (callNative w.engine .print this args)))
    (abort : holds (.lift (callNative w.engine .abortCC this args)))
    (continuation : ∀ id, holds (.lift (call w.engine (.continuation id) this args))) :
    holds (observeCall w context func this args) := by
  have captures : holds (if (firstArg args).isCallable then observeCapture w context
      (.guest (firstArg args)) else do
        let shown ← .lift (display w.engine.bound (firstArg args))
        .lift (raise (.captureNeedsFunction shown))) := by
    split
    · exact capture _
    · rw [← Observed.lift_bind]
      exact still (Eval.still.complain _ .captureNeedsFunction)
  cases func with
  | closure id => exact enter id
  | native native =>
    cases native with
    | captureCC | callCC => exact captures
    | print => exact print
    | abortCC => exact abort
    | _ => exact still (callNative_still (by decide))
  | continuation id => exact continuation id
  | fudged => exact still (Eval.still.complain _ .fudged)
  | _ => exact still (Eval.still.complain _ .notFunction)

/-- Of constructions without a frame only those that enter a constructor are not still. -/
theorem observeConstruct_cases (enter : ∀ id, holds (do
      let this ← .lift (makeInstance id)
      return constructed this (← observeEnter w context id this args (.closure id)))) :
    holds (observeConstruct w context callee args) := by
  cases callee with
  | closure id => exact enter id
  | native native =>
    cases native with
    | object => exact still (makeObject_still rfl)
    | array => exact still (makeArray_still _)
    | error =>
      have native : Still (callNative w.engine .error .undefined args) :=
        callNative_still (by decide)
      exact still native
    | _ => exact still (Eval.still.complain _ .notConstructor)
  | _ => exact still (Eval.still.complain _ .notConstructor)

end Eval

end Resumable
