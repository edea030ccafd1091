import Resumable.Machine.Drive

/-!
Chronicles of runs.

An `Observed` computation ends as a computation on the machine does, and beside that tells in order
what was begun on the way: statements, expressions, actions, bodies, constructions, entries into
frames and captures.  A capture is told with the points of the calls in progress, so that they can
be compared with the frames that are delivered.

An observer carries the proof that it observes its engine and nothing else, and every observed
computation erases to the one it tells about; `Machine.erase_observed` says so of a whole turn.
What is told survives when a computation is cut off.
-/

namespace Resumable

theorem Run.bind_pure_comp_id (x : Run σ α) : Run.bind x Run.pure = x := by
  funext s
  unfold Run.bind
  cases x s <;> rfl

theorem Run.bind_assoc (x : Run σ α) (f : α → Run σ β) (g : β → Run σ γ) :
    Run.bind (Run.bind x f) g = Run.bind x fun a => Run.bind (f a) g := by
  funext s
  unfold Run.bind
  cases x s <;> rfl

instance : LawfulMonad (Run σ) :=
  LawfulMonad.mk' (Run σ) Run.bind_pure_comp_id (fun _ _ => rfl) Run.bind_assoc

theorem Run.read_bind (f : σ → α) (k : α → Run σ β) (s : σ) : (Run.read f >>= k) s = k (f s) s :=
  rfl

/-! ## Observed computations -/

/-- A place at which a call in progress can be continued. -/
structure Point where
  function : String
  label : Nat
  deriving DecidableEq, Repr

/-- The points of the calls in progress, from the innermost to the outermost. -/
abbrev Context := List Point

/-- Something that begins, and the state in which it does. -/
inductive Event where
  | stmt (s : Stmt) (l : Local)
  | expr (e : Expr) (act : Activation) (m : Machine)
  | action (action : Action) (m : Machine)
  /-- The body of a function. -/
  | body (act : Activation) (m : Machine)
  /-- A construction that is kept in a frame of its own. -/
  | construction (closure : ClosureId) (args : List Value) (m : Machine)
  /-- The entry into the outermost frame. -/
  | reentry (m : Machine)
  /-- A capture. -/
  | raise (context : Context) (handler : CaptureHandler) (m : Machine)

/-- A computation that tells what it began. -/
def Observed (σ α : Type) : Type :=
  σ → Ending σ α × List Event

namespace Observed

/-- The computation alone. -/
def erase (x : Observed σ α) : Run σ α :=
  fun s => (x s).1

/-- What was begun on the way from a state. -/
def told (x : Observed σ α) (s : σ) : List Event :=
  (x s).2

/-- A computation in which nothing is told. -/
def lift (x : Run σ α) : Observed σ α :=
  fun s => (x s, [])

def pure (a : α) : Observed σ α :=
  lift (Run.pure a)

def bind (x : Observed σ α) (f : α → Observed σ β) : Observed σ β :=
  fun s => match x s with
    | (.ok a s, events) => match f a s with
      | (ending, later) => (ending, events ++ later)
    | (.unwind reason s, events) => (.unwind reason s, events)
    | (.cutOff, events) => (.cutOff, events)

theorem erase_of_bind (x : Observed σ α) (f : α → Observed σ β) :
    (x.bind f).erase = Run.bind x.erase fun a => (f a).erase := by
  funext s
  show (x.bind f s).1 = Run.bind _ _ s
  unfold bind Run.bind erase
  rcases x s with ⟨_ | _ | _, events⟩ <;> rfl

theorem told_of_bind (x : Observed σ α) (f : α → Observed σ β) (s : σ) :
    (x.bind f).told s = x.told s ++ match x.erase s with
      | .ok a s => (f a).told s
      | _ => [] := by
  show (x.bind f s).2 = _
  unfold bind erase told
  rcases x s with ⟨_ | _ | _, events⟩
  · rfl
  all_goals exact (List.append_nil events).symm

instance : Monad (Observed σ) where
  pure := Observed.pure
  bind := Observed.bind

theorem bind_pure (x : Observed σ α) : x.bind Observed.pure = x := by
  funext s
  unfold bind
  rcases x s with ⟨_ | _ | _, events⟩
  · exact Prod.ext rfl (List.append_nil events)
  · rfl
  · rfl

theorem bind_assoc (x : Observed σ α) (f : α → Observed σ β) (g : β → Observed σ γ) :
    (x.bind f).bind g = x.bind fun a => (f a).bind g := by
  funext s
  unfold bind
  rcases x s with ⟨⟨a, s'⟩ | _ | _, events⟩
  · simp only
    rcases f a s' with ⟨_ | _ | _, later⟩
    · exact Prod.ext rfl (List.append_assoc _ _ _)
    all_goals rfl
  all_goals rfl

instance : LawfulMonad (Observed σ) :=
  LawfulMonad.mk' (Observed σ) bind_pure (fun _ _ => rfl) bind_assoc

/-- Tell an event. -/
def note (event : σ → Event) : Observed σ Unit :=
  fun s => (.ok () s, [event s])

/-- The computation, with its unwinding as a result. -/
def attempt (x : Observed σ α) : Observed σ (Except Unwind α) :=
  fun s => match x s with
    | (ending, events) => (Run.attempt (fun _ => ending) s, events)

/-- A computation that leaves the activation as it is. -/
def ofEval (x : Activation → Observed Machine α) : Observed Local α :=
  fun l => match x l.act l.machine with
    | (ending, events) => (Exec.ofEval (fun _ _ => ending) l, events)

theorem lift_ofEval (x : Activation → Eval α) :
    lift (Exec.ofEval x) = ofEval fun act => lift (x act) :=
  rfl

/-- Run a body in a new activation. -/
def inActivation (act : Activation) (x : Observed Local Completion) : Observed Machine Value :=
  fun m => match x ⟨act, m⟩ with
    | (ending, events) => (match ending with
      | .ok completion l => Eval.finish completion l.machine
      | .unwind reason l => .unwind reason l.machine
      | .cutOff => .cutOff, events)

theorem erase_inActivation (act : Activation) (x : Observed Local Completion) (m : Machine) :
    (inActivation act x).erase m = match x.erase ⟨act, m⟩ with
      | .ok completion l => Eval.finish completion l.machine
      | .unwind reason l => .unwind reason l.machine
      | .cutOff => .cutOff :=
  rfl

@[simp]
theorem erase_lift (x : Run σ α) : (lift x).erase = x :=
  rfl

@[simp]
theorem erase_pure (a : α) : (Pure.pure a : Observed σ α).erase = Pure.pure a :=
  rfl

@[simp]
theorem erase_bind (x : Observed σ α) (f : α → Observed σ β) :
    (x >>= f).erase = x.erase >>= fun a => (f a).erase :=
  erase_of_bind x f

@[simp]
theorem erase_map (f : α → β) (x : Observed σ α) : (f <$> x).erase = f <$> x.erase :=
  erase_of_bind x _

@[simp]
theorem erase_ite (p : Prop) [Decidable p] (x y : Observed σ α) :
    (if p then x else y).erase = if p then x.erase else y.erase :=
  apply_ite erase p x y

@[simp]
theorem erase_discard (x : Observed σ α) : (discard x).erase = discard x.erase :=
  erase_map (Function.const α PUnit.unit) x

@[simp]
theorem erase_note (event : σ → Event) : (note event).erase = Pure.pure () :=
  rfl

@[simp]
theorem erase_attempt (x : Observed σ α) : x.attempt.erase = x.erase.attempt :=
  rfl

@[simp]
theorem erase_ofEval (x : Activation → Observed Machine α) :
    (ofEval x).erase = Exec.ofEval fun act => (x act).erase :=
  rfl

theorem lift_bind (x : Run σ α) (f : α → Run σ β) :
    lift (x >>= f) = lift x >>= fun a => lift (f a) := by
  funext s
  show (Run.bind x f s, []) = bind (lift x) (fun a => lift (f a)) s
  unfold bind Run.bind lift
  cases x s <;> rfl

theorem read_bind (f : σ → α) (k : α → Observed σ β) (s : σ) :
    (lift (Run.read f) >>= k) s = k (f s) s :=
  rfl

theorem modify_bind (f : σ → σ) (k : Unit → Observed σ β) (s : σ) :
    (lift (Run.modify f) >>= k) s = k () (f s) :=
  rfl

end Observed

/-- A way to leave an activation under observation, given the calls in progress. -/
structure Observer where
  engine : Engine
  perform : Context → Action → Observed Machine Value
  faithful : ∀ context action, (perform context action).erase = engine.perform action

/-- The activation at a label. -/
def Activation.point (act : Activation) (label : Nat) : Point :=
  ⟨act.func.displayName, label⟩

/-! ## Expressions -/

mutual

def Expr.observe (w : Observer) (context : Context) (act : Activation) (e : Expr) :
    Observed Machine Value := do
  Observed.note (.expr e act)
  match e with
  | .binary .and left right => do
    let left ← left.observe w context act
    if left.isTruthy then right.observe w context act else return left
  | .binary .or left right => do
    let left ← left.observe w context act
    if left.isTruthy then return left else right.observe w context act
  | .binary op left right => do
    let left ← left.observe w context act
    let right ← right.observe w context act
    .lift (Eval.binary w.engine.bound op left right)
  | .unary .typeOf (.ident name) => .lift (Eval.typeOfName act name)
  | .unary .typeOf arg => return .str (← arg.observe w context act).typeOf
  | .unary .not arg => return .bool (!(← arg.observe w context act).isTruthy)
  | .unary .neg arg => return .num (-(← arg.observe w context act).toNumber)
  | .cond test thenE elseE => do
    if (← test.observe w context act).isTruthy then thenE.observe w context act
    else elseE.observe w context act
  | .member base property => do
    let base ← base.observe w context act
    .lift (Eval.getProperty w.engine.bound base property)
  | .index base key => do
    let base ← base.observe w context act
    let key ← key.observe w context act
    .lift (Eval.getIndex w.engine.bound base key)
  | .call (.member base property) args => do
    let base ← base.observe w context act
    let func ← .lift (Eval.getProperty w.engine.bound base property)
    let args ← Expr.observeList w context act args
    w.perform context (.call func base args)
  | .call callee args => do
    let func ← callee.observe w context act
    let args ← Expr.observeList w context act args
    w.perform context (.call func .undefined args)
  | .new callee args => do
    let callee ← callee.observe w context act
    let args ← Expr.observeList w context act args
    w.perform context (.construct callee args)
  | .array elements => do
    let items ← Expr.observeList w context act elements
    .lift (Eval.makeArray items)
  | .object props => do
    let entries ← Expr.observeProps w context act props
    .lift (Eval.makeObject { props := .ofList entries })
  | .reenterNext => w.perform context .reenterNext
  | .suspend => w.perform context .safePoint
  | .handleNew callee args => do
    let callee ← callee.observe w context act
    let args ← Expr.observeList w context act args
    w.perform context (.handleNew callee args)
  | .num _ | .str _ | .bool _ | .null | .undefined | .ident _ | .func _ | .this | .arguments
  | .isNormal | .isRestoring | .targetIn _ | .capturing | .newTarget => .lift (e.eval w.engine act)

def Expr.observeList (w : Observer) (context : Context) (act : Activation) :
    List Expr → Observed Machine (List Value)
  | [] => return []
  | e :: rest => do
    let value ← e.observe w context act
    return value :: (← Expr.observeList w context act rest)

def Expr.observeProps (w : Observer) (context : Context) (act : Activation) :
    List (String × Expr) → Observed Machine (List (String × Value))
  | [] => return []
  | (key, e) :: rest => do
    let value ← e.observe w context act
    return (key, value) :: (← Expr.observeProps w context act rest)

end

/-- Evaluation under observation is evaluation, of the expression and of a call to it. -/
def Expr.Erases (w : Observer) (context : Context) (act : Activation) (e : Expr) : Prop :=
  (e.observe w context act).erase = e.eval w.engine act ∧
    ∀ args, (Expr.observeList w context act args).erase = Expr.evalList w.engine act args →
      ((Expr.call e args).observe w context act).erase = (Expr.call e args).eval w.engine act

/-- Only a call to a member does not evaluate the callee as a whole. -/
theorem Expr.Erases.of_not_member {w : Observer} {context : Context} {act : Activation} {e : Expr}
    (notMember : ∀ base property, e ≠ .member base property)
    (h : (e.observe w context act).erase = e.eval w.engine act) : e.Erases w context act := by
  refine ⟨h, fun args hargs => ?_⟩
  rw [Expr.observe, Expr.eval]
  · simp [h, hargs, w.faithful]
  · exact notMember
  · exact notMember

section

variable (w : Observer) (context : Context) (act : Activation)

include w context act

mutual

theorem Expr.erases : (e : Expr) → e.Erases w context act
  | .binary op left right => by
    have hl := (Expr.erases left).1
    have hr := (Expr.erases right).1
    refine .of_not_member nofun ?_
    cases op <;> simp [Expr.observe, Expr.eval, hl, hr]
  | .unary op arg => by
    have h := (Expr.erases arg).1
    refine .of_not_member nofun ?_
    cases op with
    | typeOf =>
      by_cases named : ∃ name, arg = .ident name
      · obtain ⟨name, rfl⟩ := named
        rfl
      · -- only the name of a name is not evaluated
        have unnamed : ∀ name, arg = .ident name → False := fun name h => named ⟨name, h⟩
        rw [Expr.observe, Expr.eval]
        · simp [h]
        · exact unnamed
        · exact unnamed
    | _ => simp [Expr.observe, Expr.eval, h]
  | .cond test thenE elseE => by
    have ht := (Expr.erases test).1
    have ha := (Expr.erases thenE).1
    have hb := (Expr.erases elseE).1
    exact .of_not_member nofun (by simp [Expr.observe, Expr.eval, ht, ha, hb])
  | .member base _ => by
    have h := (Expr.erases base).1
    refine ⟨by simp [Expr.observe, Expr.eval, h], fun args hargs => ?_⟩
    simp [Expr.observe, Expr.eval, h, hargs, w.faithful]
  | .index base key => by
    have hb := (Expr.erases base).1
    have hk := (Expr.erases key).1
    exact .of_not_member nofun (by simp [Expr.observe, Expr.eval, hb, hk])
  | .call callee args =>
    .of_not_member nofun
      ((Expr.erases callee).2 args (Expr.erase_observeList args))
  | .new callee args | .handleNew callee args => by
    have hc := (Expr.erases callee).1
    have ha := Expr.erase_observeList args
    exact .of_not_member nofun (by simp [Expr.observe, Expr.eval, hc, ha, w.faithful])
  | .array elements => by
    have h := Expr.erase_observeList elements
    exact .of_not_member nofun (by simp [Expr.observe, Expr.eval, h])
  | .object props => by
    have h := Expr.erase_observeProps props
    exact .of_not_member nofun (by simp [Expr.observe, Expr.eval, h])
  | .reenterNext | .suspend => .of_not_member nofun (by simp [Expr.observe, Expr.eval, w.faithful])
  | .num _ | .str _ | .bool _ | .null | .undefined | .ident _ | .func _ | .this | .arguments
  | .isNormal | .isRestoring | .targetIn _ | .capturing | .newTarget => .of_not_member nofun rfl

theorem Expr.erase_observeList :
    (es : List Expr) → (Expr.observeList w context act es).erase = Expr.evalList w.engine act es
  | [] => rfl
  | e :: rest => by
    simp [Expr.observeList, Expr.evalList, (Expr.erases e).1,
      Expr.erase_observeList rest]

theorem Expr.erase_observeProps : (props : List (String × Expr)) →
    (Expr.observeProps w context act props).erase = Expr.evalProps w.engine act props
  | [] => rfl
  | (_, e) :: rest => by
    simp [Expr.observeProps, Expr.evalProps, (Expr.erases e).1,
      Expr.erase_observeProps rest]

end

end

@[simp]
theorem Expr.erase_observe (w : Observer) (context : Context) (act : Activation) (e : Expr) :
    (e.observe w context act).erase = e.eval w.engine act :=
  (e.erases w context act).1

/-! ## Captures -/

namespace Eval

/-- Begin a capture.  Where there are no captures the handler is called. -/
def observeCapture (w : Observer) (context : Context) (handler : CaptureHandler) :
    Observed Machine Value := do
  Observed.note (.raise context handler)
  match ← .lift (Run.read (·.strategy)), handler with
  | .fudge, .guest func => w.perform context (.call func .undefined [.fudged])
  | _, _ => .lift (raiseCapture w.engine handler)

def observeSafePoint (w : Observer) (context : Context) : Observed Machine Value := do
  match ← .lift (Run.read (·.yieldInterval)) with
  | none => return .undefined
  | some interval => do
    let left := (← .lift (Run.read (·.countdown))) - 1
    if left > 0 then do
      Observed.lift (Run.modify ({ · with countdown := left }))
      return .undefined
    else do
      Observed.lift (Run.modify ({ · with countdown := interval }))
      observeCapture w context .yield

def observeCountCall (w : Observer) (context : Context) (again : Action) :
    Observed Machine Bool := do
  match ← .lift (Run.read (·.remaining)) with
  | none => return false
  | some remaining => do
    let left := remaining - 1
    Observed.lift (Run.modify ({ · with remaining := some left }))
    let strategy ← .lift (Run.read (·.strategy))
    let mode ← .lift (Run.read (·.mode))
    if left > 0 || mode ≠ .normal || strategy = .fudge then return false
    else do
      discard <| observeCapture w context (.reenter again)
      return true

def observeReenterNext (w : Observer) (context : Context) : Observed Machine Value := do
  Observed.note .reentry
  match ← .lift (Run.read (·.stack.outermost?)) with
  | none => .lift (Run.fault .emptyStack)
  | some (.top action) => do
    Observed.lift (Run.modify ({ · with stack := .empty, mode := .normal }))
    w.perform context action
  | some (.call frame) => w.perform context frame.resume

section

variable (w : Observer) (context : Context)

include w context

theorem told_observeCapture (handler : CaptureHandler) (m : Machine) :
    (observeCapture w context handler).told m = .raise context handler m :: Observed.told
    (match m.strategy, handler with
      | .fudge, .guest func => w.perform context (.call func .undefined [.fudged])
      | _, _ => .lift (raiseCapture w.engine handler)) m :=
  rfl

@[simp]
theorem erase_observeCapture (handler : CaptureHandler) :
    (observeCapture w context handler).erase = raiseCapture w.engine handler := by
  funext m
  show (match m.strategy, handler with
      | .fudge, .guest func => w.perform context (.call func .undefined [.fudged])
      | _, _ => .lift (raiseCapture w.engine handler)).erase m = raiseCapture w.engine handler m
  split
  · rename_i func fudge
    rw [w.faithful, raiseCapture, Run.read_bind, fudge]
  · rfl

@[simp]
theorem erase_observeSafePoint : (observeSafePoint w context).erase = safePoint w.engine := by
  simp only [observeSafePoint, safePoint, Observed.erase_bind, Observed.erase_lift]
  congr 1
  funext interval
  cases interval <;> simp

@[simp]
theorem erase_observeCountCall (again : Action) :
    (observeCountCall w context again).erase = countCall w.engine again := by
  simp only [observeCountCall, countCall, Observed.erase_bind, Observed.erase_lift]
  congr 1
  funext remaining
  cases remaining <;> simp

@[simp]
theorem erase_observeReenterNext : (observeReenterNext w context).erase = reenterNext w.engine := by
  simp only [observeReenterNext, reenterNext, Observed.erase_bind, Observed.erase_note, pure_bind,
    Observed.erase_lift]
  congr 1
  funext frame
  rcases frame with _ | (action | frame) <;> simp [w.faithful]

end

end Eval

/-! ## Statements -/

namespace Observed

def loop (label : Option String) (test : Observed Local Bool) (body : Observed Local Completion) :
    Nat → Observed Local Completion
  | 0 => lift Run.cutOff
  | turns + 1 => do
    if ← test then
      match ← body with
      | .normal => loop label test body turns
      | .continue target =>
        if Exec.isOurs label target then loop label test body turns else return .continue target
      | .break target => return if Exec.isOurs label target then .normal else .break target
      | .return value => return .return value
    else return .normal

def handle (body : Observed Local Completion) (param : String)
    (handler : Observed Local Completion) : Observed Local Completion := do
  match ← body.attempt with
  | .ok completion => return completion
  | .error (.throw value) => do
    lift (Exec.declare param value)
    handler
  | .error (.signal signal) => do
    let outer ← lift (Run.read (·.act.caught))
    lift (Exec.modifyAct ({ · with caught := some signal }))
    let result ← handler.attempt
    lift (Exec.modifyAct ({ · with caught := outer }))
    lift (Run.settle result)
  | .error (.fault fault) => lift (Run.fault fault)

def withFinal (body final : Observed Local Completion) : Observed Local Completion := do
  let result ← body.attempt
  match ← final with
  | .normal => lift (Run.settle result)
  | abrupt => return abrupt

/-- What follows the body: the final part, and then the end of the body. -/
def settleAfter (final : Observed Local Completion) (result : Except Unwind Completion) :
    Observed Local Completion := do
  match ← final with
  | .normal => lift (Run.settle result)
  | abrupt => return abrupt

def recording (label : Nat) (body : Observed Local Completion) : Observed Local Completion := do
  match ← body.attempt with
  | .error (.signal (.capture handler stack)) => do
    let frame ← lift (Exec.captureFrame label)
    lift (Run.signal (.capture handler (stack.pushOuter frame)))
  | result => lift (Run.settle result)

def shadowing (label : Nat) (body : Observed Local Completion) : Observed Local Completion := do
  let frame ← lift (Exec.captureFrame label)
  lift (Exec.modifyShadow (·.pushInner frame))
  let result ← body.attempt
  lift (Exec.modifyShadow (·.dropInner))
  lift (Run.settle result)

/-- A computation that is given the calls in progress together with this one, at the label. -/
def atPoint (context : Context) (label : Nat) (body : Context → Observed Local Completion) :
    Observed Local Completion :=
  fun l => body (l.act.point label :: context) l

@[simp]
theorem erase_loop (label : Option String) (test : Observed Local Bool)
    (body : Observed Local Completion) (turns : Nat) :
    (loop label test body turns).erase = Exec.loop label test.erase body.erase turns := by
  induction turns with
  | zero => rfl
  | succ turns ih =>
    simp only [loop, Exec.loop, erase_bind, erase_ite, erase_pure]
    congr 1
    funext holds
    congr 2
    funext completion
    cases completion <;> simp [ih]

@[simp]
theorem erase_handle (body : Observed Local Completion) (param : String)
    (handler : Observed Local Completion) :
    (handle body param handler).erase = Exec.handle body.erase param handler.erase := by
  simp only [handle, Exec.handle, erase_bind, erase_attempt]
  congr 1
  funext result
  rcases result with (value | signal | fault) | completion <;> simp

@[simp]
theorem erase_withFinal (body final : Observed Local Completion) :
    (withFinal body final).erase = Exec.withFinal body.erase final.erase := by
  simp only [withFinal, Exec.withFinal, erase_bind, erase_attempt]
  congr 1
  funext result
  congr 1
  funext completion
  cases completion <;> rfl

@[simp]
theorem erase_recording (label : Nat) (body : Observed Local Completion) :
    (recording label body).erase = Exec.recording label body.erase := by
  simp only [recording, Exec.recording, erase_bind, erase_attempt]
  congr 1
  funext result
  rcases result with (value | (⟨handler, stack⟩ | stack | replacement) | fault) | completion <;> rfl

@[simp]
theorem erase_shadowing (label : Nat) (body : Observed Local Completion) :
    (shadowing label body).erase = Exec.shadowing label body.erase := by
  simp only [shadowing, Exec.shadowing, erase_bind, erase_lift, erase_attempt]

theorem erase_atPoint {context : Context} {label : Nat} {body : Context → Observed Local Completion}
    {x : Exec Completion} (h : ∀ context, (body context).erase = x) :
    (atPoint context label body).erase = x := by
  funext l
  exact congrFun (h (l.act.point label :: context)) l

end Observed

def Target.observe (w : Observer) (context : Context) (value : Expr) :
    Target → Activation → Observed Machine Unit
  | .ident name, act => do
    let value ← value.observe w context act
    .lift (Eval.modifyStore fun store => store.assign act.scope name value)
  | .member base property, act => do
    let base ← base.observe w context act
    let value ← value.observe w context act
    .lift (Eval.setProperty w.engine.bound base property value)
  | .index base key, act => do
    let base ← base.observe w context act
    let key ← key.observe w context act
    let value ← value.observe w context act
    .lift (Eval.setIndex w.engine.bound base key value)

@[simp]
theorem Target.erase_observe (w : Observer) (context : Context) (value : Expr) (target : Target)
    (act : Activation) :
    (target.observe w context value act).erase = target.assign w.engine value act := by
  cases target <;> simp [Target.observe, Target.assign]

def Expr.observeOption (w : Observer) (context : Context) (act : Activation) :
    Option Expr → Observed Machine Value
  | none => return .undefined
  | some e => e.observe w context act

@[simp]
theorem Expr.erase_observeOption (w : Observer) (context : Context) (act : Activation)
    (value : Option Expr) :
    (Expr.observeOption w context act value).erase = Expr.evalOption w.engine act value := by
  cases value <;> simp [Expr.observeOption, Expr.evalOption]

def Expr.observeTest (w : Observer) (context : Context) (e : Expr) : Observed Local Bool :=
  Observed.ofEval fun act => return (← e.observe w context act).isTruthy

@[simp]
theorem Expr.erase_observeTest (w : Observer) (context : Context) (e : Expr) :
    (e.observeTest w context).erase = e.test w.engine := by
  simp [Expr.observeTest, Expr.test]

mutual

def Stmt.observe (w : Observer) (context : Context) (s : Stmt) : Observed Local Completion := do
  Observed.note (.stmt s)
  match s with
  | .block body => Stmt.observeList w context body
  | .letS name init => do
    let value ← .ofEval fun act => Expr.observeOption w context act init
    .lift (Exec.declare name value)
    return .normal
  | .assign target value => do
    Observed.ofEval fun act => target.observe w context value act
    return .normal
  | .expr e => do
    discard <| Observed.ofEval fun act => e.observe w context act
    return .normal
  | .ifS test thenS elseS => do
    if ← test.observeTest w context then thenS.observe w context
    else Stmt.observeOption w context elseS
  | .whileS test body =>
    .loop none (test.observeTest w context) (body.observe w context) w.engine.bound
  | .labeled label (.whileS test body) =>
    .loop (some label) (test.observeTest w context) (body.observe w context) w.engine.bound
  | .labeled label body => do return Exec.landing label (← body.observe w context)
  | .returnS value => return .return (← .ofEval fun act => Expr.observeOption w context act value)
  | .throwS value => do
    let value ← .ofEval fun act => value.observe w context act
    .lift (Run.throw value)
  | .tryS body handler final =>
    .withFinal (Handler.observeOption w context (body.observe w context) handler)
      (Stmt.observeOption w context final)
  | .stackDec => do
    let isCutOff ← .ofEval fun act => Eval.observeCountCall w context act.startAgain
    return if isCutOff then .return .undefined else .normal
  | .recordOnCapture label body =>
    .atPoint context label fun context => .recording label (body.observe w context)
  | .shadowFrame label body =>
    .atPoint context label fun context => .shadowing label (body.observe w context)
  | .breakS _ | .continueS _ | .decl _ | .restoreFrame | .stackInc | .returnIfCapturing _
  | .rethrowSignal _ => .lift (s.exec w.engine)

def Stmt.observeList (w : Observer) (context : Context) : List Stmt → Observed Local Completion
  | [] => return .normal
  | s :: rest => do
    match ← s.observe w context with
    | .normal => Stmt.observeList w context rest
    | abrupt => return abrupt

def Stmt.observeOption (w : Observer) (context : Context) : Option Stmt → Observed Local Completion
  | none => return .normal
  | some s => s.observe w context

def Handler.observeOption (w : Observer) (context : Context) (body : Observed Local Completion) :
    Option Handler → Observed Local Completion
  | none => body
  | some ⟨param, handler⟩ => .handle body param (handler.observe w context)

end

/-- Only a loop is not executed as a whole under a label. -/
theorem Stmt.erase_labeled {w : Observer} {context : Context} {s : Stmt} {label : String}
    (notLoop : ∀ test body, s ≠ .whileS test body)
    (h : (s.observe w context).erase = s.exec w.engine) :
    ((Stmt.labeled label s).observe w context).erase = (Stmt.labeled label s).exec w.engine := by
  rw [Stmt.observe, Stmt.exec]
  · simp [h]
  · exact notLoop
  · exact notLoop

mutual

/-- Execution under observation is execution. -/
theorem Stmt.erases (w : Observer) : (s : Stmt) → (context : Context) →
    (s.observe w context).erase = s.exec w.engine
  | .block body, context => by
    simp [Stmt.observe, Stmt.exec, Stmt.erase_observeList w body context]
  | .letS .., context | .assign .., context | .expr _, context | .returnS _, context | .throwS _,
      context
  | .stackDec, context => by simp [Stmt.observe, Stmt.exec]
  | .ifS test thenS elseS, context => by
    simp [Stmt.observe, Stmt.exec, Stmt.erases w thenS context,
      Stmt.erase_observeOption w elseS context]
  | .whileS test body, context => by simp [Stmt.observe, Stmt.exec, Stmt.erases w body context]
  | .labeled label body, context => by
    have whole := Stmt.erases w body context
    cases body with
    | whileS test body => simp [Stmt.observe, Stmt.exec, Stmt.erases w body context]
    | _ => exact Stmt.erase_labeled nofun whole
  | .tryS body handler final, context => by
    simp [Stmt.observe, Stmt.exec, Handler.erase_observeOption w handler context,
      Stmt.erases w body context, Stmt.erase_observeOption w final context]
  | .recordOnCapture label body, context => by
    have h : ∀ context, (Observed.recording label (body.observe w context)).erase =
        Exec.recording label (body.exec w.engine) := fun context => by
      rw [Observed.erase_recording, Stmt.erases w body context]
    simp [Stmt.observe, Stmt.exec, Observed.erase_atPoint h]
  | .shadowFrame label body, context => by
    have h : ∀ context, (Observed.shadowing label (body.observe w context)).erase =
        Exec.shadowing label (body.exec w.engine) := fun context => by
      rw [Observed.erase_shadowing, Stmt.erases w body context]
    simp [Stmt.observe, Stmt.exec, Observed.erase_atPoint h]
  | .breakS _, _ | .continueS _, _ | .decl _, _ | .restoreFrame, _ | .stackInc,
      _ | .returnIfCapturing _, _
  | .rethrowSignal _, _ => rfl

theorem Stmt.erase_observeList (w : Observer) : (body : List Stmt) → (context : Context) →
    (Stmt.observeList w context body).erase = Stmt.execList w.engine body
  | [], _ => rfl
  | s :: rest, context => by
    have hs := Stmt.erases w s context
    have hr := Stmt.erase_observeList w rest context
    simp only [Stmt.observeList, Stmt.execList, Observed.erase_bind, hs]
    congr 1
    funext completion
    cases completion with
    | normal => exact hr
    | _ => rfl

theorem Stmt.erase_observeOption (w : Observer) : (o : Option Stmt) → (context : Context) →
    (Stmt.observeOption w context o).erase = Stmt.execOption w.engine o
  | none, _ => rfl
  | some s, context => Stmt.erases w s context

theorem Handler.erase_observeOption (w : Observer) : (o : Option Handler) → (context : Context) →
    (body : Observed Local Completion) →
    (Handler.observeOption w context body o).erase = Handler.execOption w.engine body.erase o
  | none, _, _ => rfl
  | some ⟨param, handler⟩, context, body => by
    simp [Handler.observeOption, Handler.execOption, Stmt.erases w handler context]

end

@[simp]
theorem Stmt.erase_observe (w : Observer) (context : Context) (s : Stmt) :
    (s.observe w context).erase = s.exec w.engine :=
  s.erases w context

theorem Stmt.observeList_singleton (w : Observer) (context : Context) (s : Stmt) :
    Stmt.observeList w context [s] = s.observe w context := by
  rw [Stmt.observeList]
  refine Eq.trans (bind_congr fun completion => ?_) (bind_pure (s.observe w context))
  cases completion <;> rfl

theorem Stmt.observeList_append (w : Observer) (context : Context) (body rest : List Stmt) :
    Stmt.observeList w context (body ++ rest) = (do
      match ← Stmt.observeList w context body with
      | .normal => Stmt.observeList w context rest
      | abrupt => return abrupt) := by
  induction body with
  | nil => rfl
  | cons s body ih =>
    rw [List.cons_append, Stmt.observeList, Stmt.observeList, bind_assoc, ih]
    refine bind_congr fun completion => ?_
    cases completion <;> rfl

/-! ## Actions -/

namespace Eval

def observeNative (w : Observer) (context : Context) (native : Native) (this : Value)
    (args : List Value) : Observed Machine Value :=
  match native with
  | .captureCC | .callCC => do
    let handler := firstArg args
    if handler.isCallable then observeCapture w context (.guest handler)
    else do
      let shown ← .lift (display w.engine.bound handler)
      .lift (raise (.captureNeedsFunction shown))
  | native => .lift (callNative w.engine native this args)

def observeBody (w : Observer) (context : Context) (act : Activation) (body : List Stmt) :
    Observed Machine Value := do
  Observed.note (.body act)
  .inActivation act (Stmt.observeList w context body)

def observeEnter (w : Observer) (context : Context) (closure : ClosureId) (this : Value)
    (args : List Value) (newTarget : Value) : Observed Machine Value := do
  let { func, env, .. } ← .lift (Run.read fun m => m.store.closure closure)
  let scope ← .lift (changeStore fun store => store.enterScope func env args)
  let act : Activation :=
    { scope, this, func, callee := some closure, args, argCount := args.length, newTarget }
  observeBody w context act func.body

def observeTop (w : Observer) (context : Context) (top : Func) : Observed Machine Value := do
  Observed.lift (modifyStore fun store => store.hoist Store.globals top.body)
  observeBody w context { scope := Store.globals, func := top } top.body

def observeCall (w : Observer) (context : Context) (func this : Value) (args : List Value) :
    Observed Machine Value :=
  match func with
  | .closure id => observeEnter w context id this args .undefined
  | .native native => observeNative w context native this args
  | func => .lift (call w.engine func this args)

def observeConstruct (w : Observer) (context : Context) (callee : Value) (args : List Value) :
    Observed Machine Value :=
  match callee with
  | .closure id => do
    let this ← .lift (makeInstance id)
    return constructed this (← observeEnter w context id this args callee)
  | callee => .lift (construct w.engine callee args)

/-- The frame of a construction. -/
def constructionFrame (closure : ClosureId) (args : List Value) (function : String) (this : Value) :
    Frame :=
  .call { resume := .handleNew (.closure closure) args, function, locals := [this], label := 0 }

/-- Change the frames that are kept for calls in progress, where the strategy keeps them. -/
def changeKept (strategy : Strategy) (f : Stack → Stack) : Eval Unit :=
  if strategy = .eager then Run.modify fun m => { m with shadow := f m.shadow } else pure ()

/-- What becomes of the end of a constructor.  A capture is given the frame, unless it has it
already. -/
def settleFramed (strategy : Strategy) (frame : Frame) (this : Value) :
    Except Unwind Value → Eval Value
  | .error (.signal (.capture handler stack)) =>
    Run.signal (.capture handler (if strategy = .lazy then stack.pushOuter frame else stack))
  | .error reason => Run.unwind reason
  | .ok value => do
    if strategy = .retval && (← Run.read (·.capturing)) then
      Run.modify fun m => { m with stack := m.stack.pushOuter frame }
      return .undefined
    else return constructed this value

/-- A construction with a frame of its own, which is among the calls in progress inside of it. -/
def observeFramed (w : Observer) (context : Context) (closure : ClosureId) (args : List Value) :
    Observed Machine Value := do
  Observed.note (.construction closure args)
  let name ← .lift (Run.read fun m => (m.store.closure closure).func.displayName)
  let function := "new " ++ name
  let inner := ⟨function, 0⟩ :: context
  let mode ← .lift (Run.read (·.mode))
  let this ← .lift (if mode = .restoring then takeInstance function else makeInstance closure)
  let frame := constructionFrame closure args function this
  let strategy ← .lift (Run.read (·.strategy))
  Observed.lift (changeKept strategy (·.pushInner frame))
  let result ← Observed.attempt <|
    if mode = .restoring then observeReenterNext w inner
    else observeEnter w inner closure this args (.closure closure)
  Observed.lift (changeKept strategy (·.dropInner))
  .lift (settleFramed strategy frame this result)

def observeNew (w : Observer) (context : Context) (callee : Value) (args : List Value) :
    Observed Machine Value := do
  match callee with
  | .closure id => do
    if (← .lift (Run.read (·.strategy))) = .fudge then observeConstruct w context callee args
    else observeFramed w context id args
  | _ => observeConstruct w context callee args

end Eval

/-- Do an action under observation. -/
def Action.observe (w : Observer) (context : Context) (action : Action) :
    Observed Machine Value := do
  Observed.note (.action action)
  match action with
  | .call func this args => Eval.observeCall w context func this args
  | .enter closure this args newTarget => Eval.observeEnter w context closure this args newTarget
  | .enterTop top => Eval.observeTop w context top
  | .construct callee args => Eval.observeConstruct w context callee args
  | .handleNew callee args => Eval.observeNew w context callee args
  | .safePoint => Eval.observeSafePoint w context
  | .reenterNext => Eval.observeReenterNext w context
  | .sequence actions => actions.foldlM (fun _ action => w.perform context action) .undefined
  | .value v => return v
  | .throw v => .lift (Run.throw v)

namespace Eval

section

variable (w : Observer) (context : Context)

include w context

@[simp]
theorem erase_observeNative (native : Native) (this : Value) (args : List Value) :
    (observeNative w context native this args).erase = callNative w.engine native this args := by
  cases native <;> simp [observeNative, callNative]

@[simp]
theorem erase_observeBody (act : Activation) (body : List Stmt) :
    (observeBody w context act body).erase = runBody w.engine act body := by
  funext m
  simp only [observeBody, Observed.erase_bind, Observed.erase_note, pure_bind]
  rw [runBody, ← Stmt.erase_observeList w body context]
  rfl

@[simp]
theorem erase_observeEnter (closure : ClosureId) (this : Value) (args : List Value)
    (newTarget : Value) : (observeEnter w context closure this args newTarget).erase =
      enter w.engine closure this args newTarget := by
  simp [observeEnter, enter]

@[simp]
theorem erase_observeTop (top : Func) : (observeTop w context top).erase =
    enterTop w.engine top := by
  simp [observeTop, enterTop]

@[simp]
theorem erase_observeCall (func this : Value) (args : List Value) :
    (observeCall w context func this args).erase = call w.engine func this args := by
  cases func <;> simp [observeCall, call]

@[simp]
theorem erase_observeConstruct (callee : Value) (args : List Value) :
    (observeConstruct w context callee args).erase = construct w.engine callee args := by
  cases callee <;> simp [observeConstruct, construct]

end

/-- A construction with a frame, step by step. -/
theorem constructFramed_eq (g : Engine) (closure : ClosureId) (args : List Value) :
    constructFramed g closure args = (do
      let name ← Run.read fun m => (m.store.closure closure).func.displayName
      let mode ← Run.read (·.mode)
      let this ← (if mode = .restoring then takeInstance ("new " ++ name) else makeInstance closure)
      let strategy ← Run.read (·.strategy)
      let frame := constructionFrame closure args ("new " ++ name) this
      changeKept strategy (·.pushInner frame)
      let result ← Run.attempt <|
        if mode = .restoring then reenterNext g else enter g closure this args (.closure closure)
      changeKept strategy (·.dropInner)
      settleFramed strategy frame this result) := by
  have coherent : ∀ strategy frame this (result : Except Unwind Value),
      settleFramed strategy frame this result = (match result with
        | .error (.signal (.capture handler stack)) =>
          Run.signal (.capture handler (if strategy = .lazy then stack.pushOuter frame else stack))
        | .error reason => Run.unwind reason
        | .ok value => do
          if strategy = .retval && (← Run.read (·.capturing)) then
            Run.modify fun m => { m with stack := m.stack.pushOuter frame }
            return .undefined
          else return constructed this value) := fun strategy frame this result => by
    unfold settleFramed
    rcases result with (value | (⟨handler, stack⟩ | stack | replacement) | fault) | value <;> rfl
  have kept : ∀ strategy f (x : Eval Value), (changeKept strategy f >>= fun _ => x) =
      if strategy = .eager then
        Run.modify (fun m => { m with shadow := f m.shadow }) >>= fun _ => x
      else x := fun strategy f x => by
    unfold changeKept
    split <;> rfl
  refine bind_congr fun name => bind_congr fun mode => ?_
  simp only [kept, coherent, constructionFrame]
  split <;> rfl

@[simp]
theorem erase_observeFramed (w : Observer) (context : Context) (closure : ClosureId)
    (args : List Value) :
    (observeFramed w context closure args).erase = constructFramed w.engine closure args := by
  simp only [observeFramed, constructFramed_eq, Observed.erase_bind, Observed.erase_note, pure_bind,
    Observed.erase_lift, Observed.erase_attempt, Observed.erase_ite, erase_observeReenterNext,
    erase_observeEnter]

@[simp]
theorem erase_observeNew (w : Observer) (context : Context) (callee : Value) (args : List Value) :
    (observeNew w context callee args).erase = handleNew w.engine callee args := by
  cases callee <;> simp [observeNew, handleNew]

end Eval

theorem Action.erase_observeAll (w : Observer) (context : Context) (actions : List Action)
    (value : Value) :
    (actions.foldlM (fun _ action => w.perform context action) value).erase =
      actions.foldlM (fun _ action => w.engine.perform action) value := by
  induction actions generalizing value with
  | nil => rfl
  | cons action rest ih => simp [w.faithful, ih]

@[simp]
theorem Action.erase_observe (w : Observer) (context : Context) (action : Action) :
    (action.observe w context).erase = action.performWith w.engine := by
  cases action with
  | sequence actions => simp [Action.observe, Action.performWith, Action.erase_observeAll]
  | _ => simp [Action.observe, Action.performWith]

/-- The observer of `perform`, and its engine. -/
def observer (bound : Nat) : (depth : Nat) → { w : Observer // w.engine = ⟨bound,
    perform bound depth⟩ }
  | 0 => ⟨⟨⟨bound, perform bound 0⟩, fun _ _ => .lift Run.cutOff, fun _ _ => rfl⟩, rfl⟩
  | depth + 1 =>
    let w := observer bound depth
    ⟨⟨⟨bound, perform bound (depth + 1)⟩, fun context action => action.observe w.1 context,
      fun context action => by rw [Action.erase_observe, w.2]; rfl⟩, rfl⟩

/-! ## Turns -/

/-- Begin a turn under observation. -/
def Eval.observeStart (w : Observer) (next : Next) : Observed Machine Value := do
  Observed.lift (Run.modify fun m => { m with remaining := m.options.stackSize.map Int.ofNat })
  match next with
  | .run action => do
    Observed.lift (Run.modify ({ · with mode := .normal, stack := .empty, shadow := .empty }))
    w.perform [] action
  | .restore stack => do
    if stack.isEmpty then .lift (Run.fault .emptyStack)
    else do
      Observed.lift (Run.modify (·.install stack))
      Eval.observeReenterNext w []

theorem Eval.erase_observeStart (w : Observer) (next : Next) :
    (Eval.observeStart w next).erase = Eval.start w.engine next := by
  cases next with
  | run action => simp [Eval.observeStart, Eval.start, w.faithful]
  | restore stack =>
    by_cases empty : stack.isEmpty = true
    · simp [Eval.observeStart, Eval.start, Eval.restore, empty]
      rfl
    · simp [Eval.observeStart, Eval.start, Eval.restore, empty]

namespace Machine

/-- A turn under observation. -/
def observed (bound : Nat) (next : Next) : Observed Machine Value :=
  Eval.observeStart (observer bound bound).1 next

/-- What is begun in a turn, in order. -/
def chronicle (bound : Nat) (next : Next) (m : Machine) : List Event :=
  (observed bound next).told m

theorem erase_observed (bound : Nat) (next : Next) :
    (observed bound next).erase = Eval.start (engine bound) next := by
  rw [observed, Eval.erase_observeStart, (observer bound bound).2, engine]

end Machine

end Resumable
