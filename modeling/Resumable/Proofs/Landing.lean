import Resumable.Proofs.Signposts
import Resumable.Proofs.Snapshot

/-!
The way of a restoring run to its label.

`Observed.Passes` says that a computation goes on without doing anything: it begins signposts and
conditions only, and changes nothing but the count of calls and the frames that are kept.
`Observed.Lands` says that it comes that way to the capture point of the label, where the next frame
is entered.
-/

namespace Resumable

variable {α β : Type} {s : Stmt} {name param : String} {value : Value} {l l' : Local}
  {params : List String} {x : Observed Local α} {f : α → Observed Local β} {a : α}
  {e normal test : Expr} {rest opening : List Stmt}
  {other : Nat} {body final : Observed Local Completion} {handler : Option Handler}
    {labels : List Nat}
  {context : Context}

/-! ## States on the way -/

/-- Stores with the same bindings, and with the same contents besides. -/
structure Store.Same (s s' : Store) : Prop where
  size : s'.scopes.size = s.scopes.size
  parent : ∀ id, (s'.scope id).parent = (s.scope id).parent
  bindings : ∀ id name, s'.local? id name = s.local? id name
  contents : { s' with scopes := s.scopes } = s

theorem Store.Same.refl (s : Store) : s.Same s :=
  ⟨rfl, fun _ => rfl, fun _ _ => rfl, rfl⟩

theorem Store.Same.trans {s s' s'' : Store} (first : s.Same s') (second : s'.Same s'') :
    s.Same s'' where
  size := second.size.trans first.size
  parent id := (second.parent id).trans (first.parent id)
  bindings id name := (second.bindings id name).trans (first.bindings id name)
  contents := by
    have contents := first.contents
    rw [← second.contents] at contents
    exact contents

/-- A name that is bound to the same value again. -/
theorem Store.Same.declare {s : Store} {id : ScopeId} (bound : s.local? id name = some value) :
    s.Same (s.declare id name value) where
  size := Store.scopes_declare_size ..
  parent other := Store.parent_declare s id other name value
  bindings other name' := by
    rw [Store.local?_declare]
    split
    · rename_i same
      obtain rfl : other = id := congrArg ScopeId.mk same.1.1
      rw [same.2, bound]
    · rfl
  contents := rfl

/-- The activation looks for the label, in restoring mode and while no capture is on its way.  Its
scope binds the names of a kind. -/
structure Local.Seeks (own : String → Prop) (label : Nat) (l : Local) : Prop where
  restoring : l.machine.mode = .restoring
  target : l.act.target = some label
  calm : l.machine.capturing = false
  caught : l.act.caught = none
  known : l.act.scope.index < l.machine.store.scopes.size
  bound : ∀ name, own name → l.machine.store.local? l.act.scope name ≠ none

/-- Nothing but the count of calls and the frames that are kept is different. -/
structure Local.Through (l l' : Local) : Prop where
  act : l'.act = l.act
  store : l.machine.store.Same l'.machine.store
  machine : l'.machine = { l.machine with
    store := l'.machine.store, remaining := l'.machine.remaining, shadow := l'.machine.shadow }

theorem Local.Through.refl (l : Local) : l.Through l :=
  ⟨rfl, .refl _, rfl⟩

theorem Local.Through.trans {l'' : Local} (first : l.Through l') (second : l'.Through l'') :
    l.Through l'' where
  act := second.act.trans first.act
  store := first.store.trans second.store
  machine := by
    rw [second.machine, first.machine]

theorem Local.Seeks.through {own : String → Prop} {label : Nat} (seeks : l.Seeks own label)
    (through : l.Through l') : l'.Seeks own label where
  restoring := by
    rw [through.machine]
    exact seeks.restoring
  target := by
    rw [through.act]
    exact seeks.target
  calm := by
    rw [through.machine]
    exact seeks.calm
  caught := by
    rw [through.act]
    exact seeks.caught
  known := by
    rw [through.act, through.store.size]
    exact seeks.known
  bound name owned := by
    rw [through.act, through.store.bindings]
    exact seeks.bound name owned

/-! ## Events on the way -/

/-- Conditions that instrumentation writes.  Behind the question for normal mode a restoring run
does not look. -/
def Expr.isGuard : Expr → Bool
  | .isNormal | .isRestoring | .targetIn _ | .capturing | .unary .not .capturing | .binary .and
      .isNormal _
  | .binary .and .isRestoring (.targetIn _) => true
  | .binary .or left right => left.isGuard && right.isGuard
  | _ => false

/-- Statements that neither bind nor assign a name and do not leave where they are. -/
def Stmt.isSignpost : Stmt → Bool
  | .block _ | .ifS .. | .whileS .. | .labeled .. | .tryS .. | .recordOnCapture .. | .shadowFrame ..
  | .returnIfCapturing _ | .rethrowSignal _ | .stackInc => true
  | _ => false

/-- What a restoring run may begin on its way: signposts, conditions, and the way into handlers with
these parameters. -/
def Event.OnTheWay (params : List String) : Event → Prop
  | .stmt s _ => s.isSignpost = true ∨ ∃ param ∈ params, s = .throwS (.ident param)
  | .expr e _ _ => e.isGuard = true ∨ ∃ param ∈ params, e = .ident param
  | _ => False

theorem Event.OnTheWay.mono {params' : List String} {event : Event} (way : event.OnTheWay params)
    (sub : params ⊆ params') : event.OnTheWay params' := by
  cases event with
  | stmt s l | expr e act m =>
    rcases way with signpost | ⟨param, mem, rfl⟩
    · exact .inl signpost
    · exact .inr ⟨param, sub mem, rfl⟩
  | _ => exact way

/-! ## Ways -/

namespace Observed

variable {w : Observer} {label : Nat} {params' : List String}

/-- The computation goes on with the result. -/
def Passes (x : Observed Local α) (l : Local) (result : α) : Prop :=
  ∃ l' events, x l = (.ok result l', events) ∧ (∀ event ∈ events, event.OnTheWay []) ∧ l.Through l'

/-- The computation comes to the capture point of the label. -/
def Lands (w : Observer) (label : Nat) (params : List String) (x : Observed Local α)
    (l : Local) : Prop :=
  ∃ before context here s again after,
    x.told l = before ++ ((Stmt.observe w context (.pointAt label s again)).told here ++ after) ∧
    (∀ event ∈ before, event.OnTheWay params) ∧ s.Pausing again ∧ l.Through here

theorem Passes.pure (result : α) : (Pure.pure result : Observed Local α).Passes l result :=
  ⟨l, [], rfl, List.forall_mem_nil _, .refl l⟩

/-- A computation that nothing is told in. -/
theorem Passes.lift {x : Exec α} {result : α} (eq : x l = .ok result l') (through : l.Through l') :
    (lift x).Passes l result :=
  ⟨l', [], by rw [Observed.lift, eq], List.forall_mem_nil _, through⟩

theorem Passes.note {event : Local → Event} (way : (event l).OnTheWay []) :
    (note event).Passes l () :=
  ⟨l, [event l], rfl, List.forall_mem_singleton.mpr way, .refl l⟩

theorem Passes.bind {b : β} (first : x.Passes l a) (rest : ∀ l', l.Through l' → (f a).Passes l' b) :
    (x >>= f).Passes l b := by
  obtain ⟨l₁, events, eq, way, through⟩ := first
  obtain ⟨l₂, later, eq', way', through'⟩ := rest l₁ through
  refine ⟨l₂, events ++ later, ?_, List.forall_mem_append.mpr ⟨way, way'⟩, through.trans through'⟩
  rw [bind_of_ok eq, eq']

theorem Passes.attempt (passes : x.Passes l a) : x.attempt.Passes l (.ok a) := by
  obtain ⟨l', events, eq, way, through⟩ := passes
  refine ⟨l', events, ?_, way, through⟩
  simp only [Observed.attempt, eq]
  rfl

theorem Lands.mono (lands : x.Lands w label params l) (sub : params ⊆ params') :
    x.Lands w label params' l := by
  obtain ⟨before, context, here, s, again, after, told, way, rest⟩ := lands
  exact ⟨before, context, here, s, again, after, told, fun event mem => (way event mem).mono sub,
    rest⟩

/-- What is told later does not matter. -/
theorem Lands.bind (lands : x.Lands w label params l) : (x >>= f).Lands w label params l := by
  obtain ⟨before, context, here, s, again, after, told, rest⟩ := lands
  have both := told_of_bind x f l
  rw [told, List.append_assoc, List.append_assoc] at both
  exact ⟨before, context, here, s, again, _, both, rest⟩

theorem Lands.attempt (lands : x.Lands w label params l) : x.attempt.Lands w label params l :=
  lands

/-- What was told before is on the way. -/
theorem Lands.after {y : Observed Local β} {events : List Event}
    (told : y.told l = events ++ x.told l') (way : ∀ event ∈ events, event.OnTheWay params)
    (through : l.Through l') (lands : x.Lands w label params l') :
    y.Lands w label params l := by
  obtain ⟨before, context, here, s, again, after, told', way', enters, through'⟩ := lands
  refine ⟨events ++ before, context, here, s, again, after, ?_, List.forall_mem_append.mpr ⟨way,
    way'⟩, enters, through.trans through'⟩
  rw [told, told', List.append_assoc]

theorem Passes.lands (first : x.Passes l a) (rest : ∀ l', l.Through l' →
    (f a).Lands w label params l') : (x >>= f).Lands w label params l := by
  obtain ⟨l', events, eq, way, through⟩ := first
  refine (rest l' through).after ?_ (fun event mem => (way event mem).mono (List.nil_subset _))
    through
  refine (told_of_bind x f l).trans ?_
  rw [told, erase, eq]

end Observed

/-! ## Conditions -/

/-- The condition is true or false where the label is looked for. -/
structure Expr.Decides (label : Nat) (e : Expr) (result : Bool) : Prop where
  guard : e.isGuard = true
  eval : ∀ own w context l, Local.Seeks own label l → ∃ events,
    e.observe w context l.act l.machine = (.ok (.bool result) l.machine, events) ∧
      ∀ event ∈ events, event.OnTheWay []

namespace Expr.Decides

variable {label : Nat}

/-- A condition is told, and then it is evaluated. -/
theorem intro {result : Bool} (guard : e.isGuard = true)
    (eval : ∀ own w context l, Local.Seeks own label l → ∃ x events,
      e.observe w context l.act = (do
        Observed.note (.expr e l.act)
        x) ∧ x l.machine = (.ok (.bool result) l.machine, events) ∧ ∀ event ∈ events,
          event.OnTheWay []) :
    e.Decides label result where
  guard := guard
  eval own w context l seeks := by
    obtain ⟨x, events, told, eq, way⟩ := eval own w context l seeks
    have begun : (Event.expr e l.act l.machine).OnTheWay [] := .inl guard
    refine ⟨.expr e l.act l.machine :: events, ?_, List.forall_mem_cons.mpr ⟨begun, way⟩⟩
    rw [told]
    show ((x l.machine).1, [Event.expr e l.act l.machine] ++ (x l.machine).2) = _
    rw [eq]
    rfl

theorem leaf {result : Bool} (guard : e.isGuard = true)
    (told : ∀ w context act, e.observe w context act = (do
      Observed.note (.expr e act)
      .lift (e.eval w.engine act)))
    (value : ∀ own g l, Local.Seeks own label l → e.eval g l.act l.machine = .ok (.bool result)
      l.machine) :
    e.Decides label result := by
  refine .intro guard fun own w context l seeks => ⟨_, [], told w context l.act, ?_,
    List.forall_mem_nil _⟩
  rw [← value own w.engine l seeks]
  rfl

theorem isNormal : Expr.isNormal.Decides label false := by
  refine .leaf rfl (fun w context act => by rw [Expr.observe]) fun own g l seeks => ?_
  show Ending.ok (Value.bool (l.machine.mode = .normal)) l.machine = _
  rw [seeks.restoring]
  rfl

theorem isRestoring : Expr.isRestoring.Decides label true := by
  refine .leaf rfl (fun w context act => by rw [Expr.observe]) fun own g l seeks => ?_
  show Ending.ok (Value.bool (l.machine.mode = .restoring)) l.machine = _
  rw [seeks.restoring]
  rfl

theorem targetIn : (Expr.targetIn labels).Decides label (labels.contains label) := by
  refine .leaf rfl (fun w context act => by rw [Expr.observe]) fun own g l seeks => ?_
  show Ending.ok (Value.bool ((l.act.target.map labels.contains).getD false)) l.machine = _
  rw [seeks.target]
  rfl

theorem capturing : Expr.capturing.Decides label false := by
  refine .leaf rfl (fun w context act => by rw [Expr.observe]) fun own g l seeks => ?_
  show Ending.ok (Value.bool l.machine.capturing) l.machine = _
  rw [seeks.calm]

variable {left right : Expr} {result other : Bool}

theorem notCapturing : (Expr.unary .not .capturing).Decides label true := by
  refine .intro rfl fun own w context l seeks => ?_
  obtain ⟨events, eq, way⟩ := capturing.eval own w context l seeks
  refine ⟨_, events ++ [], by rw [Expr.observe], ?_, by rwa [List.append_nil]⟩
  rw [Observed.bind_of_ok eq]
  rfl

/-- Behind a condition that is false nobody looks. -/
theorem and_false (guard : (Expr.binary .and left right).isGuard = true)
    (first : left.Decides label false) : (Expr.binary .and left right).Decides label false := by
  refine .intro guard fun own w context l seeks => ?_
  obtain ⟨events, eq, way⟩ := first.eval own w context l seeks
  refine ⟨_, events ++ [], by rw [Expr.observe], ?_, by rwa [List.append_nil]⟩
  rw [Observed.bind_of_ok eq]
  rfl

theorem and_true (guard : (Expr.binary .and left right).isGuard = true)
    (first : left.Decides label true) (second : right.Decides label result) :
    (Expr.binary .and left right).Decides label result := by
  refine .intro guard fun own w context l seeks => ?_
  obtain ⟨events, eq, way⟩ := first.eval own w context l seeks
  obtain ⟨later, eq', way'⟩ := second.eval own w context l seeks
  refine ⟨_, events ++ later, by rw [Expr.observe], ?_, List.forall_mem_append.mpr ⟨way, way'⟩⟩
  rw [Observed.bind_of_ok eq]
  show ((right.observe w context l.act l.machine).1,
    events ++ (right.observe w context l.act l.machine).2) = _
  rw [eq']

theorem or (first : left.Decides label result) (second : right.Decides label other) :
    (Expr.binary .or left right).Decides label (result || other) := by
  refine .intro (Bool.and_eq_true_iff.mpr ⟨first.guard, second.guard⟩) fun own w context l seeks =>
    ?_
  obtain ⟨events, eq, way⟩ := first.eval own w context l seeks
  obtain ⟨later, eq', way'⟩ := second.eval own w context l seeks
  cases result with
  | true =>
    refine ⟨_, events ++ [], by rw [Expr.observe], ?_, by rwa [List.append_nil]⟩
    rw [Observed.bind_of_ok eq]
    rfl
  | false =>
    refine ⟨_, events ++ later, by rw [Expr.observe], ?_, List.forall_mem_append.mpr ⟨way, way'⟩⟩
    rw [Observed.bind_of_ok eq]
    show ((right.observe w context l.act l.machine).1,
      events ++ (right.observe w context l.act l.machine).2) = _
    rw [eq', Bool.false_or]

/-- Restoring into one of the labels. -/
theorem restoringInto : (Expr.binary .and .isRestoring (.targetIn labels)).Decides label
    (labels.contains label) :=
  and_true rfl isRestoring targetIn

theorem restoringInto_away (away : label ∉ labels) :
    (Expr.binary .and .isRestoring (.targetIn labels)).Decides label false := by
  have isAway : labels.contains label = false := by simpa using away
  rw [← isAway]
  exact restoringInto

/-- The condition with the labels besides asks for nothing else where the label is not among them.
-/
theorem orRestoring_away (first : normal.Decides label false) (away : label ∉ labels) :
    (orRestoring normal labels).Decides label false := by
  cases labels with
  | nil => exact first
  | cons head rest => exact first.or (restoringInto_away away)

theorem orRestoring_into (first : normal.Decides label false) (mem : label ∈ labels) :
    (orRestoring normal labels).Decides label true := by
  rw [← List.contains_iff_mem.mpr mem]
  cases labels with
  | nil => exact nomatch mem
  | cons head rest => exact first.or restoringInto

theorem restoringOr_into (second : normal.Decides label false) (mem : label ∈ labels) :
    (restoringOr labels normal).Decides label true := by
  rw [← List.contains_iff_mem.mpr mem, ← Bool.or_false (labels.contains label)]
  cases labels with
  | nil => exact nomatch mem
  | cons head rest => exact restoringInto.or second

/-- The condition as a test. -/
theorem passes {own : String → Prop} (decides : e.Decides label result) (w : Observer)
    (context : Context) (seeks : l.Seeks own label) :
    (e.observeTest w context).Passes l result := by
  obtain ⟨events, eq, way⟩ := decides.eval own w context l seeks
  refine ⟨l, events, ?_, way, .refl l⟩
  have value : (do return (← e.observe w context l.act).isTruthy : Observed Machine Bool)
      l.machine = (.ok result l.machine, events ++ []) := by
    rw [Observed.bind_of_ok eq]
    rfl
  show Observed.ofEval _ l = _
  unfold Observed.ofEval
  simp only [value, List.append_nil]
  rfl

end Expr.Decides

/-! ## Statements -/

section Statements

variable {own : String → Prop} {label : Nat} {w : Observer}

/-- A signpost begins. -/
theorem Stmt.note_passes (signpost : s.isSignpost = true) : (Observed.note (.stmt s)).Passes l () :=
  .note (.inl signpost)

theorem Stmt.if_passes {thenS : Stmt} {elseS : Option Stmt} {holds : Bool} {result : Completion}
    (decides : test.Decides label holds) (seeks : l.Seeks own label) (branch : ∀ l', l.Through l' →
      (if holds then thenS.observe w context else Stmt.observeOption w context elseS).Passes l'
      result) :
    ((Stmt.ifS test thenS elseS).observe w context).Passes l result := by
  rw [Stmt.observe]
  refine (Stmt.note_passes rfl).bind fun l₁ first => ?_
  exact (decides.passes w context (seeks.through first)).bind fun l₂ second =>
    branch l₂ (first.trans second)

theorem Stmt.if_lands {thenS : Stmt} {elseS : Option Stmt} {holds : Bool}
    (decides : test.Decides label holds) (seeks : l.Seeks own label) (branch : ∀ l', l.Through l' →
      (if holds then thenS.observe w context else Stmt.observeOption w context elseS).Lands w label
      params l') :
    ((Stmt.ifS test thenS elseS).observe w context).Lands w label params l := by
  rw [Stmt.observe]
  refine (Stmt.note_passes rfl).lands fun l₁ first => ?_
  exact (decides.passes w context (seeks.through first)).lands fun l₂ second =>
    branch l₂ (first.trans second)

/-- What is under a condition that is false is passed. -/
theorem Stmt.guarded_passes (decides : test.Decides label false) (seeks : l.Seeks own label) :
    ((Stmt.ifS test s none).observe w context).Passes l .normal :=
  Stmt.if_passes decides seeks fun _ _ => .pure _

theorem Stmt.cons_passes (first : (s.observe w context).Passes l .normal)
    (later : ∀ l', l.Through l' → (Stmt.observeList w context rest).Passes l' .normal) :
    (Stmt.observeList w context (s :: rest)).Passes l .normal := by
  rw [Stmt.observeList]
  exact first.bind later

theorem Stmt.cons_lands (first : (s.observe w context).Lands w label params l) :
    (Stmt.observeList w context (s :: rest)).Lands w label params l := by
  rw [Stmt.observeList]
  exact first.bind

theorem Stmt.cons_lands_later (first : (s.observe w context).Passes l .normal)
    (later : ∀ l', l.Through l' → (Stmt.observeList w context rest).Lands w label params l') :
    (Stmt.observeList w context (s :: rest)).Lands w label params l := by
  rw [Stmt.observeList]
  exact first.lands later

/-! ### Capture points -/

theorem Stmt.pointAt_lands {again : Stmt} (pausing : s.Pausing again) :
    ((Stmt.pointAt label s again).observe w context).Lands w label params l :=
  ⟨[], context, l, s, again, [], (List.append_nil _).symm, List.forall_mem_nil _, pausing, .refl l⟩

theorem Stmt.pointAt_passes {again : Stmt} (ne : label ≠ other) (seeks : l.Seeks own label) :
    ((Stmt.pointAt other s again).observe w context).Passes l .normal := by
  have isOther : [other].contains label = false := by simpa using ne
  refine Stmt.if_passes .isNormal seeks fun l' through => ?_
  exact Stmt.guarded_passes (isOther ▸ .targetIn) (seeks.through through)

theorem Local.Through.shadow (l : Local) (shadow : Stack) :
    l.Through ⟨l.act, { l.machine with shadow }⟩ :=
  ⟨rfl, .refl _, rfl⟩

theorem Stmt.shadowFrame_lands {body : Stmt}
    (lands : ∀ context l', l.Through l' → (body.observe w context).Lands w label params l') :
    ((Stmt.shadowFrame other body).observe w context).Lands w label params l := by
  rw [Stmt.observe]
  refine (Stmt.note_passes rfl).lands fun l₁ first => ?_
  show (Observed.shadowing other (body.observe w (l₁.act.point other :: context))).Lands w label
    params l₁
  unfold Observed.shadowing
  refine (Observed.Passes.lift (x := Exec.captureFrame other) rfl (.refl l₁)).lands fun l₂ second =>
    ?_
  refine (Observed.Passes.lift (x := Exec.modifyShadow _) rfl (.shadow l₂ _)).lands fun l₃ third =>
    ?_
  exact (lands _ l₃ ((first.trans second).trans third)).attempt.bind

theorem Stmt.shadowFrame_passes {body : Stmt}
    (passes : ∀ context l', l.Through l' → (body.observe w context).Passes l' .normal) :
    ((Stmt.shadowFrame other body).observe w context).Passes l .normal := by
  rw [Stmt.observe]
  refine (Stmt.note_passes rfl).bind fun l₁ first => ?_
  show (Observed.shadowing other (body.observe w (l₁.act.point other :: context))).Passes l₁ .normal
  unfold Observed.shadowing
  refine (Observed.Passes.lift (x := Exec.captureFrame other) rfl (.refl l₁)).bind fun l₂ second =>
    ?_
  refine (Observed.Passes.lift (x := Exec.modifyShadow _) rfl (.shadow l₂ _)).bind fun l₃ third =>
    ?_
  refine (passes _ l₃ ((first.trans second).trans third)).attempt.bind fun l₄ _ => ?_
  exact (Observed.Passes.lift (x := Exec.modifyShadow _) rfl (.shadow l₄ _)).bind fun l₅ _ =>
    .lift rfl (.refl l₅)

theorem Stmt.recordOnCapture_lands {body : Stmt}
    (lands : ∀ context l', l.Through l' → (body.observe w context).Lands w label params l') :
    ((Stmt.recordOnCapture other body).observe w context).Lands w label params l := by
  rw [Stmt.observe]
  refine (Stmt.note_passes rfl).lands fun l₁ first => ?_
  show (Observed.recording other (body.observe w (l₁.act.point other :: context))).Lands w label
    params l₁
  exact (lands _ l₁ first).attempt.bind

theorem Stmt.recordOnCapture_passes {body : Stmt}
    (passes : ∀ context l', l.Through l' → (body.observe w context).Passes l' .normal) :
    ((Stmt.recordOnCapture other body).observe w context).Passes l .normal := by
  rw [Stmt.observe]
  refine (Stmt.note_passes rfl).bind fun l₁ first => ?_
  show (Observed.recording other (body.observe w (l₁.act.point other :: context))).Passes l₁ .normal
  exact (passes _ l₁ first).attempt.bind fun l₂ _ => .lift rfl (.refl l₂)

theorem Stmt.returnIfCapturing_passes (seeks : l.Seeks own label) :
    ((Stmt.returnIfCapturing other).observe w context).Passes l .normal := by
  rw [Stmt.observe]
  refine (Stmt.note_passes rfl).bind fun l₁ first => .lift ?_ (.refl l₁)
  rw [Stmt.exec, Exec.returnIfCapturing, Run.read_bind, (seeks.through first).calm]
  rfl

theorem Stmt.stackInc_passes : (Stmt.stackInc.observe w context).Passes l .normal := by
  rw [Stmt.observe]
  refine (Stmt.note_passes rfl).bind fun l₁ _ => ?_
  have counted : Stmt.stackInc.exec w.engine l₁ =
      .ok .normal ⟨l₁.act, { l₁.machine with remaining := l₁.machine.remaining.map (· + 1) }⟩ := by
    rw [Stmt.exec]
    rfl
  exact .lift counted ⟨rfl, .refl _, rfl⟩

theorem Stmt.rethrowSignal_passes (seeks : l.Seeks own label) :
    ((Stmt.rethrowSignal param).observe w context).Passes l .normal := by
  rw [Stmt.observe]
  refine (Stmt.note_passes rfl).bind fun l₁ first => .lift ?_ (.refl l₁)
  rw [Stmt.exec, Exec.rethrow, Run.read_bind, (seeks.through first).caught]
  rfl

/-! ### Loops and labels -/

theorem Stmt.labeled_lands {body : Stmt} (notLoop : body.isLoop = false)
    (lands : ∀ l', l.Through l' → (body.observe w context).Lands w label params l') :
    ((Stmt.labeled name body).observe w context).Lands w label params l := by
  rw [Stmt.observe]
  · exact (Stmt.note_passes rfl).lands fun l₁ first => (lands l₁ first).bind
  · rintro test body rfl
    cases notLoop

/-- A loop is entered for its labels. -/
theorem Stmt.loop_lands {body : Stmt} (decides : test.Decides label true)
    (bound : 0 < w.engine.bound) (seeks : l.Seeks own label) (lands : ∀ l', l.Through l' →
      (body.observe w context).Lands w label params l') :
    ((Stmt.labeled name (.whileS test body)).observe w context).Lands w label params l := by
  rw [Stmt.observe]
  refine (Stmt.note_passes rfl).lands fun l₁ first => ?_
  obtain ⟨turns, eq⟩ : ∃ turns, w.engine.bound = turns + 1 := ⟨w.engine.bound - 1, by omega⟩
  rw [eq, Observed.loop]
  refine (decides.passes w context (seeks.through first)).lands fun l₂ second => ?_
  exact (lands l₂ (first.trans second)).bind

/-! ### Handlers -/

/-- The computation raises the value, on the way into a handler. -/
def Observed.Raises (params : List String) (x : Observed Local Completion) (l : Local)
    (value : Value) : Prop :=
  ∃ l' events, x l = (.unwind (.throw value) l', events) ∧
    (∀ event ∈ events, event.OnTheWay params) ∧ l.Through l'

theorem Observed.Raises.bind {x : Observed Local Completion}
    {f : Completion → Observed Local Completion} (raises : x.Raises params l value) :
    (x >>= f).Raises params l value := by
  obtain ⟨l', events, eq, rest⟩ := raises
  refine ⟨l', events, ?_, rest⟩
  show Observed.bind x f l = _
  simp only [Observed.bind, eq]

theorem Observed.Passes.raises {f : α → Observed Local Completion} (first : x.Passes l a)
    (rest : ∀ l', l.Through l' → (f a).Raises params l' value) :
    (x >>= f).Raises params l value := by
  obtain ⟨l₁, events, eq, way, through⟩ := first
  obtain ⟨l₂, later, eq', way', through'⟩ := rest l₁ through
  refine ⟨l₂, events ++ later, ?_, List.forall_mem_append.mpr ⟨?_, way'⟩, through.trans through'⟩
  · rw [bind_of_ok eq, eq']
  · exact fun event mem => (way event mem).mono (List.nil_subset _)

/-- The value that is bound to the parameter is raised. -/
theorem Stmt.throwS_raises (mem : param ∈ params) (seeks : l.Seeks own label)
    (bound : l.machine.store.local? l.act.scope param = some value) :
    ((Stmt.throwS (.ident param)).observe w context).Raises params l value := by
  have begun : (Event.stmt (.throwS (.ident param)) l).OnTheWay params := .inr ⟨param, mem, rfl⟩
  have looked : (Event.expr (.ident param) l.act l.machine).OnTheWay params :=
    .inr ⟨param, mem, rfl⟩
  have found : Eval.lookup l.act param l.machine = .ok value l.machine := by
    rw [Eval.lookup, Run.read_bind, Store.lookup?_of_local? seeks.known bound]
    rfl
  have eval : (Observed.ofEval fun act => (Expr.ident param).observe w context act) l =
      (.ok value l, [.expr (.ident param) l.act l.machine]) := by
    show (Exec.ofEval (fun _ _ => Eval.lookup l.act param l.machine) l, _) = _
    rw [found]
    rfl
  refine ⟨l, _, ?_, List.forall_mem_cons.mpr ⟨begun, List.forall_mem_singleton.mpr looked⟩, .refl l⟩
  have noted : Observed.note (.stmt (.throwS (.ident param))) l = (.ok () l,
    [.stmt (.throwS (.ident param)) l]) := rfl
  rw [Stmt.observe, Observed.bind_of_ok noted, Observed.bind_of_ok eval]
  rfl

/-- What is raised is bound to the parameter again, and the handler runs. -/
theorem Observed.Raises.handle {handler : Observed Local Completion} (raises : body.Raises
    params l value) (bound : l.machine.store.local? l.act.scope param = some value)
    (lands : ∀ l', l.Through l' → handler.Lands w label params l') :
    (Observed.handle body param handler).Lands w label params l := by
  obtain ⟨l₁, events, eq, way, through⟩ := raises
  let l₂ : Local :=
    ⟨l₁.act, { l₁.machine with store := l₁.machine.store.declare l₁.act.scope param value }⟩
  have declared : l₁.Through l₂ := by
    refine ⟨rfl, .declare ?_, rfl⟩
    rw [through.act, through.store.bindings, bound]
  refine (lands l₂ (through.trans declared)).after ?_ way (through.trans declared)
  show ((body.attempt >>= _) l).2 = _
  rw [Observed.attempt_bind_of_unwind eq]
  rfl

theorem Observed.Lands.handle {handler : Observed Local Completion}
    (lands : body.Lands w label params l) : (Observed.handle body param handler).Lands w label
    params l :=
  lands.attempt.bind

theorem Observed.Passes.handle {handler : Observed Local Completion}
    (passes : body.Passes l .normal) : (Observed.handle body param handler).Passes l .normal :=
  passes.attempt.bind fun _ _ => .pure _

theorem Observed.Lands.withFinal (lands : body.Lands w label params l) :
    (Observed.withFinal body final).Lands w label params l :=
  lands.attempt.bind

theorem Observed.Passes.withFinal (passes : body.Passes l .normal)
    (finally_ : ∀ l', l.Through l' → final.Passes l' .normal) :
    (Observed.withFinal body final).Passes l .normal :=
  passes.attempt.bind fun l₁ first => (finally_ l₁ first).bind fun l₂ _ => .lift rfl (.refl l₂)

theorem Observed.Passes.intoFinal (passes : body.Passes l .normal)
    (lands : ∀ l', l.Through l' → final.Lands w label params l') :
    (Observed.withFinal body final).Lands w label params l :=
  passes.attempt.lands fun l₁ first => (lands l₁ first).bind

end Statements

/-! ## Where statements return -/

mutual

/-- A `return` is inside of a `try`. -/
def Stmt.returnsInTry (inTry : Bool) : Stmt → Bool
  | .returnS _ => inTry
  | .block body => Stmt.listReturnsInTry inTry body
  | .ifS _ thenS elseS => thenS.returnsInTry inTry || Stmt.optionReturnsInTry inTry elseS
  | .whileS _ body | .labeled _ body | .recordOnCapture _ body | .shadowFrame _ body =>
    body.returnsInTry inTry
  | .tryS body handler final =>
    body.returnsInTry true || Handler.optionReturnsInTry handler || Stmt.optionReturnsInTry
    true final
  | _ => false

def Stmt.listReturnsInTry (inTry : Bool) : List Stmt → Bool
  | [] => false
  | s :: rest => s.returnsInTry inTry || Stmt.listReturnsInTry inTry rest

def Stmt.optionReturnsInTry (inTry : Bool) : Option Stmt → Bool
  | none => false
  | some s => s.returnsInTry inTry

def Handler.optionReturnsInTry : Option Handler → Bool
  | none => false
  | some ⟨_, body⟩ => body.returnsInTry true

end

theorem Stmt.listReturnsInTry_append (inTry : Bool) (first second : List Stmt) :
    Stmt.listReturnsInTry inTry (first ++ second) =
      (Stmt.listReturnsInTry inTry first || Stmt.listReturnsInTry inTry second) := by
  induction first with
  | nil => rfl
  | cons s rest ih =>
    rw [List.cons_append, Stmt.listReturnsInTry, Stmt.listReturnsInTry, ih, Bool.or_assoc]

mutual

/-- A `return` in the statement is in the way of a restoring run that looks for a label elsewhere.
The value that is returned may be bound before. -/
def Stmt.exposes : Stmt → Bool
  | .returnS _ | .letS .. => true
  | .block body => Stmt.listExposes body
  | .ifS (.unary .not .capturing) body _ => body.exposes
  | .tryS body _ final => body.exposes || Stmt.optionExposes final
  | _ => false

def Stmt.listExposes : List Stmt → Bool
  | [] => false
  | s :: rest => s.exposes || Stmt.listExposes rest

def Stmt.optionExposes : Option Stmt → Bool
  | none => false
  | some s => s.exposes

end

theorem Stmt.listExposes_append (first second : List Stmt) :
    Stmt.listExposes (first ++ second) = (Stmt.listExposes first || Stmt.listExposes second) := by
  induction first with
  | nil => rfl
  | cons s rest ih => rw [List.cons_append, Stmt.listExposes, Stmt.listExposes, ih, Bool.or_assoc]

mutual

/-- Nothing in a `try` returns, if no `return` is inside of one. -/
theorem Stmt.returns_of_returnsInTry : (s : Stmt) → s.returnsInTry true = false → s.returns = false
  | .returnS _, outside => nomatch outside
  | .block body, outside => Stmt.listReturns_of_listReturnsInTry body outside
  | .letS .., _ | .assign .., _ | .expr _, _ | .ifS .., _ | .whileS .., _ | .labeled ..,
      _ | .breakS _, _
  | .continueS _, _ | .throwS _, _ | .tryS .., _ | .decl _, _ | .restoreFrame, _ | .stackDec,
      _ | .stackInc, _
  | .recordOnCapture .., _ | .shadowFrame .., _ | .returnIfCapturing _, _ | .rethrowSignal _, _ =>
    rfl

theorem Stmt.listReturns_of_listReturnsInTry : (body : List Stmt) →
    Stmt.listReturnsInTry true body = false → Stmt.listReturns body = false
  | [], _ => rfl
  | s :: rest, outside => by
    rw [Stmt.listReturnsInTry, Bool.or_eq_false_iff] at outside
    rw [Stmt.listReturns, Stmt.returns_of_returnsInTry s outside.1, Bool.false_or]
    exact Stmt.listReturns_of_listReturnsInTry rest outside.2

end

mutual

/-- The parameters of the handlers around the label. -/
def Stmt.around (label : Nat) : Stmt → List String
  | .block body => Stmt.listAround label body
  | .ifS _ thenS elseS => thenS.around label ++ Stmt.optionAround label elseS
  | .whileS _ body | .labeled _ body | .recordOnCapture _ body | .shadowFrame _ body =>
    body.around label
  | .tryS body handler final =>
    body.around label ++ Handler.optionAround label handler ++ Stmt.optionAround label final
  | _ => []

def Stmt.listAround (label : Nat) : List Stmt → List String
  | [] => []
  | s :: rest => s.around label ++ Stmt.listAround label rest

def Stmt.optionAround (label : Nat) : Option Stmt → List String
  | none => []
  | some s => s.around label

def Handler.optionAround (label : Nat) : Option Handler → List String
  | none => []
  | some ⟨param, body⟩ => if body.holds label then param :: body.around label else []

end

theorem Stmt.listAround_append (label : Nat) (first second : List Stmt) :
    Stmt.listAround label (first ++ second) = Stmt.listAround label first ++ Stmt.listAround label
    second := by
  induction first with
  | nil => rfl
  | cons s rest ih => rw [List.cons_append, Stmt.listAround, Stmt.listAround, ih, List.append_assoc]

/-! ## Passing signposts -/

section Signed

variable {own kind : String → Prop} {label : Nat} {w : Observer}

section

variable (signed : Handler.Signed own labels opening handler)

include signed

/-- What the body begins with because of a handler is passed, where the label is not in the handler.
-/
theorem Handler.Signed.opening_away (away : label ∉ labels) :
    opening = [] ∨ ∃ test s, opening = [Stmt.ifS test s Option.none] ∧
    test.Decides label false := by
  cases signed with
  | none => exact .inl rfl
  | some _ _ =>
    cases labels with
    | nil => exact .inl rfl
    | cons head rest => exact .inr ⟨_, _, rfl, .restoringInto_away away⟩

/-- No `return` is among it. -/
theorem Handler.Signed.opening_hidden : Stmt.listExposes opening = false := by
  cases signed with
  | none => rfl
  | some _ _ => cases labels <;> rfl

theorem Handler.Signed.block_passes {body : List Stmt} (away : label ∉ labels)
    (seeks : l.Seeks kind label) (passes : ∀ l', l.Through l' →
      (Stmt.observeList w context body).Passes l' .normal) :
    ((Stmt.block (opening ++ body)).observe w context).Passes l .normal := by
  rw [Stmt.observe]
  refine (Stmt.note_passes rfl).bind fun l₁ first => ?_
  obtain rfl | ⟨test, s, rfl, decides⟩ := signed.opening_away away
  · exact passes l₁ first
  · exact Stmt.cons_passes (Stmt.guarded_passes decides (seeks.through first)) fun l₂ second =>
      passes l₂ (first.trans second)

theorem Handler.Signed.block_lands {body : List Stmt} (away : label ∉ labels)
    (seeks : l.Seeks own label) (lands : ∀ l', l.Through l' →
      (Stmt.observeList w context body).Lands w label params l') :
    ((Stmt.block (opening ++ body)).observe w context).Lands w label params l := by
  rw [Stmt.observe]
  refine (Stmt.note_passes rfl).lands fun l₁ first => ?_
  obtain rfl | ⟨test, s, rfl, decides⟩ := signed.opening_away away
  · exact lands l₁ first
  · exact Stmt.cons_lands_later (Stmt.guarded_passes decides (seeks.through first)) fun l₂ second =>
      lands l₂ (first.trans second)

end

theorem Stmt.SignedElse.passes {s : Option Stmt} (signed : Stmt.SignedElse own labels s)
    (away : label ∉ labels) (seeks : l.Seeks kind label) : (Stmt.observeOption w context s).Passes l
    .normal := by
  cases signed with
  | none => exact .pure _
  | some _ => exact Stmt.guarded_passes (.orRestoring_away .isNormal away) seeks

theorem Handler.lands (lands : body.Lands w label params l) (context : Context)
    (handler : Option Handler) : (Handler.observeOption w context body handler).Lands w label
    params l := by
  cases handler with
  | none => exact lands
  | some handler =>
    obtain ⟨param, body⟩ := handler
    exact lands.handle

theorem Handler.passes (passes : body.Passes l .normal) (context : Context)
    (handler : Option Handler) : (Handler.observeOption w context body handler).Passes l
    .normal := by
  cases handler with
  | none => exact passes
  | some handler =>
    obtain ⟨param, body⟩ := handler
    exact passes.handle

mutual

/-- A restoring run goes past a statement without the label, if no `return` is in its way. -/
theorem Stmt.Signed.passes {labels : List Nat} {s : Stmt} : s.Signed own labels → label ∉ labels →
    s.exposes = false → ∀ {context : Context} {l : Local}, l.Seeks kind label →
    (s.observe w context).Passes l .normal
  | .only _, _, _, _, _, seeks => Stmt.guarded_passes .isNormal seeks
  | .stackInc, _, _, _, _, _ => Stmt.stackInc_passes
  | .shadowed _, away, _, _, _, seeks => Stmt.shadowFrame_passes fun _ _ through =>
    Stmt.pointAt_passes (List.ne_of_not_mem_cons away) (seeks.through through)
  | .recorded _, away, _, _, _, seeks => Stmt.recordOnCapture_passes fun _ _ through =>
    Stmt.pointAt_passes (List.ne_of_not_mem_cons away) (seeks.through through)
  | .block body, away, hidden, _, _, seeks => by
    rw [Stmt.observe]
    exact (Stmt.note_passes rfl).bind fun l₁ first => body.passes away hidden (seeks.through first)
  | .branch _ elseS, away, _, _, _, seeks => by
    rw [List.mem_append, not_or] at away
    refine Stmt.if_passes (.orRestoring_away (.and_false rfl .isNormal)
      away.1) seeks fun l₁ first => ?_
    exact elseS.passes away.2 (seeks.through first)
  | .loop _, away, _, _, _, seeks | .labeled _ _, away, _, _, _, seeks =>
    Stmt.guarded_passes (.orRestoring_away .isNormal away) seeks
  | .attempt body handler final, away, hidden, _, _, seeks => by
    simp only [List.mem_append, not_or] at away
    simp only [Stmt.exposes, Stmt.listExposes_append, Bool.or_eq_false_iff] at hidden
    rw [Stmt.observe]
    refine (Stmt.note_passes rfl).bind fun l₁ first => ?_
    refine (Handler.passes ?_ _ _).withFinal fun l₂ second => ?_
    · refine handler.block_passes away.1.2 (seeks.through first) fun l₂ second => ?_
      exact body.passes away.1.1 hidden.1.2 (seeks.through (first.trans second))
    · exact final.passes away.2 hidden.2 (seeks.through (first.trans second))

theorem Stmt.SignedFinal.passes {labels : List Nat}
    {s : Option Stmt} : Stmt.SignedFinal own labels s → label ∉ labels → Stmt.optionExposes s =
    false → ∀ {context : Context} {l : Local}, l.Seeks kind label →
    (Stmt.observeOption w context s).Passes l .normal
  | .none, _, _, _, _, _ => .pure _
  | .some signed, away, hidden, _, _, seeks =>
    Stmt.if_passes .notCapturing seeks fun _ first => signed.passes away
    hidden (seeks.through first)

theorem Stmt.SignedList.passes {labels : List Nat} {body : List Stmt} :
    Stmt.SignedList own labels body → label ∉ labels → Stmt.listExposes body = false →
    ∀ {context : Context} {l : Local}, l.Seeks kind label → (Stmt.observeList w context body).Passes
    l .normal
  | .nil, _, _, _, _, _ => .pure _
  | .cons s rest, away, hidden, _, _, seeks => by
    rw [List.mem_append, not_or] at away
    rw [Stmt.listExposes, Bool.or_eq_false_iff] at hidden
    refine Stmt.cons_passes (s.passes away.1 hidden.1 seeks) fun l₁ first => ?_
    exact rest.passes away.2 hidden.2 (seeks.through first)
  | .point _ rest, away, hidden, _, _, seeks => by
    rw [List.mem_cons, not_or] at away
    refine Stmt.cons_passes (Stmt.pointAt_passes away.1 seeks) fun l₁ first => ?_
    refine Stmt.cons_passes (Stmt.returnIfCapturing_passes
      (seeks.through first)) fun l₂ second => ?_
    exact rest.passes away.2 hidden (seeks.through (first.trans second))
  | .result _, _, hidden, _, _, _ => nomatch hidden

end

/-- What is under a condition with labels is not in the way. -/
theorem Stmt.guarded_hidden (hidden : ∀ s elseS, (Stmt.ifS normal s elseS).exposes = false)
    (labels : List Nat) (s : Stmt) (elseS : Option Stmt) :
    (Stmt.ifS (orRestoring normal labels) s elseS).exposes = false := by
  cases labels with
  | nil => exact hidden s elseS
  | cons _ _ => rfl

mutual

/-- What goes on, without a `return` inside of a `try`, has none in the way. -/
theorem Stmt.Signed.hidden {labels : List Nat} {s : Stmt} {inTry : Bool} : s.Signed own labels →
    s.returns = false → s.returnsInTry inTry = false → s.exposes = false
  | .only _, _, _ | .stackInc, _, _ | .shadowed _, _, _ | .recorded _, _, _ => rfl
  | .block body, goesOn, outside => body.hidden goesOn outside
  | .branch _ _, _, _ | .loop _, _, _ | .labeled _ _, _, _ =>
    Stmt.guarded_hidden (fun _ _ => rfl) _ _ _
  | .attempt body handler final, _, outside => by
    simp only [Stmt.returnsInTry, Stmt.listReturnsInTry_append, Bool.or_eq_false_iff] at outside
    have goesOn := Stmt.listReturns_of_listReturnsInTry _ outside.1.1.2
    simp only [Stmt.exposes, Stmt.listExposes_append, handler.opening_hidden,
      body.hidden goesOn outside.1.1.2, final.hidden outside.2, Bool.or_false]

theorem Stmt.SignedFinal.hidden {labels : List Nat} {s : Option Stmt} :
    Stmt.SignedFinal own labels s → Stmt.optionReturnsInTry true s = false →
    Stmt.optionExposes s = false
  | .none, _ => rfl
  | .some signed, outside => by
    rw [Stmt.optionReturnsInTry, Stmt.returnsInTry, Bool.or_eq_false_iff] at outside
    exact signed.hidden (Stmt.returns_of_returnsInTry _ outside.1) outside.1

theorem Stmt.SignedList.hidden {labels : List Nat} {body : List Stmt} {inTry : Bool} :
    Stmt.SignedList own labels body → Stmt.listReturns body = false →
    Stmt.listReturnsInTry inTry body = false →
    Stmt.listExposes body = false
  | .nil, _, _ => rfl
  | .cons s rest, goesOn, outside => by
    rw [Stmt.listReturns, Bool.or_eq_false_iff] at goesOn
    rw [Stmt.listReturnsInTry, Bool.or_eq_false_iff] at outside
    rw [Stmt.listExposes, s.hidden goesOn.1 outside.1, rest.hidden goesOn.2 outside.2,
      Bool.or_false]
  | .point _ rest, goesOn, outside => rest.hidden goesOn (Bool.or_eq_false_iff.mp outside).2
  | .result _, goesOn, _ => nomatch goesOn

end

/-! ## Landing -/

/-- A body with a handler for the label raises the value that is bound to the parameter. -/
theorem DualMode.intoHandler_raises (context : Context) (rest : List Stmt) (mem : label ∈ labels)
    (around : param ∈ params) (seeks : l.Seeks own label)
    (bound : l.machine.store.local? l.act.scope param = some value) :
    ((Stmt.block (DualMode.intoHandler param labels ++ rest)).observe w context).Raises params l
    value := by
  have decides : (Expr.binary .and .isRestoring (.targetIn labels)).Decides label true := by
    rw [← List.contains_iff_mem.mpr mem]
    exact .restoringInto
  obtain ⟨head, tail, rfl⟩ := List.exists_cons_of_ne_nil (List.ne_nil_of_mem mem)
  rw [Stmt.observe]
  refine (Stmt.note_passes rfl).raises fun l₁ first => ?_
  show (Stmt.observeList w context (.ifS _ _ none :: rest)).Raises params l₁ value
  rw [Stmt.observeList, Stmt.observe]
  refine Observed.Raises.bind ((Stmt.note_passes rfl).raises fun l₂ second => ?_)
  have seeks' := seeks.through (first.trans second)
  refine (decides.passes w context seeks').raises fun l₃ third => ?_
  refine Stmt.throwS_raises around (seeks'.through third) ?_
  have through := (first.trans second).trans third
  rw [through.act, through.store.bindings, bound]

section

variable (bound : 0 < w.engine.bound)

include bound

set_option linter.unusedSectionVars false in
mutual

/-- A restoring run comes to the label in a statement that holds it. -/
theorem Stmt.Signed.lands {labels : List Nat} {s : Stmt} {inTry : Bool} :
    s.Signed own labels → labels.Nodup → s.holds label = true → s.returnsInTry inTry = false →
    ∀ {context : Context} {l : Local}, l.Seeks own label →
    (s.observe w context).Lands w label (s.around label) l
  | .only bare, _, holds, _, _, _, _ => by simp [Stmt.holds, Stmt.optionHolds, bare] at holds
  | .stackInc, _, holds, _, _, _, _ | .returnS, _, holds, _, _, _, _ => nomatch holds
  | .shadowed pausing, _, holds, _, _, _, _ => by
    rw [Stmt.holds, pausing.holds, Bool.or_false, beq_iff_eq] at holds
    subst holds
    exact Stmt.shadowFrame_lands fun _ _ _ => Stmt.pointAt_lands pausing
  | .recorded pausing, _, holds, _, _, _, _ => by
    rw [Stmt.holds, pausing.holds, Bool.or_false, beq_iff_eq] at holds
    subst holds
    exact Stmt.recordOnCapture_lands fun _ _ _ => Stmt.pointAt_lands pausing
  | .block body, unique, holds, outside, _, _, seeks => by
    rw [Stmt.observe]
    exact (Stmt.note_passes rfl).lands fun l₁ first =>
      body.lands unique holds outside (seeks.through first)
  | .branch thenS elseS, unique, holds, outside, _, _, seeks => by
    obtain ⟨inThen, inElse, apart⟩ := List.nodup_append.mp unique
    rw [Stmt.returnsInTry, Bool.or_eq_false_iff] at outside
    rcases Bool.or_eq_true_iff.mp holds with holds | holds
    · have mem := thenS.mem_of_holds holds
      refine Stmt.if_lands (.orRestoring_into (.and_false rfl .isNormal) mem) seeks fun l₁ first =>
        ?_
      exact (thenS.lands inThen holds outside.1 (seeks.through first)).mono
        (List.subset_append_left ..)
    · have away := fun mem => apart label mem label (elseS.mem_of_holds holds) rfl
      refine Stmt.if_lands (.orRestoring_away (.and_false rfl .isNormal) away) seeks fun l₁ first =>
        ?_
      exact (elseS.lands inElse holds outside.2 (seeks.through first)).mono
        (List.subset_append_right ..)
  | .loop body, unique, holds, outside, _, _, seeks => by
    simp only [Stmt.holds, Stmt.optionHolds, Bool.or_false] at holds
    simp only [Stmt.returnsInTry, Stmt.optionReturnsInTry, Bool.or_false] at outside
    have mem := body.mem_of_holds holds
    refine Stmt.if_lands (.orRestoring_into .isNormal mem) seeks fun l₁ first => ?_
    refine Stmt.loop_lands (.restoringOr_into (.and_false rfl .isNormal) mem) bound
      (seeks.through first) fun l₂ second => ?_
    exact (body.lands unique holds outside (seeks.through (first.trans second))).mono
      (List.subset_append_left ..)
  | .labeled notLoop body, unique, holds, outside, _, _, seeks => by
    simp only [Stmt.holds, Stmt.optionHolds, Bool.or_false] at holds
    simp only [Stmt.returnsInTry, Stmt.optionReturnsInTry, Bool.or_false] at outside
    refine Stmt.if_lands (.orRestoring_into .isNormal (body.mem_of_holds holds)) seeks
      fun l₁ first => ?_
    refine Stmt.labeled_lands notLoop fun l₂ second => ?_
    exact (body.lands unique holds outside (seeks.through (first.trans second))).mono
      (List.subset_append_left ..)
  | .attempt body handler final, unique, holds, outside, _, _, seeks => by
    obtain ⟨inTried, inFinal, apart⟩ := List.nodup_append.mp unique
    obtain ⟨inBody, inHandler, apart'⟩ := List.nodup_append.mp inTried
    simp only [Stmt.returnsInTry, Stmt.listReturnsInTry_append, Bool.or_eq_false_iff] at outside
    simp only [Stmt.holds, Stmt.listHolds_append, handler.opening.1,
      handler.opening.2, Bool.false_or, Bool.not_false, Bool.true_and, Bool.or_eq_true] at holds
    rw [Stmt.observe]
    refine (Stmt.note_passes rfl).lands fun l₁ first => ?_
    replace seeks := seeks.through first
    rcases holds with (holds | holds) | holds
    · have away := fun mem => apart' label (body.mem_of_holds holds) label mem rfl
      refine (Handler.lands (handler.block_lands away seeks fun l₂ second => ?_) _ _).withFinal
      refine (body.lands inBody holds outside.1.1.2 (seeks.through second)).mono fun param mem => ?_
      simp [Stmt.around, Stmt.listAround_append, mem]
    · refine ((handler.lands inHandler holds outside.1.2 _ seeks).mono fun param mem =>
        ?_).withFinal
      simp [Stmt.around, mem]
    · have away : label ∉ _ ++ _ := fun mem => apart label mem label (final.mem_of_holds holds) rfl
      rw [List.mem_append, not_or] at away
      refine Observed.Passes.intoFinal (Handler.passes ?_ _ _) fun l₂ second => ?_
      · refine handler.block_passes away.2 seeks fun l₂ second => ?_
        have goesOn := Stmt.listReturns_of_listReturnsInTry _ outside.1.1.2
        exact body.passes away.1 (body.hidden goesOn outside.1.1.2) (seeks.through second)
      · exact (final.lands inFinal holds outside.2
          (seeks.through second)).mono (List.subset_append_right ..)

theorem Stmt.SignedElse.lands {labels : List Nat} {s : Option Stmt} {inTry : Bool} :
    Stmt.SignedElse own labels s → labels.Nodup → Stmt.optionHolds label s = true →
    Stmt.optionReturnsInTry inTry s = false → ∀ {context : Context} {l : Local}, l.Seeks own label →
    (Stmt.observeOption w context s).Lands w label (Stmt.optionAround label s) l
  | .none, _, holds, _, _, _, _ => nomatch holds
  | .some s, unique, holds, outside, _, _, seeks => by
    simp only [Stmt.holds, Stmt.optionHolds, Bool.or_false] at holds
    simp only [Stmt.returnsInTry, Stmt.optionReturnsInTry, Bool.or_false] at outside
    refine Stmt.if_lands (.orRestoring_into .isNormal (s.mem_of_holds holds)) seeks fun l₁ first =>
      ?_
    exact (s.lands unique holds outside (seeks.through first)).mono (List.subset_append_left ..)

theorem Stmt.SignedFinal.lands {labels : List Nat} {s : Option Stmt} :
    Stmt.SignedFinal own labels s → labels.Nodup → Stmt.optionHolds label s = true →
    Stmt.optionReturnsInTry true s = false → ∀ {context : Context} {l : Local}, l.Seeks own label →
    (Stmt.observeOption w context s).Lands w label (Stmt.optionAround label s) l
  | .none, _, holds, _, _, _, _ => nomatch holds
  | .some s, unique, holds, outside, _, _, seeks => by
    simp only [Stmt.holds, Stmt.optionHolds, Bool.or_false] at holds
    simp only [Stmt.returnsInTry, Stmt.optionReturnsInTry, Bool.or_false] at outside
    refine Stmt.if_lands .notCapturing seeks fun l₁ first => ?_
    exact (s.lands unique holds outside (seeks.through first)).mono (List.subset_append_left ..)

theorem Handler.Signed.lands {labels : List Nat} {opening : List Stmt} {handler : Option Handler} :
    Handler.Signed own labels opening handler → labels.Nodup →
    Handler.optionHolds label handler = true → Handler.optionReturnsInTry handler = false →
    ∀ (rest : List Stmt)
    {context : Context} {l : Local}, l.Seeks own label →
    (Handler.observeOption w context ((Stmt.block (opening ++ rest)).observe w context)
      handler).Lands w label (Handler.optionAround label handler) l
  | .none, _, holds, _, _, _, _, _ => nomatch holds
  | .some owned body, unique, holds, outside, rest, context, _, seeks => by
    rw [Handler.optionHolds] at holds
    rw [Handler.optionAround, if_pos holds]
    simp only [Stmt.holds, Stmt.listHolds, Stmt.returns, Bool.false_or, Bool.not_false,
      Bool.true_and] at holds
    obtain ⟨value, saved⟩ := Option.ne_none_iff_exists'.mp (seeks.bound _ owned)
    refine (DualMode.intoHandler_raises context rest (body.mem_of_holds holds)
      (List.mem_cons_self ..) seeks saved).handle saved fun l₁ first => ?_
    rw [Stmt.observe]
    refine (Stmt.note_passes rfl).lands fun l₂ second => ?_
    replace second := first.trans second
    refine Stmt.cons_lands_later (Stmt.rethrowSignal_passes (seeks.through second)) fun l₃ third =>
      ?_
    exact (body.lands unique holds outside (seeks.through (second.trans third))).mono
      (List.subset_cons_self ..)

theorem Stmt.SignedList.lands {labels : List Nat} {body : List Stmt} {inTry : Bool} :
    Stmt.SignedList own labels body → labels.Nodup → Stmt.listHolds label body = true →
    Stmt.listReturnsInTry inTry body = false → ∀ {context : Context} {l : Local},
    l.Seeks own label →
    (Stmt.observeList w context body).Lands w label (Stmt.listAround label body) l
  | .nil, _, holds, _, _, _, _ => nomatch holds
  | .cons s rest, unique, holds, outside, _, _, seeks => by
    obtain ⟨here, later, apart⟩ := List.nodup_append.mp unique
    rw [Stmt.listReturnsInTry, Bool.or_eq_false_iff] at outside
    rcases Bool.or_eq_true_iff.mp holds with holds | holds
    · exact Stmt.cons_lands ((s.lands here holds outside.1 seeks).mono (List.subset_append_left ..))
    · rw [Bool.and_eq_true_iff, Bool.not_eq_true'] at holds
      have away := fun mem => apart label mem label (rest.mem_of_holds holds.2) rfl
      refine Stmt.cons_lands_later (s.passes away (s.hidden holds.1 outside.1) seeks)
        fun l₁ first => ?_
      exact (rest.lands later holds.2 outside.2 (seeks.through first)).mono
        (List.subset_append_right ..)
  | .point pausing rest, unique, holds, outside, _, _, seeks => by
    rw [List.nodup_cons] at unique
    simp only [Stmt.listReturnsInTry, Bool.or_eq_false_iff] at outside
    simp only [Stmt.listHolds, pausing.holds, Bool.false_or] at holds
    rcases Bool.or_eq_true_iff.mp (Bool.and_eq_true_iff.mp holds).2 with here | holds
    · obtain rfl := beq_iff_eq.mp here
      exact Stmt.cons_lands (Stmt.pointAt_lands pausing)
    · replace holds := (Bool.and_eq_true_iff.mp holds).2
      have ne := ne_of_mem_of_not_mem (rest.mem_of_holds holds) unique.1
      refine Stmt.cons_lands_later (Stmt.pointAt_passes ne seeks) fun l₁ first => ?_
      refine Stmt.cons_lands_later (Stmt.returnIfCapturing_passes (seeks.through first))
        fun l₂ second => ?_
      exact (rest.lands unique.2 holds outside.2.2 (seeks.through (first.trans second))).mono
        (List.subset_append_right ..)
  | .result _, _, holds, _, _, _, _ => by
    simp [Stmt.listHolds, Stmt.holds, Stmt.returns] at holds

end

end

end Signed

end Resumable
