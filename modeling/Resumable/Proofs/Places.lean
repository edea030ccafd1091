import Resumable.Proofs.Labels

/-!
Where the applications of a compiled program stand.

`Stmt.places` goes through a statement and tells for every application in it, functions inside
apart, whether it is the value of a capture point, a call that is returned in normal mode outside of
any `try`, or anything else.  It looks at syntax alone, whoever wrote it.  `Func.Pausable` asks for
a function that the third does not occur, that no label is used twice, and that the function opens
as one that can be resumed has to.  `Program.compile_pausable` says this of every function of a
compiled program.

The labels of an analysis are distinct, and each is the label of one capture point.
-/

namespace Resumable

variable {body run stmts : List Stmt} {e : Expr} {s : Stmt} {strategy : Strategy}
  {labels : List Nat}

/-! ## Places -/

/-- Where an application stands. -/
inductive CallPlace where
  /-- It is the value of the statement that a capture point with this label runs in normal mode. -/
  | point (label : Nat)
  /-- It is returned in normal mode, outside of any `try`. -/
  | tail
  /-- Any other place. -/
  | astray
  deriving DecidableEq, Repr

/-- The label of a capture point. -/
def CallPlace.label? : CallPlace → Option Nat
  | .point label => some label
  | .tail | .astray => none

/-- Where a statement stands among the others. -/
inductive Position where
  | plain
  /-- It is what the capture point with this label is made around. -/
  | held (label : Nat)
  /-- A test for normal mode stands right before it, in a capture point or not. -/
  | normal (label : Option Nat)
  deriving DecidableEq, Repr

namespace Position

/-- The position of what runs if the test holds. -/
def under (pos : Position) : Expr → Position
  | .isNormal => match pos with
    | .held label => .normal (some label)
    | .plain | .normal _ => .normal none
  | _ => .plain

/-- The position of the statements of a block. -/
def inner : Position → Position
  | .normal _ => .normal none
  | .plain | .held _ => .plain

/-- The place of an application that is the value of a statement. -/
def value : Position → CallPlace
  | .normal (some label) => .point label
  | .plain | .held _ | .normal none => .astray

/-- The place of an application that is returned. -/
def returned (inTry : Bool) : Position → CallPlace
  | .normal _ => if inTry then .astray else .tail
  | .plain | .held _ => .astray

/-- The position of a statement with `rest` behind it: one that collects frames makes it a capture
point. -/
def before (strategy : Strategy) (pos : Position) : List Stmt → Position
  | .returnIfCapturing label :: _ => if strategy = .retval then .held label else pos
  | _ => pos

end Position

mutual

/-- The places of the applications in an expression, which stands itself at `whole`. -/
def Expr.places (whole : CallPlace) : Expr → List CallPlace
  | .call callee args | .new callee args | .handleNew callee args =>
    whole :: (callee.places .astray ++ Expr.listPlaces args)
  | .suspend => [whole]
  | .binary _ left right => left.places .astray ++ right.places .astray
  | .unary _ arg => arg.places .astray
  | .cond test thenE elseE => test.places .astray ++ thenE.places .astray ++ elseE.places .astray
  | .member base _ => base.places .astray
  | .index base key => base.places .astray ++ key.places .astray
  | .array elements => Expr.listPlaces elements
  | .object props => Expr.propsPlaces props
  | .num _ | .str _ | .bool _ | .null | .undefined | .ident _ | .func
      _ | .this | .arguments | .isNormal
  | .isRestoring | .targetIn _ | .capturing | .reenterNext | .newTarget => []

def Expr.listPlaces : List Expr → List CallPlace
  | [] => []
  | e :: rest => e.places .astray ++ Expr.listPlaces rest

def Expr.propsPlaces : List (String × Expr) → List CallPlace
  | [] => []
  | (_, e) :: rest => e.places .astray ++ Expr.propsPlaces rest

end

def Expr.optionPlaces (whole : CallPlace) : Option Expr → List CallPlace
  | none => []
  | some e => e.places whole

def Target.places : Target → List CallPlace
  | .ident _ => []
  | .member base _ => base.places .astray
  | .index base key => base.places .astray ++ key.places .astray

mutual

/-- The places of the applications in a statement at a position. -/
def Stmt.places (strategy : Strategy) (inTry : Bool) (pos : Position) : Stmt → List CallPlace
  | .block body => Stmt.listPlaces strategy inTry pos.inner body
  | .letS _ init => Expr.optionPlaces pos.value init
  | .assign target value => target.places ++ value.places pos.value
  | .expr e => e.places pos.value
  | .ifS test thenS elseS =>
    test.places .astray ++ thenS.places strategy inTry (pos.under test) ++
      Stmt.optionPlaces strategy inTry elseS
  | .whileS test body => test.places .astray ++ body.places strategy inTry .plain
  | .labeled _ body => body.places strategy inTry .plain
  | .returnS value => Expr.optionPlaces (pos.returned inTry) value
  | .throwS value => value.places .astray
  | .tryS body handler final =>
    body.places strategy true .plain ++ Handler.optionPlaces strategy handler ++
      Stmt.optionPlaces strategy true final
  | .shadowFrame label body =>
    body.places strategy inTry (if strategy = .eager then .held label else .plain)
  | .recordOnCapture label body =>
    body.places strategy inTry (if strategy = .lazy then .held label else .plain)
  | .breakS _ | .continueS _ | .decl _ | .restoreFrame | .stackDec | .stackInc | .returnIfCapturing
      _
  | .rethrowSignal _ => []

def Stmt.listPlaces (strategy : Strategy) (inTry : Bool) (pos : Position) : List Stmt →
    List CallPlace
  | [] => []
  | s :: rest =>
    s.places strategy inTry (pos.before strategy rest) ++ Stmt.listPlaces strategy inTry pos rest

def Stmt.optionPlaces (strategy : Strategy) (inTry : Bool) : Option Stmt → List CallPlace
  | none => []
  | some s => s.places strategy inTry .plain

def Handler.optionPlaces (strategy : Strategy) : Option Handler → List CallPlace
  | none => []
  | some ⟨_, body⟩ => body.places strategy true .plain

end

/-! ## Functions inside of functions -/

mutual

/-- The functions in an expression, without those inside of others. -/
def Expr.functions : Expr → List Func
  | .func f => [f]
  | .binary _ left right => left.functions ++ right.functions
  | .unary _ arg => arg.functions
  | .cond test thenE elseE => test.functions ++ thenE.functions ++ elseE.functions
  | .member base _ => base.functions
  | .index base key => base.functions ++ key.functions
  | .call callee args | .new callee args | .handleNew callee args =>
    callee.functions ++ Expr.listFunctions args
  | .array elements => Expr.listFunctions elements
  | .object props => Expr.propsFunctions props
  | .num _ | .str _ | .bool _ | .null | .undefined | .ident _ | .this | .arguments | .isNormal
  | .isRestoring | .targetIn _ | .capturing | .reenterNext | .newTarget | .suspend => []

def Expr.listFunctions : List Expr → List Func
  | [] => []
  | e :: rest => e.functions ++ Expr.listFunctions rest

def Expr.propsFunctions : List (String × Expr) → List Func
  | [] => []
  | (_, e) :: rest => e.functions ++ Expr.propsFunctions rest

end

def Expr.optionFunctions : Option Expr → List Func
  | none => []
  | some e => e.functions

def Target.functions : Target → List Func
  | .ident _ => []
  | .member base _ => base.functions
  | .index base key => base.functions ++ key.functions

mutual

/-- The functions in a statement, without those inside of others. -/
def Stmt.functions : Stmt → List Func
  | .block body => Stmt.listFunctions body
  | .letS _ init => Expr.optionFunctions init
  | .assign target value => target.functions ++ value.functions
  | .expr e | .throwS e => e.functions
  | .ifS test thenS elseS => test.functions ++ thenS.functions ++ Stmt.optionFunctions elseS
  | .whileS test body => test.functions ++ body.functions
  | .labeled _ body | .shadowFrame _ body | .recordOnCapture _ body => body.functions
  | .returnS value => Expr.optionFunctions value
  | .tryS body handler final =>
    body.functions ++ Handler.optionFunctions handler ++ Stmt.optionFunctions final
  | .decl f => [f]
  | .breakS _ | .continueS _ | .restoreFrame | .stackDec | .stackInc | .returnIfCapturing _
  | .rethrowSignal _ => []

def Stmt.listFunctions : List Stmt → List Func
  | [] => []
  | s :: rest => s.functions ++ Stmt.listFunctions rest

def Stmt.optionFunctions : Option Stmt → List Func
  | none => []
  | some s => s.functions

def Handler.optionFunctions : Option Handler → List Func
  | none => []
  | some ⟨_, body⟩ => body.functions

end

/-- The property holds of the function and of all functions inside of it, however deep. -/
inductive Func.Throughout (p : Func → Prop) : Func → Prop
  | intro {f : Func} :
      p f → (∀ g ∈ Stmt.listFunctions f.body, Func.Throughout p g) → Func.Throughout p f

/-! ## Functions that can be paused in all their applications -/

/-- The places of the applications of a function. -/
def Func.places (strategy : Strategy) (f : Func) : List CallPlace :=
  Stmt.listPlaces strategy false .plain f.body

/-- Every application of the function can be resumed, and the function opens by counting the call
and taking a frame. -/
structure Func.Pausable (strategy : Strategy) (f : Func) : Prop where
  layout : f.frame.isSome
  opening : ∃ rest, f.body = .stackDec :: .restoreFrame :: rest ∨
    f.body = .letS newTargetLocal (some .newTarget) :: .stackDec :: .restoreFrame :: rest
  resumable : ∀ place ∈ f.places strategy, place ≠ .astray
  distinct : ((f.places strategy).filterMap CallPlace.label?).Nodup

/-! ## Expressions of compiled programs -/

section Expressions

variable {code : Func → Prop} {e : Expr}

theorem Expr.listPlaces_eq_nil {es : List Expr} (none : ∀ e ∈ es, e.places .astray = []) :
    Expr.listPlaces es = [] := by
  induction es with
  | nil => rfl
  | cons e rest ih =>
    rw [List.forall_mem_cons] at none
    rw [Expr.listPlaces, none.1, ih none.2, List.nil_append]

theorem Expr.propsPlaces_eq_nil {props : List (String × Expr)}
    (none : ∀ p ∈ props, p.2.places .astray = []) : Expr.propsPlaces props = [] := by
  induction props with
  | nil => rfl
  | cons p rest ih =>
    rw [List.forall_mem_cons] at none
    rw [Expr.propsPlaces, none.1, ih none.2, List.nil_append]

theorem Expr.Quiet.places (quiet : e.Quiet code) (whole : CallPlace) : e.places whole = [] := by
  induction quiet generalizing whole with
  | binary _ _ leftIH rightIH => rw [Expr.places, leftIH, rightIH, List.nil_append]
  | unary _ ih => rw [Expr.places, ih]
  | cond _ _ _ testIH thenIH elseIH => rw [Expr.places, testIH, thenIH, elseIH]; rfl
  | member _ ih => rw [Expr.places, ih]
  | index _ _ baseIH keyIH => rw [Expr.places, baseIH, keyIH, List.nil_append]
  | array _ ih => rw [Expr.places, Expr.listPlaces_eq_nil fun e mem => ih e mem _]
  | object _ ih => rw [Expr.places, Expr.propsPlaces_eq_nil fun p mem => ih p mem _]
  | _ => rfl

theorem Expr.Live.places (live : e.Live code) (whole : CallPlace) :
    e.places whole = if e.isApplication then [whole] else [] := by
  cases live with
  | quiet quiet => rw [quiet.places, quiet.isApplication]; rfl
  | call callee args | new callee args | handleNew callee args =>
    rw [Expr.places, callee.places, Expr.listPlaces_eq_nil fun e mem => (args e mem).places _]
    rfl
  | suspend => rfl

theorem Target.Quiet.places {target : Target} (quiet : target.Quiet code) : target.places = [] := by
  cases quiet with
  | ident => rfl
  | member base => exact base.places _
  | index base key => rw [Target.places, base.places, key.places, List.nil_append]

end Expressions

/-! ## Functions of compiled programs -/

section Functions

variable {code : Func → Prop}

theorem Expr.listFunctions_of_forall {es : List Expr} (each : ∀ e ∈ es, ∀ f ∈ e.functions, code f) :
    ∀ f ∈ Expr.listFunctions es, code f := by
  induction es with
  | nil => exact fun _ mem => nomatch mem
  | cons e rest ih =>
    rw [List.forall_mem_cons] at each
    exact List.forall_mem_append.mpr ⟨each.1, ih each.2⟩

theorem Expr.propsFunctions_of_forall {props : List (String × Expr)}
    (each : ∀ p ∈ props, ∀ f ∈ p.2.functions, code f) :
    ∀ f ∈ Expr.propsFunctions props, code f := by
  induction props with
  | nil => exact fun _ mem => nomatch mem
  | cons p rest ih =>
    rw [List.forall_mem_cons] at each
    exact List.forall_mem_append.mpr ⟨each.1, ih each.2⟩

theorem Expr.optionFunctions_of_forall {value : Option Expr}
    (each : ∀ e ∈ value, ∀ f ∈ e.functions, code f) : ∀ f ∈ Expr.optionFunctions value, code f := by
  cases value with
  | none => exact fun _ mem => nomatch mem
  | some e => exact each e rfl

theorem Stmt.listFunctions_of_forall (each : ∀ s ∈ body, ∀ f ∈ s.functions, code f) :
    ∀ f ∈ Stmt.listFunctions body, code f := by
  induction body with
  | nil => exact fun _ mem => nomatch mem
  | cons s rest ih =>
    rw [List.forall_mem_cons] at each
    exact List.forall_mem_append.mpr ⟨each.1, ih each.2⟩

theorem Stmt.optionFunctions_of_forall {part : Option Stmt}
    (each : ∀ s ∈ part, ∀ f ∈ s.functions, code f) : ∀ f ∈ Stmt.optionFunctions part, code f := by
  cases part with
  | none => exact fun _ mem => nomatch mem
  | some s => exact each s rfl

theorem Handler.optionFunctions_of_forall {handler : Option Handler}
    (each : ∀ h ∈ handler, ∀ f ∈ h.body.functions, code f) :
    ∀ f ∈ Handler.optionFunctions handler, code f := by
  cases handler with
  | none => exact fun _ mem => nomatch mem
  | some h =>
    obtain ⟨param, body⟩ := h
    exact each ⟨param, body⟩ rfl

theorem Expr.Quiet.functions (quiet : e.Quiet code) : ∀ f ∈ e.functions, code f := by
  induction quiet with
  | func h => exact List.forall_mem_singleton.mpr h
  | binary _ _ leftIH rightIH => exact List.forall_mem_append.mpr ⟨leftIH, rightIH⟩
  | unary _ ih => exact ih
  | cond _ _ _ testIH thenIH elseIH =>
    exact List.forall_mem_append.mpr ⟨List.forall_mem_append.mpr ⟨testIH, thenIH⟩, elseIH⟩
  | member _ ih => exact ih
  | index _ _ baseIH keyIH => exact List.forall_mem_append.mpr ⟨baseIH, keyIH⟩
  | array _ ih => exact Expr.listFunctions_of_forall ih
  | object _ ih => exact Expr.propsFunctions_of_forall ih
  | _ => exact fun _ mem => nomatch mem

theorem Expr.Live.functions (live : e.Live code) : ∀ f ∈ e.functions, code f := by
  cases live with
  | quiet quiet => exact quiet.functions
  | call callee args | new callee args | handleNew callee args =>
    exact List.forall_mem_append.mpr
      ⟨callee.functions, Expr.listFunctions_of_forall fun e mem => (args e mem).functions⟩
  | suspend => exact fun _ mem => nomatch mem

theorem Target.Quiet.functions {target : Target} (quiet : target.Quiet code) :
    ∀ f ∈ target.functions, code f := by
  cases quiet with
  | ident => exact fun _ mem => nomatch mem
  | member base => exact base.functions
  | index base key => exact List.forall_mem_append.mpr ⟨base.functions, key.functions⟩

theorem Stmt.Reentering.functions (reentering : s.Reentering code) : ∀ f ∈ s.functions, code f := by
  induction reentering with
  | letS => exact fun _ mem => nomatch mem
  | assign target =>
    exact List.forall_mem_append.mpr ⟨target.functions, fun _ mem => nomatch mem⟩
  | expr => exact fun _ mem => nomatch mem
  | guarded test _ ih =>
    exact List.forall_mem_append.mpr
      ⟨List.forall_mem_append.mpr ⟨test.functions, ih⟩, fun _ mem => nomatch mem⟩

/-- The functions of a statement in two modes are of the class. -/
theorem Stmt.Dual.functions {normal : Bool} (dual : s.Dual strategy code normal) :
    ∀ f ∈ s.functions, code f := by
  induction dual with
  | select _ reentering ih =>
    refine List.forall_mem_append.mpr ⟨ih, ?_⟩
    exact Stmt.optionFunctions_of_forall fun s mem => (reentering s mem).functions
  | shadow _ _ ih => exact ih
  | record _ _ ih => exact ih
  | block _ ih => exact Stmt.listFunctions_of_forall ih
  | branch test _ _ thenIH elseIH =>
    exact List.forall_mem_append.mpr ⟨List.forall_mem_append.mpr ⟨test.functions, thenIH⟩,
      Stmt.optionFunctions_of_forall elseIH⟩
  | loop test _ ih => exact List.forall_mem_append.mpr ⟨test.functions, ih⟩
  | labeled _ _ ih => exact ih
  | attempt _ _ _ _ _ bodyIH handlerIH finalIH =>
    exact List.forall_mem_append.mpr
      ⟨List.forall_mem_append.mpr ⟨bodyIH, Handler.optionFunctions_of_forall handlerIH⟩,
        Stmt.optionFunctions_of_forall finalIH⟩
  | bind value => exact value.functions
  | throwS value => exact value.functions
  | answer value => exact Expr.optionFunctions_of_forall fun e mem => (value e mem).functions
  | letS init => exact Expr.optionFunctions_of_forall fun e mem => (init e mem).functions
  | assign target value => exact List.forall_mem_append.mpr ⟨target.functions, value.functions⟩
  | expr e => exact e.functions
  | decl f => exact List.forall_mem_singleton.mpr f
  | returnS value => exact value.functions
  | collect _ | rethrow | stackInc | breakS => exact fun _ mem => nomatch mem

end Functions

/-! ## Lists of statements -/

/-- The list begins with a statement that collects frames. -/
def Stmt.listCollects : List Stmt → Bool
  | .returnIfCapturing _ :: _ => true
  | _ => false

/-- What runs in normal mode only is neither a statement that collects frames nor followed by one.
-/
def Stmt.Apart : List Stmt → Prop
  | [] => True
  | s :: rest =>
    (∀ body ∈ s.normalOnly?, Stmt.listCollects [body] = false ∧ Stmt.listCollects rest = false) ∧
      Stmt.Apart rest

/-- The position is not that of a statement in a capture point. -/
def Position.isLoose : Position → Bool
  | .plain | .normal none => true
  | .held _ | .normal (some _) => false

section Lists

variable {strategy : Strategy} {inTry : Bool} {pos : Position} {first second : List Stmt}

theorem Position.inner_of_isLoose (loose : pos.isLoose = true) : pos.inner = pos := by
  cases pos with
  | plain => rfl
  | held label => cases loose
  | normal label =>
    cases label with
    | none => rfl
    | some label => cases loose

theorem Position.under_isLoose (loose : pos.isLoose = true) (test : Expr) :
    (pos.under test).isLoose = true := by
  unfold Position.under
  split
  · cases pos with
    | held label => cases loose
    | _ => rfl
  · rfl

theorem Position.under_isNormal (loose : pos.isLoose = true) :
    pos.under .isNormal = .normal none := by
  cases pos with
  | held label => cases loose
  | _ => rfl

theorem Position.before_of_not_collects (apart : Stmt.listCollects second = false) :
    pos.before strategy second = pos := by
  unfold Position.before
  split
  · cases apart
  · rfl

theorem Stmt.listCollects_cons (s : Stmt) (rest : List Stmt) :
    Stmt.listCollects (s :: rest) = Stmt.listCollects [s] := by
  cases s <;> rfl

theorem Stmt.listCollects_append (first second : List Stmt) : Stmt.listCollects (first ++ second) =
      if first.isEmpty then Stmt.listCollects second else Stmt.listCollects first := by
  cases first with
  | nil => rfl
  | cons s rest => rw [List.cons_append, Stmt.listCollects_cons, Stmt.listCollects_cons s rest]; rfl

theorem Position.before_append (s : Stmt) (rest second : List Stmt) :
    pos.before strategy (s :: rest ++ second) = pos.before strategy (s :: rest) := by
  cases s <;> rfl

attribute [local simp] Stmt.places Stmt.listPlaces

theorem Stmt.listPlaces_append (apart : Stmt.listCollects second = false) :
    Stmt.listPlaces strategy inTry pos (first ++ second) =
      Stmt.listPlaces strategy inTry pos first ++ Stmt.listPlaces strategy inTry pos second := by
  induction first with
  | nil => rfl
  | cons s rest ih =>
    have same : pos.before strategy (rest ++ second) = pos.before strategy rest := by
      cases rest with
      | nil => exact Position.before_of_not_collects apart
      | cons t rest => exact Position.before_append t rest second
    simp only [List.cons_append, Stmt.listPlaces, same, ih, List.append_assoc]

theorem Stmt.listPlaces_eq_flatMap (apart : ∀ s ∈ run, Stmt.listCollects [s] = false) :
    Stmt.listPlaces strategy inTry pos run = run.flatMap (·.places strategy inTry pos) := by
  induction run with
  | nil => rfl
  | cons s rest ih =>
    rw [List.forall_mem_cons] at apart
    have behind : Stmt.listCollects rest = false := by
      cases rest with
      | nil => rfl
      | cons t rest =>
        rw [Stmt.listCollects_cons]
        exact (List.forall_mem_cons.mp apart.2).1
    rw [Stmt.listPlaces, Position.before_of_not_collects behind, ih apart.2, List.flatMap_cons]

theorem Stmt.Apart.append (left : Stmt.Apart first) (right : Stmt.Apart second)
    (apart : Stmt.listCollects second = false) : Stmt.Apart (first ++ second) := by
  induction first with
  | nil => exact right
  | cons s rest ih =>
    refine ⟨fun body mem => ⟨(left.1 body mem).1, ?_⟩, ih left.2⟩
    show Stmt.listCollects (rest ++ second) = false
    rw [Stmt.listCollects_append]
    split
    · exact apart
    · exact (left.1 body mem).2

/-! ## Shared guards -/

theorem Stmt.places_guarded_isNormal (loose : pos.isLoose = true) (s : Stmt) :
    (Stmt.guarded .isNormal s).places strategy inTry pos = s.places strategy inTry
    (.normal none) := by
  unfold Stmt.guarded
  rw [Stmt.places, Position.under_isNormal loose]
  exact List.append_nil _

theorem shareGuard_places (loose : pos.isLoose = true) (apart : ∀ s ∈ run, Stmt.listCollects [s] =
    false) : Stmt.listPlaces strategy inTry pos (shareGuard run) =
      run.flatMap (·.places strategy inTry (.normal none)) := by
  have alone : ∀ s : Stmt, Stmt.listPlaces strategy inTry pos [.guarded .isNormal s] =
      s.places strategy inTry (.normal none) := by
    intro s
    rw [Stmt.listPlaces, Stmt.listPlaces, List.append_nil]
    exact Stmt.places_guarded_isNormal loose s
  match run with
  | [] => rfl
  | [s] => rw [shareGuard, alone, List.flatMap_singleton]
  | s :: t :: rest =>
    show Stmt.listPlaces strategy inTry pos [.guarded .isNormal (.block (s :: t :: rest))] = _
    rw [alone, Stmt.places]
    exact Stmt.listPlaces_eq_flatMap apart

theorem shareGuard_collects (run : List Stmt) : Stmt.listCollects (shareGuard run) = false := by
  match run with
  | [] => rfl
  | [_] => rfl
  | _ :: _ :: _ => rfl

/-- Sharing guards neither brings a statement that collects frames to the front nor takes it away.
-/
theorem coalesceRun_collects (behind : run ≠ [] → Stmt.listCollects stmts = false)
    (apart : Stmt.Apart stmts) : Stmt.listCollects (coalesceRun run stmts) =
    Stmt.listCollects stmts := by
  induction stmts generalizing run with
  | nil => exact shareGuard_collects run.reverse
  | cons s rest ih =>
    unfold coalesceRun
    split
    · rename_i body guard
      have next := (apart.1 body guard).2
      rw [ih (fun _ => next) apart.2, next, Stmt.normalOnly?_eq_some guard]
      rfl
    · rw [Stmt.listCollects_append]
      split
      · rw [Stmt.listCollects_cons, ← Stmt.listCollects_cons s rest]
      · rename_i some
        have waiting : run ≠ [] := by
          rintro rfl
          exact some rfl
        rw [shareGuard_collects, behind waiting]

/-- A statement stands before a shared guard as it stands before the statements under it. -/
theorem coalesceRun_before (apart : Stmt.Apart stmts) :
    pos.before strategy (coalesceRun [] stmts) = pos.before strategy stmts := by
  cases collects : Stmt.listCollects stmts with
  | false =>
    have same := coalesceRun_collects (fun some => (some rfl).elim) apart
    rw [Position.before_of_not_collects collects,
      Position.before_of_not_collects (same.trans collects)]
  | true =>
    unfold Stmt.listCollects at collects
    split at collects
    · rfl
    · cases collects

/-- Behind a shared guard, statements stand as they stand alone. -/
theorem shareGuard_append_places (behind : run ≠ [] → Stmt.listCollects stmts = false) :
    Stmt.listPlaces strategy inTry pos (shareGuard run.reverse ++ stmts) =
      Stmt.listPlaces strategy inTry pos (shareGuard run.reverse) ++
        Stmt.listPlaces strategy inTry pos stmts := by
  cases run with
  | nil => rfl
  | cons s rest => exact Stmt.listPlaces_append (behind nofun)

theorem coalesceRun_places (loose : pos.isLoose = true)
    (waiting : ∀ s ∈ run, Stmt.listCollects [s] = false) (behind : run ≠ [] →
      Stmt.listCollects stmts = false) (apart : Stmt.Apart stmts) :
    Stmt.listPlaces strategy inTry pos (coalesceRun run stmts) =
      run.reverse.flatMap (·.places strategy inTry (.normal none)) ++
        Stmt.listPlaces strategy inTry pos stmts := by
  have shared (run : List Stmt) (waiting : ∀ s ∈ run, Stmt.listCollects [s] = false) :
      Stmt.listPlaces strategy inTry pos (shareGuard run.reverse) =
        run.reverse.flatMap (·.places strategy inTry (.normal none)) :=
    shareGuard_places loose fun s mem => waiting s (List.mem_reverse.mp mem)
  induction stmts generalizing run with
  | nil =>
    rw [coalesceRun, shared run waiting]
    exact (List.append_nil _).symm
  | cons s rest ih =>
    unfold coalesceRun
    split
    · rename_i body guard
      obtain ⟨single, next⟩ := apart.1 body guard
      have longer : ∀ t ∈ body :: run, Stmt.listCollects [t] = false :=
        List.forall_mem_cons.mpr ⟨single, waiting⟩
      rw [ih longer (fun _ => next) apart.2, Stmt.listPlaces, Position.before_of_not_collects next,
        Stmt.normalOnly?_eq_some guard, Stmt.places_guarded_isNormal loose]
      simp
    · have nothing : ∀ t ∈ ([] : List Stmt), Stmt.listCollects [t] = false := List.forall_mem_nil _
      have later := ih nothing (fun some => (some rfl).elim) apart.2
      have front : run ≠ [] → Stmt.listCollects (s :: coalesceRun [] rest) = false := by
        intro some
        rw [Stmt.listCollects_cons, ← Stmt.listCollects_cons s rest]
        exact behind some
      rw [shareGuard_append_places front, shared run waiting, Stmt.listPlaces,
        coalesceRun_before apart.2, later, Stmt.listPlaces]
      rfl

theorem coalesce_places (loose : pos.isLoose = true) (apart : Stmt.Apart stmts) :
    Stmt.listPlaces strategy inTry pos (coalesce stmts) = Stmt.listPlaces strategy inTry pos
    stmts :=
  coalesceRun_places loose (List.forall_mem_nil _) (fun some => (some rfl).elim) apart

end Lists

/-! ## Segments in two modes -/

/-- Applications at these places can be resumed, and the labels of their capture points are these.
-/
structure CallPlace.Cover (labels : List Nat) (places : List CallPlace) : Prop where
  resumable : ∀ place ∈ places, place ≠ .astray
  labels : places.filterMap CallPlace.label? = labels

theorem CallPlace.Cover.nil : CallPlace.Cover [] [] :=
  ⟨fun _ mem => (nomatch mem), rfl⟩

theorem CallPlace.Cover.point (label : Nat) : CallPlace.Cover [label] [.point label] :=
  ⟨List.forall_mem_singleton.mpr nofun, rfl⟩

theorem CallPlace.Cover.tail : CallPlace.Cover [] [.tail] :=
  ⟨List.forall_mem_singleton.mpr nofun, rfl⟩

theorem CallPlace.Cover.append {later : List Nat} {places rest : List CallPlace}
    (left : CallPlace.Cover labels places) (right : CallPlace.Cover later rest) :
    CallPlace.Cover (labels ++ later) (places ++ rest) :=
  ⟨List.forall_mem_append.mpr ⟨left.resumable, right.resumable⟩,
    by rw [List.filterMap_append, left.labels, right.labels]⟩

/-- The applications of the statements can be resumed, wherever the statements are put, and the
labels of their capture points are these. -/
structure Stmt.Placed (strategy : Strategy) (inTry : Bool) (labels : List Nat) (out : List Stmt) :
    Prop where
  apart : Stmt.Apart out
  alone : Stmt.listCollects out = false
  cover : ∀ pos, pos.isLoose = true → CallPlace.Cover labels
    (Stmt.listPlaces strategy inTry pos out)

namespace Stmt.Placed

variable {strategy : Strategy} {inTry : Bool} {labels later : List Nat} {s : Stmt}
  {out rest : List Stmt} {pos : Position}

theorem nil : Stmt.Placed strategy inTry [] [] :=
  ⟨trivial, rfl, fun _ _ => .nil⟩

theorem append (left : Stmt.Placed strategy inTry labels out)
    (right : Stmt.Placed strategy inTry later rest) :
    Stmt.Placed strategy inTry (labels ++ later) (out ++ rest) where
  apart := left.apart.append right.apart right.alone
  alone := by
    rw [Stmt.listCollects_append]
    split
    · exact right.alone
    · exact left.alone
  cover pos loose := by
    rw [Stmt.listPlaces_append right.alone]
    exact (left.cover pos loose).append (right.cover pos loose)

/-- A single statement. -/
theorem single (alone : Stmt.listCollects [s] = false)
    (only : ∀ body ∈ s.normalOnly?, Stmt.listCollects [body] = false)
    (cover : ∀ pos, pos.isLoose = true → CallPlace.Cover labels (s.places strategy inTry pos)) :
    Stmt.Placed strategy inTry labels [s] where
  apart := ⟨fun body mem => ⟨only body mem, rfl⟩, trivial⟩
  alone := alone
  cover pos loose := by
    rw [Stmt.listPlaces, Stmt.listPlaces, List.append_nil]
    exact cover pos loose

/-- A statement that runs in normal mode only. -/
theorem guarded (alone : Stmt.listCollects [s] = false)
    (cover : CallPlace.Cover labels (s.places strategy inTry (.normal none))) :
    Stmt.Placed strategy inTry labels [.guarded .isNormal s] := by
  refine .single rfl (fun body mem => ?_) fun pos loose => ?_
  · cases mem
    exact alone
  · rw [Stmt.places_guarded_isNormal loose]
    exact cover

theorem ofList (placed : Stmt.Placed strategy inTry labels out) (loose : pos.isLoose = true) :
    CallPlace.Cover labels ((Stmt.ofList out).places strategy inTry pos) := by
  have block : CallPlace.Cover labels ((Stmt.block out).places strategy inTry pos) := by
    rw [Stmt.places, Position.inner_of_isLoose loose]
    exact placed.cover pos loose
  match out with
  | [] => exact block
  | [s] =>
    have cover := placed.cover pos loose
    rw [Stmt.listPlaces, Stmt.listPlaces, List.append_nil] at cover
    exact cover
  | _ :: _ :: _ => exact block

/-- Statements that share their guards. -/
theorem coalesced (placed : Stmt.Placed strategy inTry labels out) :
    Stmt.Placed strategy inTry labels [.block (coalesce out)] := by
  refine .single rfl (fun _ mem => by cases mem) fun pos loose => ?_
  rw [Stmt.places, Position.inner_of_isLoose loose, coalesce_places loose placed.apart]
  exact placed.cover pos loose

/-- Statements under a condition. -/
theorem under {code : Func → Prop} {test : Expr} (placed : Stmt.Placed strategy inTry labels out)
    (quiet : test.Quiet code) (loose : pos.isLoose = true) :
    CallPlace.Cover labels ((Stmt.guarded test (.ofList out)).places strategy inTry pos) := by
  unfold Stmt.guarded
  rw [Stmt.places, quiet.places, List.nil_append, Stmt.optionPlaces, List.append_nil]
  exact placed.ofList (Position.under_isLoose loose test)

end Stmt.Placed

section TwoModes

variable {mode : DualMode} {code : Func → Prop} {inTry : Bool}

/-- A capture point of a statement that holds one application and waits for it when restoring. -/
theorem capturePoint_placed (real : strategy ≠ .fudge) {label : Nat}
    (point : s.places strategy inTry (.normal (some label)) = [.point label])
    (restoring : s.restoring.places strategy inTry .plain = []) :
    Stmt.Placed strategy inTry [label] (capturePoint strategy label s) := by
  have held : (s.dual label).places strategy inTry (.held label) = [.point label] := by
    unfold Stmt.dual Stmt.guarded
    rw [Stmt.places, Stmt.optionPlaces, Stmt.places]
    simp only [Position.under, point, restoring]
    rfl
  cases strategy with
  | eager | lazy =>
    refine .single rfl (fun _ mem => nomatch mem) fun pos _ => ?_
    rw [Stmt.places, if_pos rfl, held]
    exact .point label
  | retval =>
    refine ⟨⟨fun _ mem => (nomatch mem), fun _ mem => (nomatch mem), trivial⟩, rfl, fun pos _ => ?_⟩
    have places : Stmt.listPlaces .retval inTry pos (capturePoint .retval label s) =
        (s.dual label).places .retval inTry (.held label) := by
      show (s.dual label).places .retval inTry (.held label) ++ [] = _
      exact List.append_nil _
    rw [places, held]
    exact .point label
  | fudge => exact (real rfl).elim

/-- A `let`, an assignment or an expression statement with a live value, labeled or not. -/
theorem DualMode.leaf_placed (real : mode.strategy ≠ .fudge) {next : Nat}
    (app : s.application.isSome = e.isApplication) (live : e.Live code)
    (places : ∀ pos, s.places mode.strategy inTry pos = e.places pos.value)
    (restoring : s.restoring.places mode.strategy inTry .plain = [])
    (plain : DualMode.plain s = .guarded .isNormal s) (alone : Stmt.listCollects [s] = false) :
    Stmt.Placed mode.strategy inTry (s.leaf next).1.labels (mode.segment (s.leaf next).1) := by
  unfold Stmt.leaf
  split
  · rename_i isApp
    rw [DualMode.segment]
    refine capturePoint_placed real ?_ restoring
    rw [places, live.places, ← app, if_pos isApp]
    rfl
  · rename_i notApp
    rw [DualMode.segment, plain]
    refine .guarded alone ?_
    rw [places, live.places, ← app, if_neg notApp]
    exact .nil

/-- A `return` outside of any `try`, or of no application. -/
theorem DualMode.ret_placed {value : Option Expr} (live : ∀ e ∈ value, e.Live code)
    (outside : inTry = true → ∀ e ∈ value, e.isApplication = false) :
    Stmt.Placed mode.strategy inTry [] (mode.ret value (returnApp value)) := by
  have silent : ∀ {s : Stmt}, Stmt.listCollects [s] = false → s.normalOnly? = none →
      (∀ pos, s.places mode.strategy inTry pos = []) → Stmt.Placed mode.strategy inTry [] [s] := by
    intro s alone only places
    refine .single alone (fun body mem => ?_) fun pos _ => ?_
    · rw [only] at mem
      cases mem
    · rw [places]
      exact .nil
  have counted : Stmt.Placed mode.strategy inTry [] [.stackInc] :=
    silent rfl rfl fun _ => rfl
  have answers : ∀ {value : Option Expr}, (∀ e ∈ value, e.Quiet code) →
      Stmt.Placed mode.strategy inTry [] [.returnS value] := by
    intro value quiet
    refine silent rfl rfl fun pos => ?_
    cases value with
    | none => rfl
    | some e => exact (quiet e rfl).places _
  have plain : (∀ e ∈ value, e.Quiet code) →
      Stmt.Placed mode.strategy inTry [] (mode.ret value .none) := by
    intro quiet
    simp only [DualMode.ret]
    split
    · have result : (value.getD .undefined).Quiet code := by
        cases value with
        | none => exact .undefined
        | some e => exact quiet e rfl
      have bound : Stmt.Placed mode.strategy inTry []
          [.letS resultLocal (some (value.getD .undefined))] :=
        silent rfl rfl fun _ => result.places _
      have answer : DualMode.constructorResult.Quiet code :=
        .cond (.binary .ident (.unary (.binary .ident .ident))) .this .ident
      exact bound.append (counted.append (answers fun e mem => Option.some.inj mem ▸ answer))
    · exact counted.append (answers quiet)
  cases value with
  | none => exact plain (by simp)
  | some e =>
    unfold returnApp
    simp only
    split
    · rename_i isApp
      have notInTry : inTry = false := by
        cases inTry with
        | false => rfl
        | true => exact ((outside rfl e rfl).symm.trans isApp).symm
      refine counted.append (.guarded rfl ?_)
      rw [Stmt.places, Expr.optionPlaces, (live e rfl).places, if_pos isApp, notInTry]
      exact .tail
    · rename_i notApp
      have quiet := (live e rfl).quiet_of_not_application (by simpa using notApp)
      rw [quiet.containsApplication, if_neg Bool.false_ne_true]
      exact plain fun x mem => Option.some.inj mem ▸ quiet

/-- The applications of the two-mode form of a statement can be resumed, and it has a capture point
for every label of its segment. -/
def DualMode.Covers (mode : DualMode) (s : Stmt) : Prop :=
  ∀ inTry next, Stmt.Placed mode.strategy inTry (s.segment inTry next).1.labels
    (mode.segment (s.segment inTry next).1)

theorem DualMode.segments_placed (covers : ∀ s ∈ body, mode.Covers s) (inTry : Bool) (next : Nat) :
    Stmt.Placed mode.strategy inTry (Segment.listLabels (Stmt.segments inTry next body).1)
      (mode.segments (Stmt.segments inTry next body).1) := by
  induction body generalizing next with
  | nil => exact .nil
  | cons s rest ih =>
    rw [List.forall_mem_cons] at covers
    exact (covers.1 inTry next).append (ih covers.2 _)

theorem DualMode.segmentElse_cover {elseS : Option Stmt} (covers : ∀ s ∈ elseS, mode.Covers s)
    (inTry : Bool) (next : Nat) :
    CallPlace.Cover (Segment.optionLabels (Stmt.segmentOption inTry next elseS).1)
      (Stmt.optionPlaces mode.strategy inTry
        (mode.segmentElse (Stmt.segmentOption inTry next elseS).1)) := by
  cases elseS with
  | none => exact .nil
  | some s =>
    have quiet : (orRestoring .isNormal (s.segment inTry next).1.labels).Quiet Func.Source :=
      orRestoring_quiet .isNormal _
    exact (covers s rfl inTry next).under quiet rfl

theorem DualMode.segmentHandler_cover {handler : Option Handler}
    (covers : ∀ h ∈ handler, mode.Covers h.body) (next : Nat) :
    CallPlace.Cover (Segment.handlerLabels (Handler.segmentOption next handler).1)
      (Handler.optionPlaces mode.strategy
        (mode.segmentHandler (Handler.segmentOption next handler).1)) := by
  cases handler with
  | none => exact .nil
  | some h =>
    obtain ⟨param, body⟩ := h
    exact (covers ⟨param, body⟩ rfl true next).cover .plain rfl

theorem DualMode.segmentFinal_cover {final : Option Stmt} (covers : ∀ s ∈ final, mode.Covers s)
    (next : Nat) :
    CallPlace.Cover (Segment.optionLabels (Stmt.segmentOption true next final).1)
      (Stmt.optionPlaces mode.strategy true
        (mode.segmentFinal (Stmt.segmentOption true next final).1)) := by
  cases final with
  | none => exact .nil
  | some s =>
    have quiet : (Expr.unary .not .capturing).Quiet Func.Source := .unary .capturing
    exact (covers s rfl true next).under quiet rfl

/-- The statement that gets into a handler has no application. -/
theorem DualMode.intoHandler_places {param : String} {pos : Position} {out : List Stmt} :
    Stmt.listPlaces strategy inTry pos (DualMode.intoHandler param labels ++ out) =
      Stmt.listPlaces strategy inTry pos out := by
  unfold DualMode.intoHandler
  split
  · rename_i restoring guard
    have quiet : restoring.Quiet Func.Source := restoringInto_quiet guard
    show (Stmt.guarded restoring (.throwS (.ident param))).places strategy inTry _ ++ _ = _
    unfold Stmt.guarded
    rw [Stmt.places, quiet.places]
    rfl
  · rfl

/-- A statement under a label. -/
theorem DualMode.labeled_placed {label : String}
    (cover : CallPlace.Cover labels (s.places mode.strategy inTry .plain)) :
      Stmt.Placed mode.strategy inTry labels [.guarded (orRestoring .isNormal labels)
        (.labeled label s)] := by
  have quiet : (orRestoring .isNormal labels).Quiet Func.Source := orRestoring_quiet .isNormal _
  refine .single rfl (fun body mem => ?_) fun pos _ => ?_
  · obtain ⟨-, same, -⟩ := Stmt.ifS.inj (Stmt.normalOnly?_eq_some mem)
    rw [← same]
    rfl
  · unfold Stmt.guarded
    rw [Stmt.places, quiet.places, List.nil_append, Stmt.optionPlaces, List.append_nil, Stmt.places]
    exact cover

/-- A statement that runs in normal mode only, and has no application. -/
theorem DualMode.plain_placed (plain : DualMode.plain s = .guarded .isNormal s)
    (alone : Stmt.listCollects [s] = false) (places : s.places mode.strategy inTry (.normal none) =
      []) :
    Stmt.Placed mode.strategy inTry [] [DualMode.plain s] := by
  rw [plain]
  refine .guarded alone ?_
  rw [places]
  exact .nil

theorem orRestoring_ne_isNormal {op : BinaryOp} {left right : Expr}
    (same : orRestoring (.binary op left right) labels = .isNormal) : False := by
  unfold orRestoring at same
  split at same <;> cases same

/-- A statement whose value is `e` carries it if it is an application. -/
theorem Expr.isSome_ite_application (e : Expr) :
    (if e.isApplication then some e else none).isSome = e.isApplication := by
  cases e.isApplication <;> rfl

/-- A call that is bound before it is returned. -/
theorem DualMode.bound_placed (real : mode.strategy ≠ .fudge) (live : e.Live code) (next : Nat) :
    Stmt.Placed mode.strategy inTry ((Stmt.letS tailResult (some e)).leaf next).1.labels
      (mode.segment ((Stmt.letS tailResult (some e)).leaf next).1) :=
  DualMode.leaf_placed real e.isSome_ite_application live (fun _ => rfl) rfl rfl rfl

/-- Every label of a statement of the source grammar becomes a capture point. -/
theorem DualMode.covers_of_sound (real : mode.strategy ≠ .fudge) (sound : s.Sound code) :
    mode.Covers s := by
  intro inTry next
  induction sound generalizing inTry next with
  | block _ ih =>
    exact (DualMode.segments_placed ih inTry next).coalesced
  | letS live =>
    rename_i name init
    cases init with
    | none => exact DualMode.plain_placed rfl rfl rfl
    | some e =>
      exact DualMode.leaf_placed real e.isSome_ite_application (live e rfl) (fun _ =>
        rfl) rfl rfl rfl
  | assign target live =>
    rename_i value
    refine DualMode.leaf_placed real value.isSome_ite_application live (fun pos => ?_) ?_ rfl rfl
    · rw [Stmt.places, target.places, List.nil_append]
    · rw [Stmt.restoring, Stmt.places, target.places]
      rfl
  | expr live =>
    exact DualMode.leaf_placed real (Expr.isSome_ite_application _) live (fun _ => rfl) rfl rfl rfl
  | ifS test _ _ thenIH elseIH =>
    refine .single rfl (fun body mem => ?_) fun pos loose => ?_
    · exact (orRestoring_ne_isNormal (Stmt.ifS.inj (Stmt.normalOnly?_eq_some mem)).1).elim
    · rw [Stmt.places, (orRestoring_quiet (.binary .isNormal test) _).places, List.nil_append]
      exact ((thenIH inTry next).ofList (Position.under_isLoose loose _)).append
        (DualMode.segmentElse_cover elseIH inTry _)
  | loop test _ ih =>
    refine DualMode.labeled_placed ?_
    simp only [Stmt.segment, DualMode.segment, Stmt.ofList, Segment.labels]
    rw [Stmt.places]
    have inBody : CallPlace.Cover _ ((Stmt.ofList _).places mode.strategy inTry .plain) :=
      (ih inTry next).ofList rfl
    split
    · rename_i restoring guard
      have quiet : (Expr.binary .or restoring (.binary .and .isNormal _)).Quiet code :=
        .binary (restoringInto_quiet guard) (.binary .isNormal test)
      rw [quiet.places, List.nil_append]
      exact inBody
    · have quiet : (Expr.binary .and .isNormal _).Quiet code := .binary .isNormal test
      rw [quiet.places, List.nil_append]
      exact inBody
  | labeled notLoop _ ih =>
    exact DualMode.labeled_placed ((ih inTry next).ofList rfl)
  | breakS =>
    exact DualMode.plain_placed rfl rfl rfl
  | returnS live =>
    rename_i value
    cases value with
    | none => exact DualMode.ret_placed live (by simp)
    | some e =>
      simp only [Stmt.segment]
      split
      · have name : ∀ x ∈ some (Expr.ident tailResult), x.Live code :=
          fun x mem => Option.some.inj mem ▸ .quiet .ident
        have answer : Stmt.Placed mode.strategy inTry []
            (mode.ret (some (.ident tailResult)) .none) :=
          DualMode.ret_placed name fun _ x mem => Option.some.inj mem ▸ rfl
        have both := (DualMode.bound_placed real (live e rfl) next).append (answer.append .nil)
        exact both.coalesced
      · rename_i notBoth
        refine DualMode.ret_placed live fun isIn x mem => ?_
        cases mem
        simpa [isIn] using notBoth
  | throwS value =>
    exact DualMode.plain_placed rfl rfl (value.places _)
  | tryS _ _ _ bodyIH handlerIH finalIH =>
    rename_i body handler final _ _ _
    refine .single rfl (fun _ mem => by cases mem) fun pos loose => ?_
    have inBody := (bodyIH true next).cover .plain rfl
    have inHandler := DualMode.segmentHandler_cover handlerIH (body.segment true next).2
    have inFinal := DualMode.segmentFinal_cover finalIH
      (Handler.segmentOption (body.segment true next).2 handler).2
    have opened : ∀ opening, (opening = [] ∨ ∃ param labels, opening = DualMode.intoHandler param
        labels) → CallPlace.Cover (body.segment true next).1.labels
          ((Stmt.block (opening ++ mode.segment (body.segment true next).1)).places
            mode.strategy true .plain) := by
      rintro _ (rfl | ⟨param, labels, rfl⟩)
      · exact inBody
      · rw [Stmt.places, Position.inner, DualMode.intoHandler_places]
        exact inBody
    simp only [Stmt.segment, Segment.labels]
    rw [Stmt.places]
    refine ((opened _ ?_).append inHandler).append inFinal
    split
    · exact .inr ⟨_, _, rfl⟩
    · exact .inl rfl
  | decl f =>
    exact DualMode.plain_placed rfl rfl rfl

/-- The places in the body of a function, with statements of no application behind it. -/
theorem DualMode.body_cover (real : mode.strategy ≠ .fudge) {closing : List Stmt}
    (sound : ∀ s ∈ body, s.Sound code) (apart : Stmt.listCollects closing = false)
    (places : Stmt.listPlaces mode.strategy false .plain closing = []) :
    CallPlace.Cover (Segment.listLabels (analyze body).body)
      (Stmt.listPlaces mode.strategy false .plain (mode.body (analyze body).body ++ closing)) := by
  have placed : Stmt.Placed mode.strategy false (Segment.listLabels (analyze body).body)
      (mode.segments (analyze body).body) :=
    DualMode.segments_placed (fun s mem => DualMode.covers_of_sound real (sound s mem)) false 0
  rw [Stmt.listPlaces_append apart, places, List.append_nil, DualMode.body,
    coalesce_places rfl placed.apart]
  exact placed.cover .plain rfl

end TwoModes

/-! ## Whole programs -/

theorem Stmt.listFunctions_append (first second : List Stmt) :
    Stmt.listFunctions (first ++ second) = Stmt.listFunctions first ++ Stmt.listFunctions
    second := by
  induction first with
  | nil => rfl
  | cons s rest ih =>
    rw [List.cons_append, Stmt.listFunctions, Stmt.listFunctions, ih, List.append_assoc]

/-- A function whose body is the two-mode form of `body` between its opening and its closing. -/
theorem Func.throughout_of_body {mode : DualMode} (real : mode.strategy ≠ .fudge) {f : Func}
    {opening closing : List Stmt} (layout : f.frame.isSome)
    (opens : opening = [] ∨ opening = [.letS newTargetLocal (some .newTarget)])
    (form : f.body = opening ++ .stackDec :: .restoreFrame :: (mode.body (analyze body).body ++
      closing))
    (sound : ∀ s ∈ body, s.Sound (Func.Throughout (·.Pausable mode.strategy)))
    (apart : Stmt.listCollects closing = false) (places : Stmt.listPlaces mode.strategy false .plain
      closing = [])
    (functions : Stmt.listFunctions closing = []) : f.Throughout (·.Pausable mode.strategy) := by
  have cover := DualMode.body_cover real sound apart places
  have same : f.places mode.strategy =
      Stmt.listPlaces mode.strategy false .plain (mode.body (analyze body).body ++ closing) := by
    unfold Func.places
    rw [form]
    rcases opens with rfl | rfl <;> rfl
  have inside : Stmt.listFunctions f.body = Stmt.listFunctions (mode.body (analyze body).body) := by
    have behind := Stmt.listFunctions_append (mode.body (analyze body).body) closing
    rw [functions, List.append_nil] at behind
    rw [form]
    rcases opens with rfl | rfl <;> exact behind
  have dual : ∀ s ∈ mode.body (analyze body).body, s.Dual mode.strategy _ false :=
    DualMode.body_dual sound
  refine .intro ⟨layout, ⟨mode.body (analyze body).body ++ closing, ?_⟩, ?_, ?_⟩ ?_
  · rcases opens with rfl | rfl
    · exact .inl form
    · exact .inr form
  · rw [same]
    exact cover.resumable
  · rw [same, cover.labels]
    exact analyze_nodup body
  · rw [inside]
    exact Stmt.listFunctions_of_forall fun s mem => (dual s mem).functions

theorem Func.dualMode_throughout {options : CompileOptions} (real : options.strategy ≠ .fudge)
    {f : Func} (sound : ∀ s ∈ f.body, s.Sound (Func.Throughout (·.Pausable options.strategy))) :
    (f.dualMode options).Throughout (·.Pausable options.strategy) := by
  by_cases direct : options.construction = .direct
  · let mode : DualMode := ⟨options.strategy, true⟩
    have form : (f.dualMode options).body =
        [.letS newTargetLocal (some .newTarget)] ++ .stackDec :: .restoreFrame ::
          (mode.body (analyze f.body).body ++
            [.stackInc, .guarded (.ident newTargetLocal) (.returnS (some .this))]) := by
      simp [Func.dualMode, direct, mode]
    have pausable : (f.dualMode options).Throughout (·.Pausable mode.strategy) :=
      Func.throughout_of_body real rfl (.inr rfl) form sound rfl rfl rfl
    exact pausable
  · let mode : DualMode := ⟨options.strategy, false⟩
    have form : (f.dualMode options).body = [] ++ .stackDec :: .restoreFrame ::
        (mode.body (analyze f.body).body ++ [.stackInc]) := by
      simp [Func.dualMode, direct, mode]
    have pausable : (f.dualMode options).Throughout (·.Pausable mode.strategy) :=
      Func.throughout_of_body real rfl (.inl rfl) form sound rfl rfl rfl
    exact pausable

/-- Every function of a compiled program can be paused in all its applications, the top level
included. -/
theorem Program.compile_pausable {options : CompileOptions} {source : Program}
    (accepted : NormalForm.errors source = []) (real : options.strategy ≠ .fudge) :
    ∃ compiled, source.compile options = .ok compiled ∧
      (Machine.top compiled).Throughout (·.Pausable options.strategy) := by
  obtain ⟨prepared, sound, compiles⟩ := Program.compile_eq accepted
  refine ⟨_, compiles, ?_⟩
  have keeps : (instrumenting options).Keeps Func.Source
      (Func.Throughout (·.Pausable options.strategy)) :=
    instrumenting_keeps_of fun _ => Func.dualMode_throughout real
  have transformed := Stmt.transformList_sound keeps prepared.body () sound
  let mode : DualMode := ⟨options.strategy, false⟩
  have form : (Machine.top (prepared.instrument options)).body = [] ++ .stackDec :: .restoreFrame ::
      (mode.body (analyze (Stmt.transformList (instrumenting options) () prepared.body)).body ++
        [.stackInc]) := by
    simp [Machine.top, Program.instrument, mode]
  have pausable : (Machine.top (prepared.instrument options)).Throughout
      (·.Pausable mode.strategy) :=
    Func.throughout_of_body real rfl (.inl rfl) form transformed rfl rfl rfl
  exact pausable

/-- A function that calls inside of a `try`, constructs in its handler and ends with a call that it
returns. -/
def Func.retrying : Func :=
  { name := some "f", params := ["x"],
    body := [.tryS (.block [.returnS (some (.call (.ident "f") [.ident "x"]))])
        (some ⟨"e", .block [.letS "y" (some (.new (.ident "f") [.ident "e"]))]⟩) none,
      .returnS (some (.call (.ident "f") [.ident "x"]))] }

-- the call inside of the `try` is a capture point, the same call at the end is none
example : (Func.retrying.instrument { strategy := .retval }).places .retval =
    [.point 0, .point 1, .tail] := by
  decide +kernel

/-- A program with that function inside of another one. -/
def Program.nestedRetrying : Program :=
  { body := [.decl { name := some "outer", body := [.decl Func.retrying,
      .returnS (some (.call (.ident "f") []))] }, .expr (.call (.ident "outer") [])] }

theorem Program.compile_pausable_of_nestedRetrying : NormalForm.errors Program.nestedRetrying = [] ∧
      ∃ compiled, Program.nestedRetrying.compile
          { strategy := .retval, construction := .direct, yieldInterval := some 3 } = .ok compiled ∧
        (Machine.top compiled).Throughout (·.Pausable .retval) := by
  have accepted : NormalForm.errors Program.nestedRetrying = [] := by
    have none : (NormalForm.errors Program.nestedRetrying).isEmpty = true := by decide +kernel
    exact List.isEmpty_iff.mp none
  exact ⟨accepted, Program.compile_pausable accepted nofun⟩

end Resumable
