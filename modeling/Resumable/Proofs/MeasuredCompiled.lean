import Resumable.Proofs.Loaded
import Resumable.Proofs.Measured
import Resumable.Proofs.Places

/-!
Programs whose compiled code counts calls evenly.

A returned call gives back the depth before it is made, and a `return` inside of a `try` gives it
back before the `finally` part runs.  `Func.ReturnsPlainly` excludes both.  The property is one of
the statements of a function alone, so the passes keep it wherever they keep the shape of statements
(`Transform.KeepsReturns`), and the two modes of such a function give back the depth as they should
(`DualMode.settles_of_sound`).

`Program.compile_measured` puts the passes together.
-/

namespace Resumable

variable {f : Func} {e : Expr} {p : Program} {s : Stmt} {options : CompileOptions}
  {stmts : List Stmt}

/-! ## Plain returns -/

mutual

/-- No call is returned, and nothing is returned inside of a `try`. -/
def Stmt.returnsPlainly (inTry : Bool) : Stmt → Bool
  | .returnS value => !inTry && value.all fun e => !e.isApplication
  | .block body => Stmt.returnsPlainlyList inTry body
  | .ifS _ thenS elseS => thenS.returnsPlainly inTry && Stmt.returnsPlainlyOption inTry elseS
  | .whileS _ body | .labeled _ body | .recordOnCapture _ body | .shadowFrame _ body =>
    body.returnsPlainly inTry
  | .tryS body handler final =>
    body.returnsPlainly true && Handler.returnsPlainlyOption handler && Stmt.returnsPlainlyOption
    true final
  | _ => true

def Stmt.returnsPlainlyList (inTry : Bool) : List Stmt → Bool
  | [] => true
  | s :: rest => s.returnsPlainly inTry && Stmt.returnsPlainlyList inTry rest

def Stmt.returnsPlainlyOption (inTry : Bool) : Option Stmt → Bool
  | none => true
  | some s => s.returnsPlainly inTry

def Handler.returnsPlainlyOption : Option Handler → Bool
  | none => true
  | some ⟨_, body⟩ => body.returnsPlainly true

end

theorem Stmt.returnsPlainlyList_append (inTry : Bool) (body rest : List Stmt) :
    Stmt.returnsPlainlyList inTry (body ++ rest) =
      (Stmt.returnsPlainlyList inTry body && Stmt.returnsPlainlyList inTry rest) := by
  induction body with
  | nil => rfl
  | cons s body ih =>
    rw [List.cons_append, Stmt.returnsPlainlyList, Stmt.returnsPlainlyList, ih, Bool.and_assoc]

theorem Stmt.returnsPlainlyList_of_forall {inTry : Bool} {body : List Stmt}
    (each : ∀ s ∈ body, s.returnsPlainly inTry = true) : Stmt.returnsPlainlyList inTry body =
    true := by
  induction body with
  | nil => rfl
  | cons s rest ih =>
    rw [List.forall_mem_cons] at each
    rw [Stmt.returnsPlainlyList, each.1, ih each.2, Bool.and_self]

/-- The function returns no call, and nothing inside of a `try`. -/
def Func.ReturnsPlainly (f : Func) : Prop :=
  Stmt.returnsPlainlyList false f.body = true

/-- Functions as instrumentation is given them, with plain returns throughout. -/
inductive Func.Plain : Func → Prop
  | intro {f : Func} : (∀ s ∈ f.body, Stmt.Sound Func.Plain s) → f.ReturnsPlainly → Func.Plain f

theorem Func.Plain.body (plain : f.Plain) : ∀ s ∈ f.body, Stmt.Sound Func.Plain s := by
  cases plain with
  | intro body _ => exact body

theorem Func.Plain.returnsPlainly (plain : f.Plain) : f.ReturnsPlainly := by
  cases plain with
  | intro _ returns => exact returns

/-! ## From one class of functions to another -/

section Functions

variable {code code' : Func → Prop}

theorem Expr.mem_listFunctions {es : List Expr} (mem : e ∈ es) (inside : f ∈ e.functions) :
    f ∈ Expr.listFunctions es := by
  induction mem with
  | head => exact List.mem_append_left _ inside
  | tail _ _ ih => exact List.mem_append_right _ ih

theorem Expr.mem_propsFunctions {props : List (String × Expr)} {p : String × Expr} (mem : p ∈ props)
    (inside : f ∈ p.2.functions) : f ∈ Expr.propsFunctions props := by
  induction mem with
  | head => exact List.mem_append_left _ inside
  | tail _ _ ih => exact List.mem_append_right _ ih

theorem Stmt.mem_listFunctions {body : List Stmt} (mem : s ∈ body) (inside : f ∈ s.functions) :
    f ∈ Stmt.listFunctions body := by
  induction mem with
  | head => exact List.mem_append_left _ inside
  | tail _ _ ih => exact List.mem_append_right _ ih

/-- An expression is in a class for other functions if the functions in it are. -/
theorem Expr.Quiet.of_functions (quiet : e.Quiet code) (leads : ∀ f ∈ e.functions, code f →
    code' f) : e.Quiet code' := by
  induction quiet with
  | binary _ _ leftIH rightIH =>
    rw [Expr.functions, List.forall_mem_append] at leads
    exact .binary (leftIH leads.1) (rightIH leads.2)
  | unary _ ih => exact .unary (ih leads)
  | cond _ _ _ testIH thenIH elseIH =>
    rw [Expr.functions, List.forall_mem_append, List.forall_mem_append] at leads
    exact .cond (testIH leads.1.1) (thenIH leads.1.2) (elseIH leads.2)
  | member _ ih => exact .member (ih leads)
  | index _ _ baseIH keyIH =>
    rw [Expr.functions, List.forall_mem_append] at leads
    exact .index (baseIH leads.1) (keyIH leads.2)
  | func ofCode => exact .func (leads _ List.mem_cons_self ofCode)
  | array _ ih =>
    exact .array fun e mem => ih e mem fun f inside => leads f (Expr.mem_listFunctions mem inside)
  | object _ ih =>
    exact .object fun p mem => ih p mem fun f inside => leads f (Expr.mem_propsFunctions mem inside)
  | num => exact .num
  | str => exact .str
  | bool => exact .bool
  | null => exact .null
  | undefined => exact .undefined
  | ident => exact .ident
  | this => exact .this
  | arguments => exact .arguments
  | isNormal => exact .isNormal
  | isRestoring => exact .isRestoring
  | targetIn => exact .targetIn
  | capturing => exact .capturing
  | newTarget => exact .newTarget

theorem Expr.Quiet.list_of_functions {es : List Expr} (quiet : ∀ e ∈ es, e.Quiet code)
    (leads : ∀ f ∈ Expr.listFunctions es, code f → code' f) : ∀ e ∈ es, e.Quiet code' :=
  fun e mem => (quiet e mem).of_functions fun f inside =>
    leads f (Expr.mem_listFunctions mem inside)

theorem Expr.Live.of_functions (live : e.Live code) (leads : ∀ f ∈ e.functions, code f → code' f) :
    e.Live code' := by
  cases live with
  | quiet quiet => exact .quiet (quiet.of_functions leads)
  | call callee args =>
    rw [Expr.functions, List.forall_mem_append] at leads
    exact .call (callee.of_functions leads.1) (Expr.Quiet.list_of_functions args leads.2)
  | new callee args =>
    rw [Expr.functions, List.forall_mem_append] at leads
    exact .new (callee.of_functions leads.1) (Expr.Quiet.list_of_functions args leads.2)
  | handleNew callee args =>
    rw [Expr.functions, List.forall_mem_append] at leads
    exact .handleNew (callee.of_functions leads.1) (Expr.Quiet.list_of_functions args leads.2)
  | suspend => exact .suspend

theorem Expr.Live.option_of_functions {value : Option Expr} (live : ∀ e ∈ value, e.Live code)
    (leads : ∀ f ∈ Expr.optionFunctions value, code f → code' f) : ∀ e ∈ value, e.Live code' := by
  intro e mem
  cases mem
  exact (live e rfl).of_functions leads

theorem Target.Quiet.of_functions {target : Target} (quiet : target.Quiet code)
    (leads : ∀ f ∈ target.functions, code f → code' f) : target.Quiet code' := by
  cases quiet with
  | ident => exact .ident
  | member base => exact .member (base.of_functions leads)
  | index base key =>
    rw [Target.functions, List.forall_mem_append] at leads
    exact .index (base.of_functions leads.1) (key.of_functions leads.2)

/-- A statement is in the grammar for other functions if the functions in it are. -/
theorem Stmt.Sound.of_functions (sound : s.Sound code) (leads : ∀ f ∈ s.functions, code f →
    code' f) : s.Sound code' := by
  induction sound with
  | block _ ih =>
    exact .block fun s mem => ih s mem fun f inside => leads f (Stmt.mem_listFunctions mem inside)
  | letS live => exact .letS (Expr.Live.option_of_functions live leads)
  | assign target value =>
    rw [Stmt.functions, List.forall_mem_append] at leads
    exact .assign (target.of_functions leads.1) (value.of_functions leads.2)
  | expr live => exact .expr (live.of_functions leads)
  | ifS test _ _ thenIH elseIH =>
    rw [Stmt.functions, List.forall_mem_append, List.forall_mem_append] at leads
    refine .ifS (test.of_functions leads.1.1) (thenIH leads.1.2) fun s mem => ?_
    cases mem
    exact elseIH s rfl leads.2
  | loop test _ ih =>
    rw [Stmt.functions, Stmt.functions, List.forall_mem_append] at leads
    exact .loop (test.of_functions leads.1) (ih leads.2)
  | labeled notLoop _ ih => exact .labeled notLoop (ih leads)
  | breakS => exact .breakS
  | returnS live => exact .returnS (Expr.Live.option_of_functions live leads)
  | throwS value => exact .throwS (value.of_functions leads)
  | tryS _ _ _ bodyIH handlerIH finalIH =>
    rw [Stmt.functions, List.forall_mem_append, List.forall_mem_append] at leads
    refine .tryS (bodyIH leads.1.1) (fun h mem => ?_) fun s mem => ?_
    · cases mem
      obtain ⟨param, body⟩ := h
      exact handlerIH ⟨param, body⟩ rfl leads.1.2
    · cases mem
      exact finalIH s rfl leads.2
  | decl ofCode => exact .decl (leads _ List.mem_cons_self ofCode)

/-- Source functions with plain returns throughout. -/
theorem Func.Throughout.plain (throughout : f.Throughout Func.ReturnsPlainly) (source : f.Source) :
    f.Plain := by
  induction throughout with
  | intro returns _ ih =>
    refine .intro (fun s mem => ?_) returns
    exact (source.body s mem).of_functions fun g inside => ih g (Stmt.mem_listFunctions mem inside)

end Functions

/-! ## Passes -/

/-- What a transformation does at one node leaves returns plain. -/
structure Transform.KeepsReturns (r : Transform ε) : Prop where
  expr : ∀ env (e : Expr), e.isApplication = false → (r.expr env e).isApplication = false
  stmt : ∀ env (s : Stmt) inTry, s.returnsPlainly inTry = true →
    (r.stmt env s).returnsPlainly inTry = true

section Passes

variable {ε : Type} {r : Transform ε}

theorem Expr.transform_not_application (keeps : r.KeepsReturns) (env : ε)
    (notApp : e.isApplication = false) : (e.transform r env).isApplication = false := by
  unfold Expr.transform
  apply keeps.expr
  cases e with
  | call | new | handleNew | suspend => cases notApp
  | _ => rfl

mutual

theorem Stmt.transform_returnsPlainly (keeps : r.KeepsReturns) :
    (s : Stmt) → (env : ε) → (inTry : Bool) → s.returnsPlainly inTry = true →
    (s.transform r env).returnsPlainly inTry = true
  | .returnS value, env, inTry, plain => by
    refine keeps.stmt env _ inTry ?_
    cases value with
    | none => exact plain
    | some e =>
      simp only [Stmt.returnsPlainly, Option.all_some, Bool.and_eq_true, Bool.not_eq_true'] at plain
      simp [Expr.transformOption, Stmt.returnsPlainly, plain.1, Expr.transform_not_application keeps
        env plain.2]
  | .block body, env, inTry, plain =>
    keeps.stmt env _ inTry (Stmt.transformList_returnsPlainly keeps body env inTry plain)
  | .ifS _ thenS elseS, env, inTry, plain => by
    simp only [Stmt.returnsPlainly, Bool.and_eq_true] at plain
    refine keeps.stmt env _ inTry ?_
    simp only [Stmt.returnsPlainly, Bool.and_eq_true]
    exact ⟨Stmt.transform_returnsPlainly keeps thenS env inTry plain.1,
      Stmt.transformOption_returnsPlainly keeps elseS env inTry plain.2⟩
  | .whileS _ body, env, inTry, plain | .labeled _ body, env, inTry, plain
  | .recordOnCapture _ body, env, inTry, plain | .shadowFrame _ body, env, inTry, plain =>
    keeps.stmt env _ inTry (Stmt.transform_returnsPlainly keeps body env inTry plain)
  | .tryS body handler final, env, inTry, plain => by
    simp only [Stmt.returnsPlainly, Bool.and_eq_true] at plain
    refine keeps.stmt env _ inTry ?_
    simp only [Stmt.returnsPlainly, Bool.and_eq_true]
    exact ⟨⟨Stmt.transform_returnsPlainly keeps body env true plain.1.1,
      Handler.transformOption_returnsPlainly keeps handler env plain.1.2⟩,
      Stmt.transformOption_returnsPlainly keeps final env true plain.2⟩
  | .letS .., env, inTry, _ | .assign .., env, inTry, _ | .expr _, env, inTry, _ | .breakS _, env,
      inTry, _
  | .continueS _, env, inTry, _ | .throwS _, env, inTry, _ | .decl _, env, inTry, _
  | .restoreFrame, env, inTry, _ | .stackDec, env, inTry, _ | .stackInc, env, inTry, _
  | .returnIfCapturing _, env, inTry, _ | .rethrowSignal _, env, inTry, _ =>
    keeps.stmt env _ inTry rfl

theorem Stmt.transformList_returnsPlainly (keeps : r.KeepsReturns) :
    (body : List Stmt) → (env : ε) → (inTry : Bool) → Stmt.returnsPlainlyList inTry body = true →
    Stmt.returnsPlainlyList inTry (Stmt.transformList r env body) = true
  | [], _, _, _ => rfl
  | s :: rest, env, inTry, plain => by
    simp only [Stmt.returnsPlainlyList, Bool.and_eq_true] at plain
    simp only [Stmt.transformList, Stmt.returnsPlainlyList, Bool.and_eq_true]
    exact ⟨Stmt.transform_returnsPlainly keeps s env inTry plain.1,
      Stmt.transformList_returnsPlainly keeps rest env inTry plain.2⟩

theorem Stmt.transformOption_returnsPlainly (keeps : r.KeepsReturns) :
    (o : Option Stmt) → (env : ε) → (inTry : Bool) → Stmt.returnsPlainlyOption inTry o = true →
    Stmt.returnsPlainlyOption inTry (Stmt.transformOption r env o) = true
  | none, _, _, _ => rfl
  | some s, env, inTry, plain => Stmt.transform_returnsPlainly keeps s env inTry plain

theorem Handler.transformOption_returnsPlainly (keeps : r.KeepsReturns) :
    (o : Option Handler) → (env : ε) → Handler.returnsPlainlyOption o = true →
    Handler.returnsPlainlyOption (Handler.transformOption r env o) = true
  | none, _, _ => rfl
  | some ⟨_, body⟩, env, plain => Stmt.transform_returnsPlainly keeps body env true plain

end

end Passes

theorem SafePoint.inLoop_returnsPlainly {body : Stmt} {inTry : Bool}
    (plain : body.returnsPlainly inTry = true) : (SafePoint.inLoop body).returnsPlainly inTry =
    true := by
  have pair : (Stmt.block [SafePoint.stmt, body]).returnsPlainly inTry = true := by
    show (true && (body.returnsPlainly inTry && true)) = true
    rw [plain]
    rfl
  cases body with
  | block stmts => exact plain
  | _ => exact pair

theorem SafePoint.inserting_keepsReturns : SafePoint.inserting.KeepsReturns where
  expr _ _ h := h
  stmt _ s inTry plain := by
    cases s with
    | whileS test body =>
      have inside : body.returnsPlainly inTry = true := plain
      exact SafePoint.inLoop_returnsPlainly inside
    | _ => exact plain

theorem Cell.access_keepsReturns : Cell.access.KeepsReturns where
  expr cells e notApp := by
    cases e with
    | ident name => simp only [Cell.access]; split <;> rfl
    | _ => exact notApp
  stmt cells s inTry plain := by
    cases s with
    | letS name init =>
      simp only [Cell.access]
      split
      · rfl
      · cases init with
        | none => rfl
        | some e => simp only; split <;> rfl
    | assign target value =>
      cases target with
      | ident name => simp only [Cell.access]; split <;> rfl
      | _ => rfl
    | _ => exact plain

theorem Cell.inserting_keepsReturns : Cell.inserting.KeepsReturns where
  expr _ _ h := h
  stmt _ _ _ h := h

theorem instrumenting_keepsReturns : (instrumenting options).KeepsReturns where
  expr _ e notApp := by
    cases e with
    | new => cases notApp
    | _ => exact notApp
  stmt _ _ _ h := h

theorem SafePoint.inserting_plain : SafePoint.inserting.Keeps Func.Plain Func.Plain :=
  { SafePoint.inserting_nodes with
    body := fun _ plain => plain.body
    func := fun _ inner f plain sound => by
      refine .intro (List.forall_mem_cons.mpr ⟨SafePoint.stmt_sound, sound⟩) ?_
      exact Stmt.transformList_returnsPlainly SafePoint.inserting_keepsReturns f.body inner false
        plain.returnsPlainly }

theorem Cell.access_plain : Cell.access.Keeps Func.Plain Func.Plain :=
  { Cell.access_nodes with
    body := fun _ plain => plain.body
    func := fun _ inner f plain sound =>
      .intro sound (Stmt.transformList_returnsPlainly Cell.access_keepsReturns f.body inner false
        plain.returnsPlainly) }

theorem Cell.inFunc_plain (plain : f.Plain) : (Cell.inFunc f).Plain := by
  unfold Cell.inFunc
  simp only
  split
  · exact plain
  · have transformed := Stmt.transformList_sound Cell.access_plain f.body
      (f.cellLocals.map fun name => (name, Cell.nameFor f.params name)) plain.body
    refine .intro (List.forall_mem_append.mpr ⟨?_, transformed⟩) ?_
    · intro s mem
      obtain ⟨p, -, made⟩ := List.mem_filterMap.mp mem
      obtain ⟨cell, -, rfl⟩ := Option.map_eq_some_iff.mp made
      exact .letS fun e mem => Option.some.inj mem ▸ .quiet (Cell.make_quiet .ident)
    · rw [Func.ReturnsPlainly, Stmt.returnsPlainlyList_append, Bool.and_eq_true]
      refine ⟨Stmt.returnsPlainlyList_of_forall fun s mem => ?_, ?_⟩
      · obtain ⟨p, -, made⟩ := List.mem_filterMap.mp mem
        obtain ⟨cell, -, rfl⟩ := Option.map_eq_some_iff.mp made
        rfl
      · exact Stmt.transformList_returnsPlainly Cell.access_keepsReturns f.body _ false
          plain.returnsPlainly

theorem Cell.inserting_plain : Cell.inserting.Keeps Func.Plain Func.Plain :=
  { Cell.inserting_nodes with
    body := fun _ plain => plain.body
    func := fun _ inner f plain sound => by
      refine Cell.inFunc_plain (.intro sound ?_)
      exact Stmt.transformList_returnsPlainly Cell.inserting_keepsReturns f.body inner false
        plain.returnsPlainly }

/-! ## Two modes -/

section TwoModes

variable {mode : DualMode} {code : Func → Prop} {inTry : Bool}

attribute [local simp] Stmt.settlesLast Stmt.settlesLastList Stmt.settlesLastOption
  Stmt.segment DualMode.segment

theorem Stmt.settlesLastList_append {body rest : List Stmt}
    (bodySettles : Stmt.settlesLastList inTry body = true)
    (restSettles : Stmt.settlesLastList inTry rest = true) : Stmt.settlesLastList inTry
    (body ++ rest) = true := by
  induction body with
  | nil => exact restSettles
  | cons s body ih =>
    simp only [Stmt.settlesLastList, Bool.and_eq_true] at bodySettles
    simp only [List.cons_append, Stmt.settlesLastList, Bool.and_eq_true]
    refine ⟨?_, ih bodySettles.2⟩
    cases body with
    | nil => rw [show s.settlesLast inTry = true by simpa using bodySettles.1, Bool.true_or]
    | cons next body => exact bodySettles.1

theorem Stmt.settlesLastList_of_forall {body : List Stmt}
    (each : ∀ s ∈ body, s.settlesLast inTry = true) : Stmt.settlesLastList inTry body = true := by
  induction body with
  | nil => rfl
  | cons s rest ih =>
    rw [List.forall_mem_cons] at each
    rw [Stmt.settlesLastList, each.1, ih each.2]
    rfl

theorem Stmt.ofList_settles (settles : Stmt.settlesLastList inTry stmts = true) :
    (Stmt.ofList stmts).settlesLast inTry = true := by
  match stmts with
  | [] => rfl
  | [s] =>
    show s.settlesLast inTry = true
    simpa [Stmt.settlesLastList] using settles
  | _ :: _ :: _ => exact settles

theorem shareGuard_settles {run : List Stmt} (each : ∀ s ∈ run, s.settlesLast inTry = true) :
    Stmt.settlesLastList inTry (shareGuard run) = true := by
  refine Stmt.settlesLastList_of_forall fun s mem => ?_
  match run with
  | [] => cases mem
  | [x] =>
    cases List.mem_singleton.mp mem
    simpa [Stmt.guarded, Stmt.settlesLast, Stmt.settlesLastOption] using each x List.mem_cons_self
  | _ :: _ :: _ =>
    cases List.mem_singleton.mp mem
    have inside := Stmt.settlesLastList_of_forall each
    simpa [Stmt.guarded, Stmt.settlesLast, Stmt.settlesLastOption] using inside

/-- Where the depth is given back, and the `return` behind it, are under no guard, so nothing comes
between them. -/
theorem coalesceRun_settles {run : List Stmt} (waiting : ∀ s ∈ run, s.settlesLast inTry = true)
    (settles : Stmt.settlesLastList inTry stmts = true) :
    Stmt.settlesLastList inTry (coalesceRun run stmts) = true := by
  have shared : Stmt.settlesLastList inTry (shareGuard run.reverse) = true :=
    shareGuard_settles fun s mem => waiting s (List.mem_reverse.mp mem)
  induction stmts generalizing run with
  | nil => exact shared
  | cons s rest ih =>
    obtain ⟨first, last⟩ := Stmt.settlesLastList_cons settles
    have apart : Stmt.settlesLastList inTry (coalesceRun [] rest) = true := ih nofun last rfl
    unfold coalesceRun
    split
    · rename_i body guard
      have guarded := Stmt.normalOnly?_eq_some guard
      have inside : body.settlesLast inTry = true := by
        rcases first with settles | ⟨_, isInc, _⟩
        · rw [guarded] at settles
          simpa [Stmt.guarded, Stmt.settlesLast, Stmt.settlesLastOption] using settles
        · rw [guarded] at isInc
          cases isInc
      have waiting' : ∀ s ∈ body :: run, s.settlesLast inTry = true :=
        List.forall_mem_cons.mpr ⟨inside, waiting⟩
      exact ih waiting' last (shareGuard_settles fun s mem => waiting' s (List.mem_reverse.mp mem))
    · refine Stmt.settlesLastList_append shared ?_
      rw [Stmt.settlesLastList, apart, Bool.and_true]
      rcases first with settles | ⟨notTry, rfl, value, rest', rfl, plain⟩
      · rw [settles, Bool.true_or]
      · have returned : Stmt.isPlainReturn (.returnS value) = true := by
          cases value with
          | none => rfl
          | some e => simp [Stmt.isPlainReturn, plain e rfl]
        rw [notTry]
        exact returned

theorem coalesce_settles (settles : Stmt.settlesLastList inTry stmts = true) :
    Stmt.settlesLastList inTry (coalesce stmts) = true :=
  coalesceRun_settles nofun settles

theorem Stmt.guarded_settles {test : Expr} (settles : s.settlesLast inTry = true) :
    (Stmt.guarded test s).settlesLast inTry = true := by
  simp [Stmt.guarded, Stmt.settlesLast, Stmt.settlesLastOption, settles]

/-- A capture point holds a statement that gives nothing back. -/
theorem capturePoint_settles {strategy : Strategy} {label : Nat}
    (settles : s.settlesLast inTry = true) (restoring : s.restoring.settlesLast inTry = true) :
    Stmt.settlesLastList inTry (capturePoint strategy label s) = true := by
  have point : (s.dual label).settlesLast inTry = true := by
    simp [Stmt.dual, Stmt.settlesLast, Stmt.settlesLastOption, settles,
      Stmt.guarded_settles restoring]
  refine Stmt.settlesLastList_of_forall fun i mem => ?_
  cases strategy with
  | eager | lazy =>
    cases List.mem_singleton.mp mem
    exact point
  | retval =>
    simp only [capturePoint, List.mem_cons, List.not_mem_nil, or_false] at mem
    rcases mem with rfl | rfl
    · exact point
    · rfl
  | fudge =>
    cases List.mem_singleton.mp mem
    exact Stmt.guarded_settles settles

theorem DualMode.leaf_settles {next : Nat} (settles : s.settlesLast inTry = true)
    (restoring : s.restoring.settlesLast inTry = true)
    (plain : DualMode.plain s = .guarded .isNormal s) :
    Stmt.settlesLastList inTry (mode.segment (Stmt.leaf next s).1) = true := by
  unfold Stmt.leaf
  split
  · rw [DualMode.segment]
    exact capturePoint_settles settles restoring
  · rw [DualMode.segment, plain]
    exact Stmt.settlesLastList_of_forall (List.forall_mem_singleton.mpr
      (Stmt.guarded_settles settles))

/-- A plain `return` gives back the depth right before it. -/
theorem DualMode.ret_settles {value : Option Expr} (plain : ∀ e ∈ value, e.isApplication = false) :
    Stmt.settlesLastList false (mode.ret value .none) = true := by
  simp only [DualMode.ret]
  split
  · rfl
  · cases value with
    | none => rfl
    | some e =>
      simp [Stmt.settlesLastList, Stmt.settlesLast, Stmt.isStackInc, Stmt.isPlainReturn,
        plain e rfl]

/-- The two-mode form of a statement with plain returns gives back the depth as it should, wherever
its labels begin. -/
def DualMode.Settles (mode : DualMode) (s : Stmt) : Prop :=
  ∀ inTry next, s.returnsPlainly inTry = true →
    Stmt.settlesLastList inTry (mode.segment (s.segment inTry next).1) = true

theorem DualMode.segments_settles {body : List Stmt} (settles : ∀ s ∈ body, mode.Settles s)
    (inTry : Bool) (next : Nat) (plain : Stmt.returnsPlainlyList inTry body = true) :
    Stmt.settlesLastList inTry (mode.segments (Stmt.segments inTry next body).1) = true := by
  induction body generalizing next with
  | nil => rfl
  | cons s rest ih =>
    rw [List.forall_mem_cons] at settles
    simp only [Stmt.returnsPlainlyList, Bool.and_eq_true] at plain
    simp only [Stmt.segments, DualMode.segments]
    exact Stmt.settlesLastList_append (settles.1 inTry next plain.1) (ih settles.2 _ plain.2)

theorem DualMode.segmentElse_settles {elseS : Option Stmt} (settles : ∀ s ∈ elseS, mode.Settles s)
    (inTry : Bool) (next : Nat) (plain : Stmt.returnsPlainlyOption inTry elseS = true) :
    Stmt.settlesLastOption inTry (mode.segmentElse (Stmt.segmentOption inTry next elseS).1) =
    true := by
  cases elseS with
  | none => rfl
  | some s =>
    simp only [Stmt.segmentOption, DualMode.segmentElse, Stmt.settlesLastOption]
    exact Stmt.guarded_settles (Stmt.ofList_settles (settles s rfl inTry next plain))

theorem DualMode.segmentHandler_settles {handler : Option Handler} (settles : ∀ h ∈ handler,
    mode.Settles h.body) (next : Nat) (plain : Handler.returnsPlainlyOption handler = true) :
    Handler.settlesLastOption (mode.segmentHandler (Handler.segmentOption next handler).1) =
    true := by
  cases handler with
  | none => rfl
  | some h =>
    obtain ⟨param, body⟩ := h
    have inside := settles ⟨param, body⟩ rfl true next plain
    show Stmt.settlesLastList true (.rethrowSignal param :: mode.segment
      (body.segment true next).1) = true
    rw [Stmt.settlesLastList, inside]
    rfl

theorem DualMode.segmentFinal_settles {final : Option Stmt} (settles : ∀ s ∈ final, mode.Settles s)
    (next : Nat) (plain : Stmt.returnsPlainlyOption true final = true) :
    Stmt.settlesLastOption true (mode.segmentFinal (Stmt.segmentOption true next final).1) =
    true := by
  cases final with
  | none => rfl
  | some s =>
    simp only [Stmt.segmentOption, DualMode.segmentFinal, Stmt.settlesLastOption]
    exact Stmt.guarded_settles (Stmt.ofList_settles (settles s rfl true next plain))

theorem DualMode.intoHandler_settles {param : String} {labels : List Nat} :
    Stmt.settlesLastList true (DualMode.intoHandler param labels) = true := by
  unfold DualMode.intoHandler
  split <;> rfl

/-- A statement of the source grammar with plain returns. -/
theorem DualMode.settles_of_sound (sound : s.Sound code) : mode.Settles s := by
  have one : ∀ {inTry : Bool} {i : Stmt}, i.settlesLast inTry = true → Stmt.settlesLastList inTry
      [i] = true :=
    fun settles => Stmt.settlesLastList_of_forall (List.forall_mem_singleton.mpr settles)
  intro inTry next plain
  induction sound generalizing inTry next with
  | block _ ih =>
    exact one (coalesce_settles (DualMode.segments_settles ih inTry next plain))
  | letS _ | assign _ _ | expr _ =>
    simp only [Stmt.segment]
    exact DualMode.leaf_settles rfl rfl rfl
  | ifS _ _ _ thenIH elseIH =>
    simp only [Stmt.returnsPlainly, Bool.and_eq_true] at plain
    simp only [Stmt.segment, DualMode.segment]
    refine one ?_
    simp only [Stmt.settlesLast, Bool.and_eq_true]
    exact ⟨Stmt.ofList_settles (thenIH inTry next plain.1), DualMode.segmentElse_settles elseIH
      inTry _ plain.2⟩
  | loop _ _ ih =>
    have inside := Stmt.ofList_settles (ih inTry next plain)
    simp only [Stmt.segment, DualMode.segment]
    exact one (Stmt.guarded_settles inside)
  | labeled _ _ ih =>
    simp only [Stmt.segment, DualMode.segment]
    exact one (Stmt.guarded_settles (Stmt.ofList_settles (ih inTry next plain)))
  | breakS => rfl
  | @returnS value live =>
    simp only [Stmt.returnsPlainly, Bool.and_eq_true, Bool.not_eq_true'] at plain
    rw [plain.1]
    cases value with
    | none => exact DualMode.ret_settles (by simp)
    | some e =>
      have notApp : e.isApplication = false := by simpa using plain.2
      have quiet := (live e rfl).quiet_of_not_application notApp
      have app : returnApp (some e) = .none := by
        simp [returnApp, notApp, quiet.containsApplication]
      simp only [Stmt.segment, Bool.false_and, app]
      exact DualMode.ret_settles fun x mem => Option.some.inj mem ▸ notApp
  | throwS _ => rfl
  | @tryS body handler final _ _ _ bodyIH handlerIH finalIH =>
    simp only [Stmt.returnsPlainly, Bool.and_eq_true] at plain
    simp only [Stmt.segment, DualMode.segment]
    refine one ?_
    simp only [Stmt.settlesLast, Bool.and_eq_true]
    refine ⟨⟨Stmt.settlesLastList_append ?_ (bodyIH true next plain.1.1),
      DualMode.segmentHandler_settles handlerIH _ plain.1.2⟩, DualMode.segmentFinal_settles finalIH
      _ plain.2⟩
    split
    · exact DualMode.intoHandler_settles
    · rfl
  | decl _ => rfl

theorem DualMode.body_settles {body : List Stmt} (sound : ∀ s ∈ body, s.Sound code)
    (plain : Stmt.returnsPlainlyList false body = true) :
    Stmt.settlesLastList false (mode.body (analyze body).body) = true :=
  coalesce_settles (DualMode.segments_settles (fun s mem => DualMode.settles_of_sound (sound s mem))
    _ _ plain)

end TwoModes

/-! ## Whole programs -/

theorem Func.dualMode_measured (sound : ∀ s ∈ f.body, s.Sound (Func.Measured options.strategy))
    (plain : f.ReturnsPlainly) : (f.dualMode options).Measured options.strategy := by
  have dual : ∀ constructorReturns, ∀ s ∈ DualMode.body ⟨options.strategy, constructorReturns⟩
      (analyze f.body).body, s.Dual options.strategy (Func.Measured options.strategy) false :=
    fun _ => DualMode.body_dual sound
  by_cases direct : options.construction = .direct
  · refine .intro (.inr rfl) (.inr rfl) ?_ (dual true) (DualMode.body_settles sound plain)
    simp [Func.dualMode, direct]
  · refine .intro (.inl rfl) (.inl rfl) ?_ (dual false) (DualMode.body_settles sound plain)
    simp [Func.dualMode, direct]

theorem instrumenting_measured (options : CompileOptions) :
    (instrumenting options).Keeps Func.Plain (Func.Measured options.strategy) :=
  { instrumenting_nodes with
    body := fun _ plain => plain.body
    func := fun _ inner f plain sound => Func.dualMode_measured sound
      (Stmt.transformList_returnsPlainly instrumenting_keepsReturns f.body inner false
        plain.returnsPlainly) }

theorem SafePoint.insert_plain (plain : (Machine.top p).Plain) :
    (Machine.top (SafePoint.insert p)).Plain := by
  have sound := Stmt.transformList_sound SafePoint.inserting_plain p.body () plain.body
  refine .intro (List.forall_mem_cons.mpr ⟨SafePoint.stmt_sound, sound⟩) ?_
  exact Stmt.transformList_returnsPlainly SafePoint.inserting_keepsReturns p.body
    () false plain.returnsPlainly

theorem Cell.insert_plain (plain : (Machine.top p).Plain) : (Machine.top (Cell.insert p)).Plain :=
  .intro (Stmt.transformList_sound Cell.inserting_plain p.body () plain.body)
    (Stmt.transformList_returnsPlainly Cell.inserting_keepsReturns p.body
      () false plain.returnsPlainly)

theorem Program.instrument_measured (plain : (Machine.top p).Plain) :
    (Machine.top (p.instrument options)).Measured options.strategy := by
  have sound := Stmt.transformList_sound (instrumenting_measured options) p.body () plain.body
  have keeps : (instrumenting options).KeepsReturns := instrumenting_keepsReturns
  have returns := Stmt.transformList_returnsPlainly keeps p.body () false plain.returnsPlainly
  let mode : DualMode := ⟨options.strategy, false⟩
  have dual : ∀ s ∈ mode.body (analyze (Stmt.transformList (instrumenting options) () p.body)).body,
      s.Dual mode.strategy (Func.Measured options.strategy) false := DualMode.body_dual sound
  refine .intro (.inl rfl) (.inl rfl) ?_ dual (DualMode.body_settles sound returns)
  simp [Machine.top, Program.instrument, mode]

/-- The top level of a compiled program counts its calls evenly if all returns of the source are
plain, and so does every function in it. -/
theorem Program.compile_measured {source compiled : Program}
    (ok : source.compile options = .ok compiled)
    (throughout : (Machine.top source).Throughout Func.ReturnsPlainly) :
    (Machine.top compiled).Measured options.strategy := by
  unfold Program.compile at ok
  split at ok
  · rename_i accepted
    cases ok
    have plain := throughout.plain (.intro (Program.sound_of_accepted accepted))
    refine Program.instrument_measured (Cell.insert_plain ?_)
    split
    · exact SafePoint.insert_plain plain
    · exact plain
  · cases ok

/-! ## Loading -/

theorem Expr.load_isApplication (e : Expr) (next : Nat) : (e.load next).1.isApplication =
    e.isApplication := by
  cases e <;> rfl

theorem Stmt.load_isStackInc (s : Stmt) (next : Nat) : (s.load next).1.isStackInc =
    s.isStackInc := by
  cases s <;> rfl

theorem Stmt.load_isPlainReturn (s : Stmt) (next : Nat) : (s.load next).1.isPlainReturn =
    s.isPlainReturn := by
  cases s with
  | returnS value =>
    cases value with
    | none => rfl
    | some e => exact congrArg (! ·) (e.load_isApplication next)
  | _ => rfl

theorem Stmt.loadList_head_isPlainReturn (body : List Stmt) (next : Nat) :
    (Stmt.loadList body next).1.head?.any (·.isPlainReturn) = body.head?.any (·.isPlainReturn) := by
  cases body with
  | nil => rfl
  | cons s rest => exact s.load_isPlainReturn next

mutual

theorem Stmt.load_settlesLast : (s : Stmt) → (inTry : Bool) → (next : Nat) →
    (s.load next).1.settlesLast inTry = s.settlesLast inTry
  | .block body, inTry, next => Stmt.loadList_settlesLast body inTry next
  | .ifS _ thenS elseS, inTry, _ => by
    show ((thenS.load _).1.settlesLast inTry && Stmt.settlesLastOption inTry
      (Stmt.loadOption elseS _).1) = _
    rw [thenS.load_settlesLast, Stmt.loadOption_settlesLast elseS, Stmt.settlesLast]
  | .whileS _ body, inTry, _ | .labeled _ body, inTry, _ | .recordOnCapture _ body, inTry, _
  | .shadowFrame _ body, inTry, _ => body.load_settlesLast inTry _
  | .tryS body handler final, _, _ => by
    show ((body.load _).1.settlesLast true && Handler.settlesLastOption
      (Handler.loadOption handler _).1 && Stmt.settlesLastOption true (Stmt.loadOption final _).1) =
      _
    rw [body.load_settlesLast, Handler.loadOption_settlesLast handler,
      Stmt.loadOption_settlesLast final, Stmt.settlesLast]
  | .letS .., _, _ | .assign .., _, _ | .expr _, _, _ | .breakS _, _, _ | .continueS _, _,
      _ | .returnS _, _, _
  | .throwS _, _, _ | .decl _, _, _ | .restoreFrame, _, _ | .stackDec, _, _ | .stackInc, _, _
  | .returnIfCapturing _, _, _ | .rethrowSignal _, _, _ => rfl

theorem Stmt.loadList_settlesLast : (body : List Stmt) → (inTry : Bool) → (next : Nat) →
    Stmt.settlesLastList inTry (Stmt.loadList body next).1 = Stmt.settlesLastList inTry body
  | [], _, _ => rfl
  | s :: rest, inTry, next => by
    show Stmt.settlesLastList inTry ((s.load next).1 :: (Stmt.loadList rest (s.load next).2).1) = _
    rw [Stmt.settlesLastList, Stmt.settlesLastList, s.load_settlesLast, s.load_isStackInc,
      Stmt.loadList_head_isPlainReturn, Stmt.loadList_settlesLast rest]

theorem Stmt.loadOption_settlesLast : (o : Option Stmt) → (inTry : Bool) → (next : Nat) →
    Stmt.settlesLastOption inTry (Stmt.loadOption o next).1 = Stmt.settlesLastOption inTry o
  | none, _, _ => rfl
  | some s, inTry, next => s.load_settlesLast inTry next

theorem Handler.loadOption_settlesLast : (o : Option Handler) → (next : Nat) →
    Handler.settlesLastOption (Handler.loadOption o next).1 = Handler.settlesLastOption o
  | none, _ => rfl
  | some ⟨_, body⟩, next => body.load_settlesLast true next

end

/-- A function counts its calls evenly once the statements of its body are loaded. -/
theorem Func.measured_reloads {strategy : Strategy} :
    Func.Reloads strategy (Func.Measured strategy) := by
  intro f f' next measured loads bodyEq'
  cases measured with
  | @intro _ opening body closing bare closed bodyEq dual settles =>
    have closingLoads : ∀ n, (Stmt.loadList (body ++ .stackInc :: closing) n).1 =
        (Stmt.loadList body n).1 ++ .stackInc :: closing := by
      rw [Stmt.loadList_append]
      rcases closed with rfl | rfl <;> exact fun _ => rfl
    have openingLoads : ∀ rest n, (Stmt.loadList (opening ++ .stackDec :: .restoreFrame :: rest)
        n).1 = opening ++ .stackDec :: .restoreFrame :: (Stmt.loadList rest n).1 := by
      rcases bare with rfl | rfl <;> exact fun _ _ => rfl
    rw [bodyEq] at loads bodyEq'
    rw [openingLoads, closingLoads] at bodyEq'
    have inside := List.forall_mem_cons.mp (List.forall_mem_cons.mp
      (List.forall_mem_append.mp loads).2).2
    refine .intro bare closed bodyEq' (Stmt.loadList_dual (List.forall_mem_append.mp inside.2).1
      dual next) ?_
    rw [Stmt.loadList_settlesLast]
    exact settles

end Resumable
