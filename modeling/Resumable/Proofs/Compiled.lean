import Resumable.Instrument.Compile
import Resumable.Machine.Drive
import Resumable.Syntax.Load
import Resumable.Proofs.Grammar

/-!
The output of compilation.

Each pass is a transformation from the inside out, so one structure, `Transform.Keeps`, lists what a
pass has to do at a single node, and `Func.transform_code` draws the conclusion for whole functions.
Safe points and cells stay in the grammar of statements before instrumentation; the dual-mode pass
leads from it into `Stmt.Dual`.  `Program.compile_resumable` puts the passes together, and loading
changes nothing about it.
-/

namespace Resumable

variable {e : Expr} {s : Stmt} {code : Func → Prop} {p source : Program} {cells : Cell.Names}
  {strategy : Strategy} {stmts : List Stmt} {next : Nat} {options : CompileOptions}

/-! ## Passes -/

/-- What a transformation does at one node, where the functions inside are of the class `code`
already. -/
structure Transform.KeepsNodes (r : Transform ε) (code : Func → Prop) : Prop where
  quiet : ∀ env (e : Expr), e.Quiet code → (r.expr env e).Quiet code
  live : ∀ env (e : Expr), e.Live code → (r.expr env e).Live code
  stmt : ∀ env (s : Stmt), s.Sound code → (r.stmt env s).Sound code
  loop : ∀ env (label : String) (test : Expr) (body : Stmt), test.Quiet code → body.Sound code →
    (r.stmt env (.labeled label (r.stmt env (.whileS test body)))).Sound code
  notLoop : ∀ env (s : Stmt), s.isLoop = false → (r.stmt env s).isLoop = false

/-- A transformation leads from functions of one class to those of another. -/
structure Transform.Keeps (r : Transform ε) (source code : Func → Prop) :
    Prop extends r.KeepsNodes code where
  body : ∀ f, source f → ∀ s ∈ f.body, s.Sound source
  func : ∀ env inner (f : Func), source f → (∀ s ∈ Stmt.transformList r inner f.body,
    s.Sound code) → code (r.func env { f with body := Stmt.transformList r inner f.body })

section Passes

variable {ε : Type} {r : Transform ε} {source code : Func → Prop}

/-- The transformed expression is in the class that the expression was in. -/
def Expr.TransformsTo (source code : Func → Prop) (e e' : Expr) : Prop :=
  (e.Quiet source → e'.Quiet code) ∧ (e.Live source → e'.Live code)

/-- A node that is no application need only be looked at as a quiet one. -/
theorem Transform.Keeps.of_quiet (keeps : r.Keeps source code) {env : ε} {part : Expr}
    (notApp : e.isApplication = false) (quiet : e.Quiet source → part.Quiet code) :
    e.TransformsTo source code (r.expr env part) :=
  ⟨fun h => keeps.quiet env part (quiet h),
    fun h => .quiet (keeps.quiet env part (quiet (h.quiet_of_not_application notApp)))⟩

theorem Stmt.transform_isLoop (keeps : r.Keeps source code) (env : ε) (notLoop : s.isLoop = false) :
    (s.transform r env).isLoop = false := by
  unfold Stmt.transform
  apply keeps.notLoop
  cases s with
  | whileS test body => cases notLoop
  | _ => rfl

section

variable (keeps : r.Keeps source code)

include keeps

set_option linter.unusedSectionVars false in
mutual

theorem Expr.transform_class :
    (e : Expr) → (env : ε) → e.TransformsTo source code (e.transform r env)
  | .num _, _ => keeps.of_quiet rfl fun _ => .num
  | .str _, _ => keeps.of_quiet rfl fun _ => .str
  | .bool _, _ => keeps.of_quiet rfl fun _ => .bool
  | .null, _ => keeps.of_quiet rfl fun _ => .null
  | .undefined, _ => keeps.of_quiet rfl fun _ => .undefined
  | .ident _, _ => keeps.of_quiet rfl fun _ => .ident
  | .this, _ => keeps.of_quiet rfl fun _ => .this
  | .arguments, _ => keeps.of_quiet rfl fun _ => .arguments
  | .isNormal, _ => keeps.of_quiet rfl fun _ => .isNormal
  | .isRestoring, _ => keeps.of_quiet rfl fun _ => .isRestoring
  | .targetIn _, _ => keeps.of_quiet rfl fun _ => .targetIn
  | .capturing, _ => keeps.of_quiet rfl fun _ => .capturing
  | .newTarget, _ => keeps.of_quiet rfl fun _ => .newTarget
  | .reenterNext, _ => keeps.of_quiet rfl fun quiet => nomatch quiet
  | .binary _ left right, env => by
    refine keeps.of_quiet rfl fun quiet => ?_
    cases quiet with
    | binary hl hr =>
      exact .binary ((left.transform_class env).1 hl) ((right.transform_class env).1 hr)
  | .unary _ arg, env => by
    refine keeps.of_quiet rfl fun quiet => ?_
    cases quiet with
    | unary h => exact .unary ((arg.transform_class env).1 h)
  | .cond test thenE elseE, env => by
    refine keeps.of_quiet rfl fun quiet => ?_
    cases quiet with
    | cond ht ha hb =>
      exact .cond ((test.transform_class env).1 ht) ((thenE.transform_class env).1 ha)
        ((elseE.transform_class env).1 hb)
  | .member base _, env => by
    refine keeps.of_quiet rfl fun quiet => ?_
    cases quiet with
    | member h => exact .member ((base.transform_class env).1 h)
  | .index base key, env => by
    refine keeps.of_quiet rfl fun quiet => ?_
    cases quiet with
    | index hb hk =>
      exact .index ((base.transform_class env).1 hb) ((key.transform_class env).1 hk)
  | .func f, env => by
    refine keeps.of_quiet rfl fun quiet => ?_
    cases quiet with
    | func h => exact .func (f.transform_code env h)
  | .array elements, env => by
    refine keeps.of_quiet rfl fun quiet => ?_
    cases quiet with
    | array h => exact .array (Expr.transformList_quiet elements env h)
  | .object props, env => by
    refine keeps.of_quiet rfl fun quiet => ?_
    cases quiet with
    | object h => exact .object (Expr.transformProps_quiet props env h)
  | .call callee args, env => by
    refine ⟨fun quiet => (nomatch quiet), fun live => ?_⟩
    cases live with
    | quiet quiet => nomatch quiet
    | call hc ha =>
      exact keeps.live env _ (.call ((callee.transform_class env).1 hc)
        (Expr.transformList_quiet args env ha))
  | .new callee args, env => by
    refine ⟨fun quiet => (nomatch quiet), fun live => ?_⟩
    cases live with
    | quiet quiet => nomatch quiet
    | new hc ha =>
      exact keeps.live env _ (.new ((callee.transform_class env).1 hc)
        (Expr.transformList_quiet args env ha))
  | .handleNew callee args, env => by
    refine ⟨fun quiet => (nomatch quiet), fun live => ?_⟩
    cases live with
    | quiet quiet => nomatch quiet
    | handleNew hc ha =>
      exact keeps.live env _ (.handleNew ((callee.transform_class env).1 hc)
        (Expr.transformList_quiet args env ha))
  | .suspend, env => ⟨fun quiet => (nomatch quiet), fun _ => keeps.live env _ .suspend⟩

theorem Expr.transformList_quiet : (es : List Expr) → (env : ε) → (∀ e ∈ es, e.Quiet source) →
    ∀ e ∈ Expr.transformList r env es, e.Quiet code
  | [], _, _ => fun _ mem => nomatch mem
  | e :: rest, env, quiet => by
    rw [List.forall_mem_cons] at quiet
    exact List.forall_mem_cons.mpr
      ⟨(e.transform_class env).1 quiet.1, Expr.transformList_quiet rest env quiet.2⟩

theorem Expr.transformProps_quiet :
    (props : List (String × Expr)) → (env : ε) → (∀ p ∈ props, p.2.Quiet source) →
    ∀ p ∈ Expr.transformProps r env props, p.2.Quiet code
  | [], _, _ => fun _ mem => nomatch mem
  | (_, e) :: rest, env, quiet => by
    rw [List.forall_mem_cons] at quiet
    exact List.forall_mem_cons.mpr
      ⟨(e.transform_class env).1 quiet.1, Expr.transformProps_quiet rest env quiet.2⟩

theorem Expr.transformOption_live :
    (value : Option Expr) → (env : ε) → (∀ e ∈ value, e.Live source) →
    ∀ e ∈ Expr.transformOption r env value, e.Live code
  | none, _, _ => fun _ mem => nomatch mem
  | some e, env, live => by
    intro _ mem
    cases mem
    exact (e.transform_class env).2 (live e rfl)

theorem Target.transform_quiet : (target : Target) → (env : ε) → target.Quiet source →
    (target.transform r env).Quiet code
  | .ident _, _, _ => .ident
  | .member base _, env, quiet => by
    cases quiet with
    | member h => exact .member ((base.transform_class env).1 h)
  | .index base key, env, quiet => by
    cases quiet with
    | index hb hk =>
      exact .index ((base.transform_class env).1 hb) ((key.transform_class env).1 hk)

-- Under a label, only a loop has to be looked at together with it.
theorem Stmt.transform_sound : (s : Stmt) → (env : ε) → s.Sound source →
    (s.transform r env).Sound code
  | .block body, env, .block h => keeps.stmt env _ (.block (Stmt.transformList_sound body env h))
  | .letS _ init, env, .letS h => keeps.stmt env _ (.letS (Expr.transformOption_live init env h))
  | .assign target value, env, .assign ht hv =>
    keeps.stmt env _ (.assign (target.transform_quiet env ht) ((value.transform_class env).2 hv))
  | .expr e, env, .expr h => keeps.stmt env _ (.expr ((e.transform_class env).2 h))
  | .ifS test thenS elseS, env, .ifS ht hs he =>
    keeps.stmt env _ (.ifS ((test.transform_class env).1 ht) (thenS.transform_sound env hs)
      (Stmt.transformOption_sound elseS env he))
  | .labeled label (.whileS test body), env, .loop ht hb =>
    keeps.loop env label _ _ ((test.transform_class env).1 ht) (body.transform_sound env hb)
  | .labeled _ body, env, .labeled notLoop h =>
    keeps.stmt env _ (.labeled (Stmt.transform_isLoop keeps env notLoop)
      (body.transform_sound env h))
  | .breakS _, env, .breakS => keeps.stmt env _ .breakS
  | .returnS value, env, .returnS h =>
    keeps.stmt env _ (.returnS (Expr.transformOption_live value env h))
  | .throwS value, env, .throwS h => keeps.stmt env _ (.throwS ((value.transform_class env).1 h))
  | .tryS body handler final, env, .tryS hb hh hf =>
    keeps.stmt env _ (.tryS (body.transform_sound env hb)
      (Handler.transformOption_sound handler env hh) (Stmt.transformOption_sound final env hf))
  | .decl f, env, .decl h => keeps.stmt env _ (.decl (f.transform_code env h))

theorem Stmt.transformList_sound : (body : List Stmt) → (env : ε) → (∀ s ∈ body, s.Sound source) →
    ∀ s ∈ Stmt.transformList r env body, s.Sound code
  | [], _, _ => fun _ mem => nomatch mem
  | s :: rest, env, sound => by
    rw [List.forall_mem_cons] at sound
    exact List.forall_mem_cons.mpr
      ⟨s.transform_sound env sound.1, Stmt.transformList_sound rest env sound.2⟩

theorem Stmt.transformOption_sound :
    (final : Option Stmt) → (env : ε) → (∀ s ∈ final, s.Sound source) →
    ∀ s ∈ Stmt.transformOption r env final, s.Sound code
  | none, _, _ => fun _ mem => nomatch mem
  | some s, env, sound => by
    intro _ mem
    cases mem
    exact s.transform_sound env (sound s rfl)

theorem Handler.transformOption_sound :
    (handler : Option Handler) → (env : ε) → (∀ h ∈ handler, h.body.Sound source) →
    ∀ h ∈ Handler.transformOption r env handler, h.body.Sound code
  | none, _, _ => fun _ mem => nomatch mem
  | some ⟨_, body⟩, env, sound => by
    intro _ mem
    cases mem
    exact body.transform_sound env (sound _ rfl)

theorem Func.transform_code : (f : Func) → (env : ε) → source f → code (f.transform r env)
  | ⟨name, params, body, frame, site⟩, env, ofSource => by
    refine keeps.func env _ ⟨name, params, body, frame, site⟩ ofSource ?_
    exact Stmt.transformList_sound body _ (keeps.body _ ofSource)

end

end

end Passes

/-! ## Safe points -/

theorem SafePoint.stmt_sound : SafePoint.stmt.Sound code :=
  .expr .suspend

theorem SafePoint.inLoop_sound {body : Stmt} (sound : body.Sound code) :
    (SafePoint.inLoop body).Sound code := by
  have pair : (Stmt.block [SafePoint.stmt, body]).Sound code := by
    refine .block (List.forall_mem_cons.mpr ⟨SafePoint.stmt_sound, ?_⟩)
    exact List.forall_mem_cons.mpr ⟨sound, List.forall_mem_nil _⟩
  cases body with
  | block stmts =>
    cases sound with
    | block h => exact .block (List.forall_mem_cons.mpr ⟨SafePoint.stmt_sound, h⟩)
  | _ => exact pair

theorem SafePoint.inserting_nodes : SafePoint.inserting.KeepsNodes code where
  quiet _ _ h := h
  live _ _ h := h
  stmt _ s h := by
    cases s with
    | whileS test body => nomatch h
    | _ => exact h
  loop _ _ _ _ test body := .loop test (SafePoint.inLoop_sound body)
  notLoop _ s h := by
    cases s with
    | whileS test body => cases h
    | _ => exact h

theorem SafePoint.inserting_keeps : SafePoint.inserting.Keeps Func.Source Func.Source :=
  { SafePoint.inserting_nodes with
    body := fun _ source => source.body
    func := fun _ _ _ _ sound => .intro (List.forall_mem_cons.mpr ⟨SafePoint.stmt_sound, sound⟩) }

theorem SafePoint.insert_sound (sound : ∀ s ∈ p.body, s.Sound Func.Source) :
    ∀ s ∈ (SafePoint.insert p).body, s.Sound Func.Source :=
  List.forall_mem_cons.mpr
    ⟨SafePoint.stmt_sound, Stmt.transformList_sound SafePoint.inserting_keeps _ _ sound⟩

/-! ## Cells -/

theorem Cell.get_quiet (cell : String) : (Cell.get cell).Quiet code :=
  .index .ident .str

theorem Cell.make_quiet {value : Expr} (quiet : value.Quiet code) : (Cell.make value).Quiet code :=
  .object (List.forall_mem_cons.mpr ⟨quiet, List.forall_mem_nil _⟩)

theorem Cell.access_expr_quiet (quiet : e.Quiet code) : (Cell.access.expr cells e).Quiet code := by
  cases e with
  | ident name =>
    simp only [Cell.access]
    split
    · exact Cell.get_quiet _
    · exact .ident
  | _ => exact quiet

theorem Cell.access_stmt_sound (sound : s.Sound code) : (Cell.access.stmt cells s).Sound code := by
  cases s with
  | letS name init =>
    simp only [Cell.access]
    split
    · exact sound
    · cases init with
      | none => exact .letS fun e mem => Option.some.inj mem ▸ .quiet (Cell.make_quiet .undefined)
      | some e =>
        simp only
        cases sound with
        | letS live =>
          split
          · refine .block (List.forall_mem_cons.mpr ⟨.letS live, ?_⟩)
            refine List.forall_mem_cons.mpr ⟨?_, List.forall_mem_nil _⟩
            exact .assign .ident (.quiet (Cell.make_quiet .ident))
          · rename_i notApp
            have quiet := (live e rfl).quiet_of_not_application (by simpa using notApp)
            exact .letS fun x mem => Option.some.inj mem ▸ .quiet (Cell.make_quiet quiet)
  | assign target value =>
    cases target with
    | ident name =>
      simp only [Cell.access]
      cases sound with
      | assign _ live =>
        split
        · exact .assign (.index .ident .str) live
        · exact .assign .ident live
    | _ => exact sound
  | _ => exact sound

theorem Cell.access_stmt_isLoop (notLoop : s.isLoop = false) : (Cell.access.stmt cells s).isLoop =
    false := by
  cases s with
  | letS name init =>
    simp only [Cell.access]
    split
    · rfl
    · cases init with
      | none => rfl
      | some e => simp only; split <;> rfl
  | assign target value =>
    cases target with
    | ident name => simp only [Cell.access]; split <;> rfl
    | _ => rfl
  | _ => exact notLoop

theorem Cell.access_nodes : Cell.access.KeepsNodes code where
  quiet _ _ h := Cell.access_expr_quiet h
  live cells e h := by
    cases h with
    | quiet h => exact .quiet (Cell.access_expr_quiet h)
    | call hc ha => exact .call hc ha
    | new hc ha => exact .new hc ha
    | handleNew hc ha => exact .handleNew hc ha
    | suspend => exact .suspend
  stmt _ _ h := Cell.access_stmt_sound h
  loop _ _ _ _ test body := .loop test body
  notLoop _ _ h := Cell.access_stmt_isLoop h

theorem Cell.access_keeps : Cell.access.Keeps Func.Source Func.Source :=
  { Cell.access_nodes with
    body := fun _ source => source.body
    func := fun _ _ _ _ sound => .intro sound }

theorem Cell.inFunc_source {f : Func} (sound : ∀ s ∈ f.body, s.Sound Func.Source) :
    (Cell.inFunc f).Source := by
  unfold Cell.inFunc
  simp only
  split
  · exact .intro sound
  · refine .intro (List.forall_mem_append.mpr ⟨?_, ?_⟩)
    · intro s mem
      obtain ⟨p, -, made⟩ := List.mem_filterMap.mp mem
      obtain ⟨cell, -, rfl⟩ := Option.map_eq_some_iff.mp made
      exact .letS fun e mem => Option.some.inj mem ▸ .quiet (Cell.make_quiet .ident)
    · exact Stmt.transformList_sound Cell.access_keeps _ _ sound

theorem Cell.inserting_nodes : Cell.inserting.KeepsNodes code where
  quiet _ _ h := h
  live _ _ h := h
  stmt _ _ h := h
  loop _ _ _ _ test body := .loop test body
  notLoop _ _ h := h

theorem Cell.inserting_keeps : Cell.inserting.Keeps Func.Source Func.Source :=
  { Cell.inserting_nodes with
    body := fun _ source => source.body
    func := fun _ _ _ _ sound => Cell.inFunc_source sound }

theorem Cell.insert_sound (sound : ∀ s ∈ p.body, s.Sound Func.Source) :
    ∀ s ∈ (Cell.insert p).body, s.Sound Func.Source :=
  Stmt.transformList_sound Cell.inserting_keeps _ _ sound

/-! ## Two modes -/

theorem Expr.Quiet.containsApplication (quiet : e.Quiet code) : e.containsApplication = false := by
  induction quiet with
  | binary _ _ leftIH rightIH => simp [Expr.containsApplication, leftIH, rightIH]
  | unary _ ih => simpa [Expr.containsApplication] using ih
  | cond _ _ _ testIH thenIH elseIH =>
    simp [Expr.containsApplication, testIH, thenIH, elseIH]
  | member _ ih => simpa [Expr.containsApplication] using ih
  | index _ _ baseIH keyIH => simp [Expr.containsApplication, baseIH, keyIH]
  | array _ ih => simpa [Expr.containsApplication, Expr.anyApplication_eq_false_iff] using ih
  | object _ ih => simpa [Expr.containsApplication, Expr.anyPropApplication_eq_false_iff] using ih
  | _ => rfl

theorem Expr.Quiet.isApplication (quiet : e.Quiet code) : e.isApplication = false := by
  cases quiet <;> rfl

section TwoModes

variable {mode : DualMode} {code : Func → Prop} {normal : Bool}

theorem restoringInto_quiet {labels : List Nat} (restoring : restoringInto labels = some e) :
    e.Quiet code := by
  unfold restoringInto at restoring
  split at restoring
  · cases restoring
  · cases restoring
    exact .binary .isRestoring .targetIn

theorem orRestoring_quiet {test : Expr} (quiet : test.Quiet code) (labels : List Nat) :
    (orRestoring test labels).Quiet code := by
  unfold orRestoring
  split
  · rename_i restoring
    exact .binary quiet (restoringInto_quiet restoring)
  · exact quiet

theorem Stmt.ofList_dual (dual : ∀ s ∈ stmts, s.Dual strategy code normal) :
    (Stmt.ofList stmts).Dual strategy code normal := by
  match stmts with
  | [] => exact .block dual
  | [s] => exact dual s List.mem_cons_self
  | _ :: _ :: _ => exact .block dual

theorem shareGuard_dual {run : List Stmt} (dual : ∀ s ∈ run, s.Dual strategy code true) :
    ∀ s ∈ shareGuard run, s.Dual strategy code normal := by
  intro s mem
  match run with
  | [] => cases mem
  | [x] =>
    cases List.mem_singleton.mp mem
    exact .guarded (dual x List.mem_cons_self)
  | _ :: _ :: _ =>
    cases List.mem_singleton.mp mem
    exact .guarded (.block dual)

theorem Stmt.normalOnly?_eq_some {body : Stmt} (h : s.normalOnly? = some body) :
    s = .guarded .isNormal body := by
  unfold Stmt.normalOnly? at h
  split at h
  · cases h
    rfl
  · cases h

theorem coalesceRun_dual {run : List Stmt} (waiting : ∀ s ∈ run, s.Dual strategy code true)
    (dual : ∀ s ∈ stmts, s.Dual strategy code normal) : ∀ s ∈ coalesceRun run stmts,
    s.Dual strategy code normal := by
  induction stmts generalizing run with
  | nil => exact shareGuard_dual fun s mem => waiting s (List.mem_reverse.mp mem)
  | cons s rest ih =>
    rw [List.forall_mem_cons] at dual
    unfold coalesceRun
    split
    · rename_i body guard
      have inner := (Stmt.normalOnly?_eq_some guard ▸ dual.1).under_guard
      exact ih (List.forall_mem_cons.mpr ⟨inner, waiting⟩) dual.2
    · refine List.forall_mem_append.mpr ⟨?_, List.forall_mem_cons.mpr ⟨dual.1, ?_⟩⟩
      · exact shareGuard_dual fun s mem => waiting s (List.mem_reverse.mp mem)
      · exact ih (List.forall_mem_nil _) dual.2

theorem coalesce_dual (dual : ∀ s ∈ stmts, s.Dual strategy code normal) :
    ∀ s ∈ coalesce stmts, s.Dual strategy code normal :=
  coalesceRun_dual (List.forall_mem_nil _) dual

/-- A capture point of a statement whose application can be replaced. -/
theorem capturePoint_dual {label : Nat} (dual : s.Dual strategy code true)
    (restoring : s.restoring.Reentering code) : ∀ i ∈ capturePoint strategy label s,
    i.Dual strategy code normal := by
  have point : (s.dual label).Dual strategy code normal :=
    .select dual fun _ mem => Option.some.inj mem ▸ .guarded .targetIn restoring
  intro i mem
  cases strategy with
  | eager =>
    cases List.mem_singleton.mp mem
    exact .shadow rfl point
  | lazy =>
    cases List.mem_singleton.mp mem
    exact .record rfl point
  | retval =>
    simp only [capturePoint, List.mem_cons, List.not_mem_nil, or_false] at mem
    rcases mem with rfl | rfl
    · exact point
    · exact .collect rfl
  | fudge =>
    cases List.mem_singleton.mp mem
    exact .guarded dual

/-- A `let`, an assignment or an expression statement, labeled or not. -/
theorem DualMode.leaf_dual (dual : s.Dual mode.strategy code true)
    (restoring : s.application.isSome → s.restoring.Reentering code)
    (plain : DualMode.plain s = .guarded .isNormal s) :
    ∀ i ∈ mode.segment (Stmt.leaf next s).1, i.Dual mode.strategy code normal := by
  unfold Stmt.leaf
  split
  · rename_i app
    rw [DualMode.segment]
    exact capturePoint_dual dual (restoring app)
  · intro i mem
    rw [DualMode.segment, plain] at mem
    cases List.mem_singleton.mp mem
    exact .guarded dual

theorem DualMode.ret_dual {value : Option Expr} (live : ∀ e ∈ value, e.Live code) :
    ∀ i ∈ mode.ret value (returnApp value), i.Dual mode.strategy code normal := by
  have plain : (∀ e ∈ value, e.Quiet code) →
      ∀ i ∈ mode.ret value .none, i.Dual mode.strategy code normal := by
    intro quiet i mem
    simp only [DualMode.ret] at mem
    split at mem
    · have result : (value.getD .undefined).Quiet code := by
        cases value with
        | none => exact .undefined
        | some e => exact quiet e rfl
      have answer : DualMode.constructorResult.Quiet code :=
        .cond (.binary .ident (.unary (.binary .ident .ident))) .this .ident
      simp only [List.mem_cons, List.not_mem_nil, or_false] at mem
      rcases mem with rfl | rfl | rfl
      · exact .bind result
      · exact .stackInc
      · exact .answer fun e mem => Option.some.inj mem ▸ answer
    · simp only [List.mem_cons, List.not_mem_nil, or_false] at mem
      rcases mem with rfl | rfl
      · exact .stackInc
      · exact .answer quiet
  cases value with
  | none => exact plain (by simp)
  | some e =>
    unfold returnApp
    simp only
    split
    · intro i mem
      simp only [DualMode.ret, List.mem_cons, List.not_mem_nil, or_false] at mem
      rcases mem with rfl | rfl
      · exact .stackInc
      · exact .guarded (.returnS (live e rfl))
    · rename_i notApp
      have quiet := (live e rfl).quiet_of_not_application (by simpa using notApp)
      rw [quiet.containsApplication, if_neg Bool.false_ne_true]
      exact plain fun x mem => Option.some.inj mem ▸ quiet

theorem DualMode.leaf_isLoop (plain : DualMode.plain s = .guarded .isNormal s) :
    (Stmt.ofList (mode.segment (Stmt.leaf next s).1)).isLoop = false := by
  unfold Stmt.leaf
  split
  · rw [DualMode.segment]
    cases mode.strategy <;> rfl
  · rw [DualMode.segment, plain]
    rfl

/-- The two-mode form of a statement is no bare loop. -/
theorem DualMode.segment_isLoop {inTry : Bool} (notLoop : s.isLoop = false) :
    (Stmt.ofList (mode.segment (s.segment inTry next).1)).isLoop = false := by
  have answer : ∀ value app, (Stmt.ofList (mode.segment (.ret value app))).isLoop = false := by
    intro value app
    rw [DualMode.segment]
    cases app with
    | none => simp only [DualMode.ret]; split <;> rfl
    | tail => rfl
    | mixed => rfl
  cases s with
  | letS _ _ => exact DualMode.leaf_isLoop rfl
  | assign _ _ => exact DualMode.leaf_isLoop rfl
  | expr _ => exact DualMode.leaf_isLoop rfl
  | whileS _ _ => cases notLoop
  | returnS value =>
    cases value with
    | none => exact answer _ _
    | some e =>
      simp only [Stmt.segment]
      split
      · rfl
      · exact answer _ _
  | _ => rfl

/-- The two-mode form of a statement is in the grammar, wherever its labels begin. -/
def DualMode.Splits (mode : DualMode) (code : Func → Prop) (normal : Bool) (s : Stmt) : Prop :=
  ∀ inTry next, ∀ i ∈ mode.segment (s.segment inTry next).1, i.Dual mode.strategy code normal

theorem DualMode.segments_dual {body : List Stmt} (splits : ∀ s ∈ body, mode.Splits code normal s)
    (inTry : Bool) (next : Nat) :
    ∀ i ∈ mode.segments (Stmt.segments inTry next body).1, i.Dual mode.strategy code normal := by
  induction body generalizing next with
  | nil => intro i mem; cases mem
  | cons s rest ih =>
    rw [List.forall_mem_cons] at splits
    simp only [Stmt.segments, DualMode.segments]
    exact List.forall_mem_append.mpr ⟨splits.1 inTry next, ih splits.2 _⟩

/-- A statement under a condition, as an `else` part, a label or a `finally` part has it. -/
theorem DualMode.Splits.under {test : Expr} (splits : mode.Splits code normal s)
    (quiet : test.Quiet code) (inTry : Bool) (next : Nat) :
    (Stmt.guarded test (.ofList (mode.segment (s.segment inTry next).1))).Dual
      mode.strategy code normal :=
  .branch quiet (Stmt.ofList_dual (splits inTry next)) (by simp)

theorem DualMode.segmentElse_dual {elseS : Option Stmt}
    (splits : ∀ s ∈ elseS, mode.Splits code normal s) (inTry : Bool) (next : Nat) :
    ∀ i ∈ mode.segmentElse (Stmt.segmentOption inTry next elseS).1,
      i.Dual mode.strategy code normal := by
  cases elseS with
  | none => intro i mem; cases mem
  | some s =>
    intro i mem
    simp only [Stmt.segmentOption, DualMode.segmentElse] at mem
    cases mem
    exact (splits s rfl).under (orRestoring_quiet .isNormal _) inTry next

/-- The handler of a two-mode `try` begins with its guard. -/
theorem DualMode.segmentHandler_dual {handler : Option Handler}
    (splits : ∀ h ∈ handler, mode.Splits code normal h.body) (next : Nat) :
    ∀ h ∈ mode.segmentHandler (Handler.segmentOption next handler).1,
      h.body.passesSignals = true ∧ h.body.Dual mode.strategy code normal := by
  cases handler with
  | none => intro _ mem; cases mem
  | some h =>
    obtain ⟨param, body⟩ := h
    intro _ mem
    simp only [Handler.segmentOption, DualMode.segmentHandler] at mem
    cases mem
    refine ⟨rfl, .block (List.forall_mem_cons.mpr ⟨.rethrow, ?_⟩)⟩
    exact splits ⟨param, body⟩ rfl true next

theorem DualMode.segmentFinal_dual {final : Option Stmt}
    (splits : ∀ s ∈ final, mode.Splits code normal s) (inTry : Bool) (next : Nat) :
    ∀ s ∈ mode.segmentFinal (Stmt.segmentOption inTry next final).1,
      s.sparesCaptures = true ∧ s.Dual mode.strategy code normal := by
  cases final with
  | none => intro _ mem; cases mem
  | some s =>
    intro _ mem
    simp only [Stmt.segmentOption, DualMode.segmentFinal] at mem
    cases mem
    exact ⟨rfl, (splits s rfl).under (.unary .capturing) inTry next⟩

theorem DualMode.intoHandler_dual {param : String} {labels : List Nat} :
    ∀ i ∈ DualMode.intoHandler param labels, i.Dual strategy code normal := by
  intro i mem
  unfold DualMode.intoHandler at mem
  split at mem
  · rename_i restoring
    cases List.mem_singleton.mp mem
    exact .branch (restoringInto_quiet restoring) (.throwS .ident) (by simp)
  · cases mem

/-- A statement of the source grammar splits into statements for both modes. -/
theorem DualMode.splits_of_sound (sound : s.Sound code) : mode.Splits code normal s := by
  intro inTry next
  induction sound generalizing inTry next with
  | block _ ih =>
    intro i mem
    simp only [Stmt.segment, DualMode.segment] at mem
    cases List.mem_singleton.mp mem
    exact .block (coalesce_dual (DualMode.segments_dual ih inTry next))
  | letS live =>
    simp only [Stmt.segment]
    exact DualMode.leaf_dual (.letS live) (fun _ => .letS) rfl
  | assign target live =>
    simp only [Stmt.segment]
    exact DualMode.leaf_dual (.assign target live) (fun _ => .assign target) rfl
  | expr live =>
    simp only [Stmt.segment]
    exact DualMode.leaf_dual (.expr live) (fun _ => .expr) rfl
  | ifS test _ _ thenIH elseIH =>
    intro i mem
    simp only [Stmt.segment, DualMode.segment] at mem
    cases List.mem_singleton.mp mem
    exact .branch (orRestoring_quiet (.binary .isNormal test) _)
      (Stmt.ofList_dual (thenIH inTry next)) (DualMode.segmentElse_dual elseIH inTry _)
  | loop test _ ih =>
    intro i mem
    simp only [Stmt.segment, DualMode.segment] at mem
    cases List.mem_singleton.mp mem
    refine .branch (orRestoring_quiet .isNormal _) (.loop ?_ (Stmt.ofList_dual (ih inTry next)))
      (by simp)
    split
    · rename_i restoring
      exact .binary (restoringInto_quiet restoring) (.binary .isNormal test)
    · exact .binary .isNormal test
  | labeled notLoop _ ih =>
    intro i mem
    simp only [Stmt.segment, DualMode.segment] at mem
    cases List.mem_singleton.mp mem
    exact .branch (orRestoring_quiet .isNormal _)
      (.labeled (DualMode.segment_isLoop notLoop) (Stmt.ofList_dual (ih inTry next)))
      (by simp)
  | breakS =>
    intro i mem
    cases List.mem_singleton.mp mem
    exact .guarded .breakS
  | returnS live =>
    rename_i value
    cases value with
    | none => exact DualMode.ret_dual live
    | some e =>
      simp only [Stmt.segment]
      split
      · -- the call is bound first, and what is returned is a name
        intro i mem
        simp only [DualMode.segment] at mem
        cases List.mem_singleton.mp mem
        refine .block (coalesce_dual ?_)
        simp only [DualMode.segments, DualMode.segment, List.append_nil]
        refine List.forall_mem_append.mpr ⟨?_, ?_⟩
        · exact DualMode.leaf_dual (.letS live) (fun _ => .letS) rfl
        · have name : ∀ x ∈ some (Expr.ident tailResult), x.Live code :=
            fun x mem => Option.some.inj mem ▸ .quiet .ident
          exact DualMode.ret_dual name
      · exact DualMode.ret_dual live
  | throwS value =>
    intro i mem
    cases List.mem_singleton.mp mem
    exact .guarded (.throwS value)
  | tryS _ _ _ bodyIH handlerIH finalIH =>
    rename_i body handler final _ _ _
    intro i mem
    simp only [Stmt.segment, DualMode.segment] at mem
    cases List.mem_singleton.mp mem
    have handlerDual := DualMode.segmentHandler_dual handlerIH (body.segment true next).2
    have finalDual := DualMode.segmentFinal_dual finalIH true
      (Handler.segmentOption (body.segment true next).2 handler).2
    refine .attempt (.block (List.forall_mem_append.mpr ⟨?_, bodyIH true next⟩))
      (fun h mem => (handlerDual h mem).1) (fun h mem => (handlerDual h mem).2)
      (fun s mem => (finalDual s mem).1) (fun s mem => (finalDual s mem).2)
    split
    · exact DualMode.intoHandler_dual
    · intro _ mem
      cases mem
  | decl f =>
    intro i mem
    cases List.mem_singleton.mp mem
    exact .guarded (.decl f)

theorem DualMode.body_dual {body : List Stmt} (sound : ∀ s ∈ body, s.Sound code) :
    ∀ i ∈ mode.body (analyze body).body, i.Dual mode.strategy code normal :=
  coalesce_dual (DualMode.segments_dual (fun s mem => DualMode.splits_of_sound (sound s mem)) _ _)

end TwoModes

/-! ## Whole programs -/

theorem Func.dualMode_resumable {f : Func} (sound : ∀ s ∈ f.body,
    s.Sound (Func.Resumes options.strategy)) : (f.dualMode options).Resumes options.strategy := by
  have body : ∀ constructorReturns, ∀ s ∈ DualMode.body ⟨options.strategy, constructorReturns⟩
      (analyze f.body).body, s.Dual options.strategy (Func.Resumes options.strategy) false :=
    fun _ => DualMode.body_dual sound
  by_cases direct : options.construction = .direct
  · have bodyEq : (f.dualMode options).body =
        [.letS newTargetLocal (some .newTarget)] ++ .stackDec :: .restoreFrame ::
          (DualMode.body ⟨options.strategy, true⟩ (analyze f.body).body ++
            [.stackInc, .guarded (.ident newTargetLocal) (.returnS (some .this))]) := by
      simp [Func.dualMode, direct]
    refine .intro (.inr rfl) bodyEq (List.forall_mem_append.mpr ⟨body true, ?_⟩)
    refine List.forall_mem_cons.mpr ⟨.stackInc, List.forall_mem_cons.mpr ⟨?_, ?_⟩⟩
    · refine .branch .ident (.answer ?_) (by simp)
      exact fun x mem => Option.some.inj mem ▸ .this
    · exact List.forall_mem_nil _
  · have bodyEq : (f.dualMode options).body = [] ++ .stackDec :: .restoreFrame ::
        (DualMode.body ⟨options.strategy, false⟩ (analyze f.body).body ++ [.stackInc]) := by
      simp [Func.dualMode, direct]
    refine .intro (.inl rfl) bodyEq (List.forall_mem_append.mpr ⟨body false, ?_⟩)
    exact List.forall_mem_cons.mpr ⟨.stackInc, List.forall_mem_nil _⟩

theorem instrumenting_nodes : (instrumenting options).KeepsNodes code where
  quiet _ e h := by
    cases e with
    | new callee args => nomatch h
    | _ => exact h
  live _ e h := by
    cases h with
    | quiet h =>
      cases e with
      | new callee args => nomatch h
      | _ => exact .quiet h
    | call hc ha => exact .call hc ha
    | new hc ha =>
      simp only [instrumenting]
      split
      · exact .handleNew hc ha
      · exact .new hc ha
    | handleNew hc ha => exact .handleNew hc ha
    | suspend => exact .suspend
  stmt _ _ h := h
  loop _ _ _ _ test body := .loop test body
  notLoop _ _ h := h

/-- The pass leads to any class that the functions it writes are of. -/
theorem instrumenting_keeps_of (func : ∀ f : Func, (∀ s ∈ f.body, s.Sound code) →
    code (f.dualMode options)) : (instrumenting options).Keeps Func.Source code :=
  { instrumenting_nodes with
    body := fun _ source => source.body
    func := fun _ _ _ _ sound => func _ sound }

theorem instrumenting_keeps (options : CompileOptions) :
    (instrumenting options).Keeps Func.Source (Func.Resumes options.strategy) :=
  instrumenting_keeps_of fun _ => Func.dualMode_resumable

theorem Program.instrument_resumable (sound : ∀ s ∈ p.body, s.Sound Func.Source) :
    (Machine.top (p.instrument options)).Resumes options.strategy := by
  have transformed := Stmt.transformList_sound (instrumenting_keeps options) p.body () sound
  have bodyEq : (Machine.top (p.instrument options)).body = [] ++ .stackDec :: .restoreFrame ::
      (DualMode.body ⟨options.strategy, false⟩
        (analyze (Stmt.transformList (instrumenting options) () p.body)).body ++ [.stackInc]) := by
    simp [Machine.top, Program.instrument]
  refine .intro (.inl rfl) bodyEq (List.forall_mem_append.mpr ⟨?_, ?_⟩)
  · exact DualMode.body_dual transformed
  · exact List.forall_mem_cons.mpr ⟨.stackInc, List.forall_mem_nil _⟩

/-- The passes before instrumentation lead to a program of the source grammar. -/
theorem Program.compile_eq (accepted : NormalForm.errors source = []) :
    ∃ prepared : Program, (∀ s ∈ prepared.body, s.Sound Func.Source) ∧
      source.compile options = .ok (prepared.instrument options) := by
  have sound := Program.sound_of_accepted accepted
  unfold Program.compile
  rw [accepted]
  refine ⟨_, Cell.insert_sound ?_, rfl⟩
  split
  · exact SafePoint.insert_sound sound
  · exact sound

/-- What is compiled was accepted. -/
theorem Program.accepted_of_compile {compiled : Program}
    (ok : source.compile options = .ok compiled) : NormalForm.errors source = [] := by
  unfold Program.compile at ok
  split at ok
  · assumption
  · cases ok

/-- The top level of a compiled program is resumable, and so is every function in it. -/
theorem Program.compile_resumable {compiled : Program}
    (ok : source.compile options = .ok compiled) : (Machine.top compiled).Resumes options.strategy ∧
      compiled.instrumented.map (·.strategy) = some options.strategy := by
  obtain ⟨prepared, sound, compiles⟩ := Program.compile_eq (Program.accepted_of_compile ok)
  cases ok.symm.trans compiles
  exact ⟨Program.instrument_resumable sound, rfl⟩

end Resumable
