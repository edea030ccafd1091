import Resumable.Proofs.Compiled

/-!
Loading of compiled programs.

Loading changes the sites of functions and nothing else, so what the grammars say of a program they
say of the loaded program, wherever its sites begin.
-/

namespace Resumable

variable {strategy : Strategy} {code : Func → Prop}

/-- The loaded expression is in the class that the expression was in. -/
def Expr.LoadsTo (code : Func → Prop) (e e' : Expr) : Prop :=
  (e.Quiet code → e'.Quiet code) ∧
    (e.Live code → e'.Live code)

theorem Expr.LoadsTo.of_quiet {e e' : Expr} (notApp : e.isApplication = false)
    (quiet : e.Quiet code → e'.Quiet code) :
    e.LoadsTo code e' :=
  ⟨quiet, fun live => .quiet (quiet (live.quiet_of_not_application notApp))⟩

/-- The loaded statement is in the class that the statement was in. -/
def Stmt.LoadsTo (strategy : Strategy) (code : Func → Prop) (s s' : Stmt) : Prop :=
  ∀ normal, s.Dual strategy code normal → s'.Dual strategy code normal

/-- The loaded statements of a body are in the class that the statements were in. -/
theorem Stmt.loadList_dual {normal : Bool} {body : List Stmt}
    (loads : ∀ s ∈ body, ∀ next, s.LoadsTo strategy code (s.load next).1)
    (dual : ∀ s ∈ body, s.Dual strategy code normal) (next : Nat) :
    ∀ s ∈ (Stmt.loadList body next).1, s.Dual strategy code normal := by
  induction body generalizing next with
  | nil => exact dual
  | cons s rest ih =>
    rw [List.forall_mem_cons] at loads dual
    exact List.forall_mem_cons.mpr ⟨loads.1 next normal dual.1, ih loads.2 dual.2 _⟩

/-! ## Shapes -/

section

variable {s : Stmt} {next : Nat}

theorem Stmt.load_isLoop (next : Nat) : (s.load next).1.isLoop = s.isLoop := by
  cases s <;> rfl

theorem Stmt.load_passesSignals (passes : s.passesSignals = true) : (s.load next).1.passesSignals =
    true := by
  unfold Stmt.passesSignals at passes
  split at passes
  · rfl
  · cases passes

theorem Stmt.load_sparesCaptures (spares : s.sparesCaptures = true) :
    (s.load next).1.sparesCaptures = true := by
  unfold Stmt.sparesCaptures at spares
  split at spares
  · rfl
  · cases spares

theorem Stmt.mem_loadOption {o : Option Stmt} {s' : Stmt} (mem : s' ∈ (Stmt.loadOption o next).1) :
    ∃ s ∈ o, s' = (s.load next).1 := by
  cases o with
  | none => cases mem
  | some s => exact ⟨s, rfl, (Option.some.inj mem).symm⟩

theorem Handler.mem_loadOption {o : Option Handler} {h' : Handler}
    (mem : h' ∈ (Handler.loadOption o next).1) : ∃ h ∈ o, h'.body = (h.body.load next).1 := by
  rcases o with _ | ⟨param, body⟩
  · cases mem
  · exact ⟨⟨param, body⟩, rfl, congrArg Handler.body (Option.some.inj mem).symm⟩

end

/-! ## Classes -/

/-- A function stays in the class when the statements of its body are loaded. -/
def Func.Reloads (strategy : Strategy) (code : Func → Prop) : Prop :=
  ∀ (f f' : Func) (next : Nat), code f → (∀ s ∈ f.body, ∀ next, s.LoadsTo strategy code
    (s.load next).1) → f'.body = (Stmt.loadList f.body next).1 → code f'

section

variable (reloads : Func.Reloads strategy code)

include reloads

set_option linter.unusedSectionVars false in
mutual

theorem Expr.load_class : (e : Expr) → (next : Nat) → e.LoadsTo code (e.load next).1
  | .num _, _ | .str _, _ | .bool _, _ | .null, _ | .undefined, _ | .ident _, _ | .this,
      _ | .arguments, _ | .isNormal, _
  | .isRestoring, _ | .targetIn _, _ | .capturing, _ | .newTarget, _ | .reenterNext, _ =>
    .of_quiet rfl id
  | .suspend, _ => ⟨id, id⟩
  | .binary _ left right, _ => by
    refine .of_quiet rfl fun quiet => ?_
    cases quiet with
    | binary hl hr => exact .binary ((left.load_class _).1 hl) ((right.load_class _).1 hr)
  | .unary _ arg, _ => by
    refine .of_quiet rfl fun quiet => ?_
    cases quiet with
    | unary h => exact .unary ((arg.load_class _).1 h)
  | .cond test thenE elseE, _ => by
    refine .of_quiet rfl fun quiet => ?_
    cases quiet with
    | cond ht ha hb =>
      exact .cond ((test.load_class _).1 ht) ((thenE.load_class _).1 ha)
        ((elseE.load_class _).1 hb)
  | .member base _, _ => by
    refine .of_quiet rfl fun quiet => ?_
    cases quiet with
    | member h => exact .member ((base.load_class _).1 h)
  | .index base key, _ => by
    refine .of_quiet rfl fun quiet => ?_
    cases quiet with
    | index hb hk => exact .index ((base.load_class _).1 hb) ((key.load_class _).1 hk)
  | .func f, _ => by
    refine .of_quiet rfl fun quiet => ?_
    cases quiet with
    | func h => exact .func (f.load_code _ h)
  | .array elements, _ => by
    refine .of_quiet rfl fun quiet => ?_
    cases quiet with
    | array h => exact .array (Expr.loadList_quiet elements _ h)
  | .object props, _ => by
    refine .of_quiet rfl fun quiet => ?_
    cases quiet with
    | object h => exact .object (Expr.loadProps_quiet props _ h)
  | .call callee args, _ => by
    refine ⟨fun quiet => (nomatch quiet), fun live => ?_⟩
    cases live with
    | quiet quiet => nomatch quiet
    | call hc ha => exact .call ((callee.load_class _).1 hc) (Expr.loadList_quiet args _ ha)
  | .new callee args, _ => by
    refine ⟨fun quiet => (nomatch quiet), fun live => ?_⟩
    cases live with
    | quiet quiet => nomatch quiet
    | new hc ha => exact .new ((callee.load_class _).1 hc) (Expr.loadList_quiet args _ ha)
  | .handleNew callee args, _ => by
    refine ⟨fun quiet => (nomatch quiet), fun live => ?_⟩
    cases live with
    | quiet quiet => nomatch quiet
    | handleNew hc ha =>
    exact .handleNew ((callee.load_class _).1 hc) (Expr.loadList_quiet args _ ha)

theorem Expr.loadList_quiet : (es : List Expr) → (next : Nat) → (∀ e ∈ es, e.Quiet code) →
    ∀ e ∈ (Expr.loadList es next).1, e.Quiet code
  | [], _, _ => fun _ mem => nomatch mem
  | e :: rest, _, quiet => by
    rw [List.forall_mem_cons] at quiet
    exact List.forall_mem_cons.mpr
      ⟨(e.load_class _).1 quiet.1, Expr.loadList_quiet rest _ quiet.2⟩

theorem Expr.loadProps_quiet : (props : List (String × Expr)) → (next : Nat) →
    (∀ p ∈ props, p.2.Quiet code) →
    ∀ p ∈ (Expr.loadProps props next).1, p.2.Quiet code
  | [], _, _ => fun _ mem => nomatch mem
  | (_, e) :: rest, _, quiet => by
    rw [List.forall_mem_cons] at quiet
    exact List.forall_mem_cons.mpr
      ⟨(e.load_class _).1 quiet.1, Expr.loadProps_quiet rest _ quiet.2⟩

theorem Target.load_quiet : (target : Target) → (next : Nat) → target.Quiet code →
    (target.load next).1.Quiet code
  | .ident _, _, _ => .ident
  | .member base _, _, quiet => by
    cases quiet with
    | member h => exact .member ((base.load_class _).1 h)
  | .index base key, _, quiet => by
    cases quiet with
    | index hb hk => exact .index ((base.load_class _).1 hb) ((key.load_class _).1 hk)

theorem Stmt.load_reentering : (s : Stmt) → (next : Nat) → s.Reentering code →
    (s.load next).1.Reentering code
  | .letS _ (some .reenterNext), _, .letS => .letS
  | .assign target .reenterNext, _, .assign h => .assign (target.load_quiet _ h)
  | .expr .reenterNext, _, .expr => .expr
  | .ifS test s none, _, .guarded ht hs =>
    .guarded ((test.load_class _).1 ht) (s.load_reentering _ hs)

theorem Stmt.loadOption_reentering : (o : Option Stmt) → (next : Nat) →
    (∀ s ∈ o, s.Reentering code) → ∀ s' ∈ (Stmt.loadOption o next).1, s'.Reentering code
  | none, _, _ => fun _ mem => nomatch mem
  | some s, _, reentering =>
    fun _ mem => Option.some.inj mem ▸ s.load_reentering _ (reentering s rfl)

theorem Stmt.load_class : (s : Stmt) → (next : Nat) → s.LoadsTo strategy code (s.load next).1
  | .block body, _, _, .block h => .block (Stmt.loadList_dual (Stmt.loadList_class body) h _)
  | .letS _ none, _, _, h => h
  | .letS _ (some e), _, _, .bind h => .bind ((e.load_class _).1 h)
  | .letS _ (some e), _, _, .letS h =>
    .letS fun _ mem => Option.some.inj mem ▸ (e.load_class _).2 (h e rfl)
  | .assign target value, _, _, .assign ht hv =>
    .assign (target.load_quiet _ ht) ((value.load_class _).2 hv)
  | .expr e, _, _, .expr h => .expr ((e.load_class _).2 h)
  | .ifS .isNormal s elseS, _, _, .select hs he =>
    .select (s.load_class _ true hs) (Stmt.loadOption_reentering elseS _ he)
  | .ifS test s elseS, _, normal, .branch ht hs he =>
    .branch ((test.load_class _).1 ht) (s.load_class _ normal hs)
    (Stmt.loadOption_class elseS _ normal he)
  | .labeled _ (.whileS test body), _, normal, .loop ht hb =>
    .loop ((test.load_class _).1 ht) (body.load_class _ normal hb)
  | .labeled _ body, _, normal, .labeled notLoop h =>
    .labeled ((Stmt.load_isLoop _).trans notLoop) (body.load_class _ normal h)
  | .returnS none, _, _, h => h
  | .returnS (some e), _, _, .answer h =>
    .answer fun _ mem => Option.some.inj mem ▸ (e.load_class _).1 (h e rfl)
  | .returnS (some e), _, _, .returnS h => .returnS ((e.load_class _).2 h)
  | .throwS value, _, _, .throwS h => .throwS ((value.load_class _).1 h)
  | .tryS body handler final, _, normal, .attempt hb passes hh spares hf => by
    refine .attempt (body.load_class _ normal hb) (fun h' mem => ?_)
      (Handler.loadOption_class handler _ normal hh) (fun s' mem => ?_)
      (Stmt.loadOption_class final _ normal hf)
    · obtain ⟨h, inside, loaded⟩ := Handler.mem_loadOption mem
      rw [loaded]
      exact Stmt.load_passesSignals (passes h inside)
    · obtain ⟨s, inside, rfl⟩ := Stmt.mem_loadOption mem
      exact Stmt.load_sparesCaptures (spares s inside)
  | .decl f, _, _, .decl h => .decl (f.load_code _ h)
  | .recordOnCapture _ body, _, normal, .record isLazy h =>
    .record isLazy (body.load_class _ normal h)
  | .shadowFrame _ body, _, normal, .shadow eager h => .shadow eager (body.load_class _ normal h)
  | .breakS _, _, _, h | .stackInc, _, _, h | .returnIfCapturing _, _, _, h | .rethrowSignal _, _,
    _, h => h

theorem Stmt.loadOption_class : (o : Option Stmt) → (next : Nat) → (normal : Bool) →
    (∀ s ∈ o, s.Dual strategy code normal) → ∀ s' ∈ (Stmt.loadOption o next).1,
    s'.Dual strategy code normal
  | none, _, _, _ => fun _ mem => nomatch mem
  | some s, _, _, dual => fun _ mem => Option.some.inj mem ▸ s.load_class _ _ (dual s rfl)

theorem Handler.loadOption_class : (o : Option Handler) → (next : Nat) → (normal : Bool) →
    (∀ h ∈ o, h.body.Dual strategy code normal) →
    ∀ h' ∈ (Handler.loadOption o next).1, h'.body.Dual strategy code normal
  | none, _, _, _ => fun _ mem => nomatch mem
  | some ⟨_, body⟩, _, _, dual =>
    fun _ mem => Option.some.inj mem ▸ body.load_class _ _ (dual _ rfl)

theorem Stmt.loadList_class : (body : List Stmt) →
    ∀ s ∈ body, ∀ next, s.LoadsTo strategy code (s.load next).1
  | [] => fun _ mem => nomatch mem
  | s :: rest => List.forall_mem_cons.mpr ⟨s.load_class, Stmt.loadList_class rest⟩

theorem Func.load_code : (f : Func) → (next : Nat) → code f → code (f.load next).1
  | ⟨name, params, body, frame, site⟩, next, ofCode =>
    reloads ⟨name, params, body, frame, site⟩ _ (next + 1) ofCode (Stmt.loadList_class body) rfl

end

end

/-- A function is resumable once the statements of its body are loaded. -/
theorem Func.resumable_reloads : Func.Reloads strategy (Func.Resumes strategy) := by
  intro f f' next resumable loads bodyEq'
  cases resumable with
  | intro bare bodyEq dual =>
    rw [bodyEq] at loads bodyEq'
    have rest := List.forall_mem_cons.mp (List.forall_mem_cons.mp
      (List.forall_mem_append.mp loads).2).2
    rcases bare with rfl | rfl
    · exact .intro (.inl rfl) bodyEq' (Stmt.loadList_dual rest.2 dual _)
    · exact .intro (.inr rfl) bodyEq' (Stmt.loadList_dual rest.2 dual _)

/-- The top level of a loaded program is of the class if that of the program is. -/
theorem Program.number_code (reloads : Func.Reloads strategy code) {program : Program}
    (ofCode : code (Machine.top program)) (next : Nat) :
    code (Machine.top (program.number next).1) :=
  reloads (Machine.top program) _ next ofCode (Stmt.loadList_class reloads program.body) rfl

/-- The top level of a compiled program is resumable once it is loaded, and so is every function in
it. -/
theorem Program.number_resumable {options : CompileOptions} {source compiled : Program}
    (ok : source.compile options = .ok compiled) (next : Nat) :
    (Machine.top (compiled.number next).1).Resumes options.strategy ∧
      (compiled.number next).1.instrumented.map (·.strategy) = some options.strategy := by
  obtain ⟨resumable, header⟩ := Program.compile_resumable ok
  exact ⟨Program.number_code Func.resumable_reloads resumable next, header⟩

end Resumable
