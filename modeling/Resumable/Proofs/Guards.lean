import Resumable.Proofs.Signposts

/-!
Guards that are exact.

`Stmt.Exact` is a grammar of statements in two modes: wherever a restoring run is let in, it is let
in for the labels of the capture points behind that place, no more and no fewer, and there is no
such condition where there are none.  It is about any function whose source has no instrumentation
in it, in normal form or not, and does not look into nested functions.  `Signposts` has more on
functions in normal form.
-/

namespace Resumable

mutual

/-- The statement and the statements in it, those of functions apart. -/
def Stmt.inner (s : Stmt) : List Stmt :=
  s :: match s with
    | .block body => Stmt.innerList body
    | .ifS _ thenS elseS => thenS.inner ++ Stmt.innerOption elseS
    | .whileS _ body | .labeled _ body | .recordOnCapture _ body | .shadowFrame _ body => body.inner
    | .tryS body handler final =>
      body.inner ++ Handler.innerOption handler ++ Stmt.innerOption final
    | _ => []

def Stmt.innerList : List Stmt → List Stmt
  | [] => []
  | s :: rest => s.inner ++ Stmt.innerList rest

def Stmt.innerOption : Option Stmt → List Stmt
  | none => []
  | some s => s.inner

def Handler.innerOption : Option Handler → List Stmt
  | none => []
  | some ⟨_, body⟩ => body.inner

end

/-- The labels of the capture points among the statements. -/
abbrev pointLabels (stmts : List Stmt) : List Nat :=
  stmts.filterMap Stmt.records?

/-- The statement has no statements in it and records nothing. -/
def Stmt.Simple (s : Stmt) : Prop :=
  s.inner = [s] ∧ s.records? = none

/-- The test holds if the condition does, or for runs that are restored to one of the labels, if
there are any. -/
inductive Expr.Admits (labels : List Nat) (normal : Expr) : Expr → Prop
  | never : labels = [] → Expr.Admits labels normal normal
  | before : labels ≠ [] →
      Expr.Admits labels normal (.binary .or (.binary .and .isRestoring (.targetIn labels)) normal)
  | after : labels ≠ [] →
      Expr.Admits labels normal (.binary .or normal (.binary .and .isRestoring (.targetIn labels)))

/-- What a `try` begins with, for a handler with the labels: it raises the exception again. -/
inductive Stmt.Reraises (param : String) (labels : List Nat) : List Stmt → Prop
  | never : labels = [] → Stmt.Reraises param labels []
  | again : labels ≠ [] → Stmt.Reraises param labels
      [.ifS (.binary .and .isRestoring (.targetIn labels)) (.throwS (.ident param)) none]

mutual

/-- Statements in two modes. -/
inductive Stmt.Exact : Stmt → Prop
  | simple {s : Stmt} : s.Simple → Stmt.Exact s
  | guarded {test : Expr} {s : Stmt} : Stmt.Sheltered s →
      Expr.Admits (pointLabels s.inner) .isNormal test → Stmt.Exact (.ifS test s none)
  | shadowed {label : Nat} {s again : Stmt} : s.Simple → again.Simple →
      Stmt.Exact (.shadowFrame label (.pointAt label s again))
  | recorded {label : Nat} {s again : Stmt} : s.Simple → again.Simple →
      Stmt.Exact (.recordOnCapture label (.pointAt label s again))
  | block {body : List Stmt} : Stmt.ExactList body → Stmt.Exact (.block body)
  | branch {test cond : Expr} {thenS : Stmt} {elseS : Option Stmt} : thenS.Exact →
      Expr.Admits (pointLabels thenS.inner) (.binary .and .isNormal test) cond →
        Stmt.ExactElse elseS →
      Stmt.Exact (.ifS cond thenS elseS)
  | loop {test cond : Expr} {body : Stmt} : body.Exact →
      Expr.Admits (pointLabels body.inner) (.binary .and .isNormal test) cond →
        Stmt.Exact (.whileS cond body)
  | attempt {opening body : List Stmt} {handler : Option Handler} {final : Option Stmt} :
      Stmt.ExactList body → Handler.Exact opening handler → Stmt.ExactFinal final →
      Stmt.Exact (.tryS (.block (opening ++ body)) handler final)
  | construction : Stmt.Exact (.ifS (.ident newTargetLocal) (.returnS (some .this)) none)

/-- What stands under a guard of its own.  A labeled statement stands nowhere else. -/
inductive Stmt.Sheltered : Stmt → Prop
  | simple {s : Stmt} : s.Simple → Stmt.Sheltered s
  | labeled {name : String} {body : Stmt} : body.Exact → Stmt.Sheltered (.labeled name body)
  | run {body : List Stmt} : (∀ s ∈ body, Stmt.Sheltered s) → Stmt.Sheltered (.block body)

inductive Stmt.ExactElse : Option Stmt → Prop
  | none : Stmt.ExactElse none
  | some {test : Expr} {s : Stmt} : s.Exact → Expr.Admits (pointLabels s.inner) .isNormal test →
      Stmt.ExactElse (some (.ifS test s none))

/-- A final part waits for captures only. -/
inductive Stmt.ExactFinal : Option Stmt → Prop
  | none : Stmt.ExactFinal none
  | some {s : Stmt} : s.Exact → Stmt.ExactFinal (some (.ifS (.unary .not .capturing) s none))

/-- A handler, and what the body begins with because of it. -/
inductive Handler.Exact : List Stmt → Option Handler → Prop
  | none : Handler.Exact [] none
  | some {param : String} {opening body : List Stmt} : Stmt.ExactList body →
      Stmt.Reraises param (pointLabels (Stmt.innerList body)) opening →
      Handler.Exact opening (some ⟨param, .block (.rethrowSignal param :: body)⟩)

/-- Statements one after the other.  Some capture points take two. -/
inductive Stmt.ExactList : List Stmt → Prop
  | nil : Stmt.ExactList []
  | cons {s : Stmt} {rest : List Stmt} : s.Exact → Stmt.ExactList rest → Stmt.ExactList (s :: rest)
  | point {label : Nat} {s again : Stmt} {rest : List Stmt} : s.Simple → again.Simple →
      Stmt.ExactList rest → Stmt.ExactList (.pointAt label s again :: .returnIfCapturing
        label :: rest)

end

/-! ## Putting statements together -/

theorem Stmt.innerList_append (first second : List Stmt) :
    Stmt.innerList (first ++ second) = Stmt.innerList first ++ Stmt.innerList second := by
  induction first with
  | nil => rfl
  | cons s rest ih => simp only [List.cons_append, Stmt.innerList, ih, List.append_assoc]

theorem Stmt.Simple.labels {s : Stmt} (simple : s.Simple) : pointLabels s.inner = [] := by
  rw [simple.1, pointLabels, List.filterMap_cons_none simple.2, List.filterMap_nil]

theorem Stmt.Simple.pointAt {s again : Stmt} (simple : s.Simple) (simple' : again.Simple)
    (label : Nat) : pointLabels (Stmt.pointAt label s again).inner = [] := by
  have first := simple.labels
  have second := simple'.labels
  simp only [Stmt.pointAt, Stmt.inner, Stmt.innerOption, pointLabels, List.filterMap_cons,
    List.filterMap_append, List.append_nil, Stmt.records?] at first second ⊢
  rw [first, second]
  rfl

/-- The statements are exact, and these are their labels. -/
structure Stmt.Exactly (labels : List Nat) (stmts : List Stmt) : Prop where
  exact : Stmt.ExactList stmts
  labels_eq : pointLabels (Stmt.innerList stmts) = labels

namespace Stmt

variable {labels later : List Nat} {stmts rest : List Stmt} {s : Stmt}

theorem ExactList.append {stmts : List Stmt} : ExactList stmts → ExactList rest →
    ExactList (stmts ++ rest)
  | .nil, second => second
  | .cons exact first, second => .cons exact (first.append second)
  | .point simple simple' first, second => .point simple simple' (first.append second)

namespace Exactly

theorem nil : Exactly [] [] :=
  ⟨.nil, rfl⟩

theorem append (first : Exactly labels stmts) (second : Exactly later rest) :
    Exactly (labels ++ later) (stmts ++ rest) := by
  refine ⟨first.exact.append second.exact, ?_⟩
  rw [innerList_append, pointLabels, List.filterMap_append]
  exact congr (congrArg _ first.labels_eq) second.labels_eq

theorem single (exact : s.Exact) (labels_eq : pointLabels s.inner = labels) : Exactly labels [s] :=
  ⟨.cons exact .nil, by rw [innerList, innerList, List.append_nil, labels_eq]⟩

theorem simple (simple : s.Simple) : Exactly [] [s] :=
  .single (.simple simple) simple.labels

theorem point {label : Nat} {again : Stmt} (simple : s.Simple) (simple' : again.Simple) :
    Exactly [label] [.pointAt label s again, .returnIfCapturing label] := by
  refine ⟨.point simple simple' .nil, ?_⟩
  have noLabels := simple.pointAt simple' label
  simp only [innerList, pointLabels, List.filterMap_append] at noLabels ⊢
  rw [noLabels]
  rfl

theorem ofList (exactly : Exactly labels stmts) :
    (ofList stmts).Exact ∧ pointLabels (ofList stmts).inner = labels := by
  match stmts, exactly with
  | [], exactly | _ :: _ :: _, exactly => exact ⟨.block exactly.exact, exactly.labels_eq⟩
  | [s], ⟨.cons exact _, labels_eq⟩ =>
    rw [innerList, innerList, List.append_nil] at labels_eq
    exact ⟨exact, labels_eq⟩

end Exactly

/-! ## Shared guards -/

/-- What runs in normal mode only has no labels. -/
theorem Exact.normalOnly (exact : Exact (.ifS .isNormal s none)) : s.Sheltered ∧
    pointLabels s.inner = [] := by
  generalize form : ifS .isNormal s none = outer at exact
  cases exact with
  | simple simple =>
    subst form
    have alone := simple.1
    simp [inner.eq_def s, inner.eq_def (.ifS ..)] at alone
  | guarded sheltered admits =>
    cases form
    cases admits with
    | never none => exact ⟨sheltered, none⟩
  | branch _ admits _ =>
    cases form
    cases admits
  | _ => cases form

/-- Statements that wait for one guard. -/
def Waiting (run : List Stmt) : Prop :=
  ∀ s ∈ run, s.Sheltered ∧ pointLabels s.inner = []

theorem Waiting.share {run : List Stmt} (waiting : Waiting run) : Exactly [] (shareGuard run) := by
  have none : pointLabels (innerList run) = [] := by
    induction run with
    | nil => rfl
    | cons s rest ih =>
      rw [Waiting, List.forall_mem_cons] at waiting
      rw [innerList, pointLabels, List.filterMap_append]
      exact congr (congrArg _ waiting.1.2) (ih waiting.2)
  match run, waiting, none with
  | [], _, _ => exact .nil
  | [s], waiting, _ =>
    obtain ⟨sheltered, none⟩ := waiting s List.mem_cons_self
    refine .single (.guarded sheltered (.never none)) ?_
    simpa [guarded, inner, innerOption, records?] using none
  | first :: second :: rest, waiting, none =>
    refine .single (.guarded (.run fun s mem => (waiting s mem).1) (.never ?_)) ?_
    · simpa [inner, records?] using none
    · simpa [guarded, inner, innerOption, records?] using none

theorem Waiting.shareReversed {run : List Stmt} (waiting : Waiting run) : Exactly []
    (shareGuard run.reverse) :=
  Waiting.share fun s mem => waiting s (List.mem_reverse.mp mem)

theorem pointLabels_cons (s : Stmt) (rest : List Stmt) :
    pointLabels (innerList (s :: rest)) = pointLabels s.inner ++ pointLabels (innerList rest) := by
  rw [innerList, pointLabels, List.filterMap_append]

theorem coalesceRun_exactly {stmts : List Stmt} : ∀ {run : List Stmt}, Waiting run →
    ExactList stmts → Exactly (pointLabels (innerList stmts)) (coalesceRun run stmts)
  | run, waiting, .nil => waiting.shareReversed
  | run, waiting, .cons exact later => by
    unfold coalesceRun
    rw [pointLabels_cons]
    split
    · rename_i body guard
      rw [normalOnly?_eq_some guard] at exact ⊢
      have only := exact.normalOnly
      have noLabels : pointLabels (guarded .isNormal body).inner = [] := by
        simpa [guarded, inner, innerOption, records?] using only.2
      rw [noLabels, List.nil_append]
      exact coalesceRun_exactly (List.forall_mem_cons.mpr ⟨only, waiting⟩) later
    · exact waiting.shareReversed.append ((Exactly.single exact rfl).append
        (coalesceRun_exactly (List.forall_mem_nil _) later))
  | run, waiting, .point simple simple' later => by
    rw [pointLabels_cons, simple.pointAt simple', pointLabels_cons, List.nil_append]
    exact waiting.shareReversed.append
      (Exactly.point simple simple' |>.append (coalesceRun_exactly (List.forall_mem_nil _) later))

theorem Exactly.coalesced (exactly : Exactly labels stmts) : Exactly labels (coalesce stmts) :=
  exactly.labels_eq ▸ coalesceRun_exactly nofun exactly.exact

end Stmt

/-! ## Functions in two modes -/

theorem Handler.Exact.noLabels {opening : List Stmt} {handler : Option Handler}
    (exact : Handler.Exact opening handler) : pointLabels (Stmt.innerList opening) = [] := by
  cases exact with
  | none => rfl
  | some _ reraises => cases reraises <;> rfl

section Conditions

variable {points labels : List Nat}

theorem Expr.orRestoring_admits (normal : Expr) (same : points = labels) :
    Expr.Admits points normal (orRestoring normal labels) := by
  subst same
  cases points with
  | nil => exact .never rfl
  | cons => exact .after (List.cons_ne_nil _ _)

theorem Expr.restoringOr_admits (normal : Expr) (same : points = labels) :
    Expr.Admits points normal (restoringOr labels normal) := by
  subst same
  cases points with
  | nil => exact .never rfl
  | cons => exact .before (List.cons_ne_nil _ _)

theorem DualMode.intoHandler_reraises (param : String) (same : points = labels) :
    Stmt.Reraises param points (DualMode.intoHandler param labels) := by
  subst same
  cases points with
  | nil => exact .never rfl
  | cons => exact .again (List.cons_ne_nil _ _)

end Conditions

theorem Stmt.Exactly.block {labels : List Nat} {stmts : List Stmt}
    (exactly : Stmt.Exactly labels stmts) : Stmt.Exactly labels [.block stmts] :=
  .single (.block exactly.exact) exactly.labels_eq

theorem Stmt.pointLabels_branch {test : Expr} {thenS : Stmt} {elseS : Option Stmt}
    {labels later : List Nat} (first : pointLabels thenS.inner = labels)
    (second : pointLabels (Stmt.innerOption elseS) = later) :
    pointLabels (Stmt.ifS test thenS elseS).inner = labels ++ later := by
  rw [Stmt.inner, pointLabels, List.filterMap_cons_none rfl, List.filterMap_append]
  exact congr (congrArg _ first) second

section TwoModes

variable {mode : DualMode}

/-- What a `try` with the handler begins with. -/
def DualMode.opening : Option (String × Segment) → List Stmt
  | some (param, segment) => DualMode.intoHandler param segment.labels
  | none => []

theorem Stmt.Simple.restoring {s : Stmt} (app : s.application.isSome = true) : s.Simple ∧
    s.restoring.Simple := by
  cases s with
  | letS | assign | expr => exact ⟨⟨rfl, rfl⟩, ⟨rfl, rfl⟩⟩
  | _ => cases app

theorem capturePoint_exactly (pauses : mode.strategy ≠ .fudge) (label : Nat) {s : Stmt}
    (app : s.application.isSome = true) : Stmt.Exactly [label]
    (capturePoint mode.strategy label s) := by
  obtain ⟨simple, again⟩ := Stmt.Simple.restoring app
  have noLabels := simple.pointAt again label
  cases strategy : mode.strategy with
  | eager => exact .single (.shadowed simple again) (congrArg (label :: ·) noLabels)
  | lazy => exact .single (.recorded simple again) (congrArg (label :: ·) noLabels)
  | retval => exact .point simple again
  | fudge => exact absurd strategy pauses

theorem DualMode.guarded_exactly {s : Stmt} (simple : s.Simple) : Stmt.Exactly []
    [.guarded .isNormal s] :=
  (Stmt.Waiting.share fun _ mem => List.mem_singleton.mp mem ▸ ⟨.simple simple, simple.labels⟩ :
    Stmt.Exactly [] (shareGuard [s]))

theorem DualMode.leaf_exactly (pauses : mode.strategy ≠ .fudge) (next : Nat) {s : Stmt}
    (simple : s.Simple) (plain : DualMode.plain s = .guarded .isNormal s) :
    Stmt.Exactly (Stmt.leaf next s).1.labels (mode.segment (Stmt.leaf next s).1) := by
  unfold Stmt.leaf
  split
  · exact capturePoint_exactly pauses next ‹_›
  · rw [DualMode.segment, plain]
    exact DualMode.guarded_exactly simple

theorem DualMode.ret_exactly (mode : DualMode) (value : Option Expr) (app : AppType) :
    Stmt.Exactly [] (mode.ret value app) := by
  have inc : Stmt.Exactly [] [.stackInc] := .simple ⟨rfl, rfl⟩
  have ret (value : Option Expr) : Stmt.Exactly [] [.returnS value] := .simple ⟨rfl, rfl⟩
  cases app with
  | none =>
    simp only [DualMode.ret]
    split
    · exact (Stmt.Exactly.simple ⟨rfl, rfl⟩).append (inc.append (ret _))
    · exact inc.append (ret value)
  | mixed => exact ret value
  | tail => exact inc.append (DualMode.guarded_exactly ⟨rfl, rfl⟩)

/-- The body of the source, its statements without instrumentation. -/
abbrev Stmt.Source (stmts : List Stmt) : Prop :=
  ∀ s ∈ stmts, s.isInstrumentation = false

section

variable (pauses : mode.strategy ≠ .fudge)

include pauses

set_option linter.unusedSectionVars false in
mutual

theorem DualMode.segment_exactly (inTry : Bool) : (s : Stmt) → (next : Nat) → Stmt.Source s.inner →
      Stmt.Exactly (s.segment inTry next).1.labels (mode.segment (s.segment inTry next).1)
  | .letS _ _, next, _ | .assign _ _, next, _ | .expr _, next, _ =>
    DualMode.leaf_exactly pauses next ⟨rfl, rfl⟩ rfl
  | .breakS _, _, _ | .continueS _, _, _ | .throwS _, _, _ | .decl _, _, _ =>
    DualMode.guarded_exactly ⟨rfl, rfl⟩
  | .returnS none, _, _ => mode.ret_exactly _ _
  | .returnS (some e), next, _ => by
    simp only [Stmt.segment]
    split
    · have call := DualMode.leaf_exactly pauses next (s := .letS tailResult (some e)) ⟨rfl, rfl⟩ rfl
      have returned := mode.ret_exactly (some (.ident tailResult)) .none
      exact .block (call.append (returned.append .nil)).coalesced
    · exact mode.ret_exactly _ _
  | .block body, next, source => by
    rw [Stmt.inner, Stmt.Source, List.forall_mem_cons] at source
    exact .block (DualMode.segments_exactly inTry body next source.2).coalesced
  | .ifS test thenS elseS, next, source => by
    rw [Stmt.inner, Stmt.Source, List.forall_mem_cons, List.forall_mem_append] at source
    have first := (DualMode.segment_exactly inTry thenS next source.2.1).ofList
    have second := DualMode.segmentElse_exactly inTry elseS (thenS.segment inTry next).2 source.2.2
    refine .single (.branch first.1 (Expr.orRestoring_admits _ first.2) second.1) ?_
    exact Stmt.pointLabels_branch first.2 second.2
  | .whileS test body, next, source => by
    rw [Stmt.inner, Stmt.Source, List.forall_mem_cons] at source
    have inside := (DualMode.segment_exactly inTry body next source.2).ofList
    exact .single (.loop inside.1 (Expr.restoringOr_admits (.binary .and .isNormal test)
      inside.2)) inside.2
  | .labeled name body, next, source => by
    rw [Stmt.inner, Stmt.Source, List.forall_mem_cons] at source
    have inside := (DualMode.segment_exactly inTry body next source.2).ofList
    have within : pointLabels (Stmt.labeled name
        (.ofList (mode.segment (body.segment inTry next).1))).inner =
        (body.segment inTry next).1.labels := inside.2
    refine .single (.guarded (.labeled inside.1) (Expr.orRestoring_admits .isNormal within)) ?_
    exact (Stmt.pointLabels_branch within rfl).trans (List.append_nil _)
  | .tryS body handler final, next, source => by
    rw [Stmt.inner, Stmt.Source, List.forall_mem_cons, List.forall_mem_append,
      List.forall_mem_append] at source
    have tried := DualMode.segment_exactly true body next source.2.1.1
    have handled := DualMode.segmentHandler_exactly handler (body.segment true next).2 source.2.1.2
    have last := DualMode.segmentFinal_exactly final
      (Handler.segmentOption (body.segment true next).2 handler).2 source.2.2
    refine .single (.attempt tried.exact handled.1 last.1) ?_
    rw [Stmt.inner, pointLabels, List.filterMap_cons_none rfl, List.filterMap_append,
      List.filterMap_append, Stmt.inner, List.filterMap_cons_none rfl, Stmt.innerList_append,
      List.filterMap_append]
    refine congr (congrArg _ (congr (congrArg _ ?_) handled.2)) last.2
    exact congr (congrArg _ handled.1.noLabels) tried.labels_eq
  | .restoreFrame, _, source | .stackDec, _, source | .stackInc, _, source | .recordOnCapture .., _,
      source
  | .shadowFrame .., _, source | .returnIfCapturing _, _, source | .rethrowSignal _, _, source =>
    nomatch source _ List.mem_cons_self

theorem DualMode.segments_exactly (inTry : Bool) :
    (body : List Stmt) → (next : Nat) → Stmt.Source (Stmt.innerList body) →
      Stmt.Exactly (Segment.listLabels (Stmt.segments inTry next body).1)
        (mode.segments (Stmt.segments inTry next body).1)
  | [], _, _ => .nil
  | s :: rest, next, source => by
    rw [Stmt.innerList, Stmt.Source, List.forall_mem_append] at source
    exact (DualMode.segment_exactly inTry s next source.1).append
      (DualMode.segments_exactly inTry rest _ source.2)

theorem DualMode.segmentElse_exactly (inTry : Bool) :
    (part : Option Stmt) → (next : Nat) → Stmt.Source (Stmt.innerOption part) →
      Stmt.ExactElse (mode.segmentElse (Stmt.segmentOption inTry next part).1) ∧
        pointLabels (Stmt.innerOption (mode.segmentElse (Stmt.segmentOption inTry next part).1)) =
          Segment.optionLabels (Stmt.segmentOption inTry next part).1
  | none, _, _ => ⟨.none, rfl⟩
  | some s, next, source => by
    have inside := (DualMode.segment_exactly inTry s next source).ofList
    exact ⟨.some inside.1 (Expr.orRestoring_admits _ inside.2),
      (Stmt.pointLabels_branch inside.2 rfl).trans (List.append_nil _)⟩

theorem DualMode.segmentFinal_exactly :
    (part : Option Stmt) → (next : Nat) → Stmt.Source (Stmt.innerOption part) →
      Stmt.ExactFinal (mode.segmentFinal (Stmt.segmentOption true next part).1) ∧
        pointLabels (Stmt.innerOption (mode.segmentFinal (Stmt.segmentOption true next part).1)) =
          Segment.optionLabels (Stmt.segmentOption true next part).1
  | none, _, _ => ⟨.none, rfl⟩
  | some s, next, source => by
    have inside := (DualMode.segment_exactly true s next source).ofList
    exact ⟨.some inside.1, (Stmt.pointLabels_branch inside.2 rfl).trans (List.append_nil _)⟩

theorem DualMode.segmentHandler_exactly :
    (handler : Option Handler) → (next : Nat) → Stmt.Source (Handler.innerOption handler) →
      Handler.Exact (DualMode.opening (Handler.segmentOption next handler).1)
          (mode.segmentHandler (Handler.segmentOption next handler).1) ∧
        pointLabels (Handler.innerOption (mode.segmentHandler
          (Handler.segmentOption next handler).1)) =
          Segment.handlerLabels (Handler.segmentOption next handler).1
  | none, _, _ => ⟨.none, rfl⟩
  | some ⟨param, body⟩, next, source => by
    have inside := DualMode.segment_exactly true body next source
    exact ⟨.some inside.exact (DualMode.intoHandler_reraises param
      inside.labels_eq), inside.labels_eq⟩

end

end

end TwoModes

/-! ## Nested functions -/

section Nested

variable {ε : Type} {r : Transform ε} (env : ε)

theorem Stmt.isInstrumentation_transform (keeps : r.stmt = fun _ s => s) (s : Stmt) :
    (s.transform r env).isInstrumentation = s.isInstrumentation := by
  unfold Stmt.transform
  rw [keeps]
  cases s <;> rfl

section

variable (keeps : r.stmt = fun _ s => s)

include keeps

set_option linter.unusedSectionVars false in
mutual

/-- A transformation of expressions and functions keeps the statements in their places. -/
theorem Stmt.inner_transform :
    (s : Stmt) → (s.transform r env).inner = s.inner.map (·.transform r env)
  | .block body => by simp [Stmt.transform, Stmt.inner, keeps, Stmt.innerList_transform body]
  | .ifS _ thenS elseS => by
    simp [Stmt.transform, Stmt.inner, keeps, Stmt.inner_transform thenS,
      Stmt.innerOption_transform elseS]
  | .whileS _ body | .labeled _ body | .recordOnCapture _ body | .shadowFrame _ body => by
    simp [Stmt.transform, Stmt.inner, keeps, Stmt.inner_transform body]
  | .tryS body handler final => by
    simp [Stmt.transform, Stmt.inner, keeps, Stmt.inner_transform body,
      Handler.innerOption_transform handler, Stmt.innerOption_transform final]
  | .letS .. | .assign .. | .expr _ | .returnS _ | .breakS _ | .continueS _ | .throwS _ | .decl
      _ | .restoreFrame
  | .stackDec | .stackInc | .returnIfCapturing _ | .rethrowSignal _ => by
    simp [Stmt.transform, Stmt.inner, keeps]

theorem Stmt.innerList_transform : (body : List Stmt) →
    Stmt.innerList (Stmt.transformList r env body) = (Stmt.innerList body).map (·.transform r env)
  | [] => rfl
  | s :: rest => by
    simp [Stmt.transformList, Stmt.innerList, Stmt.inner_transform s, Stmt.innerList_transform rest]

theorem Stmt.innerOption_transform : (part : Option Stmt) →
    Stmt.innerOption (Stmt.transformOption r env part) = (Stmt.innerOption part).map
    (·.transform r env)
  | none => rfl
  | some s => Stmt.inner_transform s

theorem Handler.innerOption_transform : (handler : Option Handler) →
    Handler.innerOption (Handler.transformOption r env handler) = (Handler.innerOption handler).map
    (·.transform r env)
  | none => rfl
  | some ⟨_, body⟩ => Stmt.inner_transform body

end

end

theorem Stmt.Source.transform (keeps : r.stmt = fun _ s => s) {body : List Stmt}
    (source : Stmt.Source (Stmt.innerList body)) :
    Stmt.Source (Stmt.innerList (Stmt.transformList r env body)) := by
  rw [Stmt.innerList_transform env keeps]
  exact List.forall_mem_map.mpr fun s mem => (Stmt.isInstrumentation_transform env keeps s).trans
    (source s mem)

end Nested

theorem Func.dualMode_exactly {options : CompileOptions} (pauses : options.strategy ≠ .fudge)
    {f : Func} (source : Stmt.Source (Stmt.innerList f.body)) :
    Stmt.Exactly (List.range (analyze f.body).labelCount) (f.dualMode options).body := by
  have numbers : Segment.listLabels (Stmt.segments false 0 f.body).1 = _ := analyze_labels f.body
  have body (mode : DualMode) (pauses : mode.strategy ≠ .fudge) :
      Stmt.Exactly (List.range (analyze f.body).labelCount) (mode.body (analyze f.body).body) :=
    numbers ▸ (DualMode.segments_exactly pauses false f.body 0 source).coalesced
  have opening (direct : Bool) : Stmt.Exactly []
      ((if direct then [.letS newTargetLocal (some .newTarget)] else []) ++ [.stackDec,
        .restoreFrame]) := by
    cases direct <;> exact ⟨by repeat (first | exact .nil | refine .cons (.simple ⟨rfl, rfl⟩) ?_),
      rfl⟩
  have closing (direct : Bool) : Stmt.Exactly []
      ([.stackInc] ++ if direct then [.guarded (.ident newTargetLocal)
        (.returnS (some .this))] else []) := by
    cases direct with
    | false => exact .simple ⟨rfl, rfl⟩
    | true => exact (Stmt.Exactly.simple ⟨rfl, rfl⟩).append (.single .construction rfl)
  have whole := ((opening (decide (options.construction = .direct))).append
    (body ⟨options.strategy, decide (options.construction = .direct)⟩ pauses)).append
      (closing (decide (options.construction = .direct)))
  simpa [Func.dualMode] using whole

/-- **Guards are exact.**  In a function in two modes each label of its analysis is that of one
capture point, and each condition for restoring runs asks for the labels of the capture points
behind it. -/
theorem Func.instrument_guards {options : CompileOptions} (pauses : options.strategy ≠ .fudge)
    {f : Func} (source : Stmt.Source (Stmt.innerList f.body)) :
    pointLabels (Stmt.innerList (f.instrument options).body) =
      List.range (analyze (Stmt.transformList (instrumenting options) () f.body)).labelCount ∧
    Stmt.ExactList (f.instrument options).body := by
  obtain ⟨name, params, body, frame, site⟩ := f
  have exactly := Func.dualMode_exactly pauses
    (f := ⟨name, params, Stmt.transformList (instrumenting options) () body, frame, site⟩)
    (Stmt.Source.transform () rfl source)
  exact ⟨exactly.labels_eq, exactly.exact⟩

/-- A function with calls in a branch, a loop, a handler and nowhere in particular. -/
def Func.fourCalls : Func :=
  { body := [.ifS (.ident "c") (.expr (.call (.ident "f") [])) (some (.throwS .null)),
      .labeled "l" (.whileS (.ident "c") (.block [.letS "x" (some (.call (.ident "f") [])),
        .breakS (some "l")])),
      .tryS (.block [.throwS .null]) (some ⟨"e", .block [.expr (.call (.ident "f") [])]⟩) none,
      .assign (.ident "y") (.call (.ident "f") [])] }

theorem Func.instrument_guards_of_fourCalls :
    pointLabels (Stmt.innerList (Func.fourCalls.instrument { strategy := .retval }).body) =
      [0, 1, 2, 3] ∧ Stmt.ExactList (Func.fourCalls.instrument { strategy := .retval }).body := by
  have source : ∀ s ∈ Stmt.innerList Func.fourCalls.body, s.isInstrumentation = false := by
    have checked : (Stmt.innerList Func.fourCalls.body).all (!·.isInstrumentation) = true := by
      decide +kernel
    simpa using checked
  have guards := @Func.instrument_guards { strategy := .retval } (by decide) Func.fourCalls source
  exact ⟨guards.1.trans (by decide +kernel), guards.2⟩

end Resumable
