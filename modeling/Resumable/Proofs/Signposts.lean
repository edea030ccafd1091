import Resumable.Proofs.OwnScopes
import Resumable.Proofs.MeasuredCompiled
import Resumable.Proofs.Targets
import Resumable.Proofs.TwinLoaded

/-!
Signposts: how a restoring run finds the way to its label.

`Stmt.Signed` is the grammar of statements in two modes, with the labels of the capture points
inside of them.  Each condition that a restoring run meets asks for exactly the labels behind it,
and what has no labels runs in normal mode only, jumps for exceptions into handlers and `return`
apart.  A `return` is in nobody's way: `Stmt.holds` asks for a label that a run can come to, and no
run comes past a `return`.

Every function of a compiled program is of that kind (`Program.number_signposted`).
-/

namespace Resumable

variable {s : Stmt} {labels : List Nat} {body : List Stmt} {options : CompileOptions}

/-! ## Labels that a run can come to -/

mutual

/-- In the statement frames with the label can be recorded. -/
def Stmt.holds (label : Nat) : Stmt → Bool
  | .shadowFrame other body | .recordOnCapture other body => other == label || body.holds label
  | .returnIfCapturing other => other == label
  | .block body => Stmt.listHolds label body
  | .ifS _ thenS elseS => thenS.holds label || Stmt.optionHolds label elseS
  | .whileS _ body | .labeled _ body => body.holds label
  | .tryS body handler final =>
    body.holds label || Handler.optionHolds label handler || Stmt.optionHolds label final
  | _ => false

def Stmt.listHolds (label : Nat) : List Stmt → Bool
  | [] => false
  | s :: rest => s.holds label || !s.returns && Stmt.listHolds label rest

def Stmt.optionHolds (label : Nat) : Option Stmt → Bool
  | none => false
  | some s => s.holds label

def Handler.optionHolds (label : Nat) : Option Handler → Bool
  | none => false
  | some ⟨_, body⟩ => body.holds label

end

/-- The label of the frames that the statement records. -/
def Stmt.records? : Stmt → Option Nat
  | .shadowFrame label _ | .recordOnCapture label _ | .returnIfCapturing label => some label
  | _ => none

namespace Stmt

variable {label : Nat} {s : Stmt} {body : List Stmt}

attribute [local simp] holds listHolds

theorem holds_of_records (records : s.records? = some label) : s.holds label = true := by
  cases s with
  | shadowFrame other _ | recordOnCapture other _ | returnIfCapturing other =>
    obtain rfl := Option.some.inj records
    simp [holds]
  | _ => exact nomatch records

theorem Met.holds (met : s.Met body) (holds : s.holds label = true) : listHolds label body =
    true := by
  induction met with
  | head => simp [listHolds, holds]
  | tail goesOn _ ih => simp [listHolds, goesOn, ih]

/-- What a run of the body can come to, the body holds. -/
theorem Reached.holds (reached : Reached body s) (holds : s.holds label = true) :
    listHolds label body = true := by
  induction reached with
  | outer met => exact met.holds holds
  | block _ met ih => exact ih (met.holds holds)
  | thenS _ ih | elseS _ ih | loop _ ih | labeled _ ih | tried _ ih | handler _ ih | final _ ih
  | recorded _ ih | shadowed _ ih =>
    exact ih (by simp [Stmt.holds, Stmt.optionHolds, Handler.optionHolds, holds])

theorem listHolds_append (first second : List Stmt) : listHolds label (first ++ second) =
    (listHolds label first || !listReturns first && listHolds label second) := by
  induction first with
  | nil => simp [listHolds, listReturns]
  | cons s rest ih =>
    simp only [List.cons_append, listHolds, listReturns, ih]
    cases s.holds label <;> cases s.returns <;> simp

/-- A list of statements holds nothing if they hold nothing. -/
theorem listHolds_of_forall (none : ∀ s ∈ body, s.holds label = false) : listHolds label body =
    false := by
  induction body with
  | nil => rfl
  | cons s rest ih =>
    rw [List.forall_mem_cons] at none
    simp [listHolds, none.1, ih none.2]

end Stmt

/-! ## The grammar of signposts -/

/-- The condition, or before it restoring into one of the labels. -/
def restoringOr (labels : List Nat) (normal : Expr) : Expr :=
  match restoringInto labels with
  | some restoring => .binary .or restoring normal
  | none => normal

/-- The statement enters the next frame, when these expressions are evaluated. -/
inductive Stmt.Enters : List Expr → Stmt → Prop
  | letS {name : String} : Stmt.Enters [] (.letS name (some .reenterNext))
  | assign {name : String} : Stmt.Enters [] (.assign (.ident name) .reenterNext)
  | member {base : Expr} {property : String} : base.Quiet (fun _ => True) →
      Stmt.Enters [base] (.assign (.member base property) .reenterNext)
  | index {base key : Expr} : base.Quiet (fun _ => True) → key.Quiet (fun _ => True) →
      Stmt.Enters [base, key] (.assign (.index base key) .reenterNext)
  | expr : Stmt.Enters [] (.expr .reenterNext)

/-- What a capture point with the label does in the two modes. -/
def Stmt.pointAt (label : Nat) (s again : Stmt) : Stmt :=
  .ifS .isNormal s (some (.ifS (.targetIn [label]) again none))

/-- The statement has no labels, and in restoring mode it enters the next frame for its value. -/
structure Stmt.Pausing (s again : Stmt) : Prop where
  bare : ∀ label, s.holds label = false
  enters : ∃ parts, again.Enters parts
  restores : again.Restores s
  silent : ∀ label, again.holds label = false

mutual

/-- Statements in two modes, with their labels.  The parameters of handlers are names of the kind.
-/
inductive Stmt.Signed (own : String → Prop) : List Nat → Stmt → Prop
  | only {s : Stmt} : (∀ label, s.holds label = false) → Stmt.Signed own [] (.ifS .isNormal s none)
  | stackInc : Stmt.Signed own [] .stackInc
  | returnS {value : Option Expr} : Stmt.Signed own [] (.returnS value)
  | shadowed {label : Nat} {s again : Stmt} : s.Pausing again →
      Stmt.Signed own [label] (.shadowFrame label (.pointAt label s again))
  | recorded {label : Nat} {s again : Stmt} : s.Pausing again →
      Stmt.Signed own [label] (.recordOnCapture label (.pointAt label s again))
  | block {labels : List Nat} {body : List Stmt} : Stmt.SignedList own labels body →
      Stmt.Signed own labels (.block body)
  | branch {labels inElse : List Nat} {test : Expr} {thenS : Stmt} {elseS : Option Stmt} :
      Stmt.Signed own labels thenS → Stmt.SignedElse own inElse elseS →
      Stmt.Signed own (labels ++ inElse) (.ifS (orRestoring (.binary .and .isNormal test) labels)
        thenS elseS)
  | loop {labels : List Nat} {name : String} {test : Expr} {body : Stmt} :
      Stmt.Signed own labels body → Stmt.Signed own labels (.ifS (orRestoring .isNormal labels)
        (.labeled name (.whileS (restoringOr labels (.binary .and .isNormal test)) body)) none)
  | labeled {labels : List Nat} {name : String} {body : Stmt} : body.isLoop = false →
      Stmt.Signed own labels body →
      Stmt.Signed own labels (.ifS (orRestoring .isNormal labels) (.labeled name body) none)
  | attempt {inBody inHandler inFinal : List Nat} {opening body : List Stmt}
      {handler : Option Handler} {final : Option Stmt} : Stmt.SignedList own inBody body →
        Handler.Signed own inHandler opening handler →
      Stmt.SignedFinal own inFinal final →
      Stmt.Signed own (inBody ++ inHandler ++ inFinal)
        (.tryS (.block (opening ++ body)) handler final)

inductive Stmt.SignedElse (own : String → Prop) : List Nat → Option Stmt → Prop
  | none : Stmt.SignedElse own [] none
  | some {labels : List Nat} {s : Stmt} : Stmt.Signed own labels s →
      Stmt.SignedElse own labels (some (.ifS (orRestoring .isNormal labels) s none))

inductive Stmt.SignedFinal (own : String → Prop) : List Nat → Option Stmt → Prop
  | none : Stmt.SignedFinal own [] none
  | some {labels : List Nat} {s : Stmt} : Stmt.Signed own labels s →
      Stmt.SignedFinal own labels (some (.ifS (.unary .not .capturing) s none))

/-- A handler, and what the body begins with because of it. -/
inductive Handler.Signed (own : String → Prop) : List Nat → List Stmt → Option Handler → Prop
  | none : Handler.Signed own [] [] none
  | some {labels : List Nat} {param : String} {body : List Stmt} : own param →
      Stmt.SignedList own labels body → Handler.Signed own labels
        (DualMode.intoHandler param labels) (some ⟨param, .block (.rethrowSignal param :: body)⟩)

/-- Statements one after the other.  Some capture points, and some ways to return, take more than
one. -/
inductive Stmt.SignedList (own : String → Prop) : List Nat → List Stmt → Prop
  | nil : Stmt.SignedList own [] []
  | cons {labels later : List Nat} {s : Stmt} {rest : List Stmt} : Stmt.Signed own labels s →
      Stmt.SignedList own later rest → Stmt.SignedList own (labels ++ later) (s :: rest)
  | point {label : Nat} {later : List Nat} {s again : Stmt} {rest : List Stmt} : s.Pausing again →
      Stmt.SignedList own later rest →
      Stmt.SignedList own (label :: later) (.pointAt label s again :: .returnIfCapturing
        label :: rest)
  | result {later : List Nat} {name : String} {init value : Option Expr} {rest : List Stmt} :
      Stmt.SignedList own later rest →
      Stmt.SignedList own later (.letS name init :: .stackInc :: .returnS value :: rest)

end

section Signed

variable {own : String → Prop} {label : Nat}

theorem Stmt.Pausing.holds {again : Stmt} (pausing : s.Pausing again) (other : Nat) :
    (Stmt.pointAt label s again).holds other = false := by
  simp [Stmt.pointAt, Stmt.holds, Stmt.optionHolds, pausing.bare, pausing.silent]

theorem Handler.Signed.opening {opening : List Stmt} {handler : Option Handler}
    (signed : Handler.Signed own labels opening handler) :
    (∀ label, Stmt.listHolds label opening = false) ∧ Stmt.listReturns opening = false := by
  cases signed with
  | none => exact ⟨fun _ => rfl, rfl⟩
  | some _ _ =>
    unfold DualMode.intoHandler
    split <;> exact ⟨fun _ => rfl, rfl⟩

mutual

/-- A label that a run can come to is one of the labels. -/
theorem Stmt.Signed.mem_of_holds {labels : List Nat} {s : Stmt} : s.Signed own labels →
    s.holds label = true → label ∈ labels
  | .only bare, holds => by simp [Stmt.holds, Stmt.optionHolds, bare] at holds
  | .stackInc, holds => nomatch holds
  | .returnS, holds => nomatch holds
  | .shadowed pausing, holds | .recorded pausing, holds => by
    rw [Stmt.holds, pausing.holds, Bool.or_false] at holds
    exact List.mem_singleton.mpr (beq_iff_eq.mp holds).symm
  | .block body, holds => body.mem_of_holds holds
  | .branch thenS elseS, holds => by
    rcases Bool.or_eq_true_iff.mp holds with holds | holds
    · exact List.mem_append_left _ (thenS.mem_of_holds holds)
    · exact List.mem_append_right _ (elseS.mem_of_holds holds)
  | .loop body, holds => body.mem_of_holds (by simpa [Stmt.holds, Stmt.optionHolds] using holds)
  | .labeled _ body, holds =>
    body.mem_of_holds (by simpa [Stmt.holds, Stmt.optionHolds] using holds)
  | .attempt body handler final, holds => by
    simp only [Stmt.holds, Stmt.listHolds_append, handler.opening.1, handler.opening.2,
      Bool.false_or, Bool.not_false, Bool.true_and] at holds
    rcases Bool.or_eq_true_iff.mp holds with holds | holds
    · rcases Bool.or_eq_true_iff.mp holds with holds | holds
      · exact List.mem_append_left _ (List.mem_append_left _ (body.mem_of_holds holds))
      · exact List.mem_append_left _ (List.mem_append_right _ (handler.mem_of_holds holds))
    · exact List.mem_append_right _ (final.mem_of_holds holds)

theorem Stmt.SignedElse.mem_of_holds {labels : List Nat} {s : Option Stmt} :
    Stmt.SignedElse own labels s → Stmt.optionHolds label s = true → label ∈ labels
  | .none, holds => nomatch holds
  | .some s, holds => s.mem_of_holds (by simpa [Stmt.holds, Stmt.optionHolds] using holds)

theorem Stmt.SignedFinal.mem_of_holds {labels : List Nat} {s : Option Stmt} :
    Stmt.SignedFinal own labels s → Stmt.optionHolds label s = true → label ∈ labels
  | .none, holds => nomatch holds
  | .some s, holds => s.mem_of_holds (by simpa [Stmt.holds, Stmt.optionHolds] using holds)

theorem Handler.Signed.mem_of_holds {labels : List Nat} {opening : List Stmt}
    {handler : Option Handler} : Handler.Signed own labels opening handler →
    Handler.optionHolds label handler = true → label ∈ labels
  | .none, holds => nomatch holds
  | .some _ body, holds => body.mem_of_holds (by
    simpa [Stmt.holds, Stmt.listHolds, Stmt.returns, Handler.optionHolds] using holds)

theorem Stmt.SignedList.mem_of_holds {labels : List Nat} {body : List Stmt} :
    Stmt.SignedList own labels body → Stmt.listHolds label body = true → label ∈ labels
  | .nil, holds => nomatch holds
  | .cons s rest, holds => by
    rcases Bool.or_eq_true_iff.mp holds with holds | holds
    · exact List.mem_append_left _ (s.mem_of_holds holds)
    · exact List.mem_append_right _ (rest.mem_of_holds (Bool.and_eq_true_iff.mp holds).2)
  | .point pausing rest, holds => by
    simp only [Stmt.listHolds, pausing.holds, Bool.false_or] at holds
    rcases Bool.or_eq_true_iff.mp (Bool.and_eq_true_iff.mp holds).2 with here | holds
    · exact List.mem_cons.mpr (.inl (beq_iff_eq.mp here).symm)
    · exact List.mem_cons_of_mem _ (rest.mem_of_holds (Bool.and_eq_true_iff.mp holds).2)
  | .result _, holds => by simp [Stmt.listHolds, Stmt.holds, Stmt.returns] at holds

end

theorem Stmt.SignedList.append {labels later : List Nat} {body rest : List Stmt} :
    Stmt.SignedList own labels body → Stmt.SignedList own later rest →
      Stmt.SignedList own (labels ++ later) (body ++ rest)
  | .nil, second => second
  | .cons s body, second => by
    rw [List.append_assoc]
    exact .cons s (body.append second)
  | .point pausing body, second => .point pausing (body.append second)
  | .result body, second => .result (body.append second)

theorem Stmt.Signed.single (signed : s.Signed own labels) : Stmt.SignedList own labels [s] := by
  have := Stmt.SignedList.cons signed .nil
  rwa [List.append_nil] at this

theorem Stmt.SignedList.ofList (signed : Stmt.SignedList own labels body) :
    (Stmt.ofList body).Signed own labels := by
  match body with
  | [] | _ :: _ :: _ => exact .block signed
  | [s] =>
    cases signed with
    | cons first rest =>
      cases rest
      rw [List.append_nil]
      exact first

/-- What runs in normal mode only has no labels. -/
theorem Stmt.Signed.normalOnly {body : Stmt} (signed : Stmt.Signed own labels
    (.ifS .isNormal body none)) : labels = [] ∧ ∀ label, body.holds label = false := by
  have none : labels = [] := by
    generalize form : Stmt.ifS .isNormal body none = s at signed
    cases signed with
    | only _ => rfl
    | @branch labels inElse test thenS elseS _ _ =>
      cases labels with
      | nil => exact nomatch form
      | cons _ _ => exact nomatch form
    | @loop labels _ _ _ _ | @labeled labels _ _ _ _ =>
      cases labels with
      | nil => rfl
      | cons _ _ => exact nomatch form
    | _ => exact nomatch form
  subst none
  refine ⟨rfl, fun label => Bool.eq_false_iff.mpr fun holds => ?_⟩
  have mem : label ∈ [] := signed.mem_of_holds (by simp [Stmt.holds, holds])
  exact nomatch mem

theorem shareGuard_signed {run : List Stmt} (bare : ∀ s ∈ run, ∀ label, s.holds label = false) :
    Stmt.SignedList own [] (shareGuard run) := by
  match run, bare with
  | [], _ => exact .nil
  | [s], bare => exact (Stmt.Signed.only (bare s List.mem_cons_self)).single
  | first :: second :: rest, bare =>
    have none : ∀ label, (Stmt.block (first :: second :: rest)).holds label = false :=
      fun label => Stmt.listHolds_of_forall fun s mem => bare s mem label
    exact (Stmt.Signed.only none).single

theorem coalesceRun_signed {labels : List Nat} {stmts : List Stmt} : ∀ {run : List Stmt},
    (∀ s ∈ run, ∀ label, s.holds label = false) → Stmt.SignedList own labels stmts →
      Stmt.SignedList own labels (coalesceRun run stmts)
  | run, bare, .nil => shareGuard_signed fun s mem => bare s (List.mem_reverse.mp mem)
  | run, bare, .cons first signed => by
    have shared : Stmt.SignedList own [] (shareGuard run.reverse) :=
      shareGuard_signed fun s mem => bare s (List.mem_reverse.mp mem)
    unfold coalesceRun
    split
    · rename_i body guard
      rw [Stmt.normalOnly?_eq_some guard] at first
      obtain ⟨rfl, none⟩ := first.normalOnly
      exact coalesceRun_signed (List.forall_mem_cons.mpr ⟨none, bare⟩) signed
    · exact shared.append (.cons first (coalesceRun_signed nofun signed))
  | run, bare, .point pausing signed =>
    (shareGuard_signed fun s mem => bare s (List.mem_reverse.mp mem)).append
      (.point pausing (coalesceRun_signed nofun signed))
  | run, bare, .result signed =>
    (shareGuard_signed fun s mem => bare s (List.mem_reverse.mp mem)).append
      (.result (coalesceRun_signed nofun signed))

theorem Stmt.SignedList.coalesced {stmts : List Stmt} (signed : Stmt.SignedList own labels stmts) :
    Stmt.SignedList own labels (coalesce stmts) :=
  coalesceRun_signed nofun signed

end Signed

/-! ## Functions in two modes -/

section TwoModes

variable {mode : DualMode} {code : Func → Prop} {own : String → Prop}

theorem Stmt.restoring_holds (s : Stmt) (label : Nat) : s.restoring.holds label =
    s.holds label := by
  cases s <;> rfl

theorem capturePoint_signed (pauses : mode.strategy ≠ .fudge) (label : Nat)
    (bare : ∀ label, s.holds label = false) (app : s.application.isSome = true)
    (enters : ∃ parts, s.restoring.Enters parts) :
    Stmt.SignedList own [label] (capturePoint mode.strategy label s) := by
  have pausing : s.Pausing s.restoring := {
    bare
    enters
    restores := Stmt.restoring_restores (Stmt.given?_of_application app)
    silent := fun label => (s.restoring_holds label).trans (bare label) }
  cases strategy : mode.strategy with
  | eager => exact (Stmt.Signed.shadowed pausing).single
  | lazy => exact (Stmt.Signed.recorded pausing).single
  | retval => exact .point pausing .nil
  | fudge => exact absurd strategy pauses

/-- A statement without others in it. -/
theorem DualMode.leaf_signed (pauses : mode.strategy ≠ .fudge) (next : Nat)
    (plain : DualMode.plain s = .guarded .isNormal s) (bare : ∀ label, s.holds label = false)
    (enters : s.application.isSome = true → ∃ parts, s.restoring.Enters parts) :
    Stmt.SignedList own (Stmt.leaf next s).1.labels (mode.segment (Stmt.leaf next s).1) := by
  unfold Stmt.leaf
  split
  · rename_i app
    exact capturePoint_signed pauses next bare app (enters app)
  · rw [DualMode.segment, plain]
    exact (Stmt.Signed.only bare).single

theorem DualMode.ret_signed (value : Option Expr) (app : AppType) :
    Stmt.SignedList own [] (mode.ret value app) := by
  cases app with
  | none =>
    simp only [DualMode.ret]
    split
    · exact .result .nil
    · exact .cons .stackInc (.cons .returnS .nil)
  | mixed => exact Stmt.Signed.returnS.single
  | tail => exact .cons .stackInc (.cons (.only fun _ => rfl) .nil)

/-- The two-mode form of a statement has the labels of its segment, wherever they begin. -/
def DualMode.Signs (mode : DualMode) (own : String → Prop) (s : Stmt) : Prop :=
  ∀ inTry next, (∀ name ∈ s.boundNames inTry, own name) →
    Stmt.SignedList own (s.segment inTry next).1.labels (mode.segment (s.segment inTry next).1)

theorem DualMode.segments_signed (signs : ∀ s ∈ body, mode.Signs own s) (inTry : Bool) (next : Nat)
    (owned : ∀ name ∈ Stmt.boundNamesList inTry body, own name) :
    Stmt.SignedList own (Segment.listLabels (Stmt.segments inTry next body).1)
      (mode.segments (Stmt.segments inTry next body).1) := by
  induction body generalizing next with
  | nil => exact .nil
  | cons s rest ih =>
    rw [List.forall_mem_cons] at signs
    rw [Stmt.boundNamesList, List.forall_mem_append] at owned
    exact (signs.1 inTry next owned.1).append (ih signs.2 _ owned.2)

theorem DualMode.segmentElse_signed {elseS : Option Stmt} (signs : ∀ s ∈ elseS, mode.Signs own s)
    (inTry : Bool) (next : Nat) (owned : ∀ name ∈ Stmt.boundNamesOption inTry elseS, own name) :
    Stmt.SignedElse own (Segment.optionLabels (Stmt.segmentOption inTry next elseS).1)
      (mode.segmentElse (Stmt.segmentOption inTry next elseS).1) := by
  cases elseS with
  | none => exact .none
  | some s => exact .some (signs s rfl inTry next owned).ofList

theorem DualMode.segmentFinal_signed {final : Option Stmt} (signs : ∀ s ∈ final, mode.Signs own s)
    (next : Nat) (owned : ∀ name ∈ Stmt.boundNamesOption true final, own name) :
    Stmt.SignedFinal own (Segment.optionLabels (Stmt.segmentOption true next final).1)
      (mode.segmentFinal (Stmt.segmentOption true next final).1) := by
  cases final with
  | none => exact .none
  | some s => exact .some (signs s rfl true next owned).ofList

theorem DualMode.signs_of_sound (pauses : mode.strategy ≠ .fudge) (sound : s.Sound code) :
    mode.Signs own s := by
  intro inTry next owned
  induction sound generalizing inTry next with
  | block _ ih =>
    exact (Stmt.Signed.block (DualMode.segments_signed ih inTry next owned).coalesced).single
  | @letS name init _ =>
    exact DualMode.leaf_signed pauses next rfl (fun _ => rfl) fun _ => ⟨[], .letS⟩
  | @assign target value quiet _ =>
    refine DualMode.leaf_signed pauses next rfl (fun _ => rfl) fun _ => ?_
    cases quiet with
    | ident => exact ⟨[], .assign⟩
    | member base => exact ⟨_, .member (base.of_functions fun _ _ _ => trivial)⟩
    | index base key =>
      exact ⟨_, .index (base.of_functions fun _ _ _ => trivial) (key.of_functions fun _ _ _ =>
        trivial)⟩
  | @expr e _ =>
    exact DualMode.leaf_signed pauses next rfl (fun _ => rfl) fun _ => ⟨[], .expr⟩
  | @ifS test thenS elseS _ _ _ thenIH elseIH =>
    rw [Stmt.boundNames, List.forall_mem_append] at owned
    exact (Stmt.Signed.branch (thenIH inTry next owned.1).ofList
      (DualMode.segmentElse_signed elseIH inTry _ owned.2)).single
  | @loop label test body _ _ ih =>
    exact (Stmt.Signed.loop (ih inTry next owned).ofList).single
  | @labeled label body notLoop _ ih =>
    exact (Stmt.Signed.labeled (DualMode.segment_isLoop notLoop)
      (ih inTry next owned).ofList).single
  | breakS => exact (Stmt.Signed.only fun _ => rfl).single
  | @returnS value _ =>
    cases value with
    | none => exact DualMode.ret_signed none .none
    | some e =>
      simp only [Stmt.segment]
      split
      · have bound : Stmt.SignedList own (Stmt.leaf next (.letS tailResult (some e))).1.labels
            (mode.segment (Stmt.leaf next (.letS tailResult (some e))).1) :=
          DualMode.leaf_signed pauses next rfl (fun _ => rfl) fun _ => ⟨[], .letS⟩
        have answer : Stmt.SignedList own [] (mode.ret (some (.ident tailResult)) .none) :=
          DualMode.ret_signed _ _
        exact (Stmt.Signed.block (bound.append (answer.append .nil)).coalesced).single
      · exact DualMode.ret_signed (some e) _
  | throwS _ => exact (Stmt.Signed.only fun _ => rfl).single
  | @tryS body handler final _ _ _ bodyIH handlerIH finalIH =>
    rw [Stmt.boundNames, List.forall_mem_append, List.forall_mem_append] at owned
    have inBody := bodyIH true next owned.1.1
    have inFinal := DualMode.segmentFinal_signed finalIH
      (Handler.segmentOption (body.segment true next).2 handler).2 owned.2
    cases handler with
    | none => exact (Stmt.Signed.attempt inBody .none inFinal).single
    | some h =>
      obtain ⟨param, caught⟩ := h
      obtain ⟨ownParam, owned'⟩ := List.forall_mem_cons.mp owned.1.2
      have inHandler := handlerIH ⟨param, caught⟩ rfl true (body.segment true next).2 owned'
      exact (Stmt.Signed.attempt inBody (.some ownParam inHandler) inFinal).single
  | @decl f _ => exact (Stmt.Signed.only fun _ => rfl).single

/-- The two-mode form of a body, with labels that are all different. -/
theorem DualMode.body_signed (pauses : mode.strategy ≠ .fudge) (sound : ∀ s ∈ body, s.Sound code)
    (owned : ∀ name ∈ (analyze body).locals, own name) :
    ∃ labels : List Nat, labels.Nodup ∧ Stmt.SignedList own labels
    (mode.body (analyze body).body) := by
  refine ⟨_, analyze_nodup body, Stmt.SignedList.coalesced ?_⟩
  refine DualMode.segments_signed (fun s mem => DualMode.signs_of_sound pauses (sound s mem)) false
    0 fun name mem => ?_
  exact owned name (List.mem_eraseDups.mpr mem)

end TwoModes

/-! ## Loading -/

mutual

theorem Stmt.load_returns : (s : Stmt) → (next : Nat) → (s.load next).1.returns = s.returns
  | .block body, _ => Stmt.loadList_returns body _
  | .letS .., _ | .assign .., _ | .expr _, _ | .ifS .., _ | .whileS .., _ | .labeled ..,
      _ | .returnS _, _
  | .throwS _, _ | .tryS .., _ | .decl _, _ | .recordOnCapture .., _ | .shadowFrame ..,
      _ | .breakS _, _
  | .continueS _, _ | .restoreFrame, _ | .stackDec, _ | .stackInc, _ | .returnIfCapturing _, _
  | .rethrowSignal _, _ => rfl

theorem Stmt.loadList_returns : (body : List Stmt) → (next : Nat) →
    Stmt.listReturns (Stmt.loadList body next).1 = Stmt.listReturns body
  | [], _ => rfl
  | s :: rest, _ => congrArg₂ or (s.load_returns _) (Stmt.loadList_returns rest _)

end

mutual

theorem Stmt.load_holds (label : Nat) : (s : Stmt) → (next : Nat) → (s.load next).1.holds label =
    s.holds label
  | .block body, _ => Stmt.loadList_holds label body _
  | .ifS _ thenS elseS, _ =>
    congrArg₂ or (thenS.load_holds label _) (Stmt.loadOption_holds label elseS _)
  | .whileS _ body, _ | .labeled _ body, _ => body.load_holds label _
  | .recordOnCapture other body, _ | .shadowFrame other body, _ =>
    congrArg (other == label || ·) (body.load_holds label _)
  | .tryS body handler final, _ =>
    congrArg₂ or (congrArg₂ or (body.load_holds label _) (Handler.loadOption_holds label handler _))
      (Stmt.loadOption_holds label final _)
  | .letS .., _ | .assign .., _ | .expr _, _ | .returnS _, _ | .throwS _, _ | .decl _,
      _ | .breakS _, _
  | .continueS _, _ | .restoreFrame, _ | .stackDec, _ | .stackInc, _ | .returnIfCapturing _, _
  | .rethrowSignal _, _ => rfl

theorem Stmt.loadList_holds (label : Nat) : (body : List Stmt) → (next : Nat) →
    Stmt.listHolds label (Stmt.loadList body next).1 = Stmt.listHolds label body
  | [], _ => rfl
  | s :: rest, _ =>
    congrArg₂ or (s.load_holds label _)
      (congrArg₂ and (congrArg not (s.load_returns _)) (Stmt.loadList_holds label rest _))

theorem Stmt.loadOption_holds (label : Nat) : (o : Option Stmt) → (next : Nat) →
    Stmt.optionHolds label (Stmt.loadOption o next).1 = Stmt.optionHolds label o
  | none, _ => rfl
  | some s, _ => s.load_holds label _

theorem Handler.loadOption_holds (label : Nat) : (o : Option Handler) → (next : Nat) →
    Handler.optionHolds label (Handler.loadOption o next).1 = Handler.optionHolds label o
  | none, _ => rfl
  | some ⟨_, body⟩, _ => body.load_holds label _

end

section Loading

variable {own : String → Prop}

theorem Expr.Quiet.loaded {e : Expr} (quiet : e.Quiet fun _ => True) (next : Nat) :
    (e.load next).1.Quiet fun _ => True := by
  have reloads : Func.Reloads .lazy fun _ => True := fun _ _ _ _ _ _ => trivial
  exact (e.load_class reloads next).1 quiet

theorem Stmt.Enters.load {parts : List Expr} (enters : s.Enters parts) (next : Nat) :
    ∃ parts, (s.load next).1.Enters parts := by
  cases enters with
  | letS => exact ⟨[], .letS⟩
  | assign => exact ⟨[], .assign⟩
  | member base => exact ⟨_, .member (base.loaded _)⟩
  | index base key => exact ⟨_, .index (base.loaded _) (key.loaded _)⟩
  | expr => exact ⟨[], .expr⟩

theorem Stmt.Pausing.load {again : Stmt} (pausing : s.Pausing again) (next later : Nat) :
    (s.load next).1.Pausing (again.load later).1 where
  bare label := (s.load_holds label next).trans (pausing.bare label)
  enters := by
    obtain ⟨parts, enters⟩ := pausing.enters
    exact enters.load later
  restores := pausing.restores.load next later
  silent label := (again.load_holds label later).trans (pausing.silent label)

/-- Conditions have nothing to load but the test that they are made around. -/
theorem orRestoring_load (normal : Expr) (labels : List Nat) (next : Nat) :
    (orRestoring normal labels).load next = (orRestoring (normal.load next).1 labels,
      (normal.load next).2) := by
  cases labels <;> rfl

theorem restoringOr_load (labels : List Nat) (normal : Expr) (next : Nat) :
    (restoringOr labels normal).load next = (restoringOr labels (normal.load next).1,
      (normal.load next).2) := by
  cases labels <;> rfl

theorem DualMode.intoHandler_load (param : String) (labels : List Nat) (next : Nat) :
    Stmt.loadList (DualMode.intoHandler param labels) next = (DualMode.intoHandler param labels,
      next) := by
  cases labels <;> rfl

mutual

theorem Stmt.Signed.load {labels : List Nat} {s : Stmt} : s.Signed own labels → (next : Nat) →
    (s.load next).1.Signed own labels
  | .only bare, next => .only fun label => (Stmt.load_holds label _ _).trans (bare label)
  | .stackInc, _ => .stackInc
  | .returnS, _ => .returnS
  | .shadowed pausing, _ => .shadowed (pausing.load _ _)
  | .recorded pausing, _ => .recorded (pausing.load _ _)
  | .block body, next => .block (body.load next)
  | .branch thenS elseS, next => by
    show Stmt.Signed own _ (.ifS (Expr.load _ next).1 (Stmt.load _ (Expr.load _ next).2).1 _)
    rw [orRestoring_load]
    exact .branch (thenS.load _) (elseS.load _)
  | .loop body, next => by
    show Stmt.Signed own _ (.ifS (Expr.load _ next).1 (.labeled _ (.whileS (Expr.load _
      (Expr.load _ next).2).1 (Stmt.load _ (Expr.load _ (Expr.load _ next).2).2).1)) none)
    rw [orRestoring_load, restoringOr_load]
    exact .loop (body.load _)
  | .labeled notLoop body, next => by
    show Stmt.Signed own _ (.ifS (Expr.load _ next).1
      (.labeled _ (Stmt.load _ (Expr.load _ next).2).1) none)
    rw [orRestoring_load]
    exact .labeled ((Stmt.load_isLoop _).trans notLoop) (body.load _)
  | .attempt body handler final, next => by
    show Stmt.Signed own _ (.tryS (.block (Stmt.loadList _ next).1) _ _)
    rw [Stmt.loadList_append]
    exact .attempt (body.load _) (handler.load next _) (final.load _)

theorem Stmt.SignedElse.load {labels : List Nat} {s : Option Stmt} : Stmt.SignedElse own labels s →
    (next : Nat) → Stmt.SignedElse own labels (Stmt.loadOption s next).1
  | .none, _ => .none
  | .some s, next => by
    show Stmt.SignedElse own _ (some (.ifS (Expr.load _ next).1 (Stmt.load _ (Expr.load _ next).2).1
      none))
    rw [orRestoring_load]
    exact .some (s.load _)

theorem Stmt.SignedFinal.load {labels : List Nat} {s : Option Stmt} :
    Stmt.SignedFinal own labels s → (next : Nat) → Stmt.SignedFinal own labels
    (Stmt.loadOption s next).1
  | .none, _ => .none
  | .some s, next => .some (s.load _)

theorem Handler.Signed.load {labels : List Nat} {opening : List Stmt} {handler : Option Handler} :
    Handler.Signed own labels opening handler → (next later : Nat) →
      Handler.Signed own labels (Stmt.loadList opening next).1 (Handler.loadOption handler later).1
  | .none, _, _ => .none
  | .some ownParam body, _, _ => by
    rw [DualMode.intoHandler_load]
    exact .some ownParam (body.load _)

theorem Stmt.SignedList.load {labels : List Nat} {body : List Stmt} :
    Stmt.SignedList own labels body → (next : Nat) → Stmt.SignedList own labels
    (Stmt.loadList body next).1
  | .nil, _ => .nil
  | .cons s rest, next => .cons (s.load _) (rest.load _)
  | .point pausing rest, next => .point (pausing.load _ _) (rest.load _)
  | .result rest, next => .result (rest.load _)

end

end Loading

/-! ## Compiled functions -/

/-- When the frame is taken, the body goes on with statements in two modes, whose labels are all
different. -/
def Stmt.Signposted (own : String → Prop) (body : List Stmt) : Prop :=
  ∃ (labels : List Nat) (opening main closing : List Stmt),
    (opening = [] ∨ opening = [.letS newTargetLocal (some .newTarget)]) ∧
    body = opening ++ .stackDec :: .restoreFrame :: (main ++ closing) ∧ labels.Nodup ∧
    Stmt.SignedList own labels main ∧ ∀ label, Stmt.listHolds label closing = false

theorem Stmt.Signposted.load {own : String → Prop} (signposted : Stmt.Signposted own body)
    (next : Nat) : Stmt.Signposted own (Stmt.loadList body next).1 := by
  obtain ⟨labels, opening, main, closing, opens, form, distinct, signed, bare⟩ := signposted
  have both : (Stmt.loadList (main ++ closing) next).1 =
      (Stmt.loadList main next).1 ++ (Stmt.loadList closing (Stmt.loadList main next).2).1 := by
    rw [Stmt.loadList_append]
    rfl
  have loaded : (Stmt.loadList body next).1 =
      opening ++ .stackDec :: .restoreFrame :: (Stmt.loadList (main ++ closing) next).1 := by
    rcases opens with rfl | rfl <;> rw [form] <;> rfl
  refine ⟨labels, opening, _, _, opens, both ▸ loaded, distinct, signed.load _, fun label => ?_⟩
  exact (Stmt.loadList_holds label closing _).trans (bare label)

/-- The body of the function has signposts, and handlers have locals for their parameters. -/
def Func.Signposted (f : Func) : Prop :=
  Stmt.Signposted (· ∈ f.layoutLocals) f.body

theorem Func.dualMode_signposted {code : Func → Prop} {f : Func}
    (pauses : options.strategy ≠ .fudge) (sound : ∀ s ∈ f.body, s.Sound code) :
    (f.dualMode options).Signposted := by
  obtain ⟨opening, closing, own, mode, strategy, opens, closes, form, layout⟩ :=
    f.dualMode_form options
  have owned : ∀ name ∈ (analyze f.body).locals, name ∈ (f.dualMode options).layoutLocals := by
    intro name mem
    rw [Func.layoutLocals, layout]
    exact List.mem_append_left _ mem
  obtain ⟨labels, distinct, signed⟩ := DualMode.body_signed (strategy ▸ pauses) sound owned
  refine ⟨labels, opening, _, closing, opens.imp And.left And.left, form, distinct, signed,
    fun label => ?_⟩
  rcases closes with rfl | rfl <;> rfl

theorem Func.Signposted.load {f : Func} (signposted : f.Signposted) (next : Nat) :
    (f.load next).1.Signposted := by
  obtain ⟨name, params, body, frame, site⟩ := f
  exact Stmt.Signposted.load signposted (next + 1)

/-- The top level of a compiled program that is loaded. -/
theorem Program.number_top_signposted (pauses : options.strategy ≠ .fudge)
    {source compiled : Program} (ok : source.compile options = .ok compiled) (site : Nat) :
    Stmt.Signposted (fun _ => True) (compiled.number site).1.body := by
  obtain ⟨prepared, sound, compiles⟩ := Program.compile_eq (Program.accepted_of_compile ok)
  cases ok.symm.trans compiles
  have keeps : (instrumenting options).Keeps Func.Source (fun _ => True) :=
    instrumenting_keeps_of fun _ _ => trivial
  have transformed := Stmt.transformList_sound keeps prepared.body () sound
  let mode : DualMode := ⟨options.strategy, false⟩
  let text := Stmt.transformList (instrumenting options) () prepared.body
  obtain ⟨labels, distinct, signed⟩ : ∃ labels : List Nat, labels.Nodup ∧
      Stmt.SignedList (fun _ => True) labels (mode.body (analyze text).body) :=
    DualMode.body_signed pauses transformed fun _ _ => trivial
  have top : Stmt.Signposted (fun _ => True) (prepared.instrument options).body :=
    ⟨labels, [], _, [.stackInc], .inl rfl, rfl, distinct, signed, fun _ => rfl⟩
  exact top.load site

/-- All functions inside of a compiled program that is loaded. -/
theorem Program.number_signposted (pauses : options.strategy ≠ .fudge) {source compiled : Program}
    (ok : source.compile options = .ok compiled) (site : Nat) :
    ∀ f ∈ Stmt.listFunctions (compiled.number site).1.body, f.Throughout Func.Signposted := by
  have gives : options.Gives Func.Signposted := fun _ _ => Func.dualMode_signposted pauses
  exact gives.number (fun _ next signposted => signposted.load next) ok site

end Resumable
