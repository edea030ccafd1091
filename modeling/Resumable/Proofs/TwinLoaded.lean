import Resumable.Proofs.Loaded
import Resumable.Proofs.Twin

/-!
Loading of code that does the same in normal mode.

The two programs of a pair get different sites when they are loaded, since the second one has code
for restoring mode that the first has not.  Loading is followed on both sides at once: where a
function of the one and a function of the other stand for one another they are numbered at the same
time, and every number is used once, so that the pairs of numbers are one-to-one.
-/

namespace Resumable

variable {sites : Sites} {s : Stmt}

/-- The sites in use are one-to-one and below the next ones. -/
structure Sites.Below (sites : Sites) (next next' : Nat) : Prop where
  oneToOne : sites.OneToOne
  below : ∀ {a a' : Nat}, sites a a' → a < next ∧ a' < next'

theorem Sites.Below.mono {a a' b b' : Nat} (below : sites.Below a a') (le : a ≤ b) (le' : a' ≤ b') :
    sites.Below b b' where
  oneToOne := below.oneToOne
  below h := ⟨Nat.lt_of_lt_of_le (below.below h).1 le, Nat.lt_of_lt_of_le (below.below h).2 le'⟩

theorem Sites.Extends.refl (sites : Sites) : sites.Extends sites :=
  fun _ _ h => h

theorem Sites.Extends.trans {sites' sites'' : Sites} (second : sites''.Extends sites')
    (first : sites'.Extends sites) : sites''.Extends sites :=
  fun a a' h => second a a' (first a a' h)

/-- The sites with one more pair. -/
def Sites.add (sites : Sites) (site site' : Nat) : Sites :=
  fun a a' => sites a a' ∨ a = site ∧ a' = site'

/-- The next numbers are new on both sides. -/
theorem Sites.Below.add {next next' : Nat} (below : sites.Below next next') :
    (sites.add next next').Below (next + 1) (next' + 1) where
  oneToOne := by
    rintro a a' b b' (first | ⟨rfl, rfl⟩) (second | ⟨rfl, rfl⟩)
    · exact below.oneToOne first second
    · have := below.below first
      omega
    · have := below.below second
      omega
    · simp
  below := by
    rintro a a' (h | ⟨rfl, rfl⟩)
    · have := below.below h
      omega
    · omega

namespace Numbering

variable {α β γ δ : Type}

/-- Numbers are only given away. -/
def Grows (x : Numbering α) : Prop :=
  ∀ next, next ≤ (x next).2

theorem Grows.pure (a : α) : Grows (Pure.pure a) :=
  fun _ => Nat.le_refl _

theorem Grows.bind {x : Numbering α} {f : α → Numbering β} (first : Grows x)
    (second : ∀ a, Grows (f a)) : Grows (x >>= f) :=
  fun next => Nat.le_trans (first next) (second _ _)

/-- The relation does not mind more sites. -/
def Stable (rel : Sites → α → β → Prop) : Prop :=
  ∀ ⦃sites sites' a b⦄, sites'.Extends sites → rel sites a b → rel sites' a b

/-- Two programs are loaded at once, with more and more sites that stand for one another. -/
def Twin (rel : Sites → α → β → Prop) (x : Numbering α) (y : Numbering β) : Prop :=
  ∀ sites next next', sites.Below next next' → ∃ sites' : Sites, sites'.Extends sites ∧
    sites'.Below (x next).2 (y next').2 ∧ rel sites' (x next).1 (y next').1

variable {first : Sites → α → β → Prop} {second : Sites → γ → δ → Prop}

theorem Twin.pure {a : α} {b : β} (h : ∀ sites, first sites a b) : Twin first (Pure.pure a)
    (Pure.pure b) :=
  fun sites _ _ below => ⟨sites, .refl sites, below, h sites⟩

/-- One after the other on both sides. -/
theorem Twin.bind {x : Numbering α} {y : Numbering β} {f : α → Numbering γ} {g : β → Numbering δ}
    (stable : Stable first) (loads : Twin first x y)
    (rest : ∀ a b, Twin (fun sites c d => first sites a b → second sites c d) (f a) (g b)) :
    Twin second (x >>= f) (y >>= g) := by
  intro sites next next' below
  obtain ⟨sites₁, more₁, below₁, rel₁⟩ := loads sites next next' below
  obtain ⟨sites₂, more₂, below₂, rel₂⟩ := rest _ _ sites₁ _ _ below₁
  exact ⟨sites₂, more₂.trans more₁, below₂, rel₂ (stable more₂ rel₁)⟩

/-- The second program goes on where the first is done. -/
theorem Twin.bindRight {x : Numbering α} {y : Numbering β} {g : β → Numbering δ}
    {second : Sites → α → δ → Prop}
    (stable : Stable first) (loads : Twin first x y)
    (rest : ∀ a b, Twin (fun sites c d => first sites a b → second sites c d) (Pure.pure a) (g b)) :
    Twin second x (y >>= g) := by
  rw [← bind_pure x]
  exact .bind stable loads rest

/-- What only the second program has. -/
theorem Twin.right {x : Numbering γ} {y : Numbering β} {g : β → Numbering δ} (holds : β → Prop)
    (grows : Grows y) (found : ∀ next, holds (y next).1) (rest : ∀ b, holds b →
      Twin second x (g b)) :
    Twin second x (y >>= g) := by
  intro sites next next' below
  exact rest _ (found next') sites next _ (below.mono (Nat.le_refl _) (grows next'))

end Numbering

open Resumable.Numbering (Grows Stable)

/-! ## Numbers are only given away -/

mutual

theorem Expr.load_grows : (e : Expr) → Grows e.load
  | .binary _ left right => .bind left.load_grows fun _ => .bind right.load_grows fun _ => .pure _
  | .unary _ arg => .bind arg.load_grows fun _ => .pure _
  | .cond test thenE elseE =>
    .bind test.load_grows fun _ => .bind thenE.load_grows fun _ => .bind elseE.load_grows
    fun _ => .pure _
  | .member base _ => .bind base.load_grows fun _ => .pure _
  | .index base key => .bind base.load_grows fun _ => .bind key.load_grows fun _ => .pure _
  | .call callee args | .new callee args | .handleNew callee args =>
    .bind callee.load_grows fun _ => .bind (Expr.loadList_grows args) fun _ => .pure _
  | .func f => .bind f.load_grows fun _ => .pure _
  | .array elements => .bind (Expr.loadList_grows elements) fun _ => .pure _
  | .object props => .bind (Expr.loadProps_grows props) fun _ => .pure _
  | .num _ | .str _ | .bool _ | .null | .undefined | .ident _ | .this | .arguments | .isNormal
  | .isRestoring | .targetIn _ | .capturing | .reenterNext | .newTarget | .suspend => .pure _

theorem Expr.loadList_grows : (es : List Expr) → Grows (Expr.loadList es)
  | [] => .pure _
  | e :: rest => .bind e.load_grows fun _ => .bind (Expr.loadList_grows rest) fun _ => .pure _

theorem Expr.loadProps_grows : (props : List (String × Expr)) → Grows (Expr.loadProps props)
  | [] => .pure _
  | (_, e) :: rest => .bind e.load_grows fun _ => .bind (Expr.loadProps_grows rest) fun _ => .pure _

theorem Expr.loadOption_grows : (o : Option Expr) → Grows (Expr.loadOption o)
  | none => .pure _
  | some e => .bind e.load_grows fun _ => .pure _

theorem Target.load_grows : (target : Target) → Grows target.load
  | .ident _ => .pure _
  | .member base _ => .bind base.load_grows fun _ => .pure _
  | .index base key => .bind base.load_grows fun _ => .bind key.load_grows fun _ => .pure _

theorem Stmt.load_grows : (s : Stmt) → Grows s.load
  | .block body => .bind (Stmt.loadList_grows body) fun _ => .pure _
  | .letS _ init => .bind (Expr.loadOption_grows init) fun _ => .pure _
  | .assign target value => .bind target.load_grows fun _ => .bind value.load_grows fun _ => .pure _
  | .expr e | .throwS e => .bind e.load_grows fun _ => .pure _
  | .ifS test thenS elseS =>
    .bind test.load_grows fun _ => .bind thenS.load_grows fun _ =>
      .bind (Stmt.loadOption_grows elseS) fun _ => .pure _
  | .whileS test body => .bind test.load_grows fun _ => .bind body.load_grows fun _ => .pure _
  | .labeled _ body | .recordOnCapture _ body | .shadowFrame _ body =>
    .bind body.load_grows fun _ => .pure _
  | .returnS value => .bind (Expr.loadOption_grows value) fun _ => .pure _
  | .tryS body handler final =>
    .bind body.load_grows fun _ => .bind (Handler.loadOption_grows handler) fun _ =>
      .bind (Stmt.loadOption_grows final) fun _ => .pure _
  | .decl f => .bind f.load_grows fun _ => .pure _
  | .breakS _ | .continueS _ | .restoreFrame | .stackDec | .stackInc | .returnIfCapturing _
  | .rethrowSignal _ => .pure _

theorem Stmt.loadList_grows : (body : List Stmt) → Grows (Stmt.loadList body)
  | [] => .pure _
  | s :: rest => .bind s.load_grows fun _ => .bind (Stmt.loadList_grows rest) fun _ => .pure _

theorem Stmt.loadOption_grows : (o : Option Stmt) → Grows (Stmt.loadOption o)
  | none => .pure _
  | some s => .bind s.load_grows fun _ => .pure _

theorem Handler.loadOption_grows : (o : Option Handler) → Grows (Handler.loadOption o)
  | none => .pure _
  | some ⟨_, body⟩ => .bind body.load_grows fun _ => .pure _

theorem Func.load_grows : (f : Func) → Grows f.load
  | ⟨_, _, body, _, _⟩ =>
    .bind (fun next => Nat.le_succ next) fun _ => .bind (Stmt.loadList_grows body) fun _ => .pure _

end

/-! ## Loading of twins -/

theorem Expr.load_of_holdsNormally {test : Expr} (holds : test.holdsNormally = true) :
    test.load = Pure.pure test := by
  unfold Expr.holdsNormally at holds
  split at holds <;> first | rfl | cases holds

theorem Stmt.load_of_isSilent (silent : s.isSilent = true) : s.load = Pure.pure s := by
  unfold Stmt.isSilent at silent
  split at silent <;> first | rfl | cases silent

theorem Stmt.loadOption_isReentry {elseS : Option Stmt} (reentry : ∀ r ∈ elseS, r.isReentry = true)
    (next : Nat) : ∀ r ∈ (Stmt.loadOption elseS next).1, r.isReentry = true := by
  cases elseS with
  | none => exact fun _ mem => by cases mem
  | some r =>
    have shape := reentry r rfl
    unfold Stmt.isReentry at shape
    split at shape
    · exact fun _ mem => Option.some.inj mem ▸ rfl
    · exact fun _ mem => Option.some.inj mem ▸ rfl
    · exact fun _ mem => Option.some.inj mem ▸ rfl
    · cases shape

/-- The value of the call is the only part of it that is numbered. -/
theorem Stmt.load_tail (strategy : Strategy) (label : Nat) (e : Expr) :
    (Stmt.block (capturePoint strategy label (.letS tailResult (some e)) ++
      [.stackInc, .returnS (some (.ident tailResult))])).load = (do
        let e ← e.load
        return .block (capturePoint strategy label (.letS tailResult (some e)) ++
          [.stackInc, .returnS (some (.ident tailResult))])) := by
  cases strategy <;> rfl

/-- A statement that stands for one other. -/
abbrev Stmt.Single (sites : Sites) (s s' : Stmt) : Prop :=
  Stmt.Twin sites [s] s'

theorem Stmt.load_single {s' : Stmt} :
    Numbering.Twin Stmt.Twin (Stmt.loadList [s]) s'.load ↔
    Numbering.Twin Stmt.Single s.load s'.load :=
  Iff.rfl

theorem Expr.Twin.stable : Stable Expr.Twin := fun _ _ _ _ more twin => twin.mono more
theorem Expr.TwinList.stable : Stable Expr.TwinList := fun _ _ _ _ more twin => twin.mono more
theorem Expr.TwinProps.stable : Stable Expr.TwinProps := fun _ _ _ _ more twin => twin.mono more
theorem Expr.TwinOption.stable : Stable Expr.TwinOption := fun _ _ _ _ more twin => twin.mono more
theorem Expr.TwinTest.stable : Stable Expr.TwinTest := fun _ _ _ _ more twin => twin.mono more
theorem Target.Twin.stable : Stable Target.Twin := fun _ _ _ _ more twin => twin.mono more
theorem Stmt.Twin.stable : Stable Stmt.Twin := fun _ _ _ _ more twin => twin.mono more
theorem Stmt.Single.stable : Stable Stmt.Single := fun _ _ _ _ more twin => twin.mono more
theorem Stmt.Twins.stable : Stable Stmt.Twins := fun _ _ _ _ more twin => twin.mono more
theorem Stmt.TwinOption.stable : Stable Stmt.TwinOption := fun _ _ _ _ more twin => twin.mono more
theorem Handler.TwinOption.stable : Stable Handler.TwinOption := fun _ _ _ _ more twin =>
    twin.mono more
theorem Func.Twin.stable : Stable Func.Twin := fun _ _ _ _ more twin => twin.mono more

section Twins

variable {sites : Sites}

mutual

theorem Expr.Twin.load {e e' : Expr} : e.Twin sites e' → Numbering.Twin Expr.Twin e.load e'.load
  | .num => .pure fun _ => .num
  | .str => .pure fun _ => .str
  | .bool => .pure fun _ => .bool
  | .null => .pure fun _ => .null
  | .undefined => .pure fun _ => .undefined
  | .ident own => .pure fun _ => .ident own
  | .binary left right =>
    .bind Expr.Twin.stable left.load fun _ _ => .bind Expr.Twin.stable right.load fun _ _ =>
      .pure fun _ right left => .binary left right
  | .unary arg => .bind Expr.Twin.stable arg.load fun _ _ => .pure fun _ arg => .unary arg
  | .cond test thenE elseE =>
    .bind Expr.Twin.stable test.load fun _ _ => .bind Expr.Twin.stable thenE.load fun _ _ =>
      .bind Expr.Twin.stable elseE.load fun _ _ =>
        .pure fun _ elseE thenE test => .cond test thenE elseE
  | .member base => .bind Expr.Twin.stable base.load fun _ _ => .pure fun _ base => .member base
  | .index base key =>
    .bind Expr.Twin.stable base.load fun _ _ => .bind Expr.Twin.stable key.load fun _ _ =>
      .pure fun _ key base => .index base key
  | .call callee args =>
    .bind Expr.Twin.stable callee.load fun _ _ => .bind Expr.TwinList.stable args.load fun _ _ =>
      .pure fun _ args callee => .call callee args
  | .new callee args =>
    .bind Expr.Twin.stable callee.load fun _ _ => .bind Expr.TwinList.stable args.load fun _ _ =>
      .pure fun _ args callee => .new callee args
  | .func f => .bind Func.Twin.stable f.load fun _ _ => .pure fun _ f => .func f
  | .array elements =>
    .bind Expr.TwinList.stable elements.load fun _ _ => .pure fun _ elements => .array elements
  | .object props =>
    .bind Expr.TwinProps.stable props.load fun _ _ => .pure fun _ props => .object props
  | .this => .pure fun _ => .this
  | .arguments => .pure fun _ => .arguments

theorem Expr.TwinList.load {es es' : List Expr} :
    Expr.TwinList sites es es' → Numbering.Twin Expr.TwinList (Expr.loadList es) (Expr.loadList es')
  | .nil => .pure fun _ => .nil
  | .cons e rest =>
    .bind Expr.Twin.stable e.load fun _ _ => .bind Expr.TwinList.stable rest.load fun _ _ =>
      .pure fun _ rest e => .cons e rest

theorem Expr.TwinProps.load {props props' : List (String × Expr)} :
    Expr.TwinProps sites props props' → Numbering.Twin Expr.TwinProps (Expr.loadProps props)
    (Expr.loadProps props')
  | .nil => .pure fun _ => .nil
  | .cons e rest =>
    .bind Expr.Twin.stable e.load fun _ _ => .bind Expr.TwinProps.stable rest.load fun _ _ =>
      .pure fun _ rest e => .cons e rest

theorem Expr.TwinOption.load {o o' : Option Expr} : Expr.TwinOption sites o o' →
    Numbering.Twin Expr.TwinOption (Expr.loadOption o) (Expr.loadOption o')
  | .none => .pure fun _ => .none
  | .some e => .bind Expr.Twin.stable e.load fun _ _ => .pure fun _ e => .some e

theorem Expr.TwinTest.load {test test' : Expr} :
    test.TwinTest sites test' → Numbering.Twin Expr.TwinTest test.load test'.load
  | @Expr.TwinTest.normal _ _ test' twin => by
    show Numbering.Twin _ _ (do return Expr.binary .and .isNormal (← test'.load))
    exact .bindRight Expr.Twin.stable twin.load fun _ _ => .pure fun _ twin => .normal twin
  | @Expr.TwinTest.orRestoring _ _ test' labels twin => by
    show Numbering.Twin _ _ (do
      let test' ← test'.load
      return Expr.binary .or (.binary .and .isNormal test') (.binary .and .isRestoring
        (.targetIn labels)))
    exact .bindRight Expr.Twin.stable twin.load fun _ _ => .pure fun _ twin => .orRestoring twin
  | @Expr.TwinTest.restoringOr _ _ test' labels twin => by
    show Numbering.Twin _ _ (do
      let test' ← test'.load
      return Expr.binary .or (.binary .and .isRestoring (.targetIn labels))
        (.binary .and .isNormal test'))
    exact .bindRight Expr.Twin.stable twin.load fun _ _ => .pure fun _ twin => .restoringOr twin

theorem Target.Twin.load {target target' : Target} :
    target.Twin sites target' → Numbering.Twin Target.Twin target.load target'.load
  | .ident own => .pure fun _ => .ident own
  | .member base => .bind Expr.Twin.stable base.load fun _ _ => .pure fun _ base => .member base
  | .index base key =>
    .bind Expr.Twin.stable base.load fun _ _ => .bind Expr.Twin.stable key.load fun _ _ =>
      .pure fun _ key base => .index base key

theorem Stmt.Twin.load {body : List Stmt} {s : Stmt} :
    Stmt.Twin sites body s → Numbering.Twin Stmt.Twin (Stmt.loadList body) s.load
  | .silent silent => by
    rw [Stmt.load_of_isSilent silent]
    exact .pure fun _ => .silent silent
  | .splice twins =>
    .bindRight Stmt.Twins.stable twins.load fun _ _ => .pure fun _ twins => .splice twins
  | .guarded holds twin reentry => by
    rw [Stmt.load, Expr.load_of_holdsNormally holds, pure_bind]
    refine .bindRight Stmt.Twin.stable twin.load fun _ _ => ?_
    refine .right (fun elseS => ∀ r ∈ elseS, r.isReentry = true) (Stmt.loadOption_grows _)
      (Stmt.loadOption_isReentry reentry) fun _ reentry => ?_
    exact .pure fun _ twin => .guarded holds twin reentry
  | .recorded twin =>
    .bindRight Stmt.Twin.stable twin.load fun _ _ => .pure fun _ twin => .recorded twin
  | .shadowed twin =>
    .bindRight Stmt.Twin.stable twin.load fun _ _ => .pure fun _ twin => .shadowed twin
  | .block twins => Stmt.load_single.mpr
      (.bind Stmt.Twins.stable twins.load fun _ _ => .pure fun _ twins => .block twins)
  | .letS own init => Stmt.load_single.mpr
      (.bind Expr.TwinOption.stable init.load fun _ _ => .pure fun _ init => .letS own init)
  | .assign target value => Stmt.load_single.mpr
      (.bind Target.Twin.stable target.load fun _ _ => .bind Expr.Twin.stable value.load fun _ _ =>
        .pure fun _ value target => .assign target value)
  | .expr e =>
    Stmt.load_single.mpr (.bind Expr.Twin.stable e.load fun _ _ => .pure fun _ e => .expr e)
  | .ifS test thenS elseS => Stmt.load_single.mpr
      (.bind Expr.TwinTest.stable test.load fun _ _ => .bind Stmt.Single.stable
        (Stmt.load_single.mp thenS.load) fun _ _ => .bind Stmt.TwinOption.stable elseS.load
          fun _ _ => .pure fun _ elseS thenS test => .ifS test thenS elseS)
  | .whileS test body => Stmt.load_single.mpr
      (.bind Expr.TwinTest.stable test.load fun _ _ => .bind Stmt.Single.stable
        (Stmt.load_single.mp body.load) fun _ _ => .pure fun _ body test => .whileS test body)
  | @Stmt.Twin.loop _ label test test' body body' testTwin twin => Stmt.load_single.mpr (by
    show Numbering.Twin _ (do return Stmt.labeled label (.whileS (← test.load) (← body.load)))
      (do return Stmt.labeled label (.whileS (← test'.load) (← body'.load)))
    exact .bind Expr.TwinTest.stable testTwin.load fun _ _ =>
      .bind Stmt.Single.stable (Stmt.load_single.mp twin.load) fun _ _ =>
        .pure fun _ twin test => .loop test twin)
  | .labeled notLoop notLoop' twin => Stmt.load_single.mpr (by
    intro sites next next' below
    obtain ⟨sites', more, below', twin⟩ := Stmt.load_single.mp twin.load sites next next' below
    refine ⟨sites', more, below', .labeled ?_ ?_ twin⟩
    · exact (Stmt.load_isLoop next).trans notLoop
    · exact (Stmt.load_isLoop next').trans notLoop')
  | .breakS => .pure fun _ => .breakS
  | .returnS value => Stmt.load_single.mpr
      (.bind Expr.TwinOption.stable value.load fun _ _ => .pure fun _ value => .returnS value)
  | .tail e => Stmt.load_single.mpr (by
    rw [Stmt.load_tail]
    show Numbering.Twin _ (do return Stmt.returnS (some (← Expr.load _))) _
    exact .bind Expr.Twin.stable e.load fun _ _ => .pure fun _ e => .tail e)
  | .throwS value => Stmt.load_single.mpr
      (.bind Expr.Twin.stable value.load fun _ _ => .pure fun _ value => .throwS value)
  | .tryS body handler final => Stmt.load_single.mpr
      (.bind Stmt.Single.stable (Stmt.load_single.mp body.load) fun _ _ =>
        .bind Handler.TwinOption.stable handler.load fun _ _ =>
          .bind Stmt.TwinOption.stable final.load fun _ _ => .pure fun _ final handler body =>
            .tryS body handler final)
  | .decl f =>
    Stmt.load_single.mpr (.bind Func.Twin.stable f.load fun _ _ => .pure fun _ f => .decl f)

theorem Stmt.Twins.load {body body' : List Stmt} :
    Stmt.Twins sites body body' → Numbering.Twin Stmt.Twins (Stmt.loadList body)
    (Stmt.loadList body')
  | .nil => .pure fun _ => .nil
  | .cons twin rest => by
    rw [Stmt.loadList_append]
    exact .bind Stmt.Twin.stable twin.load fun _ _ => .bind Stmt.Twins.stable rest.load fun _ _ =>
      .pure fun _ rest twin => .cons twin rest

theorem Stmt.TwinOption.load {o o' : Option Stmt} : Stmt.TwinOption sites o o' →
    Numbering.Twin Stmt.TwinOption (Stmt.loadOption o) (Stmt.loadOption o')
  | .none => .pure fun _ => .none
  | .some twin =>
    .bind Stmt.Single.stable (Stmt.load_single.mp twin.load) fun _ _ => .pure fun _ twin =>
    .some twin

theorem Handler.TwinOption.load {o o' : Option Handler} : Handler.TwinOption sites o o' →
    Numbering.Twin Handler.TwinOption (Handler.loadOption o) (Handler.loadOption o')
  | .none => .pure fun _ => .none
  | .some own twin =>
    .bind Stmt.Single.stable (Stmt.load_single.mp twin.load) fun _ _ => .pure fun _ twin =>
    .some own twin

theorem Func.Twin.load {f f' : Func} : f.Twin sites f' → Numbering.Twin Func.Twin f.load f'.load
  | @Func.Twin.intro _ f f' name params locals own _ body => by
    intro sites next next' below
    obtain ⟨sites', more, below', twins⟩ := body.load (sites.add next next') _ _ below.add
    refine ⟨sites', fun a a' h => more a a' (.inl h), ?_, ?_⟩
    · cases f
      cases f'
      exact below'
    · have site : sites' next next' := more next next' (.inr ⟨rfl, rfl⟩)
      cases f
      cases f'
      exact .intro name params locals own site twins

end

end Twins

end Resumable
