import Resumable.Machine.Host
import Resumable.Proofs.Sessions
import Resumable.Proofs.Spelling

/-!
Reading back what was written.

The writer and the reader of programs are two recursions over the same syntax, and they agree one
constructor at a time: every spelling of a written program is read as that program
(`Program.reads_spellings`), and what is written is a spelling of itself.  No layout, header or
interval that is absent is ever written (`Program.toJson_isTidy`).
-/

namespace Resumable

variable {j : Json}

open Members (only? lacks required defaulted orNull nullable)

/-! ## Programs that can be written -/

/-- The number is a count of 32 bits. -/
def isCount (n : Nat) : Bool :=
  n < 4294967296

mutual

/-- All numbers are finite, all labels are counts of 32 bits, and no function has a site. -/
def Expr.isPortable : Expr → Bool
  | .num v => v.isFinite
  | .binary _ left right => left.isPortable && right.isPortable
  | .unary _ arg => arg.isPortable
  | .cond test thenE elseE => test.isPortable && thenE.isPortable && elseE.isPortable
  | .member base _ => base.isPortable
  | .index base key => base.isPortable && key.isPortable
  | .call callee args | .new callee args | .handleNew callee args =>
    callee.isPortable && Expr.listIsPortable args
  | .func f => f.isPortable
  | .array elements => Expr.listIsPortable elements
  | .object props => Expr.propsArePortable props
  | .targetIn labels => labels.all isCount
  | .str _ | .bool _ | .null | .undefined | .ident _ | .this | .arguments | .isNormal | .isRestoring
  | .capturing | .reenterNext | .newTarget | .suspend => true

def Expr.listIsPortable : List Expr → Bool
  | [] => true
  | e :: rest => e.isPortable && Expr.listIsPortable rest

def Expr.propsArePortable : List (String × Expr) → Bool
  | [] => true
  | (_, e) :: rest => e.isPortable && Expr.propsArePortable rest

def Expr.optionIsPortable : Option Expr → Bool
  | none => true
  | some e => e.isPortable

def Target.isPortable : Target → Bool
  | .ident _ => true
  | .member base _ => base.isPortable
  | .index base key => base.isPortable && key.isPortable

def Stmt.isPortable : Stmt → Bool
  | .block body => Stmt.listIsPortable body
  | .letS _ init => Expr.optionIsPortable init
  | .assign target value => target.isPortable && value.isPortable
  | .expr e | .throwS e => e.isPortable
  | .ifS test thenS elseS => test.isPortable && thenS.isPortable && Stmt.optionIsPortable elseS
  | .whileS test body => test.isPortable && body.isPortable
  | .labeled _ body => body.isPortable
  | .returnS value => Expr.optionIsPortable value
  | .tryS body handler final =>
    body.isPortable && Handler.optionIsPortable handler && Stmt.optionIsPortable final
  | .decl f => f.isPortable
  | .recordOnCapture label body | .shadowFrame label body => isCount label && body.isPortable
  | .returnIfCapturing label => isCount label
  | .breakS _ | .continueS _ | .restoreFrame | .stackDec | .stackInc | .rethrowSignal _ => true

def Stmt.listIsPortable : List Stmt → Bool
  | [] => true
  | s :: rest => s.isPortable && Stmt.listIsPortable rest

def Stmt.optionIsPortable : Option Stmt → Bool
  | none => true
  | some s => s.isPortable

def Handler.optionIsPortable : Option Handler → Bool
  | none => true
  | some ⟨_, body⟩ => body.isPortable

def Func.isPortable : Func → Bool
  | ⟨_, _, body, _, site⟩ => Stmt.listIsPortable body && site == 0

end

/-- A program as it is before it is loaded, with finite numbers and with counts of 32 bits. -/
def Program.isPortable (p : Program) : Bool :=
  Stmt.listIsPortable p.body && p.instrumented.all fun header => header.yieldInterval.all isCount

/-! ## Parts without statements -/

theorem BinaryOp.ofName?_name (op : BinaryOp) : BinaryOp.ofName? op.name = some op := by
  cases op <;> rfl

theorem UnaryOp.ofName?_name (op : UnaryOp) : UnaryOp.ofName? op.name = some op := by
  cases op <;> rfl

theorem Strategy.ofName_name (strategy : Strategy) : Strategy.ofName strategy.name =
    .ok strategy := by
  cases strategy <;> rfl

theorem Construction.ofName_name (construction : Construction) :
    Construction.ofName construction.name = .ok construction := by
  cases construction <;> rfl

theorem Fidelity.ofName_name (fidelity : Fidelity) : Fidelity.ofName fidelity.name =
    .ok fidelity := by
  cases fidelity <;> rfl

theorem Expr.toJson_isDefault (e : Expr) (name : String) : e.toJson.isDefault name = false := by
  cases e <;> rfl

theorem Target.toJson_isDefault (target : Target) (name : String) : target.toJson.isDefault name =
    false := by
  cases target <;> rfl

theorem Stmt.toJson_isDefault (s : Stmt) (name : String) : s.toJson.isDefault name = false := by
  cases s <;> rfl

theorem Func.toJson_isDefault (f : Func) (name : String) : f.toJson.isDefault name = false := by
  cases f
  rfl

theorem Json.Spells.mapM {α : Type} {write : α → Json} {values : List α}
    (spells : j.Spells (.arr (values.map write))) (read : Json → Option α)
    (reads : ∀ a ∈ values, ∀ j, j.Spells (write a) → read j = some a) :
    ∃ items, j = .arr items ∧ items.mapM read = some values := by
  obtain ⟨items, rfl, each⟩ := spells.items
  refine ⟨items, rfl, ?_⟩
  clear spells
  induction values generalizing items with
  | nil =>
    cases each
    rfl
  | cons a rest ih =>
    cases each with
    | cons first others =>
      rw [List.forall_mem_cons] at reads
      rw [List.mapM_cons, reads.1 _ first, ih reads.2 _ others]
      rfl

theorem Json.Spells.texts {texts : List String} (spells : j.Spells (.strs texts)) :
    Members.texts j = some texts := by
  obtain ⟨items, rfl, read⟩ := spells.mapM Json.str? fun s _ j spells => by
    cases spells.eq_of_isScalar rfl
    rfl
  exact read

theorem Json.Spells.count {n : Nat} (spells : j.Spells (.count n)) (small : isCount n = true) :
    j.count? = some n := by
  cases spells.eq_of_isScalar rfl
  have inRange : 0 ≤ (n : Int) ∧ (n : Int) < 4294967296 := by
    simp only [isCount, decide_eq_true_eq] at small
    omega
  rw [Json.count, Json.count?, if_pos inRange, Int.toNat_natCast]

theorem Json.Spells.counts {labels : List Nat} (spells : j.Spells (.arr (labels.map .count)))
    (small : labels.all isCount = true) : Members.counts j = some labels := by
  obtain ⟨items, rfl, read⟩ := spells.mapM Json.count? fun n mem j spells =>
    spells.count (List.all_eq_true.mp small n mem)
  exact read

theorem Json.Spells.bool {b : Bool} (spells : j.Spells (.bool b)) : j.bool? = some b := by
  cases spells.eq_of_isScalar rfl
  rfl

theorem Json.Spells.text {s : String} (spells : j.Spells (.str s)) : j.str? = some s := by
  cases spells.eq_of_isScalar rfl
  rfl

/-- An object of some kind. -/
theorem Json.Spells.tagged {tag : String} {rest : List (String × Json)}
    (spells : j.Spells (.tagged tag rest)) (lacking : lacks "t" rest = true) :
    ∃ members, j = .obj members ∧ Members.Spelt (("t", .str tag) :: rest) members ∧
      ∀ kinds nested, Syntax.kind? kinds nested members = some tag := by
  obtain ⟨members, rfl, spelt⟩ := spells.members
  refine ⟨members, rfl, spelt, fun kinds nested => ?_⟩
  have only : only? "t" (("t", Json.str tag) :: rest) = some (.str tag) := by simp [only?, lacking]
  refine spelt.required only rfl fun j spells => ?_
  cases spells.eq_of_isScalar rfl
  rfl

theorem Reentry.reads (reentry : Reentry) (nested : Bool) (j : Json)
    (spells : j.Spells reentry.toJson) : Reentry.ofJson? nested j = some reentry := by
  cases reentry with
  | params =>
    obtain ⟨members, rfl, spelt, kind⟩ := spells.tagged rfl
    rw [Reentry.ofJson?, kind]
    rfl
  | arguments sync =>
    obtain ⟨members, rfl, spelt, kind⟩ := spells.tagged rfl
    have syncRead : required Json.bool? "sync_formals" members = some sync :=
      spelt.required rfl (by cases sync <;> rfl) fun _ spells => spells.bool
    rw [Reentry.ofJson?, kind, syncRead]
    rfl

theorem Layout.reads (layout : Layout) (nested : Bool) (j : Json)
    (spells : j.Spells layout.toJson) : Layout.ofJson? nested j = some layout := by
  obtain ⟨members, rfl, spelt⟩ := spells.members
  have locals : required Members.texts "locals" members = some layout.locals :=
    spelt.required rfl (by cases layout.locals <;> rfl) fun _ spells => spells.texts
  have reentry : required (Reentry.ofJson? nested) "reentry" members = some layout.reentry :=
    spelt.required rfl (by cases layout.reentry <;> rfl) (layout.reentry.reads nested)
  have saves : defaulted Json.bool? false "save_formals" members = some layout.saveFormals := by
    refine spelt.defaulted rfl (fun isDefault => ?_) fun _ spells => spells.bool
    cases saves : layout.saveFormals with
    | false => rfl
    | true =>
      rw [saves] at isDefault
      cases isDefault
  rw [Layout.ofJson?, locals, reentry, saves]
  rfl

/-! ## Statements and expressions -/

namespace Members.Spelt

variable {written members : List (String × Json)} {name : String}

section

variable (spelt : Spelt written members)

include spelt

theorem textAt {text : String} (only : only? name written = some (.str text)) :
    Members.required Json.str? name members = some text :=
  spelt.required only rfl fun _ spells => spells.text

theorem textOptionAt {text : Option String} (only : only? name written =
    some (.ofOption .str text)) : Members.nullable Json.str? name members = some text :=
  spelt.nullable only (fun _ _ => rfl) fun _ _ _ spells => spells.text

theorem countAt {n : Nat} (only : only? name written = some (.count n)) (small : isCount n = true) :
    Members.required Json.count? name members = some n :=
  spelt.required only rfl fun _ spells => spells.count small

/-- The name of an operator is a text. -/
theorem operatorAt {text : String} (only : only? name written = some (.str text)) :
    Members.required Syntax.operatorName? name members = some text :=
  spelt.required only rfl fun _ spells => by
    cases spells.eq_of_isScalar rfl
    rfl

theorem exprAt {e : Expr} (only : only? name written = some e.toJson)
    (reads : ∀ j, j.Spells e.toJson → Expr.ofJson? j = some e) : Expr.at? name members =
    some e := by
  rw [Expr.at?_eq]
  exact spelt.required only (e.toJson_isDefault name) reads

theorem exprOptionAt {init : Option Expr} (only : only? name written =
    some (Expr.optionToJson init)) (reads : ∀ e ∈ init, ∀ j, j.Spells e.toJson →
    Expr.ofJson? j = some e) :
    Expr.optionAt? name members = some init := by
  have asOption : Expr.optionToJson init = .ofOption Expr.toJson init := by cases init <;> rfl
  rw [Expr.optionAt?_eq]
  exact spelt.nullable (asOption ▸ only) (fun e _ => e.toJson_isDefault name) reads

end

/-- An array that may be missing when it is empty. -/
theorem arrayAt {α : Type} {items : List Json} {values : List α} {read : List Json →
    Option (List α)} (spelt : Spelt written members) (only : only? name written = some (.arr items))
    (empty : items = [] → values = []) (reads : ∀ items', List.Forall₂ Json.Spells items' items →
      read items' = some values) :
    Members.defaulted (fun value => do read (← value.arr?)) [] name members = some values := by
  refine spelt.defaulted only (fun isDefault => empty ?_) fun j spells => ?_
  · cases items with
    | nil => rfl
    | cons => cases isDefault
  · obtain ⟨items', rfl, each⟩ := spells.items
    exact reads items' each

section

variable (spelt : Spelt written members)

include spelt

theorem exprListAt {es : List Expr} (only : only? name written = some (.arr (Expr.listToJson es)))
    (reads : ∀ items, List.Forall₂ Json.Spells items (Expr.listToJson es) → Expr.listOfJson? items =
      some es) :
    Expr.listAt? name members = some es := by
  rw [Expr.listAt?_eq]
  refine spelt.arrayAt only (fun empty => ?_) reads
  cases es with
  | nil => rfl
  | cons => cases empty

theorem exprPropsAt {props : List (String × Expr)}
    (only : only? name written = some (.arr (Expr.propsToJson props)))
    (reads : ∀ items, List.Forall₂ Json.Spells items (Expr.propsToJson props) →
      Expr.propsOfJson? items = some props) :
    Expr.propsAt? name members = some props := by
  rw [Expr.propsAt?_eq]
  refine spelt.arrayAt only (fun empty => ?_) reads
  cases props with
  | nil => rfl
  | cons => cases empty

theorem targetAt {target : Target} (only : only? name written = some target.toJson)
    (reads : ∀ j, j.Spells target.toJson → Target.ofJson? j = some target) :
    Target.at? name members = some target := by
  rw [Target.at?_eq]
  exact spelt.required only (target.toJson_isDefault name) reads

theorem stmtAt {s : Stmt} (only : only? name written = some s.toJson)
    (reads : ∀ j, j.Spells s.toJson → Stmt.ofJson? true j = some s) : Stmt.at? name members =
    some s := by
  rw [Stmt.at?_eq]
  exact spelt.required only (s.toJson_isDefault name) reads

theorem stmtOptionAt {part : Option Stmt} (only : only? name written =
    some (Stmt.optionToJson part)) (reads : ∀ s ∈ part, ∀ j, j.Spells s.toJson →
    Stmt.ofJson? true j = some s) :
    Stmt.optionAt? name members = some part := by
  have asOption : Stmt.optionToJson part = .ofOption Stmt.toJson part := by cases part <;> rfl
  rw [Stmt.optionAt?_eq]
  exact spelt.nullable (asOption ▸ only) (fun s _ => s.toJson_isDefault name) reads

/-- A body is never missing. -/
theorem bodyAt {body : List Stmt} {nested : Bool}
    (only : only? "body" written = some (.arr (Stmt.listToJson body)))
    (reads : ∀ items, List.Forall₂ Json.Spells items (Stmt.listToJson body) →
      Stmt.listOfJson? nested items = some body) :
    Stmt.listAt? nested "body" members = some body := by
  rw [Stmt.listAt?_eq]
  refine spelt.required only (by cases body <;> rfl) fun j spells => ?_
  obtain ⟨items, rfl, each⟩ := spells.items
  exact reads items each

theorem handlerAt {handler : Option Handler} (only : only? name written =
    some (Handler.optionToJson handler)) (reads : ∀ h ∈ handler, ∀ j, j.Spells h.body.toJson →
    Stmt.ofJson? true j = some h.body) :
    Handler.optionAt? name members = some handler := by
  have asOption : Handler.optionToJson handler =
      .ofOption (fun h => .obj [("param", .str h.param), ("body", h.body.toJson)]) handler := by
    rcases handler with _ | ⟨param, body⟩ <;> rfl
  rw [Handler.optionAt?_eq]
  refine spelt.nullable (asOption ▸ only) (fun _ _ => rfl) fun ⟨param, body⟩ mem j spells => ?_
  obtain ⟨members, rfl, spelt⟩ := spells.members
  have paramRead : Members.required Json.str? "param" members = some param := spelt.textAt rfl
  have bodyRead : Stmt.at? "body" members = some body := spelt.stmtAt rfl (reads ⟨param, body⟩ mem)
  rw [Handler.ofJson?, paramRead, bodyRead]
  rfl

theorem funcAt {f : Func} (only : only? name written = some f.toJson)
    (reads : ∀ j, j.Spells f.toJson → Func.ofJson? true j = some f) : Func.at? name members =
    some f := by
  rw [Func.at?_eq]
  exact spelt.required only (f.toJson_isDefault name) reads

/-- A layout is left out when it is absent. -/
theorem frameAt {frame : Option Layout} {nested : Bool} (lacking : frame = none →
    lacks "frame" written = true) (only : ∀ layout ∈ frame, only? "frame" written =
    some layout.toJson) :
    Members.nullable (Layout.ofJson? nested) "frame" members = some frame :=
  spelt.optional Layout.toJson (by decide) lacking only (fun _ _ => rfl) fun layout _ =>
    layout.reads nested

end

end Members.Spelt

mutual

theorem Expr.reads : (e : Expr) → e.isPortable = true → (j : Json) → j.Spells e.toJson →
    Expr.ofJson? j = some e
  | .num v, portable, j, spells => by
    have written : (Expr.num v).toJson = .tagged "Num" [("v", .real v)] := by
      rw [Expr.isPortable] at portable
      rw [Expr.toJson, Json.ofFloat, if_pos portable]
    obtain ⟨members, rfl, spelt, kind⟩ := (written ▸ spells).tagged rfl
    have vRead : required Json.number? "v" members = some v := by
      refine spelt.required rfl rfl fun j spells => ?_
      cases spells.eq_of_isScalar rfl
      rfl
    rw [Expr.ofJson?, kind, vRead]
    rfl
  | .str v, _, j, spells => by
    obtain ⟨members, rfl, spelt, kind⟩ := spells.tagged rfl
    have vRead : required Json.str? "v" members = some v := spelt.textAt rfl
    rw [Expr.ofJson?, kind, vRead]
    rfl
  | .bool v, _, j, spells => by
    obtain ⟨members, rfl, spelt, kind⟩ := spells.tagged rfl
    have vRead : required Json.bool? "v" members = some v :=
      spelt.required rfl (by cases v <;> rfl) fun _ spells => spells.bool
    rw [Expr.ofJson?, kind, vRead]
    rfl
  | .ident name, _, j, spells => by
    obtain ⟨members, rfl, spelt, kind⟩ := spells.tagged rfl
    have nameRead : required Json.str? "name" members = some name := spelt.textAt rfl
    rw [Expr.ofJson?, kind, nameRead]
    rfl
  | .binary op left right, portable, j, spells => by
    simp only [Expr.isPortable, Bool.and_eq_true] at portable
    obtain ⟨members, rfl, spelt, kind⟩ := spells.tagged rfl
    have opRead : (required Syntax.operatorName? "op" members >>= BinaryOp.ofName?) = some op := by
      rw [spelt.operatorAt rfl]
      exact op.ofName?_name
    have leftRead : Expr.at? "left" members = some left :=
      spelt.exprAt rfl (Expr.reads left portable.1)
    have rightRead : Expr.at? "right" members = some right :=
      spelt.exprAt rfl (Expr.reads right portable.2)
    rw [Expr.ofJson?, kind, opRead, leftRead, rightRead]
    rfl
  | .unary op arg, portable, j, spells => by
    rw [Expr.isPortable] at portable
    obtain ⟨members, rfl, spelt, kind⟩ := spells.tagged rfl
    have opRead : (required Syntax.operatorName? "op" members >>= UnaryOp.ofName?) = some op := by
      rw [spelt.operatorAt rfl]
      exact op.ofName?_name
    have argRead : Expr.at? "arg" members = some arg := spelt.exprAt rfl (Expr.reads arg portable)
    rw [Expr.ofJson?, kind, opRead, argRead]
    rfl
  | .cond test thenE elseE, portable, j, spells => by
    simp only [Expr.isPortable, Bool.and_eq_true] at portable
    obtain ⟨members, rfl, spelt, kind⟩ := spells.tagged rfl
    have testRead : Expr.at? "test" members = some test :=
      spelt.exprAt rfl (Expr.reads test portable.1.1)
    have thenERead : Expr.at? "then_e" members = some thenE :=
      spelt.exprAt rfl (Expr.reads thenE portable.1.2)
    have elseERead : Expr.at? "else_e" members = some elseE :=
      spelt.exprAt rfl (Expr.reads elseE portable.2)
    rw [Expr.ofJson?, kind, testRead, thenERead, elseERead]
    rfl
  | .member base property, portable, j, spells => by
    rw [Expr.isPortable] at portable
    obtain ⟨members, rfl, spelt, kind⟩ := spells.tagged rfl
    have baseRead : Expr.at? "object" members = some base :=
      spelt.exprAt rfl (Expr.reads base portable)
    have propertyRead : required Json.str? "property" members = some property := spelt.textAt rfl
    rw [Expr.ofJson?, kind, baseRead, propertyRead]
    rfl
  | .index base key, portable, j, spells => by
    simp only [Expr.isPortable, Bool.and_eq_true] at portable
    obtain ⟨members, rfl, spelt, kind⟩ := spells.tagged rfl
    have baseRead : Expr.at? "object" members = some base :=
      spelt.exprAt rfl (Expr.reads base portable.1)
    have keyRead : Expr.at? "index" members = some key :=
      spelt.exprAt rfl (Expr.reads key portable.2)
    rw [Expr.ofJson?, kind, baseRead, keyRead]
    rfl
  | .call callee args, portable, j, spells | .new callee args, portable, j, spells
  | .handleNew callee args, portable, j, spells => by
    simp only [Expr.isPortable, Bool.and_eq_true] at portable
    obtain ⟨members, rfl, spelt, kind⟩ := spells.tagged rfl
    have calleeRead : Expr.at? "callee" members = some callee :=
      spelt.exprAt rfl (Expr.reads callee portable.1)
    have argsRead : Expr.listAt? "args" members = some args :=
      spelt.exprListAt rfl (Expr.listReads args portable.2)
    rw [Expr.ofJson?, kind, calleeRead, argsRead]
    rfl
  | .func f, portable, j, spells => by
    rw [Expr.isPortable] at portable
    obtain ⟨members, rfl, spelt, kind⟩ := spells.tagged rfl
    have fRead : Func.at? "func" members = some f := spelt.funcAt rfl (Func.reads f true portable)
    rw [Expr.ofJson?, kind, fRead]
    rfl
  | .array elements, portable, j, spells => by
    rw [Expr.isPortable] at portable
    obtain ⟨members, rfl, spelt, kind⟩ := spells.tagged rfl
    have elementsRead : Expr.listAt? "elements" members = some elements :=
      spelt.exprListAt rfl (Expr.listReads elements portable)
    rw [Expr.ofJson?, kind, elementsRead]
    rfl
  | .object props, portable, j, spells => by
    rw [Expr.isPortable] at portable
    obtain ⟨members, rfl, spelt, kind⟩ := spells.tagged rfl
    have propsRead : Expr.propsAt? "props" members = some props :=
      spelt.exprPropsAt rfl (Expr.propsRead props portable)
    rw [Expr.ofJson?, kind, propsRead]
    rfl
  | .targetIn labels, portable, j, spells => by
    rw [Expr.isPortable] at portable
    obtain ⟨members, rfl, spelt, kind⟩ := spells.tagged rfl
    have labelsRead : required Members.counts "labels" members = some labels :=
      spelt.required rfl (by cases labels <;> rfl) fun _ spells => spells.counts portable
    rw [Expr.ofJson?, kind, labelsRead]
    rfl
  | .null, _, j, spells | .undefined, _, j, spells | .this, _, j, spells | .arguments, _, j, spells
  | .isNormal, _, j, spells | .isRestoring, _, j, spells | .capturing, _, j, spells | .reenterNext,
      _, j, spells
  | .newTarget, _, j, spells | .suspend, _, j, spells => by
    obtain ⟨members, rfl, -, kind⟩ := spells.tagged rfl
    rw [Expr.ofJson?, kind]
    rfl

theorem Expr.listReads : (es : List Expr) → Expr.listIsPortable es = true → (items : List Json) →
    List.Forall₂ Json.Spells items (Expr.listToJson es) → Expr.listOfJson? items = some es
  | [], _, _, .nil => by rw [Expr.listOfJson?]
  | e :: rest, portable, _, .cons first others => by
    simp only [Expr.listIsPortable, Bool.and_eq_true] at portable
    rw [Expr.listOfJson?, Expr.reads e portable.1 _ first, Expr.listReads rest portable.2 _ others]
    rfl

theorem Expr.propsRead : (props : List (String × Expr)) → Expr.propsArePortable props = true →
    (items : List Json) → List.Forall₂ Json.Spells items (Expr.propsToJson props) →
    Expr.propsOfJson? items = some props
  | [], _, _, .nil => by rw [Expr.propsOfJson?]
  | (key, e) :: rest, portable, _, .cons first others => by
    simp only [Expr.propsArePortable, Bool.and_eq_true] at portable
    -- a property is a pair of its name and its value
    obtain ⟨pair, rfl, each⟩ := first.items
    cases each with
    | cons name each =>
      cases name.eq_of_isScalar rfl
      cases each with
      | cons value each =>
        cases each
        rw [Expr.propsOfJson?, Expr.reads e portable.1 _ value,
          Expr.propsRead rest portable.2 _ others]
        rfl

theorem Expr.optionReads : (init : Option Expr) → Expr.optionIsPortable init = true →
    ∀ e ∈ init, ∀ j, j.Spells e.toJson → Expr.ofJson? j = some e
  | some e, portable, _, rfl => Expr.reads e portable

theorem Target.reads : (target : Target) → target.isPortable = true → (j : Json) →
    j.Spells target.toJson → Target.ofJson? j = some target
  | .ident name, _, j, spells => by
    obtain ⟨members, rfl, spelt, kind⟩ := spells.tagged rfl
    have nameRead : required Json.str? "name" members = some name := spelt.textAt rfl
    rw [Target.ofJson?, kind, nameRead]
    rfl
  | .member base property, portable, j, spells => by
    rw [Target.isPortable] at portable
    obtain ⟨members, rfl, spelt, kind⟩ := spells.tagged rfl
    have baseRead : Expr.at? "object" members = some base :=
    spelt.exprAt rfl (Expr.reads base portable)
    have propertyRead : required Json.str? "property" members = some property := spelt.textAt rfl
    rw [Target.ofJson?, kind, baseRead, propertyRead]
    rfl
  | .index base key, portable, j, spells => by
    simp only [Target.isPortable, Bool.and_eq_true] at portable
    obtain ⟨members, rfl, spelt, kind⟩ := spells.tagged rfl
    have baseRead : Expr.at? "object" members = some base :=
    spelt.exprAt rfl (Expr.reads base portable.1)
    have keyRead : Expr.at? "index" members = some key :=
    spelt.exprAt rfl (Expr.reads key portable.2)
    rw [Target.ofJson?, kind, baseRead, keyRead]
    rfl

theorem Stmt.reads : (s : Stmt) → (nested : Bool) → s.isPortable = true → (j : Json) →
    j.Spells s.toJson → Stmt.ofJson? nested j = some s
  | .block body, _, portable, j, spells => by
    rw [Stmt.isPortable] at portable
    obtain ⟨members, rfl, spelt, kind⟩ := spells.tagged rfl
    have bodyRead : Stmt.listAt? true "body" members = some body :=
      spelt.bodyAt rfl (Stmt.listReads body true portable)
    rw [Stmt.ofJson?, kind, bodyRead]
    rfl
  | .letS name init, _, portable, j, spells => by
    rw [Stmt.isPortable] at portable
    obtain ⟨members, rfl, spelt, kind⟩ := spells.tagged rfl
    have nameRead : required Json.str? "name" members = some name := spelt.textAt rfl
    have initRead : Expr.optionAt? "init" members = some init :=
      spelt.exprOptionAt rfl (Expr.optionReads init portable)
    rw [Stmt.ofJson?, kind, nameRead, initRead]
    rfl
  | .assign target value, _, portable, j, spells => by
    simp only [Stmt.isPortable, Bool.and_eq_true] at portable
    obtain ⟨members, rfl, spelt, kind⟩ := spells.tagged rfl
    have targetRead : Target.at? "target" members = some target :=
      spelt.targetAt rfl (Target.reads target portable.1)
    have valueRead : Expr.at? "value" members = some value :=
      spelt.exprAt rfl (Expr.reads value portable.2)
    rw [Stmt.ofJson?, kind, targetRead, valueRead]
    rfl
  | .expr e, _, portable, j, spells => by
    rw [Stmt.isPortable] at portable
    obtain ⟨members, rfl, spelt, kind⟩ := spells.tagged rfl
    have eRead : Expr.at? "expr" members = some e := spelt.exprAt rfl (Expr.reads e portable)
    rw [Stmt.ofJson?, kind, eRead]
    rfl
  | .ifS test thenS elseS, _, portable, j, spells => by
    simp only [Stmt.isPortable, Bool.and_eq_true] at portable
    obtain ⟨members, rfl, spelt, kind⟩ := spells.tagged rfl
    have testRead : Expr.at? "test" members = some test :=
      spelt.exprAt rfl (Expr.reads test portable.1.1)
    have thenSRead : Stmt.at? "then_s" members = some thenS :=
      spelt.stmtAt rfl (Stmt.reads thenS true portable.1.2)
    have elseRead : Stmt.optionAt? "else_s" members = some elseS :=
      spelt.stmtOptionAt rfl (Stmt.optionReads elseS portable.2)
    rw [Stmt.ofJson?, kind, testRead, thenSRead, elseRead]
    rfl
  | .whileS test body, _, portable, j, spells => by
    simp only [Stmt.isPortable, Bool.and_eq_true] at portable
    obtain ⟨members, rfl, spelt, kind⟩ := spells.tagged rfl
    have testRead : Expr.at? "test" members = some test :=
      spelt.exprAt rfl (Expr.reads test portable.1)
    have bodyRead : Stmt.at? "body" members = some body :=
      spelt.stmtAt rfl (Stmt.reads body true portable.2)
    rw [Stmt.ofJson?, kind, testRead, bodyRead]
    rfl
  | .labeled label body, _, portable, j, spells => by
    rw [Stmt.isPortable] at portable
    obtain ⟨members, rfl, spelt, kind⟩ := spells.tagged rfl
    have labelRead : required Json.str? "label" members = some label := spelt.textAt rfl
    have bodyRead : Stmt.at? "body" members = some body :=
      spelt.stmtAt rfl (Stmt.reads body true portable)
    rw [Stmt.ofJson?, kind, labelRead, bodyRead]
    rfl
  | .breakS label, _, _, j, spells | .continueS label, _, _, j, spells => by
    obtain ⟨members, rfl, spelt, kind⟩ := spells.tagged rfl
    have labelRead : nullable Json.str? "label" members = some label := spelt.textOptionAt rfl
    rw [Stmt.ofJson?, kind, labelRead]
    rfl
  | .returnS value, _, portable, j, spells => by
    rw [Stmt.isPortable] at portable
    obtain ⟨members, rfl, spelt, kind⟩ := spells.tagged rfl
    have valueRead : Expr.optionAt? "value" members = some value :=
      spelt.exprOptionAt rfl (Expr.optionReads value portable)
    rw [Stmt.ofJson?, kind, valueRead]
    rfl
  | .throwS value, _, portable, j, spells => by
    rw [Stmt.isPortable] at portable
    obtain ⟨members, rfl, spelt, kind⟩ := spells.tagged rfl
    have valueRead : Expr.at? "value" members = some value :=
      spelt.exprAt rfl (Expr.reads value portable)
    rw [Stmt.ofJson?, kind, valueRead]
    rfl
  | .tryS body handler final, _, portable, j, spells => by
    simp only [Stmt.isPortable, Bool.and_eq_true] at portable
    obtain ⟨members, rfl, spelt, kind⟩ := spells.tagged rfl
    have bodyRead : Stmt.at? "body" members = some body :=
      spelt.stmtAt rfl (Stmt.reads body true portable.1.1)
    have handlerRead : Handler.optionAt? "catch" members = some handler :=
      spelt.handlerAt rfl (Handler.optionReads handler portable.1.2)
    have finalRead : Stmt.optionAt? "finally" members = some final :=
      spelt.stmtOptionAt rfl (Stmt.optionReads final portable.2)
    rw [Stmt.ofJson?, kind, bodyRead, handlerRead, finalRead]
    rfl
  | .decl f, _, portable, j, spells => by
    rw [Stmt.isPortable] at portable
    obtain ⟨members, rfl, spelt, kind⟩ := spells.tagged rfl
    have fRead : Func.at? "func" members = some f := spelt.funcAt rfl (Func.reads f true portable)
    rw [Stmt.ofJson?, kind, fRead]
    rfl
  | .recordOnCapture label body, _, portable, j, spells | .shadowFrame label body, _, portable, j,
      spells => by
    simp only [Stmt.isPortable, Bool.and_eq_true] at portable
    obtain ⟨members, rfl, spelt, kind⟩ := spells.tagged rfl
    have labelRead : required Json.count? "label" members = some label :=
      spelt.countAt rfl portable.1
    have bodyRead : Stmt.at? "body" members = some body :=
      spelt.stmtAt rfl (Stmt.reads body true portable.2)
    rw [Stmt.ofJson?, kind, labelRead, bodyRead]
    rfl
  | .returnIfCapturing label, _, portable, j, spells => by
    rw [Stmt.isPortable] at portable
    obtain ⟨members, rfl, spelt, kind⟩ := spells.tagged rfl
    have labelRead : required Json.count? "label" members = some label := spelt.countAt rfl portable
    rw [Stmt.ofJson?, kind, labelRead]
    rfl
  | .rethrowSignal name, _, _, j, spells => by
    obtain ⟨members, rfl, spelt, kind⟩ := spells.tagged rfl
    have nameRead : required Json.str? "name" members = some name := spelt.textAt rfl
    rw [Stmt.ofJson?, kind, nameRead]
    rfl
  | .restoreFrame, _, _, j, spells | .stackDec, _, _, j, spells | .stackInc, _, _, j, spells => by
    obtain ⟨members, rfl, -, kind⟩ := spells.tagged rfl
    rw [Stmt.ofJson?, kind]
    rfl

theorem Stmt.listReads : (body : List Stmt) → (nested : Bool) → Stmt.listIsPortable body = true →
    (items : List Json) → List.Forall₂ Json.Spells items (Stmt.listToJson body) →
    Stmt.listOfJson? nested items = some body
  | [], _, _, _, .nil => by rw [Stmt.listOfJson?]
  | s :: rest, nested, portable, _, .cons first others => by
    simp only [Stmt.listIsPortable, Bool.and_eq_true] at portable
    rw [Stmt.listOfJson?, Stmt.reads s nested portable.1 _ first,
      Stmt.listReads rest nested portable.2 _ others]
    rfl

theorem Stmt.optionReads : (part : Option Stmt) → Stmt.optionIsPortable part = true →
    ∀ s ∈ part, ∀ j, j.Spells s.toJson → Stmt.ofJson? true j = some s
  | some s, portable, _, rfl => Stmt.reads s true portable

theorem Handler.optionReads : (handler : Option Handler) → Handler.optionIsPortable handler = true →
    ∀ h ∈ handler, ∀ j, j.Spells h.body.toJson → Stmt.ofJson? true j = some h.body
  | some ⟨_, body⟩, portable, _, rfl => Stmt.reads body true portable

theorem Func.reads : (f : Func) → (nested : Bool) → f.isPortable = true → (j : Json) →
    j.Spells f.toJson → Func.ofJson? nested j = some f
  | ⟨name, params, body, frame, site⟩, nested, portable, j, spells => by
    simp only [Func.isPortable, Bool.and_eq_true, beq_iff_eq] at portable
    obtain ⟨members, rfl, spelt⟩ := spells.members
    have nameRead : nullable Json.str? "name" members = some name :=
      spelt.textOptionAt (by cases frame <;> rfl)
    have paramsRead : defaulted Members.texts [] "params" members = some params := by
      refine spelt.defaulted (by cases frame <;> rfl) (fun isDefault => ?_) fun _ spells =>
        spells.texts
      cases params with
      | nil => rfl
      | cons => cases isDefault
    have bodyRead : Stmt.listAt? nested "body" members = some body :=
      spelt.bodyAt (by cases frame <;> rfl) (Stmt.listReads body nested portable.1)
    have frameRead : nullable (Layout.ofJson? nested) "frame" members = some frame := by
      refine spelt.frameAt (fun absent => ?_) fun layout present => ?_
      · rw [absent]
        rfl
      · cases present
        rfl
    rw [Func.ofJson?, nameRead, paramsRead, bodyRead, frameRead, portable.2]
    rfl

end

/-! ## What is left out -/

def Json.isNull : Json → Bool
  | .null => true
  | _ => false

mutual

/-- No member that is left out when it is absent is written as `null`. -/
def Json.isTidy : Json → Bool
  | .arr items => Json.listIsTidy items
  | .obj members => Json.membersAreTidy members
  | .null | .bool _ | .int _ | .real _ | .str _ => true

def Json.listIsTidy : List Json → Bool
  | [] => true
  | value :: rest => value.isTidy && Json.listIsTidy rest

def Json.membersAreTidy : List (String × Json) → Bool
  | [] => true
  | (name, value) :: rest =>
    !(value.isNull && Json.omitted.contains name) && value.isTidy && Json.membersAreTidy rest

end

section Tidy

attribute [local simp] Json.isTidy Json.listIsTidy Json.membersAreTidy Json.omitted Json.tagged
  Expr.toJson Expr.listToJson Expr.propsToJson Expr.optionToJson Target.toJson Stmt.toJson
  Stmt.listToJson Stmt.optionToJson
  Handler.optionToJson Func.toJson

theorem Json.listIsTidy_map {α : Type} {write : α → Json} (tidy : ∀ a, (write a).isTidy = true)
    (values : List α) : Json.listIsTidy (values.map write) = true := by
  induction values with
  | nil => rfl
  | cons a rest ih => simp [tidy a, ih]

theorem Json.strs_isTidy (texts : List String) : (Json.strs texts).isTidy = true :=
  Json.listIsTidy_map (fun _ => rfl) texts

theorem Layout.toJson_isNull (layout : Layout) : layout.toJson.isNull = false :=
  rfl

theorem Layout.toJson_isTidy (layout : Layout) : layout.toJson.isTidy = true := by
  have reentryTidy : layout.reentry.toJson.isTidy = true := by cases layout.reentry <;> rfl
  simp [Layout.toJson, Json.strs_isTidy, reentryTidy]

mutual

theorem Expr.toJson_isTidy : (e : Expr) → e.toJson.isTidy = true
  | .num v => by
    rw [Expr.toJson, Json.ofFloat]
    split <;> rfl
  | .binary _ left right => by simp [left.toJson_isTidy, right.toJson_isTidy]
  | .unary _ arg => by simp [arg.toJson_isTidy]
  | .cond test thenE elseE => by simp [test.toJson_isTidy, thenE.toJson_isTidy, elseE.toJson_isTidy]
  | .member base _ => by simp [base.toJson_isTidy]
  | .index base key => by simp [base.toJson_isTidy, key.toJson_isTidy]
  | .call callee args | .new callee args | .handleNew callee args => by
    simp [callee.toJson_isTidy, Expr.listToJson_isTidy args]
  | .func f => by simp [f.toJson_isTidy]
  | .array elements => by simp [Expr.listToJson_isTidy elements]
  | .object props => by simp [Expr.propsToJson_isTidy props]
  | .targetIn labels => by
    have labelsTidy : Json.listIsTidy (labels.map .count) = true := Json.listIsTidy_map (fun _ =>
      rfl) labels
    simp [labelsTidy]
  | .str _ | .bool _ | .null | .undefined | .ident _ | .this | .arguments | .isNormal | .isRestoring
  | .capturing | .reenterNext | .newTarget | .suspend => rfl

theorem Expr.listToJson_isTidy : (es : List Expr) → Json.listIsTidy (Expr.listToJson es) = true
  | [] => rfl
  | e :: rest => by simp [e.toJson_isTidy, Expr.listToJson_isTidy rest]

theorem Expr.propsToJson_isTidy : (props : List (String × Expr)) →
    Json.listIsTidy (Expr.propsToJson props) = true
  | [] => rfl
  | (_, e) :: rest => by simp [e.toJson_isTidy, Expr.propsToJson_isTidy rest]

theorem Expr.optionToJson_isTidy : (init : Option Expr) → (Expr.optionToJson init).isTidy = true
  | none => rfl
  | some e => e.toJson_isTidy

theorem Target.toJson_isTidy : (target : Target) → target.toJson.isTidy = true
  | .ident _ => rfl
  | .member base _ => by simp [base.toJson_isTidy]
  | .index base key => by simp [base.toJson_isTidy, key.toJson_isTidy]

theorem Stmt.toJson_isTidy : (s : Stmt) → s.toJson.isTidy = true
  | .block body => by simp [Stmt.listToJson_isTidy body]
  | .letS _ init => by simp [Expr.optionToJson_isTidy init]
  | .assign target value => by simp [target.toJson_isTidy, value.toJson_isTidy]
  | .expr e | .throwS e => by simp [e.toJson_isTidy]
  | .ifS test thenS elseS => by
    simp [test.toJson_isTidy, thenS.toJson_isTidy, Stmt.optionToJson_isTidy elseS]
  | .whileS test body => by simp [test.toJson_isTidy, body.toJson_isTidy]
  | .labeled _ body | .recordOnCapture _ body | .shadowFrame _ body =>
    by simp [Json.count, body.toJson_isTidy]
  | .returnS value => by simp [Expr.optionToJson_isTidy value]
  | .tryS body handler final => by
    simp [body.toJson_isTidy, Handler.optionToJson_isTidy handler, Stmt.optionToJson_isTidy final]
  | .decl f => by simp [f.toJson_isTidy]
  | .breakS label | .continueS label => by cases label <;> rfl
  | .returnIfCapturing _ | .restoreFrame | .stackDec | .stackInc | .rethrowSignal _ => rfl

theorem Stmt.listToJson_isTidy : (body : List Stmt) → Json.listIsTidy (Stmt.listToJson body) = true
  | [] => rfl
  | s :: rest => by simp [s.toJson_isTidy, Stmt.listToJson_isTidy rest]

theorem Stmt.optionToJson_isTidy : (part : Option Stmt) → (Stmt.optionToJson part).isTidy = true
  | none => rfl
  | some s => s.toJson_isTidy

theorem Handler.optionToJson_isTidy : (handler : Option Handler) →
    (Handler.optionToJson handler).isTidy = true
  | none => rfl
  | some ⟨_, body⟩ => by simp [body.toJson_isTidy]

theorem Func.toJson_isTidy : (f : Func) → f.toJson.isTidy = true
  | ⟨name, params, body, frame, _⟩ => by
    have nameTidy : (Json.ofOption Json.str name).isTidy = true := by cases name <;> rfl
    cases frame with
    | none => simp [Json.optional, Json.strs_isTidy, Stmt.listToJson_isTidy body, nameTidy]
    | some layout =>
      simp [Json.optional, Json.strs_isTidy, Stmt.listToJson_isTidy body, nameTidy,
        layout.toJson_isTidy, layout.toJson_isNull]

end

theorem Instrumentation.toJson_isTidy (header : Instrumentation) : header.toJson.isTidy = true := by
  obtain ⟨strategy, construction, fidelity, yieldInterval, frame⟩ := header
  cases yieldInterval with
  | none => simp [Instrumentation.toJson, Json.optional, frame.toJson_isTidy, frame.toJson_isNull]
  | some n =>
    have present : (Json.int n).isNull = false := rfl
    simp [Instrumentation.toJson, Json.optional, Json.count, present, frame.toJson_isTidy,
      frame.toJson_isNull]

theorem Program.toJson_isTidy (p : Program) : p.toJson.isTidy = true := by
  obtain ⟨body, instrumented⟩ := p
  cases instrumented with
  | none => simp [Program.toJson, Json.optional, Stmt.listToJson_isTidy body]
  | some header =>
    have present : header.toJson.isNull = false := rfl
    simp [Program.toJson, Json.optional, Stmt.listToJson_isTidy body, header.toJson_isTidy, present]

end Tidy

/-! ## Programs -/

/-- A choice is written as its name. -/
theorem Members.Spelt.choiceAt {α : Type} {ofName : String → Except CompileError α}
    {written members : List (String × Json)} {name text : String} {choice : α}
    (spelt : Spelt written members)
    (only : only? name written = some (.str text)) (named : ofName text = .ok choice) :
    Members.required (Members.named ofName) name members = some choice :=
  spelt.required only rfl fun j spells => by
    cases spells.eq_of_isScalar rfl
    rw [Members.named]
    simp [Json.str?, named, Except.toOption]

theorem Instrumentation.reads (header : Instrumentation)
    (small : header.yieldInterval.all isCount = true) (j : Json) (spells : j.Spells header.toJson) :
    Instrumentation.ofJson? j = some header := by
  obtain ⟨strategy, construction, fidelity, yieldInterval, frame⟩ := header
  obtain ⟨members, rfl, spelt⟩ := spells.members
  have strategyRead : required (Members.named Strategy.ofName) "strategy" members = some strategy :=
    spelt.choiceAt (by cases yieldInterval <;> rfl) strategy.ofName_name
  have constructionRead : required (Members.named Construction.ofName) "new_method" members =
      some construction :=
    spelt.choiceAt (by cases yieldInterval <;> rfl) construction.ofName_name
  have fidelityRead : required (Members.named Fidelity.ofName) "js_args" members = some fidelity :=
    spelt.choiceAt (by cases yieldInterval <;> rfl) fidelity.ofName_name
  have intervalRead : nullable Json.count? "yield_interval" members = some yieldInterval := by
    refine spelt.optional .count (by decide) (fun absent => ?_) (fun n present => ?_)
      (fun _ _ => rfl) fun n present _ spelling => ?_
    · rw [absent]
      rfl
    · cases present
      rfl
    · cases present
      exact spelling.count small
  have frameRead : required (Layout.ofJson? false) "frame" members = some frame :=
    spelt.required (by cases yieldInterval <;> rfl) rfl (frame.reads false)
  rw [Instrumentation.ofJson?, strategyRead, constructionRead, fidelityRead, intervalRead,
    frameRead]
  rfl

/-- Every spelling of a written program is read as that program. -/
theorem Program.reads_spellings (p : Program) (portable : p.isPortable = true) (j : Json)
    (spells : j.Spells p.toJson) : Program.ofJson? j = some p := by
  obtain ⟨body, instrumented⟩ := p
  simp only [Program.isPortable, Bool.and_eq_true] at portable
  obtain ⟨members, rfl, spelt⟩ := spells.members
  have bodyRead : Stmt.listAt? false "body" members = some body :=
    spelt.bodyAt (by cases instrumented <;> rfl) (Stmt.listReads body false portable.1)
  have headerRead : nullable Instrumentation.ofJson? "instrumented" members =
      some instrumented := by
    refine spelt.optional Instrumentation.toJson (by decide) (fun absent => ?_)
      (fun header present => ?_) (fun _ _ => rfl) fun header present => ?_
    · rw [absent]
      rfl
    · cases present
      rfl
    · cases present
      exact header.reads portable.2
  rw [Program.ofJson?, bodyRead, headerRead]
  rfl

/-- **A written program is read back.**  Reading gives the program that was written, from what was
written and from every other spelling of it; what is absent is left out; and so the program runs as
it would have run. -/
theorem Program.written_reads_back (p : Program) (portable : p.isPortable = true) :
    Program.ofJson? p.toJson = some p ∧ (∀ j, j.Spells p.toJson → Program.ofJson? j = some p) ∧
      p.toJson.isTidy = true ∧
      ∀ (bound site : Nat) (m : Machine),
        ((Program.ofJson? p.toJson).bind fun q => m.runProgram bound (q.number site).1) =
          m.runProgram bound (p.number site).1 := by
  have back : Program.ofJson? p.toJson = some p := p.reads_spellings portable p.toJson (.same _)
  refine ⟨back, p.reads_spellings portable, p.toJson_isTidy, fun bound site m => ?_⟩
  rw [back]
  rfl

/-- A program that declares a variable. -/
def Program.oneLet : Program :=
  { body := [.letS "x" none] }

/-- That program with its members in another order, a header of `null`, and without the initial
value. -/
def Json.abridgedLet : Json :=
  .obj [("instrumented", .null), ("body", .arr [.obj [("name", .str "x"), ("t", .str "Let")]])]

theorem Members.mem_of_only? {name : String} {members : List (String × Json)} {value : Json}
    (only : only? name members = some value) : (name, value) ∈ members := by
  induction members with
  | nil => cases only
  | cons member rest ih =>
    rw [only?] at only
    split at only
    · rename_i same
      split at only
      · cases only
        exact same ▸ List.mem_cons_self
      · cases only
    · exact List.mem_cons_of_mem _ (ih only)

theorem Json.abridgedLet_spells : Json.abridgedLet.Spells Program.oneLet.toJson := by
  have statement : (Json.obj [("name", .str "x"), ("t", .str "Let")]).Spells
      (.tagged "Let" [("name", .str "x"), ("init", .null)]) := by
    refine @Json.Spells.obj _ _
      (fun name => if name = "t" then .str "Let" else if name = "name" then .str "x" else .null)
      (fun name value only => ?_) (fun name value only => ?_) fun name mem _ => ?_
    · have mem := Members.mem_of_only? only
      simp only [List.mem_cons, Prod.mk.injEq, List.not_mem_nil, or_false] at mem
      rcases mem with ⟨rfl, rfl⟩ | ⟨rfl, rfl⟩ | ⟨rfl, rfl⟩ <;> exact .same _
    · have mem := Members.mem_of_only? only
      simp only [List.mem_cons, Prod.mk.injEq, List.not_mem_nil, or_false] at mem
      rcases mem with ⟨rfl, rfl⟩ | ⟨rfl, rfl⟩ | ⟨rfl, rfl⟩
      · exact .inl rfl
      · exact .inl rfl
      · exact .inr ⟨rfl, rfl⟩
    · left
      simp only [Json.omitted, List.mem_cons, List.not_mem_nil, or_false] at mem
      rcases mem with rfl | rfl | rfl <;> rfl
  refine @Json.Spells.obj _ [("body", _)] (fun _ =>
    .arr [.obj [("name", .str "x"), ("t", .str "Let")]]) (fun name value only => ?_)
    (fun name value only => ?_) fun name mem _ => ?_
  · cases List.mem_singleton.mp (Members.mem_of_only? only)
    exact .arr (.cons statement .nil)
  · cases List.mem_singleton.mp (Members.mem_of_only? only)
    exact .inl rfl
  · simp only [Json.omitted, List.mem_cons, List.not_mem_nil, or_false] at mem
    rcases mem with rfl | rfl | rfl
    · exact .inr rfl
    · exact .inl rfl
    · exact .inl rfl

/-- A compiled program with a header, layouts and an interval is read back, and a program from
another spelling. -/
theorem Program.oneCall_reads_back :
    (∃ compiled, Program.oneCall.compile { yieldInterval := some 1 } = .ok compiled ∧
      compiled.isPortable = true ∧ compiled.instrumented.isSome = true ∧
      Program.ofJson? compiled.toJson = some compiled ∧
      ∀ (bound site : Nat) (m : Machine),
        ((Program.ofJson? compiled.toJson).bind fun q => m.runProgram bound (q.number site).1) =
          m.runProgram bound (compiled.number site).1) ∧
      Json.abridgedLet.Spells Program.oneLet.toJson ∧ Program.ofJson? Json.abridgedLet =
          some Program.oneLet := by
  refine ⟨?_, Json.abridgedLet_spells, ?_⟩
  · have evaluated : ((Program.oneCall.compile { yieldInterval := some 1 }).toOption.map
        fun compiled => compiled.isPortable && compiled.instrumented.isSome) = some true := by
          decide +kernel
    obtain ⟨compiled, ok, run⟩ := Option.map_eq_some_iff.mp evaluated
    rw [Bool.and_eq_true] at run
    obtain ⟨back, -, -, runs⟩ := compiled.written_reads_back run.1
    exact ⟨compiled, Program.compile_of_toOption ok, run.1, run.2, back, runs⟩
  · exact (Program.oneLet.written_reads_back (by decide)).2.1 _ Json.abridgedLet_spells

end Resumable
