import Resumable.Proofs.Code

/-!
The grammar of the normal form.

The rules of the checker look at the parts of a program one at a time, and each of them by itself.
Here the normal form is one grammar: atoms, simple expressions, applications, statements and
functions.  It says of every name that is defined that it is not reserved, and leaves open, in
`use`, which names may be read or assigned.

The checker accepts exactly the programs of the grammar in which no reserved name is used either
(`NormalForm.hasErrors_eq_false_iff`).  Without the last condition it is stricter than the grammar
(`NormalForm.reserved_read_refused`).  What instrumentation relies on, the grammar `Stmt.Sound`,
follows from the normal form (`Program.sound_of_accepted`).
-/

namespace Resumable

variable {f : Func} {name : String} {e test base callee value : Expr} {scope : List String}
  {args : List Expr} {s body : Stmt}

/-- Names that begin with a dollar sign belong to instrumentation. -/
def Reserved (name : String) : Prop :=
  name.startsWith "$" = true

/-! ## The grammar -/

section Grammar

variable (use : String → Prop) (code : Func → Prop)

/-- Names, literals and functions. -/
inductive Expr.Atom : Expr → Prop
  | num {value : Float} : Expr.Atom (.num value)
  | str {value : String} : Expr.Atom (.str value)
  | bool {value : Bool} : Expr.Atom (.bool value)
  | null : Expr.Atom .null
  | undefined : Expr.Atom .undefined
  | ident {name : String} : use name → Expr.Atom (.ident name)
  | this : Expr.Atom .this
  | arguments : Expr.Atom .arguments
  | func {f : Func} : code f → Expr.Atom (.func f)

/-- Atoms, and one operation on atoms that is no application. -/
inductive Expr.Simple : Expr → Prop
  | atom {e : Expr} : e.Atom use code → Expr.Simple e
  | binary {op : BinaryOp} {left right : Expr} :
      left.Atom use code → right.Atom use code → Expr.Simple (.binary op left right)
  | unary {op : UnaryOp} {arg : Expr} : arg.Atom use code → Expr.Simple (.unary op arg)
  | cond {test thenE elseE : Expr} :
      test.Atom use code → thenE.Atom use code → elseE.Atom use code →
      Expr.Simple (.cond test thenE elseE)
  | member {base : Expr} {property : String} :
      base.Atom use code → Expr.Simple (.member base property)
  | index {base key : Expr} :
      base.Atom use code → key.Atom use code → Expr.Simple (.index base key)
  | array {elements : List Expr} :
      (∀ e ∈ elements, e.Atom use code) → Expr.Simple (.array elements)
  | object {props : List (String × Expr)} :
      (∀ p ∈ props, p.2.Atom use code) → Expr.Simple (.object props)

/-- What a statement may have as its value: a simple expression, or an application.  That is a call
of a function or of a method, or a construction, with atomic arguments. -/
inductive Expr.Whole : Expr → Prop
  | simple {e : Expr} : e.Simple use code → Expr.Whole e
  | call {callee : Expr} {args : List Expr} :
      callee.Atom use code → (∀ e ∈ args, e.Atom use code) → Expr.Whole (.call callee args)
  | method {base : Expr} {property : String} {args : List Expr} :
      base.Atom use code → (∀ e ∈ args, e.Atom use code) →
      Expr.Whole (.call (.member base property) args)
  | new {callee : Expr} {args : List Expr} :
      callee.Atom use code → (∀ e ∈ args, e.Atom use code) → Expr.Whole (.new callee args)

inductive Target.Normal : Target → Prop
  | ident {name : String} : use name → Target.Normal (.ident name)
  | member {base : Expr} {property : String} :
      base.Atom use code → Target.Normal (.member base property)
  | index {base key : Expr} :
      base.Atom use code → key.Atom use code → Target.Normal (.index base key)

/-- Statements in normal form.  A loop is none by itself, only together with its label. -/
inductive Stmt.Normal : Stmt → Prop
  | block {body : List Stmt} : (∀ s ∈ body, Stmt.Normal s) → Stmt.Normal (.block body)
  | letS {name : String} {init : Option Expr} :
      ¬ Reserved name → (∀ e ∈ init, e.Whole use code) → Stmt.Normal (.letS name init)
  | assign {target : Target} {value : Expr} :
      target.Normal use code → value.Whole use code → Stmt.Normal (.assign target value)
  | expr {e : Expr} : e.Whole use code → Stmt.Normal (.expr e)
  | ifS {test : Expr} {thenS : Stmt} {elseS : Option Stmt} :
      test.Simple use code → Stmt.Normal thenS → (∀ s ∈ elseS, Stmt.Normal s) →
      Stmt.Normal (.ifS test thenS elseS)
  | loop {label : String} {test : Expr} {body : Stmt} :
      ¬ Reserved label → test.Simple use code → Stmt.Normal body →
      Stmt.Normal (.labeled label (.whileS test body))
  | labeled {label : String} {body : Stmt} :
      ¬ Reserved label → Stmt.Normal body → Stmt.Normal (.labeled label body)
  | breakS {label : Option String} : Stmt.Normal (.breakS label)
  | returnS {value : Option Expr} :
      (∀ e ∈ value, e.Whole use code) → Stmt.Normal (.returnS value)
  | throwS {value : Expr} : value.Simple use code → Stmt.Normal (.throwS value)
  | tryS {body : Stmt} {handler : Option Handler} {final : Option Stmt} :
      Stmt.Normal body → (∀ h ∈ handler, ¬ Reserved h.param) →
      (∀ h ∈ handler, Stmt.Normal h.body) → (∀ s ∈ final, Stmt.Normal s) →
      Stmt.Normal (.tryS body handler final)
  | decl {f : Func} : code f → Stmt.Normal (.decl f)

end Grammar

/-- Functions in normal form, with all functions inside of them. -/
inductive Func.Normal (use : String → Prop) : Func → Prop
  | intro {f : Func} :
      f.frame = none → (∀ name ∈ f.name, ¬ Reserved name) →
      (∀ name ∈ f.params, ¬ Reserved name) →
      (∀ s ∈ f.body, Stmt.Normal use (Func.Normal use) s) → Func.Normal use f

/-- Programs in normal form: not instrumented yet, with a body in the grammar. -/
def Program.Normal (use : String → Prop) (p : Program) : Prop :=
  p.instrumented = none ∧ ∀ s ∈ p.body, s.Normal use (Func.Normal use)

/-! ## Parts without errors -/

theorem Expr.anyApplication_eq_false_iff {es : List Expr} :
    Expr.anyApplication es = false ↔ ∀ e ∈ es, e.containsApplication = false := by
  induction es with
  | nil => simp [Expr.anyApplication]
  | cons e rest ih => simp [Expr.anyApplication, ih]

theorem Expr.anyPropApplication_eq_false_iff {props : List (String × Expr)} :
    Expr.anyPropApplication props = false ↔ ∀ p ∈ props, p.2.containsApplication = false := by
  induction props with
  | nil => simp [Expr.anyPropApplication]
  | cons p rest ih => simp [Expr.anyPropApplication, ih]

namespace NormalForm

/-- No rule finds an error here. -/
def Node.Clean (node : Node) : Prop :=
  ∀ (rule : Rule) (cause : Cause), cause ∈ rule.check node → cause.isError = false

/-- A list of visits without errors. -/
abbrev CleanVisits (visits : List Visit) : Prop :=
  ∀ v ∈ visits, v.node.Clean

theorem cleanVisits_cons {v : Visit} {rest : List Visit} :
    CleanVisits (v :: rest) ↔ v.node.Clean ∧ CleanVisits rest :=
  List.forall_mem_cons

theorem cleanVisits_append {first rest : List Visit} :
    CleanVisits (first ++ rest) ↔ CleanVisits first ∧ CleanVisits rest :=
  List.forall_mem_append

theorem mem_all (rule : Rule) : rule ∈ Rule.all := by
  cases rule <;> simp [Rule.all]

theorem clean_of_errors_eq_nil {p : Program} (accepted : errors p = []) :
    p.instrumented = none ∧ CleanVisits (visits p) := by
  have noError : ∀ v ∈ violations p, v.cause.isError = false := by
    intro v mem
    have := List.filter_eq_nil_iff.mp accepted v mem
    simpa using this
  constructor
  · cases header : p.instrumented with
    | none => rfl
    | some _ =>
      have mem : (⟨.program, .alreadyInstrumented⟩ : Violation) ∈ violations p := by
        refine List.mem_flatMap.mpr ⟨.reserved, mem_all _, ?_⟩
        exact List.mem_append_left _ (by simp [Rule.checkHeader, header])
      cases noError _ mem
  · intro v mem rule cause found
    refine noError ⟨v.location, cause⟩ (List.mem_flatMap.mpr ⟨rule, mem_all _, ?_⟩)
    refine List.mem_append_right _ (List.mem_flatMap.mpr ⟨v, mem, ?_⟩)
    exact List.mem_map.mpr ⟨cause, found, rfl⟩

theorem checkForeign_eq_true {b : Bool} (h : ∀ c ∈ checkForeign b, Cause.isError c = false) :
    b = false := by
  cases b with
  | false => rfl
  | true => cases h .instrumentationNode (by simp [checkForeign])

theorem Node.Clean.expr_plain {e : Expr} (clean : (Node.expr e).Clean) :
    e.isInstrumentation = false := by
  apply checkForeign_eq_true
  intro c mem
  exact clean .reserved c (List.mem_append_left _ mem)

theorem Node.Clean.stmt_plain {s : Stmt} {isLabeled : Bool}
    (clean : (Node.stmt s isLabeled).Clean) : s.isInstrumentation = false := by
  apply checkForeign_eq_true
  intro c mem
  exact clean .reserved c (List.mem_append_left _ mem)

/-! ## One part -/

/-- There is no error among these causes. -/
def Calm (causes : List Cause) : Prop :=
  ∀ cause ∈ causes, cause.isError = false

@[simp]
theorem calm_nil : Calm [] :=
  nofun

@[simp]
theorem calm_singleton {cause : Cause} : Calm [cause] ↔ cause.isError = false := by
  simp [Calm]

@[simp]
theorem calm_append {first rest : List Cause} : Calm (first ++ rest) ↔ Calm first ∧ Calm rest :=
  List.forall_mem_append

@[simp]
theorem calm_flatMap {f : α → List Cause} {as : List α} :
    Calm (as.flatMap f) ↔ ∀ a ∈ as, Calm (f a) := by
  simp only [Calm, List.mem_flatMap]
  exact ⟨fun h a mem c found => h c ⟨a, mem, found⟩, fun h c ⟨a, mem, found⟩ => h a mem c found⟩

@[simp]
theorem calm_ite {p : Prop} [Decidable p] {cause : Cause} :
    Calm (if p then [cause] else []) ↔ (p → cause.isError = false) := by
  by_cases h : p <;> simp [h]

@[simp]
theorem calm_checkName : Calm (checkName name) ↔ ¬ Reserved name := by
  simp [checkName, Reserved, Cause.isError]

@[simp]
theorem calm_checkForeign {b : Bool} : Calm (checkForeign b) ↔ b = false := by
  simp [checkForeign, Cause.isError]

@[simp]
theorem calm_checkNested {place : Place} : Calm (checkNested place e) ↔ e.containsApplication =
    false := by
  simp [checkNested, Cause.isError]

@[simp]
theorem calm_checkAtomic {role : Role} : Calm (checkAtomic role e) ↔ e.isAtomic = true := by
  by_cases atomic : e.isAtomic = true <;> simp [checkAtomic, atomic, Cause.isError]

/-- A part is clean if each of the four rules is calm there. -/
theorem Node.clean_iff {node : Node} :
    node.Clean ↔ Calm (checkReserved node) ∧ Calm (checkCallPosition node) ∧
      Calm (checkOperands node) ∧ Calm (checkLoop node) := by
  constructor
  · intro clean
    exact ⟨clean .reserved, clean .callPosition, clean .atomicOperands, clean .canonicalLoop⟩
  · rintro ⟨reserved, position, operands, loops⟩ rule
    cases rule with
    | reserved => exact reserved
    | callPosition => exact position
    | atomicOperands => exact operands
    | canonicalLoop => exact loops

/-- The checker finds no error exactly if the header is empty and all parts are clean. -/
theorem hasErrors_eq_false_iff_clean {p : Program} :
    hasErrors p = false ↔ p.instrumented = none ∧ CleanVisits (visits p) := by
  constructor
  · intro accepted
    refine clean_of_errors_eq_nil (List.filter_eq_nil_iff.mpr fun v mem => ?_)
    simpa using List.any_eq_false.mp accepted v mem
  · rintro ⟨header, clean⟩
    refine List.any_eq_false.mpr fun v mem => ?_
    obtain ⟨rule, -, mem⟩ := List.mem_flatMap.mp mem
    rw [Rule.violations, Rule.checkHeader, header] at mem
    simp only [Option.isSome_none, Bool.false_eq_true, and_false, ite_false, List.nil_append,
      List.mem_flatMap, List.mem_map] at mem
    obtain ⟨visit, visited, cause, found, rfl⟩ := mem
    simpa using clean visit visited rule cause found

end NormalForm

open NormalForm

/-- The names that may be used in a program that is accepted. -/
def Unreserved (name : String) : Prop :=
  ¬ Reserved name

/-- The functions of a program that is accepted. -/
abbrev NormalCode : Func → Prop :=
  Func.Normal Unreserved

/-! ## Expressions -/

section Expressions

variable {use : String → Prop} {code : Func → Prop} {e : Expr}

theorem Expr.Atom.isAtomic (atom : e.Atom use code) : e.isAtomic = true := by
  cases atom <;> rfl

theorem Expr.Simple.not_application (simple : e.Simple use code) : e.isApplication = false := by
  cases simple with
  | atom atom => cases atom <;> rfl
  | _ => rfl

theorem Expr.Whole.not_foreign (whole : e.Whole use code) : e.isInstrumentation = false := by
  cases whole with
  | simple simple =>
    cases simple with
    | atom atom => cases atom <;> rfl
    | _ => rfl
  | _ => rfl

theorem Expr.Simple.atom_of_isAtomic (simple : e.Simple use code) (atomic : e.isAtomic = true) :
    e.Atom use code := by
  cases simple with
  | atom atom => exact atom
  | _ => cases atomic

theorem Expr.Whole.simple_of_not_application (whole : e.Whole use code)
    (notApp : e.isApplication = false) : e.Simple use code := by
  cases whole with
  | simple simple => exact simple
  | _ => cases notApp

/-- An atom holds no application. -/
theorem Expr.containsApplication_of_isAtomic (atomic : e.isAtomic = true) :
    e.containsApplication = false := by
  cases e <;> first | rfl | cases atomic

theorem NormalForm.checkWhole_of_not_application (notApp : e.isApplication = false) :
    checkWhole e = checkNested .expression e := by
  cases e <;> first | rfl | cases notApp

end Expressions

/-- An atom with no name that is reserved. -/
abbrev Expr.IsAtom (e : Expr) : Prop :=
  e.Atom Unreserved NormalCode

abbrev Expr.IsSimple (e : Expr) : Prop :=
  e.Simple Unreserved NormalCode

abbrev Expr.IsWhole (e : Expr) : Prop :=
  e.Whole Unreserved NormalCode

abbrev Stmt.IsNormal (s : Stmt) : Prop :=
  s.Normal Unreserved NormalCode

/-- The checker and the grammar agree on an expression, in each kind of place. -/
structure Expr.Agrees (e : Expr) : Prop where
  atom (scope : List String) (here : Location) :
    e.isAtomic = true ∧ CleanVisits (visitExpr scope here e) ↔ e.IsAtom
  simple (scope : List String) (here : Location) :
    e.containsApplication = false ∧ CleanVisits (visitExpr scope here e) ↔ e.IsSimple
  whole (scope : List String) (here : Location) :
    Calm (checkWhole e) ∧ CleanVisits (visitExpr scope here e) ↔ e.IsWhole

namespace Expr.Agrees

/-- Where no application is concerned, a whole value is a simple one. -/
theorem ofSimple (notApp : e.isApplication = false)
    (atom : ∀ scope here, e.isAtomic = true ∧ CleanVisits (visitExpr scope here e) ↔ e.IsAtom)
    (simple : ∀ scope here, e.containsApplication = false ∧ CleanVisits (visitExpr scope here e) ↔
      e.IsSimple) : e.Agrees where
  atom := atom
  simple := simple
  whole scope here := by
    rw [checkWhole_of_not_application notApp, calm_checkNested, simple scope here]
    exact ⟨.simple, fun whole => whole.simple_of_not_application notApp⟩

theorem ofAtomic (atomic : e.isAtomic = true)
    (clean : ∀ scope here, CleanVisits (visitExpr scope here e) ↔ e.IsAtom) : e.Agrees := by
  have calm := Expr.containsApplication_of_isAtomic atomic
  have notApp : e.isApplication = false := by
    cases e <;> first | rfl | cases atomic
  refine ofSimple notApp (fun scope here => ?_) fun scope here => ?_
  · rw [clean scope here]
    exact ⟨And.right, fun atom => ⟨atomic, atom⟩⟩
  · rw [clean scope here]
    exact ⟨fun h => .atom h.2, fun simple => ⟨calm, simple.atom_of_isAtomic atomic⟩⟩

theorem ofOperation (notApp : e.isApplication = false) (notAtomic : e.isAtomic = false)
    (simple : ∀ scope here, e.containsApplication = false ∧ CleanVisits (visitExpr scope here e) ↔
      e.IsSimple) : e.Agrees := by
  refine ofSimple notApp (fun scope here => ?_) simple
  rw [notAtomic]
  exact ⟨fun h => (nomatch h.1), fun atom => (nomatch notAtomic.symm.trans atom.isAtomic)⟩

/-- What only instrumentation writes is neither clean nor in the grammar. -/
theorem ofForeign (foreign : e.isInstrumentation = true) : e.Agrees := by
  have unclean : ∀ scope here, ¬ CleanVisits (visitExpr scope here e) := by
    intro scope here clean
    unfold visitExpr at clean
    cases foreign.symm.trans (clean _ List.mem_cons_self).expr_plain
  have none : ¬ e.IsWhole := fun whole =>
    nomatch foreign.symm.trans whole.not_foreign
  refine ⟨fun scope here => ?_, fun scope here => ?_, fun scope here => ?_⟩
  · exact ⟨fun h => (unclean scope here h.2).elim, fun atom => (none (.simple (.atom atom))).elim⟩
  · exact ⟨fun h => (unclean scope here h.2).elim, fun simple => (none (.simple simple)).elim⟩
  · exact ⟨fun h => (unclean scope here h.2).elim, fun whole => (none whole).elim⟩

/-- An operation on operands that agree. -/
theorem ofOperands (operands : List Expr) (notApp : e.isApplication = false)
    (notAtomic : e.isAtomic = false) (visits : ∀ scope here, CleanVisits (visitExpr scope here e) ↔
      (∀ o ∈ operands, o.isAtomic = true) ∧ ∀ o ∈ operands, CleanVisits (visitExpr scope here o))
    (calm : (∀ o ∈ operands, o.containsApplication = false) → e.containsApplication = false)
    (grammar : e.IsSimple ↔ ∀ o ∈ operands, o.IsAtom)
    (agree : ∀ o ∈ operands, o.Agrees) : e.Agrees := by
  refine ofOperation notApp notAtomic fun scope here => ?_
  rw [grammar, visits scope here]
  constructor
  · intro h o mem
    exact ((agree o mem).atom scope here).mp ⟨h.2.1 o mem, h.2.2 o mem⟩
  · intro atoms
    refine ⟨calm fun o mem => ?_, fun o mem => ?_, fun o mem => ?_⟩
    · exact Expr.containsApplication_of_isAtomic (atoms o mem).isAtomic
    · exact (atoms o mem).isAtomic
    · exact (((agree o mem).atom scope here).mpr (atoms o mem)).2

end Expr.Agrees

theorem NormalForm.cleanVisits_exprs_iff {here : Location} {es : List Expr} :
    CleanVisits (visitExprs scope here es) ↔ ∀ e ∈ es, CleanVisits (visitExpr scope here e) := by
  induction es with
  | nil => simp [visitExprs, CleanVisits]
  | cons e rest ih => simp [visitExprs, cleanVisits_append, ih]

theorem NormalForm.cleanVisits_props_iff {here : Location} {props : List (String × Expr)} :
    CleanVisits (visitProps scope here props) ↔
      ∀ p ∈ props, CleanVisits (visitExpr scope here p.2) := by
  induction props with
  | nil => simp [visitProps, CleanVisits]
  | cons p rest ih => simp [visitProps, cleanVisits_append, ih]

theorem NormalForm.Node.clean_expr_iff :
    (Node.expr e).Clean ↔ Calm (checkReserved (.expr e)) ∧ Calm (checkOperands (.expr e)) := by
  rw [Node.clean_iff]
  exact ⟨fun h => ⟨h.1, h.2.2.1⟩, fun h => ⟨h.1, calm_nil, h.2, calm_nil⟩⟩

-- What the rules look at is computed, once it is known which part of a program they are at; so is
-- what is visited.
attribute [local simp] checkReserved checkCallPosition checkOperands checkLoop
  Expr.isInstrumentation Stmt.isInstrumentation Expr.containsApplication visitExpr visitStmt

/-! ## Atoms, operations and applications -/

namespace Expr.Agrees

/-- There is nothing to check at a literal. -/
theorem ofLiteral (atom : e.IsAtom)
    (visit : ∀ scope here, visitExpr scope here e = [⟨here, .expr e⟩])
    (reserved : checkReserved (.expr e) = [])
    (operands : checkOperands (.expr e) = []) : e.Agrees := by
  refine ofAtomic atom.isAtomic fun scope here => ⟨fun _ => atom, fun _ => ?_⟩
  rw [visit, cleanVisits_cons, Node.clean_expr_iff, reserved, operands]
  exact ⟨⟨calm_nil, calm_nil⟩, nofun⟩

theorem ident : (Expr.ident name).Agrees := by
  refine ofAtomic rfl fun scope here => ?_
  have grammar : (Expr.ident name).IsAtom ↔ ¬ Reserved name := by
    refine ⟨fun atom => ?_, fun unreserved => .ident unreserved⟩
    cases atom with
    | ident unreserved => exact unreserved
  rw [grammar]
  simp [visitExpr, CleanVisits, Node.clean_expr_iff]

theorem func (agree : ∀ scope here, CleanVisits (visitFunc scope here f) ↔ NormalCode f) :
    (Expr.func f).Agrees := by
  refine ofAtomic rfl fun scope here => ?_
  have grammar : (Expr.func f).IsAtom ↔ NormalCode f := by
    refine ⟨fun atom => ?_, .func⟩
    cases atom with
    | func normal => exact normal
  rw [grammar, ← agree scope here]
  simp only [visitExpr, cleanVisits_cons, Node.clean_expr_iff]
  simp

theorem binary {op : BinaryOp} {left right : Expr} (hl : left.Agrees) (hr : right.Agrees) :
    (Expr.binary op left right).Agrees := by
  refine ofOperands [left, right] rfl rfl (fun scope here => ?_) ?_ ⟨fun simple =>
    ?_, fun h => ?_⟩ ?_
  · simp only [visitExpr, cleanVisits_cons, cleanVisits_append, Node.clean_expr_iff]
    simp
  · simp [Expr.containsApplication]
  · cases simple with
    | atom atom => cases atom
    | binary left right => simp [left, right]
  · exact .binary (h left (by simp)) (h right (by simp))
  · simp [hl, hr]

theorem unary {op : UnaryOp} {arg : Expr} (ha : arg.Agrees) : (Expr.unary op arg).Agrees := by
  refine ofOperands [arg] rfl rfl (fun scope here => ?_) ?_ ⟨fun simple => ?_, fun h => ?_⟩ ?_
  · simp only [visitExpr, cleanVisits_cons, Node.clean_expr_iff]
    simp
  · simp [Expr.containsApplication]
  · cases simple with
    | atom atom => cases atom
    | unary arg => simp [arg]
  · exact .unary (h arg (by simp))
  · simp [ha]

theorem cond {thenE elseE : Expr} (ht : test.Agrees) (ha : thenE.Agrees) (hb : elseE.Agrees) :
    (Expr.cond test thenE elseE).Agrees := by
  refine ofOperands [test, thenE, elseE] rfl rfl (fun scope here => ?_) ?_
    ⟨fun simple => ?_, fun h => ?_⟩ ?_
  · simp only [visitExpr, cleanVisits_cons, cleanVisits_append, Node.clean_expr_iff]
    simp [and_assoc]
  · simp [Expr.containsApplication, and_assoc]
  · cases simple with
    | atom atom => cases atom
    | cond test thenE elseE => simp [test, thenE, elseE]
  · exact .cond (h test (by simp)) (h thenE (by simp)) (h elseE (by simp))
  · simp [ht, ha, hb]

theorem member {property : String} (hb : base.Agrees) : (Expr.member base property).Agrees := by
  refine ofOperands [base] rfl rfl (fun scope here => ?_) ?_ ⟨fun simple => ?_, fun h => ?_⟩ ?_
  · simp only [visitExpr, cleanVisits_cons, Node.clean_expr_iff]
    simp
  · simp [Expr.containsApplication]
  · cases simple with
    | atom atom => cases atom
    | member base => simp [base]
  · exact .member (h base (by simp))
  · simp [hb]

theorem index {key : Expr} (hb : base.Agrees) (hk : key.Agrees) : (Expr.index base key).Agrees := by
  refine ofOperands [base, key] rfl rfl (fun scope here => ?_) ?_ ⟨fun simple => ?_, fun h => ?_⟩ ?_
  · simp only [visitExpr, cleanVisits_cons, cleanVisits_append, Node.clean_expr_iff]
    simp
  · simp [Expr.containsApplication]
  · cases simple with
    | atom atom => cases atom
    | index base key => simp [base, key]
  · exact .index (h base (by simp)) (h key (by simp))
  · simp [hb, hk]

theorem array {elements : List Expr} (agree : ∀ e ∈ elements, e.Agrees) :
    (Expr.array elements).Agrees := by
  refine ofOperands elements rfl rfl (fun scope here => ?_) ?_ ⟨fun simple => ?_, .array⟩ agree
  · simp only [visitExpr, cleanVisits_cons, cleanVisits_exprs_iff, Node.clean_expr_iff]
    simp
  · simp [Expr.containsApplication, Expr.anyApplication_eq_false_iff]
  · cases simple with
    | atom atom => cases atom
    | array atoms => exact atoms

theorem object {props : List (String × Expr)} (agree : ∀ p ∈ props, p.2.Agrees) :
    (Expr.object props).Agrees := by
  refine ofOperands (props.map (·.2)) rfl rfl (fun scope here => ?_) ?_ ?_
    (List.forall_mem_map.mpr agree)
  · simp only [visitExpr, cleanVisits_cons, cleanVisits_props_iff, Node.clean_expr_iff,
      List.forall_mem_map]
    simp
  · simp only [List.forall_mem_map, Expr.containsApplication, Expr.anyPropApplication_eq_false_iff]
    exact id
  · rw [List.forall_mem_map]
    refine ⟨fun simple => ?_, .object⟩
    cases simple with
    | atom atom => cases atom
    | object atoms => exact atoms

/-- An application is no atom and not simple. -/
theorem ofApplication (app : e.isApplication = true) (contains : e.containsApplication = true)
    (whole : ∀ scope here, Calm (checkWhole e) ∧ CleanVisits (visitExpr scope here e) ↔ e.IsWhole) :
    e.Agrees where
  atom scope here := by
    refine ⟨fun h => ?_, fun atom => ?_⟩
    · cases contains.symm.trans (Expr.containsApplication_of_isAtomic h.1)
    · cases app.symm.trans (Expr.Simple.atom atom).not_application
  simple scope here := by
    refine ⟨fun h => ?_, fun simple => ?_⟩
    · cases contains.symm.trans h.1
    · cases app.symm.trans simple.not_application
  whole := whole

/-- The arguments of an application. -/
theorem args_iff (agree : ∀ e ∈ args, e.Agrees) (scope : List String) (here : Location) :
    (∀ e ∈ args, e.containsApplication = false) ∧ (∀ e ∈ args, e.isAtomic = true) ∧
      (∀ e ∈ args, CleanVisits (visitExpr scope here e)) ↔ ∀ e ∈ args, e.IsAtom := by
  constructor
  · rintro ⟨-, atomics, cleans⟩ e mem
    exact ((agree e mem).atom scope here).mp ⟨atomics e mem, cleans e mem⟩
  · intro atoms
    refine ⟨fun e mem => ?_, fun e mem => (atoms e mem).isAtomic, fun e mem => ?_⟩
    · exact Expr.containsApplication_of_isAtomic (atoms e mem).isAtomic
    · exact (((agree e mem).atom scope here).mpr (atoms e mem)).2

/-- The callee of a call is an atom, or a member of one. -/
theorem callee_iff (agrees : callee.Agrees) (scope : List String) (here : Location) :
    callee.containsApplication = false ∧ Calm (checkCallee callee) ∧
      CleanVisits (visitExpr scope here callee) ↔ callee.IsAtom ∨ ∃ base property,
      callee = .member base property ∧ base.IsAtom := by
  by_cases isMember : ∃ base property, callee = .member base property
  · obtain ⟨base, property, rfl⟩ := isMember
    rw [show checkCallee (.member base property) = [] from rfl, ← and_assoc, and_right_comm,
      agrees.simple scope here]
    constructor
    · rintro ⟨simple, -⟩
      cases simple with
      | atom atom => exact .inl atom
      | member atom => exact .inr ⟨base, property, rfl, atom⟩
    · rintro (atom | ⟨_, _, same, atom⟩)
      · exact ⟨.atom atom, calm_nil⟩
      · cases same
        exact ⟨.member atom, calm_nil⟩
  · have notMember : checkCallee callee = checkAtomic .callee callee := by
      unfold checkCallee
      split
      · exact absurd ⟨_, _, rfl⟩ isMember
      · rfl
    rw [notMember, calm_checkAtomic, agrees.atom scope here]
    constructor
    · exact fun h => .inl h.2
    · rintro (atom | ⟨base, property, same, -⟩)
      · exact ⟨Expr.containsApplication_of_isAtomic atom.isAtomic, atom⟩
      · exact absurd ⟨base, property, same⟩ isMember

theorem call (hc : callee.Agrees) (ha : ∀ e ∈ args, e.Agrees) : (Expr.call callee args).Agrees := by
  refine ofApplication rfl rfl fun scope here => ?_
  have grammar : (Expr.call callee args).IsWhole ↔
      (callee.IsAtom ∨ ∃ base property, callee = .member base property ∧ base.IsAtom) ∧ ∀ e ∈ args,
      e.IsAtom := by
    constructor
    · intro whole
      cases whole with
      | simple simple => cases simple.not_application
      | call callee args => exact ⟨.inl callee, args⟩
      | method base args => exact ⟨.inr ⟨_, _, rfl, base⟩, args⟩
    · rintro ⟨callee | ⟨base, property, rfl, atom⟩, args⟩
      · exact .call callee args
      · exact .method atom args
  rw [grammar, ← callee_iff hc scope here, ← args_iff ha scope here]
  simp only [visitExpr, cleanVisits_cons, cleanVisits_append, cleanVisits_exprs_iff,
    Node.clean_expr_iff, checkReserved, Expr.isInstrumentation, checkOperands, checkWhole,
    calm_append,
    calm_flatMap, calm_checkForeign, calm_nil, calm_checkNested, calm_checkAtomic, true_and]
  grind

theorem new (hc : callee.Agrees) (ha : ∀ e ∈ args, e.Agrees) : (Expr.new callee args).Agrees := by
  refine ofApplication rfl rfl fun scope here => ?_
  have grammar : (Expr.new callee args).IsWhole ↔ ∀ e ∈ callee :: args, e.IsAtom := by
    rw [List.forall_mem_cons]
    refine ⟨fun whole => ?_, fun h => .new h.1 h.2⟩
    cases whole with
    | simple simple => cases simple.not_application
    | new callee args => exact ⟨callee, args⟩
  rw [grammar, ← args_iff (List.forall_mem_cons.mpr ⟨hc, ha⟩) scope here]
  simp only [visitExpr, cleanVisits_append, cleanVisits_exprs_iff, Node.clean_expr_iff,
    checkReserved, Expr.isInstrumentation, checkOperands, checkWhole, calm_append, calm_flatMap,
    calm_checkForeign,
    calm_nil, calm_checkNested, calm_checkAtomic, true_and, List.forall_mem_cons]

end Expr.Agrees

/-! ## Statements -/

/-- A statement in normal form, or a loop whose label stands before it. -/
def Stmt.NormalUnder (isLabeled : Bool) (s : Stmt) : Prop :=
  s.IsNormal ∨ isLabeled = true ∧ ∃ test body, s = .whileS test body ∧ test.IsSimple ∧ body.IsNormal

/-- The checker and the grammar agree on a statement. -/
def Stmt.Agrees (s : Stmt) : Prop :=
  ∀ scope before isLabeled,
    CleanVisits (visitStmt scope before isLabeled s) ↔ s.NormalUnder isLabeled

namespace Stmt.Agrees

theorem normal (agrees : s.Agrees) (scope : List String) (before : Nat) :
    CleanVisits (visitStmt scope before false s) ↔ s.IsNormal := by
  rw [agrees scope before false]
  exact ⟨fun h => h.elim id fun h => (nomatch h.1), .inl⟩

/-- Only a loop depends on whether there is a label before it. -/
theorem ofPlain (notLoop : s.isLoop = false)
    (clean : ∀ scope before isLabeled, CleanVisits (visitStmt scope before isLabeled s) ↔
      s.IsNormal) : s.Agrees := by
  intro scope before isLabeled
  rw [clean scope before isLabeled]
  refine ⟨.inl, fun h => h.elim id ?_⟩
  rintro ⟨-, test, body, rfl, -⟩
  cases notLoop

/-- What only instrumentation writes is neither clean nor in the grammar. -/
theorem ofForeign (foreign : s.isInstrumentation = true) : s.Agrees := by
  intro scope before isLabeled
  constructor
  · intro clean
    unfold visitStmt at clean
    cases foreign.symm.trans (clean _ List.mem_cons_self).stmt_plain
  · rintro (normal | ⟨-, test, body, rfl, -⟩)
    · cases normal <;> cases foreign
    · cases foreign

theorem cleanVisits_stmts_iff {body : List Stmt} (agree : ∀ s ∈ body, s.Agrees)
    (scope : List String) (before : Nat) :
    CleanVisits (visitStmts scope before body) ↔ ∀ s ∈ body, s.IsNormal := by
  induction body generalizing before with
  | nil => simp [visitStmts, CleanVisits]
  | cons s rest ih =>
    obtain ⟨agrees, agree⟩ := List.forall_mem_cons.mp agree
    rw [visitStmts, cleanVisits_append, List.forall_mem_cons, agrees.normal scope before,
      ih agree (before + countStmt s)]

theorem cleanVisits_else_iff {elseS : Option Stmt} (agree : ∀ s ∈ elseS, s.Agrees) {before : Nat} :
    CleanVisits (visitElse scope before elseS) ↔ ∀ s ∈ elseS, s.IsNormal := by
  cases elseS with
  | none => simp [visitElse, CleanVisits]
  | some s => simp [visitElse, (agree s rfl).normal scope before]

theorem cleanVisits_handler_iff {handler : Option Handler} (agree : ∀ h ∈ handler, h.body.Agrees)
    {before : Nat} : CleanVisits (visitHandler scope before handler) ↔ ∀ h ∈ handler,
    h.body.IsNormal := by
  cases handler with
  | none => simp [visitHandler, CleanVisits]
  | some h =>
    obtain ⟨param, body⟩ := h
    simp [visitHandler, (agree _ rfl).normal scope before]

theorem letS {init : Option Expr} (agree : ∀ e ∈ init, e.Agrees) :
    (Stmt.letS name init).Agrees := by
  refine ofPlain rfl fun scope before isLabeled => ?_
  have grammar : (Stmt.letS name init).IsNormal ↔ ¬ Reserved name ∧ ∀ e ∈ init, e.IsWhole := by
    refine ⟨fun normal => ?_, fun h => .letS h.1 h.2⟩
    cases normal with
    | letS name init => exact ⟨name, init⟩
  rw [grammar]
  cases init with
  | none =>
    simp [visitStmt, visitOption, CleanVisits, Node.clean_iff]
  | some e =>
    simp only [visitStmt, visitOption, cleanVisits_cons, Node.clean_iff]
    simp [← (agree e rfl).whole scope (.statement scope (before + 1)), and_assoc]

theorem returnS {value : Option Expr} (agree : ∀ e ∈ value, e.Agrees) :
    (Stmt.returnS value).Agrees := by
  refine ofPlain rfl fun scope before isLabeled => ?_
  have grammar : (Stmt.returnS value).IsNormal ↔ ∀ e ∈ value, e.IsWhole := by
    refine ⟨fun normal => ?_, .returnS⟩
    cases normal with
    | returnS value => exact value
  rw [grammar]
  cases value with
  | none =>
    simp [visitStmt, visitOption, CleanVisits, Node.clean_iff]
  | some e =>
    simp only [visitStmt, visitOption, cleanVisits_cons, Node.clean_iff]
    simp [← (agree e rfl).whole scope (.statement scope (before + 1))]

theorem expr (agrees : e.Agrees) : (Stmt.expr e).Agrees := by
  refine ofPlain rfl fun scope before isLabeled => ?_
  have grammar : (Stmt.expr e).IsNormal ↔ e.IsWhole := by
    refine ⟨fun normal => ?_, .expr⟩
    cases normal with
    | expr whole => exact whole
  rw [grammar, ← agrees.whole scope (.statement scope (before + 1))]
  simp only [visitStmt, cleanVisits_cons, Node.clean_iff]
  -- that the statement has no effect is a warning
  simp [Cause.isError]

theorem throwS (agrees : value.Agrees) : (Stmt.throwS value).Agrees := by
  refine ofPlain rfl fun scope before isLabeled => ?_
  have grammar : (Stmt.throwS value).IsNormal ↔ value.IsSimple := by
    refine ⟨fun normal => ?_, .throwS⟩
    cases normal with
    | throwS simple => exact simple
  rw [grammar, ← agrees.simple scope (.statement scope (before + 1))]
  simp only [visitStmt, cleanVisits_cons, Node.clean_iff]
  simp

theorem assign_name (agrees : value.Agrees) : (Stmt.assign (.ident name) value).Agrees := by
  refine ofPlain rfl fun scope before isLabeled => ?_
  have grammar : (Stmt.assign (.ident name) value).IsNormal ↔ ¬ Reserved name ∧ value.IsWhole := by
    refine ⟨fun normal => ?_, fun h => .assign (.ident h.1) h.2⟩
    cases normal with
    | assign target value =>
      cases target with
      | ident name => exact ⟨name, value⟩
  rw [grammar, ← agrees.whole scope (.statement scope (before + 1))]
  simp only [visitStmt, visitTarget, cleanVisits_cons, List.nil_append, Node.clean_iff]
  simp [and_assoc]

theorem assign_member {property : String} (hb : base.Agrees) (agrees : value.Agrees) :
    (Stmt.assign (.member base property) value).Agrees := by
  refine ofPlain rfl fun scope before isLabeled => ?_
  have grammar : (Stmt.assign (.member base property) value).IsNormal ↔ (∀ e ∈ [base], e.IsAtom) ∧
      value.IsWhole := by
    rw [List.forall_mem_singleton]
    refine ⟨fun normal => ?_, fun h => .assign (.member h.1) h.2⟩
    cases normal with
    | assign target value =>
      cases target with
      | member base => exact ⟨base, value⟩
  rw [grammar, ← agrees.whole scope (.statement scope (before + 1)),
    ← Expr.Agrees.args_iff (by simpa using hb) scope (.statement scope (before + 1))]
  simp only [visitStmt, visitTarget, cleanVisits_cons, cleanVisits_append, Node.clean_iff]
  simp
  grind

theorem assign_index {key : Expr} (hb : base.Agrees) (hk : key.Agrees) (agrees : value.Agrees) :
    (Stmt.assign (.index base key) value).Agrees := by
  refine ofPlain rfl fun scope before isLabeled => ?_
  have grammar : (Stmt.assign (.index base key) value).IsNormal ↔ (∀ e ∈ [base, key], e.IsAtom) ∧
      value.IsWhole := by
    rw [List.forall_mem_cons, List.forall_mem_singleton]
    refine ⟨fun normal => ?_, fun h => .assign (.index h.1.1 h.1.2) h.2⟩
    cases normal with
    | assign target value =>
      cases target with
      | index base key => exact ⟨⟨base, key⟩, value⟩
  rw [grammar, ← agrees.whole scope (.statement scope (before + 1)),
    ← Expr.Agrees.args_iff (by simp [hb, hk]) scope (.statement scope (before + 1))]
  simp only [visitStmt, visitTarget, cleanVisits_cons, cleanVisits_append, Node.clean_iff]
  simp
  grind

theorem ifS {thenS : Stmt} {elseS : Option Stmt} (ht : test.Agrees) (ha : thenS.Agrees)
    (hb : ∀ s ∈ elseS, s.Agrees) : (Stmt.ifS test thenS elseS).Agrees := by
  refine ofPlain rfl fun scope before isLabeled => ?_
  have grammar : (Stmt.ifS test thenS elseS).IsNormal ↔ test.IsSimple ∧ thenS.IsNormal ∧
      ∀ s ∈ elseS, s.IsNormal := by
    refine ⟨fun normal => ?_, fun h => .ifS h.1 h.2.1 h.2.2⟩
    cases normal with
    | ifS test thenS elseS => exact ⟨test, thenS, elseS⟩
  rw [grammar, ← ht.simple scope (.statement scope (before + 1)), ← ha.normal scope (before + 1)]
  simp only [visitStmt, cleanVisits_cons, cleanVisits_append, cleanVisits_else_iff hb,
    Node.clean_iff]
  simp [and_assoc]

/-- A loop stands behind its label and nowhere else. -/
theorem whileS (ht : test.Agrees) (hb : body.Agrees) : (Stmt.whileS test body).Agrees := by
  intro scope before isLabeled
  have grammar : (Stmt.whileS test body).NormalUnder isLabeled ↔
      isLabeled = true ∧ test.IsSimple ∧ body.IsNormal := by
    constructor
    · rintro (normal | ⟨labeled, _, _, same, simple, normal⟩)
      · cases normal
      · cases same
        exact ⟨labeled, simple, normal⟩
    · rintro ⟨labeled, simple, normal⟩
      exact .inr ⟨labeled, test, body, rfl, simple, normal⟩
  rw [grammar, ← ht.simple scope (.statement scope (before + 1)), ← hb.normal scope (before + 1)]
  simp only [visitStmt, cleanVisits_cons, cleanVisits_append, Node.clean_iff]
  cases isLabeled <;> simp [Cause.isError, and_assoc]

theorem labeled {label : String} (hb : body.Agrees) : (Stmt.labeled label body).Agrees := by
  refine ofPlain rfl fun scope before isLabeled => ?_
  have grammar : (Stmt.labeled label body).IsNormal ↔
      ¬ Reserved label ∧ body.NormalUnder true := by
    constructor
    · intro normal
      cases normal with
      | loop label test body => exact ⟨label, .inr ⟨rfl, _, _, rfl, test, body⟩⟩
      | labeled label body => exact ⟨label, .inl body⟩
    · rintro ⟨label, normal | ⟨-, test, body, rfl, simple, normal⟩⟩
      · exact .labeled label normal
      · exact .loop label simple normal
  rw [grammar, ← hb scope (before + 1) true]
  simp only [visitStmt, cleanVisits_cons, Node.clean_iff]
  simp

theorem block {body : List Stmt} (agree : ∀ s ∈ body, s.Agrees) : (Stmt.block body).Agrees := by
  refine ofPlain rfl fun scope before isLabeled => ?_
  have grammar : (Stmt.block body).IsNormal ↔ ∀ s ∈ body, s.IsNormal := by
    refine ⟨fun normal => ?_, .block⟩
    cases normal with
    | block body => exact body
  rw [grammar, ← cleanVisits_stmts_iff agree scope (before + 1)]
  simp only [visitStmt, cleanVisits_cons, Node.clean_iff]
  simp

theorem tryS {handler : Option Handler} {final : Option Stmt} (hb : body.Agrees)
    (hh : ∀ h ∈ handler, h.body.Agrees) (hf : ∀ s ∈ final, s.Agrees) :
    (Stmt.tryS body handler final).Agrees := by
  refine ofPlain rfl fun scope before isLabeled => ?_
  have grammar : (Stmt.tryS body handler final).IsNormal ↔ (∀ h ∈ handler, ¬ Reserved h.param) ∧
        body.IsNormal ∧ (∀ h ∈ handler, h.body.IsNormal) ∧ ∀ s ∈ final, s.IsNormal := by
    refine ⟨fun normal => ?_, fun h => .tryS h.2.1 h.1 h.2.2.1 h.2.2.2⟩
    cases normal with
    | tryS body param handler final => exact ⟨param, body, handler, final⟩
  rw [grammar, ← hb.normal scope (before + 1)]
  simp only [visitStmt, cleanVisits_cons, cleanVisits_append, cleanVisits_else_iff hf,
    cleanVisits_handler_iff hh, Node.clean_iff]
  cases handler <;> simp [and_assoc]

theorem decl (agree : ∀ scope here, CleanVisits (visitFunc scope here f) ↔ NormalCode f) :
    (Stmt.decl f).Agrees := by
  refine ofPlain rfl fun scope before isLabeled => ?_
  have grammar : (Stmt.decl f).IsNormal ↔ NormalCode f := by
    refine ⟨fun normal => ?_, .decl⟩
    cases normal with
    | decl normal => exact normal
  rw [grammar, ← agree scope (.statement scope (before + 1))]
  simp only [visitStmt, cleanVisits_cons, Node.clean_iff]
  simp

theorem breakS {label : Option String} : (Stmt.breakS label).Agrees := by
  refine ofPlain rfl fun scope before isLabeled => ?_
  have clean : CleanVisits (visitStmt scope before isLabeled (.breakS label)) := by
    simp [visitStmt, CleanVisits, Node.clean_iff]
  exact ⟨fun _ => .breakS, fun _ => clean⟩

theorem continueS {label : Option String} : (Stmt.continueS label).Agrees := by
  refine ofPlain rfl fun scope before isLabeled => ⟨fun clean => ?_, fun normal => nomatch normal⟩
  simp only [visitStmt, cleanVisits_cons] at clean
  cases clean.1 .canonicalLoop .continueStatement (by simp [Rule.check])

end Stmt.Agrees

/-! ## Functions and programs -/

/-- A function agrees if its body does. -/
theorem Func.agrees_of_body (agree : ∀ s ∈ f.body, s.Agrees) (scope : List String)
    (here : Location) : CleanVisits (visitFunc scope here f) ↔ NormalCode f := by
  obtain ⟨name, params, body, frame, site⟩ := f
  have grammar : NormalCode ⟨name, params, body, frame, site⟩ ↔
      (frame = none ∧ (∀ n ∈ name, ¬ Reserved n) ∧ ∀ n ∈ params, ¬ Reserved n) ∧
        ∀ s ∈ body, s.IsNormal := by
    refine ⟨fun normal => ?_, fun h => .intro h.1.1 h.1.2.1 h.1.2.2 h.2⟩
    cases normal with
    | intro frame name params body => exact ⟨⟨frame, name, params⟩, body⟩
  rw [grammar, visitFunc, cleanVisits_cons, Stmt.Agrees.cleanVisits_stmts_iff agree, Node.clean_iff]
  refine and_congr_left fun _ => ?_
  cases name <;> simp

mutual

theorem Expr.agrees : (e : Expr) → e.Agrees
  | .num _ => .ofLiteral .num (fun _ _ => rfl) rfl rfl
  | .str _ => .ofLiteral .str (fun _ _ => rfl) rfl rfl
  | .bool _ => .ofLiteral .bool (fun _ _ => rfl) rfl rfl
  | .null => .ofLiteral .null (fun _ _ => rfl) rfl rfl
  | .undefined => .ofLiteral .undefined (fun _ _ => rfl) rfl rfl
  | .this => .ofLiteral .this (fun _ _ => rfl) rfl rfl
  | .arguments => .ofLiteral .arguments (fun _ _ => rfl) rfl rfl
  | .ident _ => .ident
  | .func f => .func (Func.agrees_of_body (Func.body_agrees f))
  | .binary _ left right => .binary left.agrees right.agrees
  | .unary _ arg => .unary arg.agrees
  | .cond test thenE elseE => .cond test.agrees thenE.agrees elseE.agrees
  | .member base _ => .member base.agrees
  | .index base key => .index base.agrees key.agrees
  | .array elements => .array (Expr.list_agrees elements)
  | .object props => .object (Expr.props_agrees props)
  | .call callee args => .call callee.agrees (Expr.list_agrees args)
  | .new callee args => .new callee.agrees (Expr.list_agrees args)
  | .isNormal | .isRestoring | .targetIn _ | .capturing | .reenterNext | .newTarget | .suspend
  | .handleNew .. => .ofForeign rfl

theorem Expr.list_agrees : (es : List Expr) → ∀ e ∈ es, e.Agrees
  | [] => nofun
  | e :: rest => List.forall_mem_cons.mpr ⟨e.agrees, Expr.list_agrees rest⟩

theorem Expr.props_agrees : (props : List (String × Expr)) → ∀ p ∈ props, p.2.Agrees
  | [] => nofun
  | (_, e) :: rest => List.forall_mem_cons.mpr ⟨e.agrees, Expr.props_agrees rest⟩

theorem Expr.option_agrees : (value : Option Expr) → ∀ e ∈ value, e.Agrees
  | none => nofun
  | some e => fun _ mem => Option.some.inj mem ▸ e.agrees

theorem Stmt.agrees : (s : Stmt) → s.Agrees
  | .block body => .block (Stmt.list_agrees body)
  | .letS _ init => .letS (Expr.option_agrees init)
  | .assign (.ident _) value => .assign_name value.agrees
  | .assign (.member base _) value => .assign_member base.agrees value.agrees
  | .assign (.index base key) value => .assign_index base.agrees key.agrees value.agrees
  | .expr e => .expr e.agrees
  | .ifS test thenS elseS => .ifS test.agrees thenS.agrees (Stmt.option_agrees elseS)
  | .whileS test body => .whileS test.agrees body.agrees
  | .labeled _ body => .labeled body.agrees
  | .breakS _ => .breakS
  | .continueS _ => .continueS
  | .returnS value => .returnS (Expr.option_agrees value)
  | .throwS value => .throwS value.agrees
  | .tryS body handler final =>
    .tryS body.agrees (Handler.option_agrees handler) (Stmt.option_agrees final)
  | .decl f => .decl (Func.agrees_of_body (Func.body_agrees f))
  | .restoreFrame | .stackDec | .stackInc | .recordOnCapture .. | .shadowFrame ..
  | .returnIfCapturing _ | .rethrowSignal _ => .ofForeign rfl

theorem Stmt.list_agrees : (body : List Stmt) → ∀ s ∈ body, s.Agrees
  | [] => nofun
  | s :: rest => List.forall_mem_cons.mpr ⟨s.agrees, Stmt.list_agrees rest⟩

theorem Stmt.option_agrees : (o : Option Stmt) → ∀ s ∈ o, s.Agrees
  | none => nofun
  | some s => fun _ mem => Option.some.inj mem ▸ s.agrees

theorem Handler.option_agrees : (o : Option Handler) → ∀ h ∈ o, h.body.Agrees
  | none => nofun
  | some ⟨_, body⟩ => fun _ mem => Option.some.inj mem ▸ body.agrees

theorem Func.body_agrees : (f : Func) → ∀ s ∈ f.body, s.Agrees
  | ⟨_, _, body, _, _⟩ => Stmt.list_agrees body

end

/-! ## Programs that are accepted -/

/-- The grammar holds of what the checker accepts. -/
theorem Program.normal_of_accepted {program : Program} (accepted : NormalForm.errors program = []) :
    program.Normal Unreserved := by
  obtain ⟨plain, clean⟩ := clean_of_errors_eq_nil accepted
  exact ⟨plain, (Stmt.Agrees.cleanVisits_stmts_iff (Stmt.list_agrees program.body) ["program"] 0).mp
    clean⟩

section Sound

variable {use : String → Prop} {code : Func → Prop}

theorem Stmt.Normal.not_loop {code : Func → Prop} {s : Stmt} (normal : s.Normal use code) :
    s.isLoop = false := by
  cases normal <;> rfl

mutual

theorem Expr.Atom.quiet {e : Expr} : e.Atom use (Func.Normal use) → e.Quiet Func.Source
  | .num => .num
  | .str => .str
  | .bool => .bool
  | .null => .null
  | .undefined => .undefined
  | .ident _ => .ident
  | .this => .this
  | .arguments => .arguments
  | .func normal => .func normal.source

theorem Expr.Simple.quiet {e : Expr} : e.Simple use (Func.Normal use) → e.Quiet Func.Source
  | .atom atom => atom.quiet
  | .binary left right => .binary left.quiet right.quiet
  | .unary arg => .unary arg.quiet
  | .cond test thenE elseE => .cond test.quiet thenE.quiet elseE.quiet
  | .member base => .member base.quiet
  | .index base key => .index base.quiet key.quiet
  | .array atoms => .array fun e mem => (atoms e mem).quiet
  | .object atoms => .object fun p mem => (atoms p mem).quiet

theorem Expr.Whole.live {e : Expr} : e.Whole use (Func.Normal use) → e.Live Func.Source
  | .simple simple => .quiet simple.quiet
  | .call callee args => .call callee.quiet fun e mem => (args e mem).quiet
  | .method base args => .call (.member base.quiet) fun e mem => (args e mem).quiet
  | .new callee args => .new callee.quiet fun e mem => (args e mem).quiet

theorem Target.Normal.quiet {target : Target} : target.Normal use (Func.Normal use) →
    target.Quiet Func.Source
  | .ident _ => .ident
  | .member base => .member base.quiet
  | .index base key => .index base.quiet key.quiet

theorem Stmt.Normal.sound {s : Stmt} : s.Normal use (Func.Normal use) → s.Sound Func.Source
  | .block body => .block fun s mem => (body s mem).sound
  | .letS _ init => .letS fun e mem => (init e mem).live
  | .assign target value => .assign target.quiet value.live
  | .expr e => .expr e.live
  | .ifS test thenS elseS => .ifS test.quiet thenS.sound fun s mem => (elseS s mem).sound
  | .loop _ test body => .loop test.quiet body.sound
  | .labeled _ body => .labeled body.not_loop body.sound
  | .breakS => .breakS
  | .returnS value => .returnS fun e mem => (value e mem).live
  | .throwS value => .throwS value.quiet
  | .tryS body _ handler final =>
    .tryS body.sound (fun h mem => (handler h mem).sound) fun s mem => (final s mem).sound
  | .decl normal => .decl normal.source

theorem Func.Normal.source {f : Func} : f.Normal use → f.Source
  | .intro _ _ _ body => .intro fun s mem => (body s mem).sound

end

end Sound

/-- A program that the checker accepts has its statements in the grammar that instrumentation relies
on. -/
theorem Program.sound_of_accepted {p : Program} (accepted : NormalForm.errors p = []) :
    ∀ s ∈ p.body, s.Sound Func.Source :=
  fun s mem => ((Program.normal_of_accepted accepted).2 s mem).sound

namespace NormalForm

/-- The checker accepts exactly the programs in normal form in which no reserved name is used. -/
theorem hasErrors_eq_false_iff (p : Program) : hasErrors p = false ↔ p.Normal Unreserved := by
  rw [hasErrors_eq_false_iff_clean, Program.Normal]
  refine and_congr_right fun _ => ?_
  exact Stmt.Agrees.cleanVisits_stmts_iff (Stmt.list_agrees p.body) ["program"] 0

/-- `return $x` defines no name, and is refused all the same. -/
theorem reserved_read_refused : ¬ ∀ p : Program, hasErrors p = false ↔ p.Normal fun _ => True := by
  intro accepts
  have refused : hasErrors { body := [.returnS (some (.ident "$x"))] } = true := by decide +kernel
  have normal : Program.Normal (fun _ => True) { body := [.returnS (some (.ident "$x"))] } := by
    refine ⟨rfl, fun s mem => ?_⟩
    cases List.mem_singleton.mp mem
    refine .returnS fun e mem => ?_
    cases mem
    exact .simple (.atom (.ident trivial))
  cases refused.symm.trans ((accepts _).mpr normal)

end NormalForm

end Resumable
