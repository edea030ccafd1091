import Resumable.Instrument.DualMode

/-!
Classes of code.

`Stmt.Sound` is the grammar of the statements that instrumentation is given, and `Stmt.Dual` the
grammar of those it writes.  In both, an application is the whole value of a statement, and in the
second it stands under a test for normal mode, so that a run in restoring mode leaves an activation
only through `Expr.reenterNext`.  All of them are relative to a class `code` of functions, from
which every function literal and every declaration is taken; `Func.Source` and `Func.Resumes` close
the two grammars under nesting of functions.
-/

namespace Resumable

variable {code : Func → Prop} {strategy : Strategy} {normal : Bool} {s : Stmt}

/-! ## Expressions -/

/-- Evaluation stays in the activation: there is no application and no entry into a frame. -/
inductive Expr.Quiet (code : Func → Prop) : Expr → Prop
  | num {value : Float} : Expr.Quiet code (.num value)
  | str {value : String} : Expr.Quiet code (.str value)
  | bool {value : Bool} : Expr.Quiet code (.bool value)
  | null : Expr.Quiet code .null
  | undefined : Expr.Quiet code .undefined
  | ident {name : String} : Expr.Quiet code (.ident name)
  | binary {op : BinaryOp} {left right : Expr} :
      Expr.Quiet code left → Expr.Quiet code right → Expr.Quiet code (.binary op left right)
  | unary {op : UnaryOp} {arg : Expr} : Expr.Quiet code arg → Expr.Quiet code (.unary op arg)
  | cond {test thenE elseE : Expr} :
      Expr.Quiet code test → Expr.Quiet code thenE → Expr.Quiet code elseE →
      Expr.Quiet code (.cond test thenE elseE)
  | member {base : Expr} {property : String} :
      Expr.Quiet code base → Expr.Quiet code (.member base property)
  | index {base key : Expr} :
      Expr.Quiet code base → Expr.Quiet code key → Expr.Quiet code (.index base key)
  | func {f : Func} : code f → Expr.Quiet code (.func f)
  | array {elements : List Expr} :
      (∀ e ∈ elements, Expr.Quiet code e) → Expr.Quiet code (.array elements)
  | object {props : List (String × Expr)} :
      (∀ p ∈ props, Expr.Quiet code p.2) → Expr.Quiet code (.object props)
  | this : Expr.Quiet code .this
  | arguments : Expr.Quiet code .arguments
  | isNormal : Expr.Quiet code .isNormal
  | isRestoring : Expr.Quiet code .isRestoring
  | targetIn {labels : List Nat} : Expr.Quiet code (.targetIn labels)
  | capturing : Expr.Quiet code .capturing
  | newTarget : Expr.Quiet code .newTarget

/-- Quiet, or an application of quiet parts. -/
inductive Expr.Live (code : Func → Prop) : Expr → Prop
  | quiet {e : Expr} : e.Quiet code → Expr.Live code e
  | call {callee : Expr} {args : List Expr} :
      callee.Quiet code → (∀ e ∈ args, e.Quiet code) → Expr.Live code (.call callee args)
  | new {callee : Expr} {args : List Expr} :
      callee.Quiet code → (∀ e ∈ args, e.Quiet code) → Expr.Live code (.new callee args)
  | handleNew {callee : Expr} {args : List Expr} :
      callee.Quiet code → (∀ e ∈ args, e.Quiet code) → Expr.Live code (.handleNew callee args)
  | suspend : Expr.Live code .suspend

theorem Expr.Live.quiet_of_not_application {e : Expr} (live : e.Live code)
    (notApp : e.isApplication = false) : e.Quiet code := by
  cases live with
  | quiet quiet => exact quiet
  | call _ _ => cases notApp
  | new _ _ => cases notApp
  | handleNew _ _ => cases notApp
  | suspend => cases notApp

/-- The parts of the target are quiet. -/
inductive Target.Quiet (code : Func → Prop) : Target → Prop
  | ident {name : String} : Target.Quiet code (.ident name)
  | member {base : Expr} {property : String} :
      base.Quiet code → Target.Quiet code (.member base property)
  | index {base key : Expr} :
      base.Quiet code → key.Quiet code → Target.Quiet code (.index base key)

/-! ## Statements before instrumentation -/

/-- The statement is the body of a loop label rather than of a plain one. -/
def Stmt.isLoop : Stmt → Bool
  | .whileS .. => true
  | _ => false

/-- Statements as instrumentation is given them. -/
inductive Stmt.Sound (code : Func → Prop) : Stmt → Prop
  | block {body : List Stmt} : (∀ s ∈ body, Stmt.Sound code s) → Stmt.Sound code (.block body)
  | letS {name : String} {init : Option Expr} :
      (∀ e ∈ init, e.Live code) → Stmt.Sound code (.letS name init)
  | assign {target : Target} {value : Expr} :
      target.Quiet code → value.Live code → Stmt.Sound code (.assign target value)
  | expr {e : Expr} : e.Live code → Stmt.Sound code (.expr e)
  | ifS {test : Expr} {thenS : Stmt} {elseS : Option Stmt} :
      test.Quiet code → Stmt.Sound code thenS → (∀ s ∈ elseS, Stmt.Sound code s) →
      Stmt.Sound code (.ifS test thenS elseS)
  | loop {label : String} {test : Expr} {body : Stmt} :
      test.Quiet code → Stmt.Sound code body → Stmt.Sound code (.labeled label (.whileS test body))
  | labeled {label : String} {body : Stmt} :
      body.isLoop = false → Stmt.Sound code body → Stmt.Sound code (.labeled label body)
  | breakS {label : Option String} : Stmt.Sound code (.breakS label)
  | returnS {value : Option Expr} :
      (∀ e ∈ value, e.Live code) → Stmt.Sound code (.returnS value)
  | throwS {value : Expr} : value.Quiet code → Stmt.Sound code (.throwS value)
  | tryS {body : Stmt} {handler : Option Handler} {final : Option Stmt} :
      Stmt.Sound code body → (∀ h ∈ handler, Stmt.Sound code h.body) →
      (∀ s ∈ final, Stmt.Sound code s) → Stmt.Sound code (.tryS body handler final)
  | decl {f : Func} : code f → Stmt.Sound code (.decl f)

/-- Functions as instrumentation is given them. -/
inductive Func.Source : Func → Prop
  | intro {f : Func} : (∀ s ∈ f.body, Stmt.Sound Func.Source s) → Func.Source f

theorem Func.Source.body {f : Func} (source : f.Source) :
    ∀ s ∈ f.body, Stmt.Sound Func.Source s := by
  cases source with
  | intro body => exact body

/-! ## Statements in two modes -/

/-- Statements that wait for the value of the next frame; they run in restoring mode only. -/
inductive Stmt.Reentering (code : Func → Prop) : Stmt → Prop
  | letS {name : String} : Stmt.Reentering code (.letS name (some .reenterNext))
  | assign {target : Target} :
      target.Quiet code → Stmt.Reentering code (.assign target .reenterNext)
  | expr : Stmt.Reentering code (.expr .reenterNext)
  | guarded {test : Expr} {s : Stmt} :
      test.Quiet code → Stmt.Reentering code s → Stmt.Reentering code (.guarded test s)

/-- The body of a handler passes signals on before it does anything else. -/
def Stmt.passesSignals : Stmt → Bool
  | .block (.rethrowSignal _ :: _) => true
  | _ => false

/-- The `finally` part does not run while frames are being collected. -/
def Stmt.sparesCaptures : Stmt → Bool
  | .ifS (.unary .not .capturing) _ none => true
  | _ => false

/-- Statements that run in both modes, or, where `normal` holds, in normal mode only.  What leaves
the activation is of the second kind. -/
inductive Stmt.Dual (strategy : Strategy) (code : Func → Prop) : Bool → Stmt → Prop
  | select {normal : Bool} {s : Stmt} {elseS : Option Stmt} :
      Stmt.Dual strategy code true s → (∀ r ∈ elseS, r.Reentering code) →
      Stmt.Dual strategy code normal (.ifS .isNormal s elseS)
  | shadow {normal : Bool} {label : Nat} {body : Stmt} :
      strategy = .eager → Stmt.Dual strategy code normal body →
      Stmt.Dual strategy code normal (.shadowFrame label body)
  | record {normal : Bool} {label : Nat} {body : Stmt} :
      strategy = .lazy → Stmt.Dual strategy code normal body →
      Stmt.Dual strategy code normal (.recordOnCapture label body)
  | collect {normal : Bool} {label : Nat} :
      strategy = .retval → Stmt.Dual strategy code normal (.returnIfCapturing label)
  | block {normal : Bool} {body : List Stmt} :
      (∀ s ∈ body, Stmt.Dual strategy code normal s) → Stmt.Dual strategy code normal (.block body)
  | branch {normal : Bool} {test : Expr} {thenS : Stmt} {elseS : Option Stmt} :
      test.Quiet code → Stmt.Dual strategy code normal thenS →
      (∀ s ∈ elseS, Stmt.Dual strategy code normal s) →
      Stmt.Dual strategy code normal (.ifS test thenS elseS)
  | loop {normal : Bool} {label : String} {test : Expr} {body : Stmt} :
      test.Quiet code → Stmt.Dual strategy code normal body →
      Stmt.Dual strategy code normal (.labeled label (.whileS test body))
  | labeled {normal : Bool} {label : String} {body : Stmt} :
      body.isLoop = false → Stmt.Dual strategy code normal body →
      Stmt.Dual strategy code normal (.labeled label body)
  | attempt {normal : Bool} {body : Stmt} {handler : Option Handler} {final : Option Stmt} :
      Stmt.Dual strategy code normal body →
      (∀ h ∈ handler, h.body.passesSignals = true) →
      (∀ h ∈ handler, Stmt.Dual strategy code normal h.body) →
      (∀ s ∈ final, s.sparesCaptures = true) →
      (∀ s ∈ final, Stmt.Dual strategy code normal s) →
      Stmt.Dual strategy code normal (.tryS body handler final)
  | rethrow {normal : Bool} {name : String} : Stmt.Dual strategy code normal (.rethrowSignal name)
  | bind {normal : Bool} {name : String} {value : Expr} :
      value.Quiet code → Stmt.Dual strategy code normal (.letS name (some value))
  | throwS {normal : Bool} {value : Expr} :
      value.Quiet code → Stmt.Dual strategy code normal (.throwS value)
  | answer {normal : Bool} {value : Option Expr} :
      (∀ e ∈ value, e.Quiet code) → Stmt.Dual strategy code normal (.returnS value)
  | stackInc {normal : Bool} : Stmt.Dual strategy code normal .stackInc
  | letS {name : String} {init : Option Expr} :
      (∀ e ∈ init, e.Live code) → Stmt.Dual strategy code true (.letS name init)
  | assign {target : Target} {value : Expr} :
      target.Quiet code → value.Live code → Stmt.Dual strategy code true (.assign target value)
  | expr {e : Expr} : e.Live code → Stmt.Dual strategy code true (.expr e)
  | decl {f : Func} : code f → Stmt.Dual strategy code true (.decl f)
  | breakS {label : Option String} : Stmt.Dual strategy code true (.breakS label)
  | returnS {value : Expr} :
      value.Live code → Stmt.Dual strategy code true (.returnS (some value))

/-- A statement for both modes is one for normal mode. -/
theorem Stmt.Dual.to_normal (dual : s.Dual strategy code normal) : s.Dual strategy code true := by
  induction dual with
  | select inner reentering _ => exact .select inner reentering
  | shadow eager _ ih => exact .shadow eager ih
  | record isLazy _ ih => exact .record isLazy ih
  | collect retval => exact .collect retval
  | block _ ih => exact .block ih
  | branch test _ _ thenIH elseIH => exact .branch test thenIH elseIH
  | loop test _ ih => exact .loop test ih
  | labeled notLoop _ ih => exact .labeled notLoop ih
  | attempt _ passes _ spares _ bodyIH handlerIH finalIH =>
    exact .attempt bodyIH passes handlerIH spares finalIH
  | rethrow => exact .rethrow
  | bind value => exact .bind value
  | throwS value => exact .throwS value
  | answer value => exact .answer value
  | stackInc => exact .stackInc
  | letS init => exact .letS init
  | assign target value => exact .assign target value
  | expr e => exact .expr e
  | decl f => exact .decl f
  | breakS => exact .breakS
  | returnS value => exact .returnS value

/-- A statement under a test for normal mode. -/
theorem Stmt.Dual.guarded (dual : s.Dual strategy code true) :
    (Stmt.guarded .isNormal s).Dual strategy code normal :=
  .select dual fun _ mem => nomatch mem

/-- What stands under a test for normal mode is for normal mode. -/
theorem Stmt.Dual.under_guard (dual : (Stmt.guarded .isNormal s).Dual strategy code normal) :
    s.Dual strategy code true := by
  cases dual with
  | select inner _ => exact inner
  | branch _ inner _ => exact inner.to_normal

/-- Functions in two modes: the call is counted and the outermost frame taken before anything else,
the local for `new.target` apart. -/
inductive Func.Resumes (strategy : Strategy) : Func → Prop
  | intro {f : Func} {opening rest : List Stmt} :
      (opening = [] ∨ opening = [.letS newTargetLocal (some .newTarget)]) →
      f.body = opening ++ .stackDec :: .restoreFrame :: rest →
      (∀ s ∈ rest, Stmt.Dual strategy (Func.Resumes strategy) false s) →
      Func.Resumes strategy f

end Resumable
