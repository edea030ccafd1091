import Resumable.Instrument.CapturePoint
import Resumable.Instrument.Segment
import Resumable.Syntax.Transform

/-!
Instrumentation: programs that run in two modes.

Every function takes the outermost saved frame when it is entered in restoring mode, and then finds
its way to the statement it was paused at.  For that, a condition lets restoring runs pass exactly
into the parts that hold the label looked for, and all else runs in normal mode only:

* `if (t) A else B` enters `A` when `t` holds or the label is in `A`, else `B` in normal mode or
  when the label is in `B`;
* `while (t) B` goes on when the label is in `B` or `t` holds;
* `l: S` is entered in normal mode or when the label is in `S`;
* `try A catch (e) B` raises the saved exception again when the label is in `B`.

Calls are counted where a function is entered and left.
-/

namespace Resumable

/-- The local for `new.target` when constructors keep track of it. -/
def newTargetLocal : String :=
  "$newTarget"

/-- The local for a result that is looked at before it is returned. -/
def resultLocal : String :=
  "$retval"

/-- Restoring, with the label looked for among these: no condition at all without labels. -/
def restoringInto (labels : List Nat) : Option Expr :=
  if labels.isEmpty then none
  else some (.binary .and .isRestoring (.targetIn labels))

/-- The condition, or restoring into one of the labels. -/
def orRestoring (normal : Expr) (labels : List Nat) : Expr :=
  match restoringInto labels with
  | some restoring => .binary .or normal restoring
  | none => normal

/-! ## Guards -/

/-- What a statement does in normal mode, if it does nothing otherwise. -/
def Stmt.normalOnly? : Stmt → Option Stmt
  | .ifS .isNormal body none => some body
  | _ => none

/-- One guard for a run of statements. -/
def shareGuard : List Stmt → List Stmt
  | [] => []
  | [s] => [.guarded .isNormal s]
  | run => [.guarded .isNormal (.block run)]

/-- Statements under neighbouring guards share one; `run` holds what is waiting for its guard,
latest first. -/
def coalesceRun (run : List Stmt) : List Stmt → List Stmt
  | [] => shareGuard run.reverse
  | s :: rest => match s.normalOnly? with
    | some body => coalesceRun (body :: run) rest
    | none => shareGuard run.reverse ++ s :: coalesceRun [] rest

/-- Merge runs of statements that do nothing but in normal mode. -/
def coalesce (stmts : List Stmt) : List Stmt :=
  coalesceRun [] stmts

/-- A list of statements as one. -/
def Stmt.ofList : List Stmt → Stmt
  | [s] => s
  | stmts => .block stmts

/-! ## Segments in two modes -/

/-- How segments are transformed. -/
structure DualMode where
  strategy : Strategy
  /-- Returned values that are no objects give way to `this` in a construction. -/
  constructorReturns : Bool

namespace DualMode

/-- The result of a constructor: objects as they are, else the object under construction. -/
def constructorResult : Expr :=
  .cond
    (.binary .and (.ident newTargetLocal)
      (.unary .not (.binary .instanceOf (.ident resultLocal) (.ident "Object"))))
    .this (.ident resultLocal)

/-- A `return`, which ends the count of the call.  A returned call has no label: this activation is
never continued there. -/
def ret (mode : DualMode) (value : Option Expr) : AppType → List Stmt
  | .none =>
    if mode.constructorReturns then
      [.letS resultLocal (some (value.getD .undefined)), .stackInc,
        .returnS (some constructorResult)]
    else [.stackInc, .returnS value]
  | .mixed => [.returnS value]
  | .tail => [.stackInc, .guarded .isNormal (.returnS value)]

/-- A statement without labels: simple statements run in normal mode only. -/
def plain : Stmt → Stmt
  | s@(.letS ..) | s@(.assign ..) | s@(.expr _) | s@(.decl _) | s@(.throwS _) | s@(.breakS _)
  | s@(.continueS _) => .guarded .isNormal s
  | s => s

/-- The statement that raises the saved exception again, to get into a handler with these labels. -/
def intoHandler (param : String) (labels : List Nat) : List Stmt :=
  match restoringInto labels with
  | some restoring => [.guarded restoring (.throwS (.ident param))]
  | none => []

mutual

/-- The statements of a segment. -/
def segment (mode : DualMode) : Segment → List Stmt
  | .plain s => [plain s]
  | .capture label s => capturePoint mode.strategy label s
  | .ret value app => mode.ret value app
  | .block body => [.block (coalesce (mode.segments body))]
  | .branch test thenS elseS =>
    [.ifS (orRestoring (.binary .and .isNormal test) thenS.labels) (.ofList (mode.segment thenS))
      (mode.segmentElse elseS)]
  | .loop test body =>
    let normal := Expr.binary .and .isNormal test
    let test := match restoringInto body.labels with
      | some restoring => Expr.binary .or restoring normal
      | none => normal
    [.whileS test (.ofList (mode.segment body))]
  | .labeled label body =>
    [.guarded (orRestoring .isNormal body.labels) (.labeled label (.ofList (mode.segment body)))]
  | .attempt body handler final =>
    let opening := match handler with
      | some (param, segment) => intoHandler param segment.labels
      | none => []
    [.tryS (.block (opening ++ mode.segment body)) (mode.segmentHandler handler)
      (mode.segmentFinal final)]

def segments (mode : DualMode) : List Segment → List Stmt
  | [] => []
  | s :: rest => mode.segment s ++ mode.segments rest

/-- An `else` part, which is entered in normal mode or for its labels. -/
def segmentElse (mode : DualMode) : Option Segment → Option Stmt
  | none => none
  | some s => some (.guarded (orRestoring .isNormal s.labels) (.ofList (mode.segment s)))

/-- A handler, which passes signals on before it does anything else. -/
def segmentHandler (mode : DualMode) : Option (String × Segment) → Option Handler
  | none => none
  | some (param, s) => some ⟨param, .block (.rethrowSignal param :: mode.segment s)⟩

/-- A `finally` part, which does not run while frames are being collected. -/
def segmentFinal (mode : DualMode) : Option Segment → Option Stmt
  | none => none
  | some s => some (.guarded (.unary .not .capturing) (.ofList (mode.segment s)))

end

/-- The statements of a body. -/
def body (mode : DualMode) (segments : List Segment) : List Stmt :=
  coalesce (mode.segments segments)

end DualMode

/-! ## Functions and programs -/

/-- What is needed to save an activation of a function and to call it again. -/
def Analysis.layout (analysis : Analysis) (options : CompileOptions) : Layout :=
  { locals :=
      analysis.locals ++ if options.construction = .direct then [newTargetLocal] else []
    reentry :=
      if analysis.usesArguments then .arguments (options.fidelity ≠ .simple) else .params
    saveFormals := analysis.usesArguments && options.fidelity = .full }

/-- A function in two modes, once the functions inside of it are. -/
def Func.dualMode (options : CompileOptions) (f : Func) : Func :=
  let analysis := analyze f.body
  let direct : Bool := options.construction = .direct
  let mode : DualMode := ⟨options.strategy, direct⟩
  let opening : List Stmt := if direct then [.letS newTargetLocal (some .newTarget)] else []
  let closing : List Stmt :=
    if direct then [.guarded (.ident newTargetLocal) (.returnS (some .this))] else []
  { f with
    body := opening ++ [.stackDec, .restoreFrame] ++ mode.body analysis.body ++
      [.stackInc] ++ closing
    frame := some (analysis.layout options) }

/-- Nested functions in two modes, and constructions that the machine mediates. -/
def instrumenting (options : CompileOptions) : Transform Unit where
  expr _
    | .new callee args =>
      if options.construction = .wrapper then .handleNew callee args else .new callee args
    | e => e
  func _ f := f.dualMode options

/-- A function in two modes. -/
def Func.instrument (options : CompileOptions) (f : Func) : Func :=
  f.transform (instrumenting options) ()

/-- A program in two modes. -/
def Program.instrument (options : CompileOptions) (program : Program) : Program :=
  let analysis := analyze (Stmt.transformList (instrumenting options) () program.body)
  let mode : DualMode := ⟨options.strategy, false⟩
  { body := [.stackDec, .restoreFrame] ++ mode.body analysis.body ++ [.stackInc]
    instrumented := some
      { strategy := options.strategy
        construction := options.construction
        fidelity := options.fidelity
        yieldInterval := options.yieldInterval
        frame := {} } }

end Resumable
