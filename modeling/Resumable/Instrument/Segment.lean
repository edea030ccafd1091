import Resumable.NormalForm.Check

/-!
Segments: the statements of a function with labels on the applications it may be paused in.

Applications that are the whole value of a `let`, an assignment or an expression statement are
numbered from 0 in the order in which they are written.  A call that is returned inside of a `try`
is first bound to a local of its own, because a handler or a `finally` still has to run after it.
Nested functions are left alone.
-/

namespace Resumable

/-- How much a statement has to do with applications. -/
inductive AppType where
  /-- There is none. -/
  | none
  /-- The application is returned: what resumes it resumes the caller. -/
  | tail
  /-- The value of the application is still needed. -/
  | mixed
  deriving DecidableEq, Repr

/-- The stronger of the two. -/
def AppType.max : AppType → AppType → AppType
  | .mixed, _ | _, .mixed => .mixed
  | .tail, _ | _, .tail => .tail
  | .none, .none => .none

def AppType.name : AppType → String
  | .none => "None"
  | .tail => "Tail"
  | .mixed => "Mixed"

/-- The local for the result of a call that is returned inside of a `try`. -/
def tailResult : String :=
  "$tail"

inductive Segment where
  /-- A statement that needs no label. -/
  | plain (stmt : Stmt)
  /-- A statement whose application has that label. -/
  | capture (label : Nat) (stmt : Stmt)
  | ret (value : Option Expr) (app : AppType)
  | block (body : List Segment)
  | branch (test : Expr) (thenS : Segment) (elseS : Option Segment)
  | loop (test : Expr) (body : Segment)
  | labeled (label : String) (body : Segment)
  | attempt (body : Segment) (handler : Option (String × Segment)) (final : Option Segment)

namespace Segment

instance : Inhabited Segment := ⟨.block []⟩

mutual

/-- The labels in a segment, in the order in which they are written. -/
def labels : Segment → List Nat
  | .plain _ | .ret .. => []
  | .capture label _ => [label]
  | .block body => listLabels body
  | .branch _ thenS elseS => thenS.labels ++ optionLabels elseS
  | .loop _ body | .labeled _ body => body.labels
  | .attempt body handler final => body.labels ++ handlerLabels handler ++ optionLabels final

def listLabels : List Segment → List Nat
  | [] => []
  | s :: rest => s.labels ++ listLabels rest

def optionLabels : Option Segment → List Nat
  | none => []
  | some s => s.labels

def handlerLabels : Option (String × Segment) → List Nat
  | none => []
  | some (_, s) => s.labels

end

mutual

/-- The strongest relation to applications in a segment. -/
def appType : Segment → AppType
  | .plain _ => .none
  | .capture .. => .mixed
  | .ret _ app => app
  | .block body => listAppType body
  | .branch _ thenS elseS => thenS.appType.max (optionAppType elseS)
  | .loop _ body | .labeled _ body => body.appType
  | .attempt body handler final =>
    (body.appType.max (handlerAppType handler)).max (optionAppType final)

def listAppType : List Segment → AppType
  | [] => .none
  | s :: rest => s.appType.max (listAppType rest)

def optionAppType : Option Segment → AppType
  | none => .none
  | some s => s.appType

def handlerAppType : Option (String × Segment) → AppType
  | none => .none
  | some (_, s) => s.appType

end

end Segment

/-! ## Labeling -/

/-- A statement without others in it: it takes a label when it carries an application. -/
def Stmt.leaf (next : Nat) (s : Stmt) : Segment × Nat :=
  if s.application.isSome then (.capture next s, next + 1) else (.plain s, next)

/-- A returned value. -/
def returnApp : Option Expr → AppType
  | none => .none
  | some e =>
    if e.isApplication then .tail else if e.containsApplication then .mixed else .none

mutual

/-- The segment of a statement, whose labels begin at `next`, and the label after them. -/
def Stmt.segment (inTry : Bool) (next : Nat) : Stmt → Segment × Nat
  | .letS name init => Stmt.leaf next (.letS name init)
  | .assign target value => Stmt.leaf next (.assign target value)
  | .expr e => Stmt.leaf next (.expr e)
  | .returnS (some e) =>
    if inTry && e.isApplication then
      let (call, next) := Stmt.leaf next (.letS tailResult (some e))
      (.block [call, .ret (some (.ident tailResult)) .none], next)
    else (.ret (some e) (returnApp (some e)), next)
  | .returnS none => (.ret none .none, next)
  | .block body =>
    let (segments, next) := Stmt.segments inTry next body
    (.block segments, next)
  | .ifS test thenS elseS =>
    let (thenS, next) := thenS.segment inTry next
    let (elseS, next) := Stmt.segmentOption inTry next elseS
    (.branch test thenS elseS, next)
  | .whileS test body =>
    let (body, next) := body.segment inTry next
    (.loop test body, next)
  | .labeled label body =>
    let (body, next) := body.segment inTry next
    (.labeled label body, next)
  | .tryS body handler final =>
    let (body, next) := body.segment true next
    let (handler, next) := Handler.segmentOption next handler
    let (final, next) := Stmt.segmentOption true next final
    (.attempt body handler final, next)
  | s => (.plain s, next)

def Stmt.segments (inTry : Bool) (next : Nat) : List Stmt → List Segment × Nat
  | [] => ([], next)
  | s :: rest =>
    let (segment, next) := s.segment inTry next
    let (segments, next) := Stmt.segments inTry next rest
    (segment :: segments, next)

def Stmt.segmentOption (inTry : Bool) (next : Nat) : Option Stmt → Option Segment × Nat
  | none => (none, next)
  | some s =>
    let (segment, next) := s.segment inTry next
    (some segment, next)

def Handler.segmentOption (next : Nat) : Option Handler → Option (String × Segment) × Nat
  | none => (none, next)
  | some ⟨param, body⟩ =>
    let (segment, next) := body.segment true next
    (some (param, segment), next)

end

/-! ## Locals -/

mutual

/-- The names that a statement binds in its function, in the order in which they are written. -/
def Stmt.boundNames (inTry : Bool) : Stmt → List String
  | .letS name _ => [name]
  | .decl f => f.boundName
  | .returnS (some e) => if inTry && e.isApplication then [tailResult] else []
  | .block body => Stmt.boundNamesList inTry body
  | .ifS _ thenS elseS => thenS.boundNames inTry ++ Stmt.boundNamesOption inTry elseS
  | .whileS _ body | .labeled _ body => body.boundNames inTry
  | .tryS body handler final =>
    body.boundNames true ++ Handler.boundNamesOption handler ++ Stmt.boundNamesOption true final
  | _ => []

def Stmt.boundNamesList (inTry : Bool) : List Stmt → List String
  | [] => []
  | s :: rest => s.boundNames inTry ++ Stmt.boundNamesList inTry rest

def Stmt.boundNamesOption (inTry : Bool) : Option Stmt → List String
  | none => []
  | some s => s.boundNames inTry

def Handler.boundNamesOption : Option Handler → List String
  | none => []
  | some ⟨param, body⟩ => param :: body.boundNames true

def Func.boundName : Func → List String
  | ⟨name, _, _, _, _⟩ => name.toList

end

/-! ## Uses of `arguments` -/

mutual

/-- The expression reads `arguments`, not counting the bodies of function literals. -/
def Expr.readsArguments : Expr → Bool
  | .arguments => true
  | .binary _ left right => left.readsArguments || right.readsArguments
  | .unary _ arg => arg.readsArguments
  | .cond test thenE elseE => test.readsArguments || thenE.readsArguments || elseE.readsArguments
  | .member base _ => base.readsArguments
  | .index base key => base.readsArguments || key.readsArguments
  | .call callee args | .new callee args | .handleNew callee args =>
    callee.readsArguments || Expr.anyReadsArguments args
  | .array elements => Expr.anyReadsArguments elements
  | .object props => Expr.anyPropReadsArguments props
  | _ => false

def Expr.anyReadsArguments : List Expr → Bool
  | [] => false
  | e :: rest => e.readsArguments || Expr.anyReadsArguments rest

def Expr.anyPropReadsArguments : List (String × Expr) → Bool
  | [] => false
  | (_, e) :: rest => e.readsArguments || Expr.anyPropReadsArguments rest

end

def Target.readsArguments : Target → Bool
  | .ident _ => false
  | .member base _ => base.readsArguments
  | .index base key => base.readsArguments || key.readsArguments

mutual

/-- The statement reads `arguments`. -/
def Stmt.readsArguments : Stmt → Bool
  | .letS _ (some e) | .expr e | .throwS e | .returnS (some e) => e.readsArguments
  | .assign target value => value.readsArguments || target.readsArguments
  | .block body => Stmt.anyReadsArguments body
  | .ifS test thenS elseS =>
    test.readsArguments || thenS.readsArguments || Stmt.optionReadsArguments elseS
  | .whileS test body => test.readsArguments || body.readsArguments
  | .labeled _ body => body.readsArguments
  | .tryS body handler final =>
    body.readsArguments || Handler.optionReadsArguments handler || Stmt.optionReadsArguments final
  | _ => false

def Stmt.anyReadsArguments : List Stmt → Bool
  | [] => false
  | s :: rest => s.readsArguments || Stmt.anyReadsArguments rest

def Stmt.optionReadsArguments : Option Stmt → Bool
  | none => false
  | some s => s.readsArguments

def Handler.optionReadsArguments : Option Handler → Bool
  | none => false
  | some ⟨_, body⟩ => body.readsArguments

end

/-! ## The analysis of a body -/

/-- What instrumentation has to know of a function body. -/
structure Analysis where
  body : List Segment
  /-- The names the body binds, in the order of their first appearance. -/
  locals : List String
  usesArguments : Bool
  labelCount : Nat

/-- The analysis of a list of statements. -/
def analyze (body : List Stmt) : Analysis :=
  let (segments, labelCount) := Stmt.segments false 0 body
  { body := segments
    locals := (Stmt.boundNamesList false body).eraseDups
    usesArguments := Stmt.anyReadsArguments body
    labelCount }

end Resumable
