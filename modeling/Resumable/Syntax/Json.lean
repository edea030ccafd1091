import Resumable.Json.Members
import Resumable.Json.Partial
import Resumable.Syntax.Basic

/-!
Guest programs as JSON.

Statements, expressions and targets are objects whose member `t` names their kind.  Writing gives
every member, except for an instrumentation header, a frame layout or an interval that is absent.
Reading ignores members it does not know, gives missing ones their defaults, and refuses members
that are written twice.

Within a statement the kind may also be given by its number, and an operator by an object whose only
member has the operator's name and no content.
-/

namespace Resumable

/-! ## Names of operators and options -/

def BinaryOp.name : BinaryOp → String
  | .add => "add"
  | .sub => "sub"
  | .mul => "mul"
  | .div => "div"
  | .mod => "mod"
  | .eq => "eq"
  | .notEq => "not_eq"
  | .lt => "lt"
  | .le => "le"
  | .gt => "gt"
  | .ge => "ge"
  | .and => "and"
  | .or => "or"
  | .instanceOf => "instance_of"

def BinaryOp.ofName? : String → Option BinaryOp
  | "add" => some .add
  | "sub" => some .sub
  | "mul" => some .mul
  | "div" => some .div
  | "mod" => some .mod
  | "eq" => some .eq
  | "not_eq" => some .notEq
  | "lt" => some .lt
  | "le" => some .le
  | "gt" => some .gt
  | "ge" => some .ge
  | "and" => some .and
  | "or" => some .or
  | "instance_of" => some .instanceOf
  | _ => none

def UnaryOp.name : UnaryOp → String
  | .not => "not"
  | .neg => "neg"
  | .typeOf => "type_of"

def UnaryOp.ofName? : String → Option UnaryOp
  | "not" => some .not
  | "neg" => some .neg
  | "type_of" => some .typeOf
  | _ => none

/-! ## Writing -/

namespace Json

/-- A tagged object. -/
def tagged (tag : String) (members : List (String × Json)) : Json :=
  .obj (("t", .str tag) :: members)

/-- A list of texts. -/
def strs (texts : List String) : Json :=
  .arr (texts.map .str)

/-- A count. -/
def count (n : Nat) : Json :=
  .int n

/-- A member that is left out when the value is absent. -/
def optional (name : String) (f : α → Json) : Option α → List (String × Json)
  | none => []
  | some a => [(name, f a)]

end Json

def Reentry.toJson : Reentry → Json
  | .params => .tagged "Params" []
  | .arguments sync => .tagged "Arguments" [("sync_formals", .bool sync)]

def Layout.toJson (layout : Layout) : Json :=
  .obj [("locals", .strs layout.locals), ("reentry", layout.reentry.toJson),
    ("save_formals", .bool layout.saveFormals)]

mutual

def Expr.toJson : Expr → Json
  | .num v => .tagged "Num" [("v", .ofFloat v)]
  | .str v => .tagged "Str" [("v", .str v)]
  | .bool v => .tagged "Bool" [("v", .bool v)]
  | .null => .tagged "Null" []
  | .undefined => .tagged "Undefined" []
  | .ident name => .tagged "Ident" [("name", .str name)]
  | .binary op left right =>
    .tagged "Binary" [("op", .str op.name), ("left", left.toJson), ("right", right.toJson)]
  | .unary op arg => .tagged "Unary" [("op", .str op.name), ("arg", arg.toJson)]
  | .cond test thenE elseE =>
    .tagged "Cond" [("test", test.toJson), ("then_e", thenE.toJson), ("else_e", elseE.toJson)]
  | .member object property =>
    .tagged "Member" [("object", object.toJson), ("property", .str property)]
  | .index object index => .tagged "Index" [("object", object.toJson), ("index", index.toJson)]
  | .call callee args =>
    .tagged "Call" [("callee", callee.toJson), ("args", .arr (Expr.listToJson args))]
  | .new callee args =>
    .tagged "New" [("callee", callee.toJson), ("args", .arr (Expr.listToJson args))]
  | .func f => .tagged "Function" [("func", f.toJson)]
  | .array elements => .tagged "Array" [("elements", .arr (Expr.listToJson elements))]
  | .object props => .tagged "Object" [("props", .arr (Expr.propsToJson props))]
  | .this => .tagged "This" []
  | .arguments => .tagged "Arguments" []
  | .isNormal => .tagged "IsNormal" []
  | .isRestoring => .tagged "IsRestoring" []
  | .targetIn labels => .tagged "TargetIn" [("labels", .arr (labels.map .count))]
  | .capturing => .tagged "Capturing" []
  | .reenterNext => .tagged "ReenterNext" []
  | .newTarget => .tagged "NewTarget" []
  | .suspend => .tagged "Suspend" []
  | .handleNew callee args =>
    .tagged "HandleNew" [("callee", callee.toJson), ("args", .arr (Expr.listToJson args))]

def Expr.listToJson : List Expr → List Json
  | [] => []
  | e :: rest => e.toJson :: Expr.listToJson rest

def Expr.optionToJson : Option Expr → Json
  | none => .null
  | some e => e.toJson

def Expr.propsToJson : List (String × Expr) → List Json
  | [] => []
  | (key, e) :: rest => .arr [.str key, e.toJson] :: Expr.propsToJson rest

def Target.toJson : Target → Json
  | .ident name => .tagged "Ident" [("name", .str name)]
  | .member object property =>
    .tagged "Member" [("object", object.toJson), ("property", .str property)]
  | .index object index => .tagged "Index" [("object", object.toJson), ("index", index.toJson)]

def Stmt.toJson : Stmt → Json
  | .block body => .tagged "Block" [("body", .arr (Stmt.listToJson body))]
  | .letS name init => .tagged "Let" [("name", .str name), ("init", Expr.optionToJson init)]
  | .assign target value =>
    .tagged "Assign" [("target", target.toJson), ("value", value.toJson)]
  | .expr e => .tagged "Expr" [("expr", e.toJson)]
  | .ifS test thenS elseS =>
    .tagged "If" [("test", test.toJson), ("then_s", thenS.toJson),
      ("else_s", Stmt.optionToJson elseS)]
  | .whileS test body => .tagged "While" [("test", test.toJson), ("body", body.toJson)]
  | .labeled label body => .tagged "Labeled" [("label", .str label), ("body", body.toJson)]
  | .breakS label => .tagged "Break" [("label", .ofOption .str label)]
  | .continueS label => .tagged "Continue" [("label", .ofOption .str label)]
  | .returnS value => .tagged "Return" [("value", Expr.optionToJson value)]
  | .throwS value => .tagged "Throw" [("value", value.toJson)]
  | .tryS body handler final =>
    .tagged "Try" [("body", body.toJson), ("catch", Handler.optionToJson handler),
      ("finally", Stmt.optionToJson final)]
  | .decl f => .tagged "FunctionDecl" [("func", f.toJson)]
  | .restoreFrame => .tagged "RestoreFrame" []
  | .stackDec => .tagged "StackDec" []
  | .stackInc => .tagged "StackInc" []
  | .recordOnCapture label body =>
    .tagged "RecordOnCapture" [("label", .count label), ("body", body.toJson)]
  | .shadowFrame label body =>
    .tagged "ShadowFrame" [("label", .count label), ("body", body.toJson)]
  | .returnIfCapturing label => .tagged "ReturnIfCapturing" [("label", .count label)]
  | .rethrowSignal name => .tagged "RethrowSignal" [("name", .str name)]

def Stmt.listToJson : List Stmt → List Json
  | [] => []
  | s :: rest => s.toJson :: Stmt.listToJson rest

def Stmt.optionToJson : Option Stmt → Json
  | none => .null
  | some s => s.toJson

def Handler.optionToJson : Option Handler → Json
  | none => .null
  | some ⟨param, body⟩ => .obj [("param", .str param), ("body", body.toJson)]

def Func.toJson : Func → Json
  | ⟨name, params, body, frame, _⟩ =>
    .obj ([("name", .ofOption .str name), ("params", .strs params),
      ("body", .arr (Stmt.listToJson body))] ++ Json.optional "frame" Layout.toJson frame)

end

def Instrumentation.toJson (header : Instrumentation) : Json :=
  .obj ([("strategy", .str header.strategy.name), ("new_method", .str header.construction.name),
    ("js_args", .str header.fidelity.name)] ++
    Json.optional "yield_interval" .count header.yieldInterval ++ [("frame", header.frame.toJson)])

def Program.toJson (program : Program) : Json :=
  .obj (("body", .arr (Stmt.listToJson program.body)) ::
    Json.optional "instrumented" Instrumentation.toJson program.instrumented)

/-! ## Reading -/

open Members (lacks required defaulted nullable)

namespace Syntax

/-- The kinds of statements, in the order of their numbers. -/
def stmtKinds : List String :=
  ["Block", "Let", "Assign", "Expr", "If", "While", "Labeled", "Break", "Continue", "Return",
    "Throw", "Try", "FunctionDecl", "RestoreFrame", "StackDec", "StackInc", "RecordOnCapture",
    "ShadowFrame",
    "ReturnIfCapturing", "RethrowSignal"]

/-- The kinds of expressions, in the order of their numbers. -/
def exprKinds : List String :=
  ["Num", "Str", "Bool", "Null", "Undefined", "Ident", "Binary", "Unary", "Cond", "Member",
    "Index", "Call", "New", "Function", "Array", "Object", "This", "Arguments", "IsNormal",
    "IsRestoring", "TargetIn",
    "Capturing", "ReenterNext", "NewTarget", "Suspend", "HandleNew"]

/-- The kinds of targets, in the order of their numbers. -/
def targetKinds : List String :=
  ["Ident", "Member", "Index"]

/-- The kinds of re-entry, in the order of their numbers. -/
def reentryKinds : List String :=
  ["Params", "Arguments"]

/-- The kind of a tagged object.  Only what is nested in a statement may give it by its number. -/
def kind? (kinds : List String) (nested : Bool) (members : List (String × Json)) : Option String :=
  required (fun
    | .str name => some name
    | .int i => if nested && 0 ≤ i then kinds[i.toNat]? else none
    | _ => none) "t" members

/-- The name of an operator, which may also be the only member of an object, without content. -/
def operatorName? : Json → Option String
  | .str name => some name
  | .obj [(name, .null)] | .obj [(name, .obj [])] => some name
  | _ => none

end Syntax

open Syntax (kind? operatorName?)

def Reentry.ofJson? (nested : Bool) : Json → Option Reentry
  | .obj members => do
    match ← kind? Syntax.reentryKinds nested members with
    | "Params" => return .params
    | "Arguments" => return .arguments (← required Json.bool? "sync_formals" members)
    | _ => none
  | _ => none

def Layout.ofJson? (nested : Bool) : Json → Option Layout
  | .obj members => do
    return {
      locals := ← required Members.texts "locals" members
      reentry := ← required (Reentry.ofJson? nested) "reentry" members
      saveFormals := ← defaulted Json.bool? false "save_formals" members
    }
  | _ => none

mutual

def Expr.ofJson? : Json → Option Expr
  | .obj members => do
    match ← kind? Syntax.exprKinds true members with
    | "Num" => return .num (← required Json.number? "v" members)
    | "Str" => return .str (← required Json.str? "v" members)
    | "Bool" => return .bool (← required Json.bool? "v" members)
    | "Null" => return .null
    | "Undefined" => return .undefined
    | "Ident" => return .ident (← required Json.str? "name" members)
    | "Binary" =>
      let op ← required operatorName? "op" members >>= BinaryOp.ofName?
      return .binary op (← Expr.at? "left" members) (← Expr.at? "right" members)
    | "Unary" =>
      let op ← required operatorName? "op" members >>= UnaryOp.ofName?
      return .unary op (← Expr.at? "arg" members)
    | "Cond" =>
      return .cond (← Expr.at? "test" members) (← Expr.at? "then_e" members)
        (← Expr.at? "else_e" members)
    | "Member" =>
      return .member (← Expr.at? "object" members) (← required Json.str? "property" members)
    | "Index" => return .index (← Expr.at? "object" members) (← Expr.at? "index" members)
    | "Call" => return .call (← Expr.at? "callee" members) (← Expr.listAt? "args" members)
    | "New" => return .new (← Expr.at? "callee" members) (← Expr.listAt? "args" members)
    | "Function" => return .func (← Func.at? "func" members)
    | "Array" => return .array (← Expr.listAt? "elements" members)
    | "Object" => return .object (← Expr.propsAt? "props" members)
    | "This" => return .this
    | "Arguments" => return .arguments
    | "IsNormal" => return .isNormal
    | "IsRestoring" => return .isRestoring
    | "TargetIn" => return .targetIn (← required Members.counts "labels" members)
    | "Capturing" => return .capturing
    | "ReenterNext" => return .reenterNext
    | "NewTarget" => return .newTarget
    | "Suspend" => return .suspend
    | "HandleNew" =>
      return .handleNew (← Expr.at? "callee" members) (← Expr.listAt? "args" members)
    | _ => none
  | _ => none

/-- The expression in the only member of that name. -/
def Expr.at? (name : String) : List (String × Json) → Option Expr
  | [] => none
  | (key, value) :: rest =>
    if key = name then if lacks name rest then Expr.ofJson? value else none
    else Expr.at? name rest

/-- The expression in a member that may be missing or `null`. -/
def Expr.optionAt? (name : String) : List (String × Json) → Option (Option Expr)
  | [] => some none
  | (key, value) :: rest =>
    if key = name then
      if lacks name rest then
        match value with
        | .null => some none
        | value => (Expr.ofJson? value).map some
      else none
    else Expr.optionAt? name rest

/-- The expressions in a member that may be missing. -/
def Expr.listAt? (name : String) : List (String × Json) → Option (List Expr)
  | [] => some []
  | (key, value) :: rest =>
    if key = name then
      if lacks name rest then
        match value with
        | .arr items => Expr.listOfJson? items
        | _ => none
      else none
    else Expr.listAt? name rest

def Expr.listOfJson? : List Json → Option (List Expr)
  | [] => some []
  | value :: rest => do return (← Expr.ofJson? value) :: (← Expr.listOfJson? rest)

/-- The properties in a member that may be missing. -/
def Expr.propsAt? (name : String) : List (String × Json) → Option (List (String × Expr))
  | [] => some []
  | (key, value) :: rest =>
    if key = name then
      if lacks name rest then
        match value with
        | .arr items => Expr.propsOfJson? items
        | _ => none
      else none
    else Expr.propsAt? name rest

def Expr.propsOfJson? : List Json → Option (List (String × Expr))
  | [] => some []
  | .arr [.str key, value] :: rest => do
    return (key, ← Expr.ofJson? value) :: (← Expr.propsOfJson? rest)
  | _ :: _ => none

def Target.ofJson? : Json → Option Target
  | .obj members => do
    match ← kind? Syntax.targetKinds true members with
    | "Ident" => return .ident (← required Json.str? "name" members)
    | "Member" =>
      return .member (← Expr.at? "object" members) (← required Json.str? "property" members)
    | "Index" => return .index (← Expr.at? "object" members) (← Expr.at? "index" members)
    | _ => none
  | _ => none

/-- The target in the only member of that name. -/
def Target.at? (name : String) : List (String × Json) → Option Target
  | [] => none
  | (key, value) :: rest =>
    if key = name then if lacks name rest then Target.ofJson? value else none
    else Target.at? name rest

def Stmt.ofJson? (nested : Bool) : Json → Option Stmt
  | .obj members => do
    match ← kind? Syntax.stmtKinds nested members with
    | "Block" => return .block (← Stmt.listAt? true "body" members)
    | "Let" =>
      return .letS (← required Json.str? "name" members) (← Expr.optionAt? "init" members)
    | "Assign" => return .assign (← Target.at? "target" members) (← Expr.at? "value" members)
    | "Expr" => return .expr (← Expr.at? "expr" members)
    | "If" =>
      return .ifS (← Expr.at? "test" members) (← Stmt.at? "then_s" members)
        (← Stmt.optionAt? "else_s" members)
    | "While" => return .whileS (← Expr.at? "test" members) (← Stmt.at? "body" members)
    | "Labeled" =>
    return .labeled (← required Json.str? "label" members) (← Stmt.at? "body" members)
    | "Break" => return .breakS (← nullable Json.str? "label" members)
    | "Continue" => return .continueS (← nullable Json.str? "label" members)
    | "Return" => return .returnS (← Expr.optionAt? "value" members)
    | "Throw" => return .throwS (← Expr.at? "value" members)
    | "Try" =>
      return .tryS (← Stmt.at? "body" members) (← Handler.optionAt? "catch" members)
        (← Stmt.optionAt? "finally" members)
    | "FunctionDecl" => return .decl (← Func.at? "func" members)
    | "RestoreFrame" => return .restoreFrame
    | "StackDec" => return .stackDec
    | "StackInc" => return .stackInc
    | "RecordOnCapture" =>
      return .recordOnCapture (← required Json.count? "label" members) (← Stmt.at? "body" members)
    | "ShadowFrame" =>
      return .shadowFrame (← required Json.count? "label" members) (← Stmt.at? "body" members)
    | "ReturnIfCapturing" => return .returnIfCapturing (← required Json.count? "label" members)
    | "RethrowSignal" => return .rethrowSignal (← required Json.str? "name" members)
    | _ => none
  | _ => none

/-- The statement in the only member of that name. -/
def Stmt.at? (name : String) : List (String × Json) → Option Stmt
  | [] => none
  | (key, value) :: rest =>
    if key = name then if lacks name rest then Stmt.ofJson? true value else none
    else Stmt.at? name rest

/-- The statement in a member that may be missing or `null`. -/
def Stmt.optionAt? (name : String) : List (String × Json) → Option (Option Stmt)
  | [] => some none
  | (key, value) :: rest =>
    if key = name then
      if lacks name rest then
        match value with
        | .null => some none
        | value => (Stmt.ofJson? true value).map some
      else none
    else Stmt.optionAt? name rest

/-- The statements in the only member of that name. -/
def Stmt.listAt? (nested : Bool) (name : String) : List (String × Json) → Option (List Stmt)
  | [] => none
  | (key, value) :: rest =>
    if key = name then
      if lacks name rest then
        match value with
        | .arr items => Stmt.listOfJson? nested items
        | _ => none
      else none
    else Stmt.listAt? nested name rest

def Stmt.listOfJson? (nested : Bool) : List Json → Option (List Stmt)
  | [] => some []
  | value :: rest => do
    return (← Stmt.ofJson? nested value) :: (← Stmt.listOfJson? nested rest)

def Handler.ofJson? : Json → Option Handler
  | .obj members => do
    return { param := ← required Json.str? "param" members, body := ← Stmt.at? "body" members }
  | _ => none

/-- The handler in a member that may be missing or `null`. -/
def Handler.optionAt? (name : String) : List (String × Json) → Option (Option Handler)
  | [] => some none
  | (key, value) :: rest =>
    if key = name then
      if lacks name rest then
        match value with
        | .null => some none
        | value => (Handler.ofJson? value).map some
      else none
    else Handler.optionAt? name rest

def Func.ofJson? (nested : Bool) : Json → Option Func
  | .obj members => do
    return {
      name := ← nullable Json.str? "name" members
      params := ← defaulted Members.texts [] "params" members
      body := ← Stmt.listAt? nested "body" members
      frame := ← nullable (Layout.ofJson? nested) "frame" members
    }
  | _ => none

/-- The function in the only member of that name. -/
def Func.at? (name : String) : List (String × Json) → Option Func
  | [] => none
  | (key, value) :: rest =>
    if key = name then if lacks name rest then Func.ofJson? true value else none
    else Func.at? name rest

end

def Instrumentation.ofJson? : Json → Option Instrumentation
  | .obj members => do
    return {
      strategy := ← required (Members.named Strategy.ofName) "strategy" members
      construction := ← required (Members.named Construction.ofName) "new_method" members
      fidelity := ← required (Members.named Fidelity.ofName) "js_args" members
      yieldInterval := ← nullable Json.count? "yield_interval" members
      frame := ← required (Layout.ofJson? false) "frame" members
    }
  | _ => none

/-- What matters in the text of a program. -/
def Program.shape : Json.Shape :=
  .record [("body", .whole),
    ("instrumented", .record [("strategy", .whole), ("new_method", .whole), ("js_args", .whole),
      ("yield_interval", .whole),
      ("frame", .record [("locals", .whole), ("reentry", .whole), ("save_formals", .whole)])])]

def Program.ofJson? : Json → Option Program
  | .obj members => do
    return {
      body := ← Stmt.listAt? false "body" members
      instrumented := ← nullable Instrumentation.ofJson? "instrumented" members
    }
  | _ => none

end Resumable
