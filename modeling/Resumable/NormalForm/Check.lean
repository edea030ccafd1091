import Resumable.NormalForm.Visit

/-!
The normal-form checker.

A program in normal form has its calls as whole values of statements, operands that are names or
literals, and loops that are labeled.  `violations` lists all violations of one rule after the
other, and within a rule in the order of the program.
-/

namespace Resumable

mutual

/-- The expression holds an application, not counting the bodies of function literals. -/
def Expr.containsApplication : Expr → Bool
  | .call .. | .new .. | .handleNew .. | .suspend => true
  | .binary _ left right => left.containsApplication || right.containsApplication
  | .unary _ arg => arg.containsApplication
  | .cond test thenE elseE =>
    test.containsApplication || thenE.containsApplication || elseE.containsApplication
  | .member base _ => base.containsApplication
  | .index base key => base.containsApplication || key.containsApplication
  | .array elements => Expr.anyApplication elements
  | .object props => Expr.anyPropApplication props
  | _ => false

def Expr.anyApplication : List Expr → Bool
  | [] => false
  | e :: rest => e.containsApplication || Expr.anyApplication rest

def Expr.anyPropApplication : List (String × Expr) → Bool
  | [] => false
  | (_, e) :: rest => e.containsApplication || Expr.anyPropApplication rest

end

/-- What kind of expression it is, in words. -/
def Expr.shape : Expr → String
  | .binary .. => "binary expression"
  | .unary .. => "unary expression"
  | .cond .. => "conditional"
  | .member .. | .index .. => "property access"
  | .call .. => "call"
  | .new .. | .handleNew .. => "construction"
  | .array _ => "array literal"
  | .object _ => "object literal"
  | .ident _ => "name"
  | .func _ => "function literal"
  | _ => "literal"

namespace NormalForm

/-! ## Reserved names and nodes -/

/-- Names that begin with a dollar sign belong to instrumentation. -/
def checkName (name : String) : List Cause :=
  if name.startsWith "$" then [.reservedName name] else []

/-- The mark of a part that only instrumentation writes. -/
def checkForeign (isInstrumentation : Bool) : List Cause :=
  if isInstrumentation then [.instrumentationNode] else []

def checkReserved : Node → List Cause
  | .stmt s _ => checkForeign s.isInstrumentation ++ match s with
    | .letS name _ | .assign (.ident name) _ | .labeled name _ => checkName name
    | .tryS _ (some handler) _ => checkName handler.param
    | _ => []
  | .expr e => checkForeign e.isInstrumentation ++ match e with
    | .ident name => checkName name
    | _ => []
  | .func f =>
    checkForeign f.frame.isSome ++ (f.name.toList ++ f.params).flatMap checkName

/-! ## Positions of calls -/

/-- No call may be part of this expression. -/
def checkNested (place : Place) (e : Expr) : List Cause :=
  if e.containsApplication then [.nestedCall place] else []

/-- The expression may be a call, but none may be part of it. -/
def checkWhole : Expr → List Cause
  | .call callee args | .new callee args | .handleNew callee args =>
    checkNested .callee callee ++ args.flatMap (checkNested .argument)
  | e => checkNested .expression e

def checkCallPosition : Node → List Cause
  | .stmt s _ => match s with
    | .letS _ (some e) | .expr e | .returnS (some e) => checkWhole e
    | .assign target value =>
      (match target with
        | .ident _ => []
        | .member object _ => checkNested .assignmentTarget object
        | .index object index =>
          checkNested .assignmentTarget object ++ checkNested .assignmentTarget index) ++
        checkWhole value
    | .ifS test _ _ => checkNested .ifTest test
    | .whileS test _ => checkNested .loopTest test
    | .throwS value => checkNested .throwValue value
    | _ => []
  | _ => []

/-! ## Operands -/

/-- This operand has to be atomic. -/
def checkAtomic (role : Role) (e : Expr) : List Cause :=
  if e.isAtomic then [] else [.notAtomic role e.shape]

/-- The callee of a method call is a property, whose object is checked on its own. -/
def checkCallee : Expr → List Cause
  | .member .. => []
  | e => checkAtomic .callee e

def checkOperands : Node → List Cause
  | .stmt s _ => match s with
    | .assign (.member object _) _ => checkAtomic .targetObject object
    | .assign (.index object index) _ =>
      checkAtomic .targetObject object ++ checkAtomic .targetIndex index
    | .expr e => if e.isAtomic then [.noEffect e.shape] else []
    | _ => []
  | .expr e => match e with
    | .binary _ left right => checkAtomic .leftOperand left ++ checkAtomic .rightOperand right
    | .unary _ arg => checkAtomic .operand arg
    | .cond test thenE elseE =>
      checkAtomic .condition test ++ checkAtomic .branch thenE ++ checkAtomic .branch elseE
    | .member object _ => checkAtomic .object object
    | .index object index => checkAtomic .object object ++ checkAtomic .index index
    | .call callee args => checkCallee callee ++ args.flatMap (checkAtomic .argument)
    | .new callee args | .handleNew callee args =>
      checkAtomic .constructor callee ++ args.flatMap (checkAtomic .argument)
    | .array elements => elements.flatMap (checkAtomic .arrayElement)
    | .object props => props.flatMap fun (key, e) => checkAtomic (.property key) e
    | _ => []
  | .func _ => []

/-! ## Loops -/

def checkLoop : Node → List Cause
  | .stmt (.whileS ..) isLabeled => if isLabeled then [] else [.unlabeledLoop]
  | .stmt (.continueS _) _ => [.continueStatement]
  | _ => []

/-! ## The whole program -/

/-- What one rule finds at one part of a program. -/
def Rule.check : Rule → Node → List Cause
  | .reserved => checkReserved
  | .callPosition => checkCallPosition
  | .atomicOperands => checkOperands
  | .canonicalLoop => checkLoop

/-- What one rule finds on the program as such. -/
def Rule.checkHeader (rule : Rule) (program : Program) : List Violation :=
  if rule = .reserved ∧ program.instrumented.isSome then [⟨.program, .alreadyInstrumented⟩] else []

/-- What one rule finds in a program. -/
def Rule.violations (rule : Rule) (program : Program) : List Violation :=
  rule.checkHeader program ++
    (visits program).flatMap fun visit => (rule.check visit.node).map (⟨visit.location, ·⟩)

/-- What is wrong with a program. -/
def violations (program : Program) : List Violation :=
  Rule.all.flatMap (·.violations program)

/-- The violations that keep the program from being instrumented. -/
def errors (program : Program) : List Violation :=
  (violations program).filter (·.cause.isError)

/-- The program is not in normal form. -/
def hasErrors (program : Program) : Bool :=
  (violations program).any (·.cause.isError)

end NormalForm

end Resumable
