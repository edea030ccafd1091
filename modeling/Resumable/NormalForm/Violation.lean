/-!
Violations of the normal form.

A violation has a cause, and its cause decides its rule, its severity and its wording.
-/

namespace Resumable.NormalForm

/-- The rules of the normal form, in the order in which they are checked. -/
inductive Rule where
  | reserved
  | callPosition
  | atomicOperands
  | canonicalLoop
  deriving DecidableEq, Repr

namespace Rule

def all : List Rule :=
  [.reserved, .callPosition, .atomicOperands, .canonicalLoop]

def id : Rule → String
  | .reserved => "reserved"
  | .callPosition => "call-position"
  | .atomicOperands => "atomic-operands"
  | .canonicalLoop => "canonical-loop"

def description : Rule → String
  | .reserved => "reserved names and instrumentation nodes are not allowed in input"
  | .callPosition => "calls must be the whole value of a let, assignment, expression or return"
  | .atomicOperands => "operands must be names or literals"
  | .canonicalLoop => "loops must be labeled while statements without continue"

end Rule

/-- Where a statement stands: in which functions, outermost first, and which statement of the
innermost one it is. -/
inductive Location where
  | program
  | statement (scope : List String) (number : Nat)
  deriving DecidableEq, Repr

def Location.text : Location → String
  | .program => "program"
  | .statement scope number => " > ".intercalate scope ++ " > statement " ++ toString number

/-- A place in which a call would be part of something else. -/
inductive Place where
  | callee
  | argument
  | expression
  | assignmentTarget
  | ifTest
  | loopTest
  | throwValue
  deriving DecidableEq, Repr

def Place.text : Place → String
  | .callee => "a callee"
  | .argument => "an argument"
  | .expression => "an expression"
  | .assignmentTarget => "an assignment target"
  | .ifTest => "an if test"
  | .loopTest => "a loop test"
  | .throwValue => "a throw"

/-- The part that an operand plays. -/
inductive Role where
  | leftOperand
  | rightOperand
  | operand
  | condition
  | branch
  | object
  | index
  | callee
  | constructor
  | argument
  | arrayElement
  | property (key : String)
  | targetObject
  | targetIndex
  deriving DecidableEq, Repr

def Role.text : Role → String
  | .leftOperand => "left operand"
  | .rightOperand => "right operand"
  | .operand => "operand"
  | .condition => "condition"
  | .branch => "branch"
  | .object => "object"
  | .index => "index"
  | .callee => "callee"
  | .constructor => "constructor"
  | .argument => "argument"
  | .arrayElement => "array element"
  | .property key => s!"property '{key}'"
  | .targetObject => "assignment target object"
  | .targetIndex => "assignment target index"

/-- What is wrong. -/
inductive Cause where
  | alreadyInstrumented
  | reservedName (name : String)
  | instrumentationNode
  | nestedCall (place : Place)
  | notAtomic (role : Role) (shape : String)
  | noEffect (shape : String)
  | unlabeledLoop
  | continueStatement
  deriving DecidableEq, Repr

namespace Cause

def rule : Cause → Rule
  | .alreadyInstrumented | .reservedName _ | .instrumentationNode => .reserved
  | .nestedCall _ => .callPosition
  | .notAtomic .. | .noEffect _ => .atomicOperands
  | .unlabeledLoop | .continueStatement => .canonicalLoop

/-- Errors keep a program from being instrumented, and a warning does not. -/
def isError : Cause → Bool
  | .noEffect _ => false
  | _ => true

def message : Cause → String
  | .alreadyInstrumented => "program is already instrumented"
  | .reservedName name => s!"'{name}' uses the reserved '$' prefix"
  | .instrumentationNode => "instrumentation node in input"
  | .nestedCall place => s!"call inside {place.text} must be lifted into its own statement"
  | .notAtomic role shape => s!"{role.text} is not atomic: {shape}"
  | .noEffect shape => s!"expression statement has no effect: {shape}"
  | .unlabeledLoop => "loop is not the body of a labeled statement"
  | .continueStatement => "continue must be rewritten to a labeled break"

/-- The name of the severity. -/
def severity (cause : Cause) : String :=
  if cause.isError then "error" else "warning"

end Cause

structure Violation where
  location : Location
  cause : Cause
  deriving DecidableEq, Repr

/-- The violation in one line. -/
def Violation.display (v : Violation) : String :=
  s!"{v.cause.severity} in {v.location.text}: {v.cause.message} [{v.cause.rule.id}]"

end Resumable.NormalForm
