import Resumable.Double.Reader
import Resumable.Double.Text
import Resumable.Text.Blank

/-!
Guest values.

Objects, arrays, closures and continuations live in the store of a machine, and values refer to them
by number: two references are equal exactly when they have the same number.
-/

namespace Resumable

structure ScopeId where
  index : Nat
  deriving DecidableEq, Repr

structure ObjectId where
  index : Nat
  deriving DecidableEq, Repr

structure ArrayId where
  index : Nat
  deriving DecidableEq, Repr

structure ClosureId where
  index : Nat
  deriving DecidableEq, Repr

structure ContinuationId where
  index : Nat
  deriving DecidableEq, Repr

/-- The functions a machine brings along. -/
inductive Native where
  | print
  | captureCC
  | callCC
  | abortCC
  | object
  | array
  | error
  /-- Of arrays. -/
  | push
  /-- Of arrays. -/
  | pop
  deriving DecidableEq, Repr

namespace Native

def name : Native → String
  | .print => "print"
  | .captureCC => "captureCC"
  | .callCC => "callCC"
  | .abortCC => "abortCC"
  | .object => "Object"
  | .array => "Array"
  | .error => "Error"
  | .push => "push"
  | .pop => "pop"

/-- The natives that can be used with `new`. -/
def isConstructor : Native → Bool
  | .object | .array | .error => true
  | _ => false

/-- The natives that are global. -/
def globals : List Native :=
  [.print, .captureCC, .callCC, .abortCC, .object, .array, .error]

end Native

/-- A guest error: a code and a message. -/
structure ErrorInfo where
  code : String
  message : String
  deriving DecidableEq, Repr

def ErrorInfo.display (info : ErrorInfo) : String :=
  info.code ++ ": " ++ info.message

inductive Value where
  | undefined
  | null
  | bool (value : Bool)
  | num (value : Float)
  | str (value : String)
  | array (id : ArrayId)
  | object (id : ObjectId)
  | closure (id : ClosureId)
  | native (native : Native)
  | continuation (id : ContinuationId)
  /-- What handlers are given where there are no continuations. -/
  | fudged
  | error (info : ErrorInfo)
  deriving Inhabited

namespace Value

/-- Strict equality: primitives by value, natives by name, errors by content, references by
identity. -/
def same : Value → Value → Bool
  | .undefined, .undefined | .null, .null | .fudged, .fudged => true
  | .bool a, .bool b => a == b
  | .num a, .num b => a == b
  | .str a, .str b => a == b
  | .error a, .error b => a == b
  | .array a, .array b => a == b
  | .object a, .object b => a == b
  | .closure a, .closure b => a == b
  | .native a, .native b => a == b
  | .continuation a, .continuation b => a == b
  | _, _ => false

def isTruthy : Value → Bool
  | .undefined | .null => false
  | .bool b => b
  | .num x => x != 0 && !x.isNaN
  | .str s => !s.isEmpty
  | _ => true

def isCallable : Value → Bool
  | .closure _ | .native _ | .continuation _ | .fudged => true
  | _ => false

/-- The values that a constructor may return in place of `this`. -/
def isObject : Value → Bool
  | .array _ | .object _ | .closure _ | .native _ | .error _ => true
  | _ => false

def typeOf : Value → String
  | .undefined => "undefined"
  | .bool _ => "boolean"
  | .num _ => "number"
  | .str _ => "string"
  | .closure _ | .native _ | .continuation _ | .fudged => "function"
  | .null | .array _ | .object _ | .error _ => "object"

/-- The number that a value stands for in arithmetic.  Blank texts are zero. -/
def toNumber : Value → Float
  | .num x => x
  | .bool true => 1
  | .bool false | .null => 0
  | .str s =>
    let text := Text.trim s.toList
    if text.isEmpty then 0 else (Double.ofText? text).getD Double.nan
  | _ => Double.nan

/-- The position in a list that a value stands for: a number that is integral and not negative.
Numbers too large for 64 bits stand for the last position there can be. -/
def toIndex? : Value → Option Nat
  | .num x => if 0 ≤ x && Double.isIntegral x then some x.toUInt64.toNat else none
  | _ => none

/-- The text of a number: all digits, without a sign on zero. -/
def numberText (x : Float) : String :=
  if x.isNaN then "NaN"
  else if x.isInf then if 0 < x then "Infinity" else "-Infinity"
  else if x == 0 then "0"
  else Double.positional x

end Value

end Resumable
