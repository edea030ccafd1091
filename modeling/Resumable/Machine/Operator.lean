import Resumable.Double.Magnitude
import Resumable.Machine.Control

/-!
Operators, properties and elements.

Most of them are defined on all values; those that are not raise a guest error.  `depth` bounds how
deep values are shown, in texts that are put together and in messages.
-/

namespace Resumable

/-! ## Operators -/

/-- The left value is before the right one: texts in the order of their characters, all else as
numbers. -/
def Value.isLess : Value → Value → Bool
  | .str a, .str b => decide (a < b)
  | left, right => left.toNumber < right.toNumber

/-- The left value is not after the right one.  A value that is no number is neither. -/
def Value.isAtMost : Value → Value → Bool
  | .str a, .str b => !decide (b < a)
  | left, right => left.toNumber ≤ right.toNumber

/-- The value is an instance of a native. -/
def Native.hasInstance : Native → Value → Bool
  | .object, value => value.isObject
  | .array, .array _ => true
  | .error, .error _ => true
  | _, _ => false

namespace Eval

/-- The sum of two numbers, or two texts put together if one of the values is a text. -/
def add (depth : Nat) : Value → Value → Eval Value
  | .str a, right => return .str (a ++ (← display depth right))
  | left, .str b => return .str ((← display depth left) ++ b)
  | left, right => return .num (left.toNumber + right.toNumber)

def instanceOf (depth : Nat) (value constructor : Value) : Eval Bool :=
  match constructor with
  | .native native => return native.hasInstance value
  | .closure closure =>
    match value with
    | .object id => Run.read fun m => m.store.isInstance id (m.store.closure closure)
    | _ => return false
  | other => do raise (.notCallable (← display depth other))

/-- The result of an operator that needs both its operands. -/
def binary (depth : Nat) (op : BinaryOp) (left right : Value) : Eval Value :=
  match op with
  | .add => add depth left right
  | .sub => return .num (left.toNumber - right.toNumber)
  | .mul => return .num (left.toNumber * right.toNumber)
  | .div => return .num (left.toNumber / right.toNumber)
  | .mod => return .num (Double.remainder left.toNumber right.toNumber)
  | .eq => return .bool (left.same right)
  | .notEq => return .bool (!left.same right)
  | .lt => return .bool (left.isLess right)
  | .le => return .bool (left.isAtMost right)
  | .gt => return .bool (right.isLess left)
  | .ge => return .bool (right.isAtMost left)
  | .instanceOf => return .bool (← instanceOf depth left right)
  | .and | .or => return .undefined

/-! ## Properties -/

/-- The property of an array. -/
def arrayProperty (items : Array Value) : String → Value
  | "length" => .num (Float.ofNat items.size)
  | "push" => .native .push
  | "pop" => .native .pop
  | _ => .undefined

/-- The property of a function. -/
def closureProperty (closure : Closure) : String → Value
  | "prototype" => .object closure.prototype
  | "name" => .str closure.func.displayName
  | _ => .undefined

/-- The property of an error. -/
def errorProperty (info : ErrorInfo) : String → Value
  | "message" => .str info.message
  | "code" | "name" => .str info.code
  | _ => .undefined

def getProperty (depth : Nat) (base : Value) (name : String) : Eval Value :=
  match base with
  | .object id => Run.read fun m => (m.store.getProperty? id name).getD .undefined
  | .array id => Run.read fun m => arrayProperty (m.store.items id) name
  | .str text => return if name = "length" then .num (Float.ofNat text.length) else .undefined
  | .closure id => Run.read fun m => closureProperty (m.store.closure id) name
  | .error info => return errorProperty info name
  | .undefined | .null => do raise (.readOf (← display depth base) name)
  | _ => return .undefined

def setProperty (depth : Nat) (base : Value) (name : String) (value : Value) : Eval Unit :=
  match base with
  | .object id => modifyStore fun store => store.setProperty id name value
  | other => do raise (.writeOf name (← display depth other))

/-! ## Elements -/

/-- How far past the end of an array an element may be stored. -/
def maxGap : Nat :=
  65536

/-- The array with one element stored.  A gap before it is filled up. -/
def storeItem (items : Array Value) (i : Nat) (value : Value) : Array Value :=
  if i < items.size then items.setIfInBounds i value
  else (items ++ Array.replicate (i - items.size) Value.undefined).push value

/-- The element of an array or a text; otherwise the property that the key names. -/
def getIndex (depth : Nat) (base key : Value) : Eval Value :=
  match base, key.toIndex? with
  | .array id, some i => Run.read fun m => (m.store.items id).getD i .undefined
  | .str text, some i => return (text.toList[i]?.map fun c => .str c.toString).getD .undefined
  | base, _ => do getProperty depth base (← display depth key)

def setIndex (depth : Nat) (base key value : Value) : Eval Unit :=
  match base, key.toIndex? with
  | .array id, some i => do
    let length ← Run.read fun m => (m.store.items id).size
    if i - length > maxGap then raise (.tooFar (← display depth key) length)
    modifyStore fun store => store.modifyItems id fun items => storeItem items i value
  | base, _ => do setProperty depth base (← display depth key) value

end Eval

end Resumable
