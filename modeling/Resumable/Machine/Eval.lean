import Resumable.Machine.Capture
import Resumable.Machine.Operator

/-!
Evaluation of expressions.

It is recursive in the expression; whatever leaves the activation goes through `Engine.perform`.  An
expression does not change the activation it is evaluated in.
-/

namespace Resumable

namespace Eval

/-- The value of a name. -/
def lookup (act : Activation) (name : String) : Eval Value := do
  match ← Run.read fun m => m.store.lookup? act.scope name with
  | some value => return value
  | none => raise (.unbound name)

/-- The type of what a name is bound to. -/
def typeOfName (act : Activation) (name : String) : Eval Value :=
  Run.read fun m => .str (((m.store.lookup? act.scope name).map (·.typeOf)).getD "undefined")

def makeClosure (act : Activation) (func : Func) : Eval Value :=
  changeStore fun store =>
    let (id, store) := store.newClosure func act.scope
    (.closure id, store)

def makeArray (items : List Value) : Eval Value :=
  changeStore fun store =>
    let (id, store) := store.newArray items.toArray
    (.array id, store)

def makeObject (object : Object) : Eval Value :=
  changeStore fun store =>
    let (id, store) := store.newObject object
    (.object id, store)

/-- A fresh list of the arguments of the activation. -/
def makeArguments (act : Activation) : Eval Value := do
  makeArray (← Run.read fun m => act.argumentValues m.store)

end Eval

mutual

def Expr.eval (g : Engine) (act : Activation) : Expr → Eval Value
  | .num v => return .num v
  | .str v => return .str v
  | .bool v => return .bool v
  | .null => return .null
  | .undefined => return .undefined
  | .ident name => Eval.lookup act name
  | .binary .and left right => do
    let left ← left.eval g act
    if left.isTruthy then right.eval g act else return left
  | .binary .or left right => do
    let left ← left.eval g act
    if left.isTruthy then return left else right.eval g act
  | .binary op left right => do
    let left ← left.eval g act
    let right ← right.eval g act
    Eval.binary g.bound op left right
  | .unary .typeOf (.ident name) => Eval.typeOfName act name
  | .unary .typeOf arg => return .str (← arg.eval g act).typeOf
  | .unary .not arg => return .bool (!(← arg.eval g act).isTruthy)
  | .unary .neg arg => return .num (-(← arg.eval g act).toNumber)
  | .cond test thenE elseE => do
    if (← test.eval g act).isTruthy then thenE.eval g act else elseE.eval g act
  | .member base property => do
    let base ← base.eval g act
    Eval.getProperty g.bound base property
  | .index base key => do
    let base ← base.eval g act
    let key ← key.eval g act
    Eval.getIndex g.bound base key
  | .call (.member base property) args => do
    let base ← base.eval g act
    let func ← Eval.getProperty g.bound base property
    let args ← Expr.evalList g act args
    g.perform (.call func base args)
  | .call callee args => do
    let func ← callee.eval g act
    let args ← Expr.evalList g act args
    g.perform (.call func .undefined args)
  | .new callee args => do
    let callee ← callee.eval g act
    let args ← Expr.evalList g act args
    g.perform (.construct callee args)
  | .func f => Eval.makeClosure act f
  | .array elements => do Eval.makeArray (← Expr.evalList g act elements)
  | .object props => do Eval.makeObject { props := .ofList (← Expr.evalProps g act props) }
  | .this => return act.this
  | .arguments => Eval.makeArguments act
  | .isNormal => Run.read fun m => .bool (m.mode = .normal)
  | .isRestoring => Run.read fun m => .bool (m.mode = .restoring)
  | .targetIn labels => return .bool ((act.target.map labels.contains).getD false)
  | .capturing => Run.read fun m => .bool m.capturing
  | .reenterNext => g.perform .reenterNext
  | .newTarget => return act.newTarget
  | .suspend => g.perform .safePoint
  | .handleNew callee args => do
    let callee ← callee.eval g act
    let args ← Expr.evalList g act args
    g.perform (.handleNew callee args)

/-- The values of a list of expressions, evaluated from left to right. -/
def Expr.evalList (g : Engine) (act : Activation) : List Expr → Eval (List Value)
  | [] => return []
  | e :: rest => do
    let value ← e.eval g act
    return value :: (← Expr.evalList g act rest)

/-- The properties of an object, evaluated from left to right. -/
def Expr.evalProps (g : Engine) (act : Activation) : List (String × Expr) →
    Eval (List (String × Value))
  | [] => return []
  | (key, e) :: rest => do
    let value ← e.eval g act
    return (key, value) :: (← Expr.evalProps g act rest)

end

end Resumable
