import Resumable.Json.Basic
import Resumable.Machine.Store
import Resumable.Text.Quoted

/-!
Showing values.

Arrays and objects are shown with what they hold.  `depth` bounds how deep that goes, and a value
that goes deeper is not shown at all; one that holds itself is never shown, whatever the bound.
-/

namespace Resumable.Store

/-- The texts of a list with commas between them. -/
def commaList (texts : List String) : String :=
  ", ".intercalate texts

/-- The text of a value, with texts as they are.  Inside of arrays texts are quoted. -/
def display (s : Store) : Nat → Value → Option String
  | 0, _ => none
  | depth + 1, value =>
    match value with
    | .undefined => some "undefined"
    | .null => some "null"
    | .bool b => some (if b then "true" else "false")
    | .num x => some (Value.numberText x)
    | .str text => some text
    | .array id => do
      let texts ← (s.items id).toList.mapM fun item => match item with
        | .str text => some (Text.quoted text)
        | item => s.display depth item
      return "[" ++ commaList texts ++ "]"
    | .object id => do
      let texts ← (s.object id).props.entries.mapM fun (key, item) => do
        return key ++ ": " ++ (← s.display depth item)
      return "\x7b" ++ commaList texts ++ "\x7d"
    | .closure id => some ("[function " ++ (s.closure id).func.displayName ++ "]")
    | .native builtin => some ("[native " ++ builtin.name ++ "]")
    | .continuation _ => some "[continuation]"
    | .fudged => some "[fudged continuation]"
    | .error info => some info.display

/-- The text of a value, with texts quoted. -/
def debug (s : Store) (depth : Nat) : Value → Option String
  | .str text => some (Text.quoted text)
  | value => s.display depth value

/-- The value as plain data.  Functions and continuations are given by their texts. -/
def toJson (s : Store) : Nat → Value → Option Json
  | 0, _ => none
  | depth + 1, value =>
    match value with
    | .undefined | .null => some .null
    | .bool b => some (.bool b)
    | .num x =>
      if Double.isIntegral x && x.abs < 9e15 then some (.int x.toInt64.toInt) else some (.ofFloat x)
    | .str text => some (.str text)
    | .array id => do return .arr (← (s.items id).toList.mapM fun item => s.toJson depth item)
    | .object id => do
      return .obj (← (s.object id).props.entries.mapM fun (key, item) => do
        return (key, ← s.toJson depth item))
    | .error info => some (.obj [("code", .str info.code), ("message", .str info.message)])
    | value => (s.display (depth + 1) value).map .str

/-! ## Frames -/

/-- A list of values, each as `debug` shows it. -/
def debugList (s : Store) (depth : Nat) (values : List Value) : Option String := do
  return "[" ++ commaList (← values.mapM (s.debug depth)) ++ "]"

/-- The parts of a frame, without what it does. -/
def debugFrame (s : Store) (depth : Nat) : Frame → Option String
  | .top _ => some "Top"
  | .call frame => do
    let locals ← s.debugList depth frame.locals
    let formals ← match frame.formals with
      | none => some "None"
      | some values => do pure ("Some(" ++ (← s.debugList depth values) ++ ")")
    let argCount := match frame.argCount with
      | none => "None"
      | some n => "Some(" ++ toString n ++ ")"
    return "Call \x7b function: " ++ Text.quoted frame.function ++ ", label: " ++
      toString frame.label ++ ", locals: " ++ locals ++ ", formals: " ++ formals ++
      ", arg_count: " ++ argCount ++ " \x7d"

/-- The frames of a stack, innermost first. -/
def debugStack (s : Store) (depth : Nat) (stack : Stack) : Option String := do
  return "[" ++ commaList (← stack.frames.mapM (s.debugFrame depth)) ++ "]"

end Resumable.Store
