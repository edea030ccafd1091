import Resumable.Settings.Setting
import Resumable.Text.Word

/-!
What YAML documents consist of, and what it stands for as settings.
-/

namespace Resumable.Yaml

/-- What is said about the type of a node. -/
inductive Tag where
  /-- A type of the core schema. -/
  | core (name : String)
  | other
  deriving DecidableEq, Repr

inductive Node where
  /-- A text, plain or in some kind of quotes. -/
  | scalar (plain : Bool) (tag : Option Tag) (text : String)
  | list (items : List Node)
  | table (entries : List (Node × Node))
  deriving Inhabited

namespace Node

/-- What stands where nothing is written. -/
def missing : Node :=
  .scalar true none "~"

/-- The node with what is said about its type. -/
def withTag (tag : Option Tag) : Node → Node
  | .scalar plain old text => .scalar plain (tag <|> old) text
  | node => node

end Node

/-! ## Plain texts -/

/-- The integer that a plain text is. -/
def int? (text : List Char) : Option Int :=
  let based := (Text.afterWord "0x" text >>= Text.hexValue?) <|>
    (Text.afterWord "0o" text >>= Text.digitsValue? 8)
  (based >>= Text.signed false) <|> Text.int? text

/-- The text names an infinity or is no number by name. -/
def isSpecial (text : String) : Bool :=
  [".inf", ".Inf", ".INF", "+.inf", "+.Inf", "+.INF", "-.inf", "-.Inf", "-.INF", ".nan",
    ".NAN"].contains text

/-- The double that a plain text is. -/
def real? (text : String) : Option Float :=
  if text.toList.any Char.isDigit then Double.ofText? text.toList
  else if text = "NaN" then some Double.nan
  else none

/-- What a plain text stands for.  The special numbers of the format cannot be settings. -/
def resolve (text : String) : Option Setting :=
  if text = "~" || text = "null" then some .null
  else if text = "true" then some (.bool true)
  else if text = "false" then some (.bool false)
  else if isSpecial text then none
  else match int? text.toList, real? text with
    | some i, _ => some (.int i)
    | none, some x => some (.real x)
    | none, none => some (.str text)

/-- What a plain text stands for if its type is given.  A text that is not of its type is null. -/
def resolveAs (text : String) : Tag → Option Setting
  | .core "bool" =>
    some (if text = "true" then .bool true else if text = "false" then .bool false else .null)
  | .core "int" => some (((Text.int? text.toList).map .int).getD .null)
  | .core "float" => if isSpecial text then none else some (((real? text).map .real).getD .null)
  | .core "null" => some .null
  | _ => some (.str text)

/-- What a scalar stands for. -/
def scalarSetting (plain : Bool) (tag : Option Tag) (text : String) : Option Setting :=
  match plain, tag with
  | false, _ => some (.str text)
  | true, none => resolve text
  | true, some tag => resolveAs text tag

namespace Node

/-- The name that a node is as a key. -/
def key? : Node → Option String
  | .scalar plain tag text => do
    match ← scalarSetting plain tag text with
    | .null => none
    | .int i => return toString i
    | _ => return text
  | _ => none

mutual

/-- What a node stands for. -/
def setting? : Node → Option Setting
  | .scalar plain tag text => scalarSetting plain tag text
  | .list items => (itemSettings? items).map .list
  | .table entries => (entrySettings? [] entries).map .table

def itemSettings? : List Node → Option (List Setting)
  | [] => some []
  | item :: rest => do return (← item.setting?) :: (← itemSettings? rest)

/-- What entries stand for, over those that are read already. -/
def entrySettings? (read : List (String × Setting)) :
    List (Node × Node) → Option (List (String × Setting))
  | [] => some read
  | (key, value) :: rest => do
    entrySettings? (Setting.insert (← key.key?) (← value.setting?) read) rest

end

end Node

end Resumable.Yaml
