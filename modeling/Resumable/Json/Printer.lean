import Resumable.Json.Basic
import Resumable.Double.Text

/-!
Writing JSON text, on one line or indented by two blanks a level.
-/

namespace Resumable.Json

/-- A character inside a JSON text. -/
def escapeChar (c : Char) : String :=
  match c with
  | '"' => "\\\""
  | '\\' => "\\\\"
  | '\n' => "\\n"
  | '\r' => "\\r"
  | '\t' => "\\t"
  | '\x08' => "\\b"
  | '\x0c' => "\\f"
  | c =>
    if c.toNat < 0x20 then
      let digits := Nat.toDigits 16 c.toNat
      "\\u" ++ String.ofList (List.replicate (4 - digits.length) '0' ++ digits)
    else String.singleton c

/-- A text in quotes. -/
def textForm (s : String) : String :=
  s.toList.foldl (fun written c => written ++ escapeChar c) "\"" ++ "\""

/-- The text of a value that holds no others. -/
def scalarForm : Json → String
  | .null => "null"
  | .bool b => if b then "true" else "false"
  | .int i => toString i
  | .real x => Double.withFraction x
  | .str s => textForm s
  | .arr _ => "[]"
  | .obj _ => "\x7b\x7d"

mutual

/-- What is written already, followed by the value on one line without blanks. -/
def writeCompact (out : String) : Json → String
  | .arr items => writeCompactItems (out ++ "[") true items ++ "]"
  | .obj members => writeCompactMembers (out ++ "\x7b") true members ++ "\x7d"
  | scalar => out ++ scalarForm scalar

/-- The items of an array, with a comma in front of all but the first. -/
def writeCompactItems (out : String) (first : Bool) : List Json → String
  | [] => out
  | item :: rest =>
    writeCompactItems (writeCompact (if first then out else out ++ ",") item) false rest

/-- The members of an object, with a comma in front of all but the first. -/
def writeCompactMembers (out : String) (first : Bool) : List (String × Json) → String
  | [] => out
  | (name, value) :: rest =>
    let out := (if first then out else out ++ ",") ++ textForm name ++ ":"
    writeCompactMembers (writeCompact out value) false rest

end

/-- The value on one line without blanks. -/
def compact (value : Json) : String :=
  writeCompact "" value

/-- The start of a line at that level. -/
def lineStart (level : Nat) : String :=
  "\n" ++ String.ofList (List.replicate (2 * level) ' ')

mutual

/-- What is written already, followed by the value with every item and member on a line of its own.
-/
def writeIndented (level : Nat) (out : String) : Json → String
  | .arr (item :: rest) =>
    writeIndentedItems (level + 1) (out ++ "[") true (item :: rest) ++ lineStart level ++ "]"
  | .obj (member :: rest) =>
    writeIndentedMembers (level + 1) (out ++ "\x7b") true (member :: rest) ++ lineStart level ++
    "\x7d"
  | scalar => out ++ scalarForm scalar

/-- The items of an array, each on its line. -/
def writeIndentedItems (level : Nat) (out : String) (first : Bool) : List Json → String
  | [] => out
  | item :: rest =>
    let out := (if first then out else out ++ ",") ++ lineStart level
    writeIndentedItems level (writeIndented level out item) false rest

/-- The members of an object, each on its line. -/
def writeIndentedMembers (level : Nat) (out : String) (first : Bool) : List (String × Json) → String
  | [] => out
  | (name, value) :: rest =>
    let out := (if first then out else out ++ ",") ++ lineStart level ++ textForm name ++ ": "
    writeIndentedMembers level (writeIndented level out value) false rest

end

/-- The value with every item and member on a line of its own. -/
def pretty (value : Json) : String :=
  writeIndented 0 "" value

end Resumable.Json
