/-!
JSON values.

Integers and other numbers are kept apart, because only the former are accepted as labels and sizes.
The members of an object keep the order they are written in.
-/

namespace Resumable

inductive Json where
  | null
  | bool (value : Bool)
  /-- A number written without point and exponent that fits into 64 bits. -/
  | int (value : Int)
  /-- Any other number. -/
  | real (value : Float)
  | str (value : String)
  | arr (items : List Json)
  | obj (members : List (String × Json))
  deriving Inhabited

namespace Json

/-- The first member of that name: `none` when there is no such member or the value is no object. -/
def member? (name : String) : Json → Option Json
  | .obj members => members.lookup name
  | _ => none

/-- A truth value. -/
def bool? : Json → Option Bool
  | .bool b => some b
  | _ => none

/-- A text. -/
def str? : Json → Option String
  | .str s => some s
  | _ => none

/-- The items of an array. -/
def arr? : Json → Option (List Json)
  | .arr items => some items
  | _ => none

/-- A number, whichever way it is written. -/
def number? : Json → Option Float
  | .int i => some (if i < 0 then -(Float.ofNat i.natAbs) else Float.ofNat i.natAbs)
  | .real x => some x
  | _ => none

/-- A count: an integer of at most 32 bits without a sign. -/
def count? : Json → Option Nat
  | .int i => if 0 ≤ i ∧ i < 4294967296 then some i.toNat else none
  | _ => none

/-- A double as a number.  JSON has no way to write an infinity or a value that is not a number. -/
def ofFloat (x : Float) : Json :=
  if x.isFinite then .real x else .null

/-- An optional value, written as `null` when it is absent. -/
def ofOption (f : α → Json) : Option α → Json
  | none => .null
  | some a => f a

end Json

end Resumable
