import Resumable.Json.Basic

/-!
Reading the members of JSON objects.

A member that is written twice is refused when it is asked for; members nobody asks for are ignored.
-/

namespace Resumable.Members

/-- No member has that name. -/
def lacks (name : String) (members : List (String × Json)) : Bool :=
  !members.any fun member => member.1 = name

/-- The only member of that name. -/
def only? (name : String) : List (String × Json) → Option Json
  | [] => none
  | (key, value) :: rest =>
    if key = name then if lacks name rest then some value else none
    else only? name rest

/-- The member of that name. -/
def required (read : Json → Option α) (name : String) (members : List (String × Json)) : Option α :=
  only? name members >>= read

/-- A member that has a default when it is missing. -/
def defaulted (read : Json → Option α) (default : α) (name : String)
    (members : List (String × Json)) : Option α :=
  if lacks name members then some default else required read name members

/-- A value that may be `null`. -/
def orNull (read : Json → Option α) : Json → Option (Option α)
  | .null => some none
  | value => (read value).map some

/-- A member that may be missing or `null`. -/
def nullable (read : Json → Option α) (name : String) (members : List (String × Json)) :
    Option (Option α) :=
  defaulted (orNull read) none name members

/-- A list of texts. -/
def texts (value : Json) : Option (List String) := do
  (← value.arr?).mapM Json.str?

/-- A list of counts. -/
def counts (value : Json) : Option (List Nat) := do
  (← value.arr?).mapM Json.count?

/-- A text that `parse` knows. -/
def named (parse : String → Except ε α) (value : Json) : Option α := do
  (parse (← value.str?)).toOption

end Resumable.Members
