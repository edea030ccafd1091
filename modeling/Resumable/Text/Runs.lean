/-!
Sets of numbers by the lengths of their runs.
-/

namespace Resumable.Text

/-- The number is in the set.  `runs` tells in turn how many numbers are not in the set and how many
are; behind the last run there are no more. -/
def inRuns : (runs : List Nat) → Nat → Bool
  | outside :: inside :: rest, n =>
    if n < outside then false
    else if n < outside + inside then true
    else inRuns rest (n - outside - inside)
  | _, _ => false

end Resumable.Text
