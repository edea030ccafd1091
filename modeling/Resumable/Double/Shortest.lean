import Resumable.Double.Magnitude

/-!
Shortest decimals of doubles.

A finite double stands for an interval of reals that round to it.  `Magnitude.shortest` walks
through the decimal grids of one digit, two digits, and so on, and stops at the first grid with a
point inside that interval.  Only the two grid neighbours of the double have to be looked at: if any
point of a grid is inside, one of these two is.  All comparisons are made in exact integer
arithmetic.
-/

namespace Resumable

/-- The decimal `digits * 10 ^ exponent`. -/
structure Decimal where
  digits : Nat
  exponent : Int
  deriving DecidableEq, Repr

/-- The rule for a double that lies exactly halfway between two decimals of the same length. -/
inductive Tie where
  /-- Take the larger of the two. -/
  | up
  /-- Take the one whose last digit is even. -/
  | even
  deriving DecidableEq, Repr

/-- The largest `e` with `10 ^ e ≤ num / den`, for a positive fraction. -/
def decimalOrder (num den : Nat) : Int :=
  let reaches (e : Int) : Bool :=
    if 0 ≤ e then den * Nat.pow 10 e.toNat ≤ num else den ≤ num * Nat.pow 10 (-e).toNat
  let guess := Int.fdiv (((Nat.log2 num : Int) - Nat.log2 den) * 30103) 100000
  if reaches (guess + 1) then guess + 1
  else if reaches guess then guess
  else guess - 1

/-- The neighbour of a magnitude on the grid of multiples of `10 ^ exponent` that rounds to it, if
one does.  Of two such neighbours the nearer one is taken, and `tie` decides between equally near
ones. -/
def Magnitude.onGrid (m : Magnitude) (tie : Tie) (exponent : Int) : Option Nat :=
  -- Everything is counted in quarters of the gap above the double, over one common denominator.
  let binary := m.exponent - 2
  let den := 1 <<< (-binary).toNat
  let scale := Nat.pow 10 (-exponent).toNat <<< binary.toNat
  let value := 4 * m.mantissa * scale
  let lower := (4 * m.mantissa - if m.narrow then 1 else 2) * scale
  let upper := (4 * m.mantissa + 2) * scale
  let unit := Nat.pow 10 exponent.toNat * den
  let closed := m.mantissa % 2 = 0
  let below := value / unit
  let belowFits := if closed then lower ≤ below * unit else lower < below * unit
  let above := below + 1
  let aboveFits := if closed then above * unit ≤ upper else above * unit < upper
  if belowFits && aboveFits then
    let down := value - below * unit
    let rise := above * unit - value
    if down < rise then some below
    else if rise < down then some above
    else match tie with
      | .up => some above
      | .even => some (if below % 2 = 0 then below else above)
  else if belowFits then some below
  else if aboveFits then some above
  else none

/-- The decimal with the fewest digits that rounds to a positive magnitude, and the nearest one of
that length.  Seventeen digits are always enough. -/
def Magnitude.shortest (m : Magnitude) (tie : Tie) : Decimal :=
  let num := m.mantissa <<< m.exponent.toNat
  let den := 1 <<< (-m.exponent).toNat
  let order := decimalOrder num den
  let attempt (extra : Nat) : Option Decimal :=
    let exponent := order - extra
    (m.onGrid tie exponent).map fun digits =>
      if digits = Nat.pow 10 (extra + 1) then ⟨1, order + 1⟩ else ⟨digits, exponent⟩
  ((List.range 17).findSome? attempt).getD ⟨0, 0⟩

end Resumable
