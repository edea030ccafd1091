/-!
Doubles as exact integers times powers of two.

`Magnitude.ofFloat` takes a finite double apart, so that questions on it can be answered in exact
integer arithmetic.  `Double.remainder` is such an answer: it never rounds.
-/

namespace Resumable

/-- The magnitude `mantissa * 2 ^ exponent` of a finite double. -/
structure Magnitude where
  mantissa : Nat
  exponent : Int
  /-- The double below is half as far away as the double above. -/
  narrow : Bool
  deriving DecidableEq, Repr

/-- The magnitude of a finite double, read off its bit pattern. -/
def Magnitude.ofFloat (x : Float) : Magnitude :=
  let bits : Nat := x.toBits.toNat
  let biased : Nat := bits >>> 52 % 2048
  let fraction : Nat := bits % 1 <<< 52
  if biased = 0 then ⟨fraction, -1074, false⟩
  else ⟨1 <<< 52 + fraction, (biased : Int) - 1075, fraction = 0 && 1 < biased⟩

namespace Double

/-- The sign bit, which also tells the two zeros apart. -/
def signBit (x : Float) : Bool :=
  1 <<< 63 ≤ x.toBits.toNat

/-- A finite double without a fractional part. -/
def isIntegral (x : Float) : Bool :=
  x.isFinite && x.floor == x

/-- A double that is not a number. -/
def nan : Float := 0.0 / 0.0

/-- The remainder of a division that is truncated toward zero.  It is exact, and has the sign of the
dividend. -/
def remainder (x y : Float) : Float :=
  if x.isNaN || y.isNaN || x.isInf || y == 0 then nan
  else if y.isInf || x == 0 then x
  else
    let a := Magnitude.ofFloat x
    let b := Magnitude.ofFloat y
    let exponent := min a.exponent b.exponent
    let rest := a.mantissa <<< (a.exponent - exponent).toNat %
      b.mantissa <<< (b.exponent - exponent).toNat
    let size := (Float.ofNat rest).scaleB exponent
    if signBit x then -size else size

end Double

end Resumable
