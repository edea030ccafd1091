import Resumable.Double.Shortest

/-!
Texts of doubles: where the decimal point goes, and when an exponent is written.

* `Double.positional` writes all digits, however many zeros that takes.
* `Double.withFraction` always shows a fraction or an exponent, and keeps to plain notation between
  `10 ^ -5` and `10 ^ 16`.
-/

namespace Resumable

/-- A block of zeros. -/
def zeros (n : Nat) : String :=
  String.ofList (List.replicate n '0')

/-- The digits with a point after the first `before` of them. -/
def splitDigits (text : String) (before : Nat) : String :=
  String.ofList (text.toList.take before) ++ "." ++ String.ofList (text.toList.drop before)

/-- How many digits stand before the decimal point, counting downwards past it. -/
def Decimal.point (d : Decimal) : Int :=
  (toString d.digits).length + d.exponent

/-- The decimal without an exponent: `1200`, `1.5`, `0.003`. -/
def Decimal.positional (d : Decimal) : String :=
  let text := toString d.digits
  if 0 ≤ d.exponent then text ++ zeros d.exponent.toNat
  else if 0 < d.point then splitDigits text d.point.toNat
  else "0." ++ zeros (-d.point).toNat ++ text

/-- The decimal with a fraction or an exponent, which always has a sign: `1200.0`, `1.5`, `0.003`,
`1e+16`, `1.5e-7`. -/
def Decimal.withFraction (d : Decimal) : String :=
  let text := toString d.digits
  if 0 ≤ d.exponent && d.point ≤ 16 then d.positional ++ ".0"
  else if -5 < d.point && d.point ≤ 16 then d.positional
  else
    let lead := if text.length = 1 then text else splitDigits text 1
    let sign := if 0 < d.point then "+" else ""
    lead ++ "e" ++ sign ++ toString (d.point - 1)

namespace Double

/-- The minus sign of a negative double, a negative zero included. -/
def signText (x : Float) : String :=
  if signBit x then "-" else ""

/-- The shortest plain notation of a finite double: `0`, `-0`, `0.1`, `100000000000000000000`.  A
double halfway between two candidates is written as the larger one. -/
def positional (x : Float) : String :=
  if x == 0 then signText x ++ "0"
  else signText x ++ ((Magnitude.ofFloat x).shortest .up).positional

/-- The shortest notation of a finite double that shows it is one: `0.0`, `-1.0`, `2.5e-9`.  A
double halfway between two candidates is written as the even one. -/
def withFraction (x : Float) : String :=
  if x == 0 then signText x ++ "0.0"
  else signText x ++ ((Magnitude.ofFloat x).shortest .even).withFraction

end Double

end Resumable
