import Resumable.Double.Magnitude

/-!
Reading doubles from text.

A numeral has an optional sign, digits with an optional point (on either side of which the digits
may be missing, but not on both), and an optional exponent.  The words `inf`, `infinity` and `nan`
are numerals too, in any case.  Reading is exact: the result is the double nearest to the decimal.
-/

namespace Resumable.Double

/-- The number that a list of decimal digits spells. -/
def digitsValue (digits : List Char) : Nat :=
  digits.foldl (fun n c => 10 * n + (c.toNat - '0'.toNat)) 0

/-- The double nearest to `mantissa * 10 ^ exponent`.  Far outside of the range of doubles the
answer is known without computing the power. -/
def ofDecimal (mantissa : Nat) (exponent : Int) : Float :=
  if mantissa = 0 then 0
  else
    let order := (toString mantissa).length + exponent
    if 400 < order then 1 / 0
    else if order < -400 then 0
    else if exponent < 0 then Float.ofScientific mantissa true (-exponent).toNat
    else Float.ofScientific mantissa false exponent.toNat

/-- The value of an exponent part, which is empty or `e`, an optional sign and digits. -/
def exponentValue : List Char → Option Int
  | [] => some 0
  | mark :: rest =>
    if mark = 'e' || mark = 'E' then
      let (negative, digits) := match rest with
        | '-' :: r => (true, r)
        | '+' :: r => (false, r)
        | r => (false, r)
      if digits.isEmpty || !digits.all Char.isDigit then none
      else some (if negative then -digitsValue digits else digitsValue digits)
    else none

/-- The double that an unsigned numeral stands for. -/
def ofUnsigned (text : List Char) : Option Float :=
  let word := String.ofList (text.map Char.toLower)
  if word = "inf" || word = "infinity" then some (1 / 0)
  else if word = "nan" then some nan
  else
    let whole := text.takeWhile Char.isDigit
    let (fraction, rest) := match text.dropWhile Char.isDigit with
      | '.' :: r => (r.takeWhile Char.isDigit, r.dropWhile Char.isDigit)
      | r => ([], r)
    if whole.isEmpty && fraction.isEmpty then none
    else (exponentValue rest).map fun exponent =>
      ofDecimal (digitsValue (whole ++ fraction)) (exponent - fraction.length)

/-- The double that a numeral stands for. -/
def ofText? (text : List Char) : Option Float :=
  match text with
  | '-' :: rest => (ofUnsigned rest).map (- ·)
  | '+' :: rest => ofUnsigned rest
  | rest => ofUnsigned rest

end Resumable.Double
