import Resumable.Double.Reader

/-!
Integers of 64 bits in texts.
-/

namespace Resumable.Text

/-- The number that an integer of 64 bits with this sign and this size is. -/
def signed (negative : Bool) (size : Nat) : Option Int :=
  let i : Int := if negative then -size else size
  if -9223372036854775808 ≤ i ∧ i < 9223372036854775808 then some i else none

/-- A sign in front of a text, if there is one, and what is behind it. -/
def splitSign : List Char → Bool × List Char
  | '-' :: rest => (true, rest)
  | '+' :: rest => (false, rest)
  | rest => (false, rest)

/-- The integer that a text stands for: digits, with or without a sign. -/
def int? (text : List Char) : Option Int :=
  let (negative, digits) := splitSign text
  if digits.isEmpty || !digits.all Char.isDigit then none
  else signed negative (Double.digitsValue digits)

/-- The value of a digit in the base 16. -/
def hexDigit? (c : Char) : Option Nat :=
  if c.isDigit then some (c.toNat - '0'.toNat)
  else if 'a' ≤ c ∧ c ≤ 'f' then some (c.toNat - 'a'.toNat + 10)
  else if 'A' ≤ c ∧ c ≤ 'F' then some (c.toNat - 'A'.toNat + 10)
  else none

/-- The value of digits in a base of at most 16.  There has to be a digit. -/
def digitsValue? (base : Nat) (digits : List Char) : Option Nat :=
  if digits.isEmpty then none
  else digits.foldlM (fun n c => do
    let d ← hexDigit? c
    guard (d < base)
    return base * n + d) 0

/-- The value of digits in the base 16. -/
def hexValue? (digits : List Char) : Option Nat :=
  digitsValue? 16 digits

/-- The character with that number, if there is one. -/
def char? (code : Nat) : Option Char :=
  if code.isValidChar then some (Char.ofNat code) else none

end Resumable.Text
