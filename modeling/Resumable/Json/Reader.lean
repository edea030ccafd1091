import Resumable.Json.Basic
import Resumable.Text.Word

/-!
Reading JSON text.

The reader takes a limit on how deep arrays and objects may be nested.  A number that is no 64-bit
integer is read in two steps: as many of its digits as fit into 64 bits make up the significand, and
the significand, rounded to a double, is scaled by a power of ten with one more rounding.
-/

namespace Resumable.Json

/-- The blanks that may stand between tokens. -/
def isGap (c : Char) : Bool :=
  c = ' ' || c = '\n' || c = '\t' || c = '\r'

/-- The rest of the text after the blanks in front. -/
def skipGap (text : List Char) : List Char :=
  text.dropWhile isGap

/-! ## Numbers -/

/-- The value of a decimal digit. -/
def digitValue (c : Char) : Nat :=
  c.toNat - '0'.toNat

/-- The digits taken up into a significand of 64 bits, and how many digits in front of the point
were left out.  Once a digit does not fit, none of those after it is looked at. -/
def takeWhole (significand : Nat) : List Char → Nat × Nat
  | [] => (significand, 0)
  | c :: rest =>
    let next := significand * 10 + digitValue c
    if next < 2 ^ 64 then takeWhole next rest else (significand, rest.length + 1)

/-- The digits behind the point that still fit into the significand, and how many they are. -/
def takeFraction (significand : Nat) : List Char → Nat × Nat
  | [] => (significand, 0)
  | c :: rest =>
    let next := significand * 10 + digitValue c
    if next < 2 ^ 64 then
      let (result, count) := takeFraction next rest
      (result, count + 1)
    else (significand, 0)

/-- A power of ten that is a double. -/
def powerOfTen (n : Nat) : Float :=
  Float.ofScientific 1 false n

/-- `x * 10 ^ exponent`, in steps of at most `10 ^ 308`; `none` when the result is too large. -/
def scale (x : Float) (exponent : Int) : Option Float :=
  if exponent.natAbs ≤ 308 then
    if 0 ≤ exponent then
      let y := x * powerOfTen exponent.natAbs
      if y.isInf then none else some y
    else some (x / powerOfTen exponent.natAbs)
  else if x == 0 then some x
  else if 0 ≤ exponent then none
  else scale (x / powerOfTen 308) (exponent + 308)
termination_by exponent.natAbs
decreasing_by omega

/-- The exponent after its mark, and the text behind it. -/
def readExponent (text : List Char) : Option (Int × List Char) :=
  let (negative, rest) := match text with
    | '-' :: r => (true, r)
    | '+' :: r => (false, r)
    | r => (false, r)
  let digits := rest.takeWhile Char.isDigit
  if digits.isEmpty then none
  else
    let size : Int := digits.foldl (fun n c => 10 * n + digitValue c) 0
    some (if negative then -size else size, rest.dropWhile Char.isDigit)

/-- The exponent part, if there is one. -/
def readExponentPart (text : List Char) : Option (Option Int × List Char) :=
  match text with
  | c :: rest =>
    if c = 'e' || c = 'E' then (readExponent rest).map fun (e, rest) => (some e, rest)
    else some (none, text)
  | [] => some (none, [])

/-- A number at the head of the text.  There is no leading zero, and a point has digits on both
sides. -/
def readNumber (text : List Char) : Option (Json × List Char) := do
  let (negative, text) := match text with
    | '-' :: rest => (true, rest)
    | rest => (false, rest)
  let whole := text.takeWhile Char.isDigit
  let rest := text.dropWhile Char.isDigit
  guard (!whole.isEmpty && (whole.length = 1 || whole.head? != some '0'))
  let (significand, dropped) := takeWhole 0 whole
  let signed (x : Float) : Json := .real (if negative then -x else x)
  match rest with
  | '.' :: tail =>
    let fraction := tail.takeWhile Char.isDigit
    guard (!fraction.isEmpty)
    let (significand, kept) := takeFraction significand fraction
    let (exponent, rest) ← readExponentPart (tail.dropWhile Char.isDigit)
    let x ← scale (Float.ofNat significand) (exponent.getD 0 + dropped - kept)
    return (signed x, rest)
  | tail =>
    match ← readExponentPart tail with
    | (some exponent, rest) =>
      let x ← scale (Float.ofNat significand) (exponent + dropped)
      return (signed x, rest)
    | (none, rest) =>
      if 0 < dropped then
        let x ← scale (Float.ofNat significand) dropped
        return (signed x, rest)
      else if !negative then return (.int significand, rest)
      else if 0 < significand && significand ≤ 9223372036854775808 then return (.int (-significand),
        rest)
      else return (signed (Float.ofNat significand), rest)

/-! ## Texts -/

/-- The value of four hexadecimal digits at the head of the text. -/
def readHex (text : List Char) : Option (Nat × List Char) :=
  let digits := text.take 4
  if digits.length = 4 && digits.all (fun c => c.isDigit || ('a' ≤ c && c ≤ 'f') ||
    ('A' ≤ c && c ≤ 'F'))
  then
    let value (c : Char) : Nat :=
      if c.isDigit then digitValue c else c.toLower.toNat - 'a'.toNat + 10
    some (digits.foldl (fun n c => 16 * n + value c) 0, text.drop 4)
  else none

/-- A character given by its number, as one unit or as two surrogates.  Lone surrogates are refused.
-/
def readUnicode (text : List Char) : Option (Char × List Char) := do
  let (first, rest) ← readHex text
  if 0xD800 ≤ first && first ≤ 0xDBFF then
    match rest with
    | '\\' :: 'u' :: rest =>
      let (second, rest) ← readHex rest
      guard (0xDC00 ≤ second && second ≤ 0xDFFF)
      return (Char.ofNat (0x10000 + (first - 0xD800) * 0x400 + (second - 0xDC00)), rest)
    | _ => none
  else
    guard (!(0xDC00 ≤ first && first ≤ 0xDFFF))
    return (Char.ofNat first, rest)

/-- The character that an escape mark stands for. -/
def escapeMark : Char → Option Char
  | '"' => some '"'
  | '\\' => some '\\'
  | '/' => some '/'
  | 'b' => some '\x08'
  | 'f' => some '\x0c'
  | 'n' => some '\n'
  | 'r' => some '\r'
  | 't' => some '\t'
  | _ => none

/-- The rest of a text after its opening quote.  Every step takes at least one character, so that
the length of the input is enough fuel. -/
def readText : Nat → List Char → List Char → Option (String × List Char)
  | 0, _, _ => none
  | fuel + 1, text, read =>
    match text with
    | [] => none
    | '"' :: rest => some (String.ofList read.reverse, rest)
    | '\\' :: 'u' :: rest => do
      let (c, rest) ← readUnicode rest
      readText fuel rest (c :: read)
    | '\\' :: mark :: rest => do
      let c ← escapeMark mark
      readText fuel rest (c :: read)
    | c :: rest => if c.toNat < 0x20 then none else readText fuel rest (c :: read)

/-! ## Values -/

mutual

/-- A value at the head of the text.  Every step takes at least one character, so that twice the
length of the input is enough fuel; `depth` is how many more arrays and objects may be entered. -/
def readValue : Nat → Nat → List Char → Option (Json × List Char)
  | 0, _, _ => none
  | fuel + 1, depth, text =>
    match skipGap text with
    | '"' :: rest => (readText rest.length.succ rest []).map fun (s, rest) => (.str s, rest)
    | '[' :: rest =>
      if depth = 0 then none
      else match skipGap rest with
        | ']' :: rest => some (.arr [], rest)
        | rest => readItems fuel (depth - 1) rest []
    | '\x7b' :: rest =>
      if depth = 0 then none
      else match skipGap rest with
        | '\x7d' :: rest => some (.obj [], rest)
        | rest => readMembers fuel (depth - 1) rest []
    | 't' :: rest => (Text.afterWord "rue" rest).map fun rest => (.bool true, rest)
    | 'f' :: rest => (Text.afterWord "alse" rest).map fun rest => (.bool false, rest)
    | 'n' :: rest => (Text.afterWord "ull" rest).map fun rest => (.null, rest)
    | rest => readNumber rest

/-- The items of an array up to its closing bracket. -/
def readItems : Nat → Nat → List Char → List Json → Option (Json × List Char)
  | 0, _, _, _ => none
  | fuel + 1, depth, text, read => do
    let (item, rest) ← readValue fuel depth text
    match skipGap rest with
    | ',' :: rest => readItems fuel depth rest (item :: read)
    | ']' :: rest => return (.arr (item :: read).reverse, rest)
    | _ => none

/-- The members of an object up to its closing brace. -/
def readMembers : Nat → Nat → List Char → List (String × Json) → Option (Json × List Char)
  | 0, _, _, _ => none
  | fuel + 1, depth, text, read =>
    match skipGap text with
    | '"' :: rest => do
      let (name, rest) ← readText rest.length.succ rest []
      match skipGap rest with
      | ':' :: rest =>
        let (value, rest) ← readValue fuel depth rest
        match skipGap rest with
        | ',' :: rest => readMembers fuel depth rest ((name, value) :: read)
        | '\x7d' :: rest => return (.obj ((name, value) :: read).reverse, rest)
        | _ => none
      | _ => none
    | _ => none

end

/-- The value that a text is the JSON form of, with at most `depth` arrays and objects inside one
another. -/
def read? (depth : Nat) (text : String) : Option Json := do
  let text := text.toList
  let (value, rest) ← readValue (2 * text.length + 2) depth text
  guard (skipGap rest).isEmpty
  return value

end Resumable.Json
