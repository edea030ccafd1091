import Resumable.Double.Reader
import Resumable.Settings.Setting

/-!
The scalars of TOML: quoted texts, numbers, truth values and moments in time.

Functions that are named `take…` read from the head of a text, and return what they read with the
rest.  Moments are kept as their texts, but apart from texts in quotes.
-/

namespace Resumable.Toml

/-! ## Characters -/

/-- Blanks within a line. -/
def isBlank (c : Char) : Bool :=
  c = ' ' || c = '\t'

def skipBlanks (text : List Char) : List Char :=
  text.dropWhile isBlank

/-- The rest of the text after the end of a line. -/
def takeNewline : List Char → Option (List Char)
  | '\n' :: rest | '\r' :: '\n' :: rest => some rest
  | _ => none

/-- The characters of texts and comments: all but controls. -/
def isTextChar (c : Char) : Bool :=
  c = '\t' || (0x20 ≤ c.toNat && c.toNat ≠ 0x7F)

/-! ## Texts -/

def isHexDigit (c : Char) : Bool :=
  c.isDigit || ('a' ≤ c && c ≤ 'f') || ('A' ≤ c && c ≤ 'F')

def hexValue (digits : List Char) : Nat :=
  digits.foldl (fun n c =>
    16 * n + if c.isDigit then c.toNat - '0'.toNat else c.toLower.toNat - 'a'.toNat + 10) 0

/-- The character that is given by a fixed number of hexadecimal digits. -/
def takeCode (size : Nat) (text : List Char) : Option (Char × List Char) :=
  let digits := text.take size
  let code := hexValue digits
  if digits.length = size && digits.all isHexDigit && code.isValidChar then
    some (Char.ofNat code, text.drop size)
  else none

/-- The character that an escape stands for, after its backslash. -/
def takeEscape : List Char → Option (Char × List Char)
  | 'b' :: rest => some ('\x08', rest)
  | 't' :: rest => some ('\t', rest)
  | 'n' :: rest => some ('\n', rest)
  | 'f' :: rest => some ('\x0c', rest)
  | 'r' :: rest => some ('\r', rest)
  | '"' :: rest => some ('"', rest)
  | '\\' :: rest => some ('\\', rest)
  | 'u' :: rest => takeCode 4 rest
  | 'U' :: rest => takeCode 8 rest
  | _ => none

/-- The rest of a text in double quotes.  As for all of these, the length of the input is enough
fuel. -/
def takeQuoted : Nat → List Char → List Char → Option (String × List Char)
  | 0, _, _ => none
  | fuel + 1, text, read =>
    match text with
    | '"' :: rest => some (String.ofList read.reverse, rest)
    | '\\' :: rest => do
      let (c, rest) ← takeEscape rest
      takeQuoted fuel rest (c :: read)
    | c :: rest => if isTextChar c then takeQuoted fuel rest (c :: read) else none
    | [] => none

/-- The rest of a text in single quotes, in which there are no escapes. -/
def takeLiteral : Nat → List Char → List Char → Option (String × List Char)
  | 0, _, _ => none
  | fuel + 1, text, read =>
    match text with
    | '\'' :: rest => some (String.ofList read.reverse, rest)
    | c :: rest => if isTextChar c then takeLiteral fuel rest (c :: read) else none
    | [] => none

/-- The end of a text of several lines, which closes with three quotes.  One or two more quotes in
front of them belong to the text. -/
def takeClosing (quote : Char) (text read : List Char) : Option (String × List Char) :=
  let quotes := (text.takeWhile (· = quote)).length
  if quotes < 3 then none
  else
    let extra := min (quotes - 3) 2
    some (String.ofList (read.reverse ++ List.replicate extra quote), text.drop (extra + 3))

/-- The rest of the text after blanks and ends of lines. -/
def skipBlankLines : Nat → List Char → List Char
  | 0, text => text
  | fuel + 1, text =>
    match takeNewline (skipBlanks text) with
    | some rest => skipBlankLines fuel rest
    | none => skipBlanks text

/-- The rest of the text after a backslash at the end of a line, and after the blanks and the ends
of lines that follow. -/
def takeJoin (text : List Char) : Option (List Char) := do
  let rest ← takeNewline (skipBlanks text)
  return skipBlankLines rest.length rest

/-- The rest of a text of several lines in double quotes. -/
def takeQuotedLines : Nat → List Char → List Char → Option (String × List Char)
  | 0, _, _ => none
  | fuel + 1, text, read =>
    match takeClosing '"' text read with
    | some result => some result
    | none =>
      match text with
      | '\\' :: rest =>
        match takeJoin rest with
        | some rest => takeQuotedLines fuel rest read
        | none => do
          let (c, rest) ← takeEscape rest
          takeQuotedLines fuel rest (c :: read)
      | c :: rest =>
        match takeNewline text with
        | some rest => takeQuotedLines fuel rest ('\n' :: read)
        | none => if isTextChar c then takeQuotedLines fuel rest (c :: read) else none
      | [] => none

/-- The rest of a text of several lines in single quotes. -/
def takeLiteralLines : Nat → List Char → List Char → Option (String × List Char)
  | 0, _, _ => none
  | fuel + 1, text, read =>
    match takeClosing '\'' text read with
    | some result => some result
    | none =>
      match text with
      | c :: rest =>
        match takeNewline text with
        | some rest => takeLiteralLines fuel rest ('\n' :: read)
        | none => if isTextChar c then takeLiteralLines fuel rest (c :: read) else none
      | [] => none

/-- A text of several lines does not begin with the end of a line. -/
def skipNewline (text : List Char) : List Char :=
  (takeNewline text).getD text

/-- A text in quotes. -/
def takeText : List Char → Option (String × List Char)
  | '"' :: '"' :: '"' :: rest => takeQuotedLines (rest.length + 1) (skipNewline rest) []
  | '"' :: rest => takeQuoted (rest.length + 1) rest []
  | '\'' :: '\'' :: '\'' :: rest => takeLiteralLines (rest.length + 1) (skipNewline rest) []
  | '\'' :: rest => takeLiteral (rest.length + 1) rest []
  | _ => none

/-! ## Numbers -/

/-- Digits, between which there may be single underscores. -/
def joinDigits (isDigit : Char → Bool) : List Char → Option (List Char)
  | [] => none
  | [c] => if isDigit c then some [c] else none
  | c :: '_' :: rest => if isDigit c then (joinDigits isDigit rest).map (c :: ·) else none
  | c :: rest => if isDigit c then (joinDigits isDigit rest).map (c :: ·) else none

/-- Decimal digits without a leading zero. -/
def wholeDigits (text : List Char) : Option (List Char) := do
  let digits ← joinDigits Char.isDigit text
  guard (digits.length = 1 || digits.head? != some '0')
  return digits

/-- A sign, and the text behind it. -/
def splitSign : List Char → Bool × List Char
  | '-' :: rest => (true, rest)
  | '+' :: rest => (false, rest)
  | rest => (false, rest)

/-- An integer of 64 bits with a sign. -/
def boundedInt (i : Int) : Option Setting :=
  if -9223372036854775808 ≤ i ∧ i < 9223372036854775808 then some (.int i) else none

/-- An integer in digits of a base that is not ten. -/
def basedInt? (base : Nat) (isDigit : Char → Bool) (text : List Char) : Option Setting := do
  let digits ← joinDigits isDigit text
  let digit (c : Char) : Nat := hexValue [c]
  boundedInt (digits.foldl (fun n c => base * n + digit c) 0 : Nat)

/-- The integer that a word spells. -/
def int? : List Char → Option Setting
  | '0' :: 'x' :: digits => basedInt? 16 isHexDigit digits
  | '0' :: 'o' :: digits => basedInt? 8 (fun c => '0' ≤ c && c ≤ '7') digits
  | '0' :: 'b' :: digits => basedInt? 2 (fun c => c = '0' || c = '1') digits
  | word => do
    let (negative, rest) := splitSign word
    let size : Int := Double.digitsValue (← wholeDigits rest)
    boundedInt (if negative then -size else size)

/-- The exponent of a number, which may have leading zeros. -/
def exponentDigits (text : List Char) : Option (List Char) := do
  let digits ← joinDigits Char.isDigit (splitSign text).2
  return if (splitSign text).1 then '-' :: digits else digits

/-- The number with a point or an exponent that a word without sign spells, in plain digits. -/
def plainReal (word : List Char) : Option (List Char) := do
  let isPart (c : Char) : Bool := c.isDigit || c = '_'
  let whole ← wholeDigits (word.takeWhile isPart)
  let rest := word.dropWhile isPart
  let (fraction, rest) ← match rest with
    | '.' :: tail => do pure ('.' :: (← joinDigits Char.isDigit (tail.takeWhile isPart)),
        tail.dropWhile isPart)
    | tail => pure ([], tail)
  let exponent ← match rest with
    | mark :: tail =>
      if mark = 'e' || mark = 'E' then do pure ('e' :: (← exponentDigits tail)) else none
    | [] => pure []
  guard (!fraction.isEmpty || !exponent.isEmpty)
  return whole ++ fraction ++ exponent

/-- The number that is no integer and that a word spells.  Only a negative one may be beyond the
range of doubles. -/
def real? (word : List Char) : Option Setting := do
  let (negative, rest) := splitSign word
  let size ← match rest with
    | ['i', 'n', 'f'] => pure (1 / 0)
    | ['n', 'a', 'n'] => pure Double.nan
    | rest => do
      let size ← Double.ofText? (← plainReal rest)
      guard (size.isFinite || negative)
      pure size
  return .real (if negative then -size else size)

/-! ## Moments -/

/-- A number in a fixed number of digits. -/
def takeCount (size : Nat) (text : List Char) : Option (Nat × List Char) :=
  let digits := text.take size
  if digits.length = size && digits.all Char.isDigit then
    some (Double.digitsValue digits, text.drop size)
  else none

/-- The rest of the text after a fixed character. -/
def takeMark (mark : Char) : List Char → Option (List Char)
  | c :: rest => if c = mark then some rest else none
  | [] => none

def daysIn (year month : Nat) : Nat :=
  if month = 2 then
    if year % 4 = 0 && (year % 100 ≠ 0 || year % 400 = 0) then 29 else 28
  else if month = 4 || month = 6 || month = 9 || month = 11 then 30
  else 31

/-- A day of the calendar. -/
def takeDate (text : List Char) : Option (List Char) := do
  let (year, rest) ← takeCount 4 text
  let (month, rest) ← takeCount 2 (← takeMark '-' rest)
  let (day, rest) ← takeCount 2 (← takeMark '-' rest)
  guard (1 ≤ month && month ≤ 12 && 1 ≤ day && day ≤ daysIn year month)
  return rest

/-- A time of day, with seconds. -/
def takeTime (text : List Char) : Option (List Char) := do
  let (hour, rest) ← takeCount 2 text
  let (minute, rest) ← takeCount 2 (← takeMark ':' rest)
  let (second, rest) ← takeCount 2 (← takeMark ':' rest)
  guard (hour ≤ 23 && minute ≤ 59 && second ≤ 60)
  match rest with
  | '.' :: tail =>
    guard (tail.head?.any Char.isDigit)
    return tail.dropWhile Char.isDigit
  | rest => return rest

/-- Nothing, or the distance to universal time. -/
def isOffset : List Char → Bool
  | [] | ['Z'] | ['z'] => true
  | sign :: rest =>
    (sign = '+' || sign = '-') &&
      ((do
        let (hour, rest) ← takeCount 2 rest
        let (minute, rest) ← takeCount 2 (← takeMark ':' rest)
        return hour ≤ 23 && minute ≤ 59 && rest.isEmpty).getD false)

/-- A word is a time of day, perhaps with its distance to universal time. -/
def isClock (offset : Bool) (word : List Char) : Bool :=
  match takeTime word with
  | some rest => if offset then isOffset rest else rest.isEmpty
  | none => false

/-- A word is a moment: a day, a time of day, or both. -/
def isMoment (word : List Char) : Bool :=
  isClock false word ||
    match takeDate word with
    | some [] => true
    | some (mark :: rest) => (mark = 'T' || mark = 't') && isClock true rest
    | none => false

/-! ## Words -/

def isWordChar (c : Char) : Bool :=
  c.isAlphanum || c = '_' || c = '+' || c = '-' || c = '.' || c = ':'

/-- The scalar that a word spells. -/
def ofWord (word : List Char) : Option Setting :=
  if word = "true".toList then some (.bool true)
  else if word = "false".toList then some (.bool false)
  else if isMoment word then some (.moment (String.ofList word))
  else int? word <|> real? word

/-- A word.  Between a day and a time of day there may be a blank. -/
def takeWord (text : List Char) : List Char × List Char :=
  let word := text.takeWhile isWordChar
  let rest := text.dropWhile isWordChar
  match rest with
  | ' ' :: tail =>
    let clock := tail.takeWhile isWordChar
    if takeDate word = some [] && isClock true clock then
      (word ++ 'T' :: clock, tail.dropWhile isWordChar)
    else (word, rest)
  | _ => (word, rest)

/-- A scalar. -/
def takeScalar (text : List Char) : Option (Setting × List Char) :=
  match text with
  | '"' :: _ | '\'' :: _ => (takeText text).map fun (s, rest) => (.str s, rest)
  | _ =>
    let (word, rest) := takeWord text
    (ofWord word).map fun value => (value, rest)

end Resumable.Toml
