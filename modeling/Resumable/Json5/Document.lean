import Resumable.Settings.Setting
import Resumable.Text.Alphanumeric
import Resumable.Text.Word

/-!
Settings in JSON5, the form of JSON that is written by hand.

There may be comments and commas at the end of lists.  Names need no quotes if they are identifiers,
texts may be in single quotes, and numbers may have a sign, a bare point or the base 16.
-/

namespace Resumable.Json5

/-! ## Gaps -/

def isLineEnd (c : Char) : Bool :=
  c = '\n' || c = '\r' || c = '\u2028' || c = '\u2029'

/-- The characters that may stand between tokens. -/
def isGap (c : Char) : Bool :=
  let n := c.toNat
  isLineEnd c || n = 0x9 || n = 0xB || n = 0xC || n = 0x20 || n = 0xA0 || n = 0xFEFF || n =
    0x1680 || (0x2000 ≤ n && n ≤ 0x200A) || n = 0x202F || n = 0x205F || n = 0x3000

/-- The text behind the end of a comment. -/
def afterComment : List Char → Option (List Char)
  | [] => none
  | '*' :: '/' :: rest => some rest
  | _ :: rest => afterComment rest

/-- The text without the gaps and comments in front.  A comment that does not end is left. -/
def skipGap : Nat → List Char → List Char
  | 0, text => text
  | fuel + 1, text =>
    match text.dropWhile isGap with
    | '/' :: '/' :: rest => skipGap fuel (rest.dropWhile fun c => !isLineEnd c)
    | '/' :: '*' :: rest =>
      match afterComment rest with
      | some rest => skipGap fuel rest
      | none => '/' :: '*' :: rest
    | rest => rest

/-- The text without the gaps and comments in front. -/
def skip (text : List Char) : List Char :=
  skipGap (text.length + 1) text

/-! ## Texts -/

/-- The number that four digits of the base 16 make up, and the text behind them. -/
def takeUnit (text : List Char) : Option (Nat × List Char) := do
  guard (3 < text.length)
  return (← Text.hexValue? (text.take 4), text.drop 4)

/-- A character that is given by its number, as one unit or as two surrogates. -/
def takeUnicode (text : List Char) : Option (Char × List Char) := do
  let (first, rest) ← takeUnit text
  if 0xD800 ≤ first && first ≤ 0xDBFF then
    match rest with
    | '\\' :: 'u' :: rest =>
      let (second, rest) ← takeUnit rest
      guard (0xDC00 ≤ second && second ≤ 0xDFFF)
      return (← Text.char? (0x10000 + (first - 0xD800) * 0x400 + (second - 0xDC00)), rest)
    | _ => none
  else return (← Text.char? first, rest)

/-- The characters that an escape stands for, after its backslash, and the text behind it.  A
backslash in front of the end of a line joins the lines. -/
def takeEscape : List Char → Option (List Char × List Char)
  | [] => none
  | '\r' :: '\n' :: rest => some ([], rest)
  | 'x' :: rest => do
    guard (1 < rest.length)
    return ([← Text.hexValue? (rest.take 2) >>= Text.char?], rest.drop 2)
  | 'u' :: rest => (takeUnicode rest).map fun (c, rest) => ([c], rest)
  | '0' :: rest => some (['\x00'], rest)
  | 'b' :: rest => some (['\x08'], rest)
  | 'f' :: rest => some (['\x0c'], rest)
  | 'n' :: rest => some (['\n'], rest)
  | 'r' :: rest => some (['\r'], rest)
  | 't' :: rest => some (['\t'], rest)
  | 'v' :: rest => some (['\x0b'], rest)
  | c :: rest =>
    if c.isDigit then none else if isLineEnd c then some ([], rest) else some ([c], rest)

/-- A text up to its closing quote, which is `mark`. -/
def takeText (mark : Char) : Nat → List Char → List Char → Option (String × List Char)
  | 0, _, _ => none
  | fuel + 1, text, read =>
    match text with
    | [] => none
    | '\\' :: rest => do
      let (part, rest) ← takeEscape rest
      takeText mark fuel rest (part.reverse ++ read)
    | c :: rest =>
      if c = mark then some (String.ofList read.reverse, rest)
      else if isLineEnd c then none
      else takeText mark fuel rest (c :: read)

/-- The characters that an identifier begins with. -/
def isNameStart (c : Char) : Bool :=
  (Text.isAlphanumeric c && !c.isDigit) || c = '$' || c = '_'

/-- The characters of an identifier. -/
def isNameChar (c : Char) : Bool :=
  Text.isAlphanumeric c || c = '$' || c = '_' || c = '\u200C' || c = '\u200D'

/-- An identifier, with `read` in front of it, and the text behind it.  Its characters may be given
by their numbers. -/
def takeIdentifier : Nat → List Char → List Char → Option (String × List Char)
  | 0, _, _ => none
  | fuel + 1, text, read =>
    match text with
    | '\\' :: 'u' :: rest => do
      let (c, rest) ← takeUnicode rest
      takeIdentifier fuel rest (c :: read)
    | c :: rest =>
      if isNameStart c || (!read.isEmpty && isNameChar c) then takeIdentifier fuel rest (c :: read)
      else if read.isEmpty then none
      else some (String.ofList read.reverse, text)
    | [] => if read.isEmpty then none else some (String.ofList read.reverse, [])

/-- The name of a member and the text behind it. -/
def takeName (text : List Char) : Option (String × List Char) :=
  match text with
  | '"' :: rest => takeText '"' (rest.length + 1) rest []
  | '\'' :: rest => takeText '\'' (rest.length + 1) rest []
  | _ => takeIdentifier (text.length + 1) text []

/-! ## Numbers -/

/-- An exponent, if there is one, and the text behind it. -/
def takeExponent (text : List Char) : List Char × List Char :=
  match text with
  | c :: rest =>
    if c = 'e' || c = 'E' then
      let (sign, digits) := match rest with
        | '+' :: rest => (['+'], rest)
        | '-' :: rest => (['-'], rest)
        | rest => ([], rest)
      match digits.span Char.isDigit with
      | ([], _) => ([], text)
      | (digits, rest) => (c :: sign ++ digits, rest)
    else ([], text)
  | [] => ([], [])

/-- The digits in front of the point: a zero, or digits that do not begin with one. -/
def takeWhole (text : List Char) : List Char × List Char :=
  match text with
  | '0' :: rest => (['0'], rest)
  | rest => rest.span Char.isDigit

/-- A number in the base 10 without its sign, as it is written, and the text behind it. -/
def takeDecimal (text : List Char) : Option (List Char × List Char) :=
  match takeWhole text with
  | ([], '.' :: rest) =>
    match rest.span Char.isDigit with
    | ([], _) => none
    | (digits, rest) =>
      let (exponent, rest) := takeExponent rest
      some ('.' :: digits ++ exponent, rest)
  | ([], _) => none
  | (whole, '.' :: rest) =>
    let (digits, rest) := rest.span Char.isDigit
    let (exponent, rest) := takeExponent rest
    some (whole ++ '.' :: digits ++ exponent, rest)
  | (whole, rest) =>
    let (exponent, rest) := takeExponent rest
    some (whole ++ exponent, rest)

/-- The number that a numeral of the base 10 stands for: an integer of 64 bits, or a finite double
if there is a point or an exponent. -/
def decimal? (numeral : List Char) : Option Setting :=
  if numeral.any fun c => c = '.' || c = 'e' || c = 'E' then do
    let x ← Double.ofText? numeral
    guard x.isFinite
    return .real x
  else (Text.int? numeral).map .int

/-- A number and the text behind it.  One of the base 16 has no sign and at most 32 bits. -/
def takeNumber (text : List Char) : Option (Setting × List Char) :=
  let (sign, digits) := text.span fun c => c = '+' || c = '-'
  match digits with
  | '0' :: x :: rest =>
    let (hex, behind) := rest.span fun c => (Text.hexDigit? c).isSome
    if (x = 'x' || x = 'X') && !hex.isEmpty then do
      let n ← Text.hexValue? hex
      guard (sign.isEmpty && n < 4294967296)
      return (.int n, behind)
    else decimal sign digits
  | _ =>
    match Text.afterWord "Infinity" digits, Text.afterWord "NaN" digits with
    | some rest, _ =>
      if sign.isEmpty then some (.real (1 / 0), rest)
      else if sign = ['-'] then some (.real (-1 / 0), rest)
      else none
    | none, some rest =>
      if sign.isEmpty || sign = ['-'] then some (.real Double.nan, rest) else none
    | none, none => decimal sign digits
where
  decimal (sign digits : List Char) : Option (Setting × List Char) := do
    guard (sign.length ≤ 1)
    let (numeral, rest) ← takeDecimal digits
    return (← decimal? (sign ++ numeral), rest)

/-! ## Values -/

mutual

/-- A value at the head of the text, which has no gap in front, and the text behind it. -/
def takeValue : Nat → List Char → Option (Setting × List Char)
  | 0, _ => none
  | fuel + 1, text =>
    match text with
    | '"' :: rest => (takeText '"' (rest.length + 1) rest []).map fun (s, rest) => (.str s, rest)
    | '\'' :: rest => (takeText '\'' (rest.length + 1) rest []).map fun (s, rest) => (.str s, rest)
    | '[' :: rest => takeItems fuel (skip rest) []
    | '\x7b' :: rest => takeMembers fuel (skip rest) []
    | 't' :: rest => (Text.afterWord "rue" rest).map fun rest => (.bool true, rest)
    | 'f' :: rest => (Text.afterWord "alse" rest).map fun rest => (.bool false, rest)
    | 'n' :: rest => (Text.afterWord "ull" rest).map fun rest => (.null, rest)
    | _ => takeNumber text

/-- The items of a list up to its closing bracket. -/
def takeItems : Nat → List Char → List Setting → Option (Setting × List Char)
  | 0, _, _ => none
  | fuel + 1, text, read =>
    match text with
    | ']' :: rest => some (.list read.reverse, rest)
    | _ => do
      let (item, rest) ← takeValue fuel text
      match skip rest with
      | ',' :: rest => takeItems fuel (skip rest) (item :: read)
      | ']' :: rest => return (.list (item :: read).reverse, rest)
      | _ => none

/-- The members of an object up to its closing brace. -/
def takeMembers : Nat → List Char → List (String × Setting) → Option (Setting × List Char)
  | 0, _, _ => none
  | fuel + 1, text, read =>
    match text with
    | '\x7d' :: rest => some (.table read, rest)
    | _ => do
      let (name, rest) ← takeName text
      match skip rest with
      | ':' :: rest =>
        let (value, rest) ← takeValue fuel (skip rest)
        let read := Setting.insert name value read
        match skip rest with
        | ',' :: rest => takeMembers fuel (skip rest) read
        | '\x7d' :: rest => return (.table read, rest)
        | _ => none
      | _ => none

end

/-- The settings in a document, which has to be an object. -/
def read? (text : String) : Option (List (String × Setting)) := do
  let text := skip text.toList
  match ← takeValue (2 * text.length + 2) text with
  | (.table entries, rest) =>
    guard (skip rest).isEmpty
    return entries
  | _ => none

end Resumable.Json5
