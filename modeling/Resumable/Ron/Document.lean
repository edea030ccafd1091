import Resumable.Settings.Setting
import Resumable.Text.Word

/-!
Settings in RON, a notation for records, lists, maps and optional values.

A record is a list of fields in parentheses, with or without a name in front; without names of
fields it is a list.  An optional value is `None` or `Some(value)`.  There may be comments, which
can be nested, and commas at the end of lists.
-/

namespace Resumable.Ron

/-! ## Gaps -/

def isGap (c : Char) : Bool :=
  c = ' ' || c = '\t' || c = '\n' || c = '\r'

/-- The text behind the end of a comment in which `level` more comments are open. -/
def afterComment : Nat → List Char → Option (List Char)
  | _, [] => none
  | 0, '*' :: '/' :: rest => some rest
  | level + 1, '*' :: '/' :: rest => afterComment level rest
  | level, '/' :: '*' :: rest => afterComment (level + 1) rest
  | level, _ :: rest => afterComment level rest

/-- The text without the gaps and comments in front. -/
def skipGap : Nat → List Char → Option (List Char)
  | 0, _ => none
  | fuel + 1, text =>
    match text.dropWhile isGap with
    | '/' :: '/' :: rest => skipGap fuel (rest.dropWhile (· ≠ '\n'))
    | '/' :: '*' :: rest => do skipGap fuel (← afterComment 0 rest)
    | rest => some rest

/-- The text without the gaps and comments in front. -/
def skip (text : List Char) : Option (List Char) :=
  skipGap (text.length + 1) text

/-! ## Words and texts -/

def isNameStart (c : Char) : Bool :=
  c.isAlpha || c = '_'

def isNameChar (c : Char) : Bool :=
  c.isAlphanum || c = '_'

/-- The characters of a name behind `r#`. -/
def isRawChar (c : Char) : Bool :=
  isNameChar c || c = '.' || c = '+' || c = '-'

/-- A name and the text behind it. -/
def takeName (text : List Char) : Option (String × List Char) :=
  match text with
  | 'r' :: '"' :: _ => none
  | 'r' :: '#' :: rest =>
    match rest.span isRawChar with
    | ([], _) => none
    | (name, rest) => some (String.ofList name, rest)
  | c :: _ =>
    let (name, rest) := text.span isNameChar
    if isNameStart c && !rest.head?.any isRawChar then some (String.ofList name, rest) else none
  | [] => none

/-- The character that an escape stands for, after its backslash, and the text behind it. -/
def takeEscape : List Char → Option (Char × List Char)
  | 'n' :: rest => some ('\n', rest)
  | 'r' :: rest => some ('\r', rest)
  | 't' :: rest => some ('\t', rest)
  | '0' :: rest => some ('\x00', rest)
  | 'x' :: rest => do
    guard (1 < rest.length)
    return (← Text.hexValue? (rest.take 2) >>= Text.char?, rest.drop 2)
  | 'u' :: '\x7b' :: rest => do
    let (digits, rest) := rest.span (· ≠ '\x7d')
    guard (digits.length ≤ 6 && !rest.isEmpty)
    return (← Text.hexValue? digits >>= Text.char?, rest.drop 1)
  | c :: rest => if c = '\'' || c = '"' || c = '\\' then some (c, rest) else none
  | [] => none

/-- A text up to its closing quote. -/
def takeText : Nat → List Char → List Char → Option (String × List Char)
  | 0, _, _ => none
  | fuel + 1, text, read =>
    match text with
    | [] => none
    | '"' :: rest => some (String.ofList read.reverse, rest)
    | '\\' :: rest => do
      let (c, rest) ← takeEscape rest
      takeText fuel rest (c :: read)
    | c :: rest => takeText fuel rest (c :: read)

/-- A text without escapes up to its closing mark. -/
def takeRaw (mark : List Char) : List Char → List Char → Option (String × List Char)
  | [], _ => none
  | c :: rest, read =>
    if mark.isPrefixOf (c :: rest) then
      some (String.ofList read.reverse, (c :: rest).drop mark.length)
    else takeRaw mark rest (c :: read)

/-- A single character up to its closing quote. -/
def takeChar : List Char → Option (String × List Char)
  | '\\' :: rest => do
    match ← takeEscape rest with
    | (c, '\'' :: rest) => return (c.toString, rest)
    | _ => none
  | c :: '\'' :: rest => some (c.toString, rest)
  | _ => none

/-! ## Numbers -/

/-- The value of digits in a base.  Behind the first one there may be underscores. -/
def digits? (base : Nat) (digits : List Char) : Option Nat :=
  if digits.head? = some '_' then none else Text.digitsValue? base (digits.filter (· ≠ '_'))

/-- The size of an integer, whose base may stand in front. -/
def size? : List Char → Option Nat
  | '0' :: 'x' :: digits => digits? 16 digits
  | '0' :: 'b' :: digits => digits? 2 digits
  | '0' :: 'o' :: digits => digits? 8 digits
  | digits => digits? 10 digits

/-- A number and the text behind it: an integer if it can be one, or else a double. -/
def takeNumber (text : List Char) : Option (Setting × List Char) :=
  let (numeral, rest) := text.span isRawChar
  let (negative, digits) := Text.splitSign numeral
  match size? digits >>= Text.signed negative with
  | some i => some (.int i, rest)
  | none =>
    if numeral.any fun c => c.isDigit then
      (Double.ofText? numeral).map fun x => (.real x, rest)
    else none

/-! ## Values -/

/-- The text of a value that can be a name. -/
def name? : Setting → Option String
  | .str name => some name
  | _ => none

/-- There is the name of a field in front. -/
def isField (text : List Char) : Bool :=
  match takeName text with
  | some (_, rest) =>
    match skip rest with
    | some (':' :: _) => true
    | _ => false
  | none => false

mutual

/-- A value at the head of the text, which has no gap in front, and the text behind it. -/
def takeValue : Nat → List Char → Option (Setting × List Char)
  | 0, _ => none
  | fuel + 1, text =>
    match takeName text with
    | some ("true", rest) => some (.bool true, rest)
    | some ("false", rest) => some (.bool false, rest)
    | some ("None", rest) => some (.null, rest)
    | some ("inf", rest) => some (.real (1 / 0), rest)
    | some ("NaN", rest) => some (.real Double.nan, rest)
    | some ("Some", rest) => do
      match ← skip rest with
      | '(' :: rest =>
        let (value, rest) ← takeValue fuel (← skip rest)
        match ← skip rest with
        | ')' :: rest => return (value, rest)
        | ',' :: rest =>
          match ← skip rest with
          | ')' :: rest => return (value, rest)
          | _ => none
        | _ => none
      | _ => none
    | some (_, rest) => do
      match ← skip rest with
      | '(' :: rest => takeRecord fuel (← skip rest)
      | _ => return (.null, rest)
    | none =>
      match text with
      | '(' :: ')' :: rest => some (.null, rest)
      | '(' :: rest => do takeRecord fuel (← skip rest)
      | '[' :: rest => do takeItems ']' fuel (← skip rest) []
      | '\x7b' :: rest => do takeEntries '\x7d' (takeKey fuel) fuel (← skip rest) []
      | '"' :: rest => (takeText (rest.length + 1) rest []).map fun (s, rest) => (.str s, rest)
      | '\'' :: rest => (takeChar rest).map fun (s, rest) => (.str s, rest)
      | 'r' :: rest =>
        let (marks, rest) := rest.span (· = '#')
        match rest with
        | '"' :: rest => (takeRaw ('"' :: marks) rest []).map fun (s, rest) => (.str s, rest)
        | _ => none
      | '-' :: 'i' :: 'n' :: 'f' :: rest => some (.real (-1 / 0), rest)
      | _ => takeNumber text

/-- The key of a map. -/
def takeKey : Nat → List Char → Option (String × List Char)
  | 0, _ => none
  | fuel + 1, text => do
    let (key, rest) ← takeValue fuel text
    return (← name? key, rest)

/-- What is in parentheses: the fields of a record, or a list. -/
def takeRecord : Nat → List Char → Option (Setting × List Char)
  | 0, _ => none
  | fuel + 1, text =>
    if isField text then takeEntries ')' takeName fuel text [] else takeItems ')' fuel text []

/-- The items of a list up to the mark that closes it. -/
def takeItems (mark : Char) : Nat → List Char → List Setting → Option (Setting × List Char)
  | 0, _, _ => none
  | fuel + 1, text, read => do
    if text.head? = some mark then return (.list read.reverse, text.drop 1)
    let (item, rest) ← takeValue fuel text
    match ← skip rest with
    | ',' :: rest => takeItems mark fuel (← skip rest) (item :: read)
    | rest =>
    if rest.head? = some mark then return (.list (item :: read).reverse, rest.drop 1) else none

/-- The entries of a record or a map up to the mark that closes it. -/
def takeEntries (mark : Char) (takeName : List Char → Option (String × List Char)) :
    Nat → List Char → List (String × Setting) → Option (Setting × List Char)
  | 0, _, _ => none
  | fuel + 1, text, read => do
    if text.head? = some mark then return (.table read, text.drop 1)
    let (name, rest) ← takeName text
    match ← skip rest with
    | ':' :: rest =>
      let (value, rest) ← takeValue fuel (← skip rest)
      let read := Setting.insert name value read
      match ← skip rest with
      | ',' :: rest => takeEntries mark takeName fuel (← skip rest) read
      | rest => if rest.head? = some mark then return (.table read, rest.drop 1) else none
    | _ => none

end

/-! ## Documents -/

/-- The extensions of the notation that a document may ask for.  They make no difference to
settings. -/
def extensions : List String :=
  ["unwrap_newtypes", "implicit_some", "unwrap_variant_newtypes"]

/-- The text behind the extensions that are asked for in front. -/
def skipExtensions : Nat → List Char → Option (List Char)
  | 0, _ => none
  | fuel + 1, text => do
    match ← skip text with
    | '#' :: rest =>
      let body ← Text.afterWord "![enable(" (rest.filter fun c => !isGap c)
      let names := (String.ofList (body.takeWhile (· ≠ ')'))).splitOn ","
      guard (names.all fun name => extensions.contains name)
      guard ((body.dropWhile (· ≠ ')')).take 2 = [')', ']'])
      skipExtensions fuel ((rest.dropWhile (· ≠ ']')).drop 1)
    | rest => return rest

/-- The settings in a document, which has to be a record or a map. -/
def read? (text : String) : Option (List (String × Setting)) := do
  let text ← skipExtensions (text.length + 1) text.toList
  match ← takeValue (3 * text.length + 3) text with
  | (.table entries, rest) =>
    guard (← skip rest).isEmpty
    return entries
  | _ => none

end Resumable.Ron
