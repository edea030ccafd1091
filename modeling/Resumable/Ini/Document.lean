import Resumable.Settings.Setting
import Resumable.Text.Blank
import Resumable.Text.Integer

/-!
Settings in INI files.

A file has sections, whose names are in brackets, and entries with `=` or `:` between name and
value.  All values are texts.  A comment takes a whole line and begins with `;` or `#` at its very
start.  In names and values a backslash escapes; a value, or a part of it, may be in quotes.
-/

namespace Resumable.Ini

/-- The character that an escape mark stands for. -/
def escapeMark : Char → Char
  | '0' => '\x00'
  | 'a' => '\x07'
  | 'b' => '\x08'
  | 't' => '\t'
  | 'r' => '\r'
  | 'n' => '\n'
  | c => c

/-- The characters in front of the first one that stops, which is left over.  The end of the text
stops too if `atEnd` says so. -/
def takeUntil (stops : Char → Bool) (atEnd : Bool) :
    Nat → List Char → List Char → Option (List Char × List Char)
  | 0, _, _ => none
  | fuel + 1, text, read =>
    match text with
    | [] => if atEnd then some (read.reverse, []) else none
    | c :: rest =>
      if stops c then some (read.reverse, text)
      else if c = '\\' then
        match rest with
        | [] => none
        | '\n' :: rest => takeUntil stops atEnd fuel rest read
        | 'x' :: rest => do
          guard (3 < rest.length)
          let c ← Text.hexValue? (rest.take 4) >>= Text.char?
          takeUntil stops atEnd fuel (rest.drop 4) (c :: read)
        | mark :: rest => takeUntil stops atEnd fuel rest (escapeMark mark :: read)
      else takeUntil stops atEnd fuel rest (c :: read)

/-- A section or an entry. -/
inductive Item where
  | head (name : String)
  | entry (name value : String)
  deriving DecidableEq, Repr

def isLineEnd (c : Char) : Bool :=
  c = '\n' || c = '\r'

/-- The value of an entry.  What is in quotes is kept as it is; the blanks around the rest are not.
`quoted` says that something in quotes is read already. -/
def takeValue : Nat → Bool → List Char → List Char → Option (List Char × List Char)
  | 0, _, _, _ => none
  | fuel + 1, quoted, read, text =>
    match text with
    | [] => some (read, [])
    | c :: rest =>
      if c = '"' || c = '\'' then do
        let (part, rest) ← takeUntil (· = c) false (rest.length + 1) rest []
        takeValue fuel true (read ++ part) (rest.drop 1)
      else do
        let (part, rest) ← takeUntil isLineEnd true (text.length + 1) text []
        return (read ++ (if quoted then Text.trimEnd part else Text.trim part), rest)

/-- An entry and what is behind it. -/
def takeEntry (text : List Char) : Option (Item × List Char) := do
  let (name, rest) ← takeUntil (fun c => c = '=' || c = ':') false (text.length + 1) text []
  let name := Text.trim name
  guard (!name.isEmpty)
  let rest := (rest.drop 1).dropWhile fun c => Text.isBlank c && !isLineEnd c
  let (value, rest) ← takeValue (rest.length + 1) false [] rest
  return (.entry (String.ofList name) (String.ofList value), rest)

/-- A section and what is behind it, after its opening bracket. -/
def takeHead (text : List Char) : Option (Item × List Char) := do
  let (name, rest) ← takeUntil (· = ']') false (text.length + 1) text []
  return (.head (String.ofList (Text.trim name)), rest.drop 1)

/-- The items of a file.  `fresh` says that the text begins at the start of a line. -/
def takeItems : Nat → Bool → List Char → Option (List Item)
  | 0, _, _ => none
  | fuel + 1, fresh, text =>
    match text with
    | [] => some []
    | c :: rest =>
      if Text.isBlank c then takeItems fuel (c = '\n') rest
      else if c = ';' || c = '#' then
        if fresh then takeItems fuel true ((rest.dropWhile (· ≠ '\n')).drop 1) else none
      else do
        let (item, rest) ← if c = '[' then takeHead rest else takeEntry text
        return item :: (← takeItems fuel false rest)

/-- The entries up to the next section, as settings over those that are there, and what is left. -/
def collect (entries : List (String × Setting)) : List Item → List (String × Setting) × List Item
  | .entry name value :: rest => collect (Setting.insert name (.str value) entries) rest
  | rest => (entries, rest)

/-- The sections of a file, as settings over those that are there.  A section that comes twice
counts as it is the last time. -/
def withSections : Nat → List (String × Setting) → List Item → List (String × Setting)
  | fuel + 1, entries, .head name :: rest =>
    let (inner, rest) := collect [] rest
    withSections fuel (Setting.insert name (.table inner) entries) rest
  | _, entries, _ => entries

/-- The settings in a file. -/
def read? (text : String) : Option (List (String × Setting)) := do
  let text := text.toList
  let items ← takeItems (text.length + 1) true text
  let (entries, rest) := collect [] items
  return withSections (rest.length + 1) entries rest

end Resumable.Ini
