import Resumable.Toml.Scalar

/-!
TOML documents.

A document is a list of lines that each give a value to a key or open a table.  A table is opened
once, a key is given a value once, and keys with points open tables that no header may open again.
-/

namespace Resumable.Toml

/-! ## Tables under construction -/

/-- How a table came about. -/
inductive Origin where
  /-- By a header of its own. -/
  | header
  /-- By the header of a table inside of it. -/
  | inner
  /-- By keys with points. -/
  | dotted
  deriving DecidableEq, Repr

inductive Node where
  | value (value : Setting)
  | table (origin : Origin) (entries : List (String × Node))
  /-- A list of tables that is still open. -/
  | tables (closed : List Setting) (last : List (String × Node))

/-- The entries of a table. -/
abbrev Entries := List (String × Node)

/-- Entries with a new node for a name. -/
def replace (name : String) (node : Node) : Entries → Entries
  | [] => [(name, node)]
  | (key, old) :: rest =>
    if key = name then (key, node) :: rest else (key, old) :: replace name node rest

mutual

def Node.toSetting : Node → Setting
  | .value v => v
  | .table _ entries => .table (toSettings entries)
  | .tables closed last => .list (closed ++ [.table (toSettings last)])

def toSettings : List (String × Node) → List (String × Setting)
  | [] => []
  | (name, node) :: rest => (name, node.toSetting) :: toSettings rest

end

/-- Give a value to a key.  `direct` says that the table takes keys without points: the one that is
open does, and so do those that were made by points. -/
def insertKey (value : Setting) (direct : Bool) : List String → Entries → Option Entries
  | [], _ => none
  | [name], entries =>
    if direct && (entries.lookup name).isNone then some (replace name (.value value) entries)
    else none
  | name :: path, entries =>
    match entries.lookup name with
    | none => do return replace name (.table .dotted (← insertKey value true path [])) entries
    | some (.table .header _) | some (.value _) => none
    | some (.table origin inner) => do
      return replace name (.table origin (← insertKey value (origin = .dotted) path inner)) entries
    | some (.tables closed last) => do
      return replace name (.tables closed (← insertKey value false path last)) entries

/-- Change the table at the end of a path.  Of a list of tables the last one is meant. -/
def updateTable (f : Entries → Option Entries) : List String → Entries → Option Entries
  | [], entries => f entries
  | name :: path, entries =>
    match entries.lookup name with
    | none => do return replace name (.table .inner (← updateTable f path [])) entries
    | some (.value _) => none
    | some (.table origin inner) => do
      return replace name (.table origin (← updateTable f path inner)) entries
    | some (.tables closed last) => do
      return replace name (.tables closed (← updateTable f path last)) entries

/-- Open a table. -/
def openTable (name : String) (entries : Entries) : Option Entries :=
  match entries.lookup name with
  | none => some (replace name (.table .header []) entries)
  | some (.table .inner inner) => some (replace name (.table .header inner) entries)
  | _ => none

/-- Open one more table in a list of tables. -/
def openListed (name : String) (entries : Entries) : Option Entries :=
  match entries.lookup name with
  | none => some (replace name (.tables [] []) entries)
  | some (.tables closed last) =>
    some (replace name (.tables (closed ++ [.table (toSettings last)]) []) entries)
  | _ => none

/-- Open the table of a header. -/
def openPath (listed : Bool) (path : List String) (entries : Entries) : Option Entries := do
  let name ← path.getLast?
  updateTable (if listed then openListed name else openTable name) path.dropLast entries

/-! ## Keys -/

def isKeyChar (c : Char) : Bool :=
  c.isAlphanum || c = '_' || c = '-'

/-- A part of a key: a plain word or a text on one line. -/
def takeKeyPart : List Char → Option (String × List Char)
  | '"' :: rest => takeQuoted (rest.length + 1) rest []
  | '\'' :: rest => takeLiteral (rest.length + 1) rest []
  | text =>
    let word := text.takeWhile isKeyChar
    if word.isEmpty then none else some (String.ofList word, text.dropWhile isKeyChar)

/-- A key with the blanks behind it: parts with points between them. -/
def takeKey : Nat → List Char → Option (List String × List Char)
  | 0, _ => none
  | fuel + 1, text => do
    let (part, rest) ← takeKeyPart (skipBlanks text)
    match skipBlanks rest with
    | '.' :: rest =>
      let (path, rest) ← takeKey fuel rest
      return (part :: path, rest)
    | rest => return ([part], rest)

/-- How deep tables may be nested, by the parts of a key or by brackets and braces. -/
def maxDepth : Nat :=
  79

/-- A key that is not too long. -/
def takePath (text : List Char) : Option (List String × List Char) := do
  let (path, rest) ← takeKey (text.length + 1) text
  guard (path.length ≤ maxDepth)
  return (path, rest)

/-- A key and the sign behind it. -/
def takeAssigned (text : List Char) : Option (List String × List Char) := do
  let (path, rest) ← takePath text
  return (path, skipBlanks (← takeMark '=' rest))

/-! ## Values -/

/-- The rest of the text after a comment, if there is one. -/
def skipComment : List Char → List Char
  | '#' :: rest => rest.dropWhile isTextChar
  | text => text

/-- The rest of the text after blanks, comments and ends of lines. -/
def skipFiller : Nat → List Char → List Char
  | 0, text => text
  | fuel + 1, text =>
    let rest := skipComment (skipBlanks text)
    match takeNewline rest with
    | some rest => skipFiller fuel rest
    | none => rest

/-- The items of a list up to its closing bracket.  A comma may stand behind the last one. -/
def takeItems (item : List Char → Option (Setting × List Char)) :
    Nat → List Char → List Setting → Option (Setting × List Char)
  | 0, _, _ => none
  | fuel + 1, text, read =>
    match skipFiller (text.length + 1) text with
    | ']' :: rest => some (.list read.reverse, rest)
    | text => do
      let (value, rest) ← item text
      match skipFiller (rest.length + 1) rest with
      | ',' :: rest => takeItems item fuel rest (value :: read)
      | ']' :: rest => return (.list (value :: read).reverse, rest)
      | _ => none

/-- The pairs of a table on one line, up to its closing brace. -/
def takePairs (item : List Char → Option (Setting × List Char)) :
    Nat → List Char → Entries → Option (Setting × List Char)
  | 0, _, _ => none
  | fuel + 1, text, entries => do
    let (path, rest) ← takeAssigned text
    let (value, rest) ← item rest
    let entries ← insertKey value true path entries
    match skipBlanks rest with
    | ',' :: rest => takePairs item fuel rest entries
    | '\x7d' :: rest => return (.table (toSettings entries), rest)
    | _ => none

/-- A table on one line, after its opening brace. -/
def takeInline (item : List Char → Option (Setting × List Char)) (text : List Char) :
    Option (Setting × List Char) :=
  match skipBlanks text with
  | '\x7d' :: rest => some (.table [], rest)
  | text => takePairs item (text.length + 1) text []

/-- A value, with at most `depth` lists and tables inside one another. -/
def takeValue : Nat → List Char → Option (Setting × List Char)
  | 0, text => takeScalar text
  | depth + 1, text =>
    match text with
    | '[' :: rest => takeItems (takeValue depth) (rest.length + 1) rest []
    | '\x7b' :: rest => takeInline (takeValue depth) rest
    | _ => takeScalar text

/-! ## Lines -/

/-- The rest of the text after what may stand at the end of a line. -/
def takeLineEnd (text : List Char) : Option (List Char) :=
  match skipComment (skipBlanks text) with
  | [] => some []
  | rest => takeNewline rest

/-- The path in a header, up to its closing bracket. -/
def takeHeader (text : List Char) : Option (List String × List Char) := do
  let (path, rest) ← takePath text
  return (path, ← takeMark ']' rest)

/-- The lines of a document, given what was read before them and the path of the open table. -/
def takeLines : Nat → List String → Entries → List Char → Option Entries
  | 0, _, _, _ => none
  | fuel + 1, path, entries, text =>
    match skipBlanks text with
    | [] => some entries
    | '[' :: '[' :: rest => do
      let (path, rest) ← takeHeader rest
      let rest ← takeLineEnd (← takeMark ']' rest)
      takeLines fuel path (← openPath true path entries) rest
    | '[' :: rest => do
      let (path, rest) ← takeHeader rest
      takeLines fuel path (← openPath false path entries) (← takeLineEnd rest)
    | text =>
      match takeLineEnd text with
      | some rest => takeLines fuel path entries rest
      | none => do
        let (key, rest) ← takeAssigned text
        let (value, rest) ← takeValue maxDepth rest
        let entries ← updateTable (insertKey value true key) path entries
        takeLines fuel path entries (← takeLineEnd rest)

/-- A mark of the encoding, which may stand in front of a text. -/
def skipMark : List Char → List Char
  | '\ufeff' :: rest => rest
  | text => text

/-- The entries of a document. -/
def read? (text : String) : Option (List (String × Setting)) :=
  let text := skipMark text.toList
  (takeLines (text.length + 1) [] [] text).map toSettings

end Resumable.Toml
