import Resumable.Json.Basic
import Resumable.Text.Integer

/-!
Settings as trees of names and values, whatever they were written in.

Where layers of settings are put over one another names are matched in lower case, and a table is
merged into the one below it.  The names at the top of a layer are paths: `compiler.new` is an entry
of a table, and `runtime[1]` an item of a list.
-/

namespace Resumable

inductive Setting where
  | null
  | bool (value : Bool)
  | int (value : Int)
  | real (value : Float)
  | str (value : String)
  /-- A date or a time, as it is written. -/
  | moment (text : String)
  | list (items : List Setting)
  | table (entries : List (String × Setting))
  deriving Inhabited

namespace Setting

/-- The entries of a table; anything else has none. -/
def entries : Setting → List (String × Setting)
  | .table entries => entries
  | _ => []

/-- The items of a list; anything else has none. -/
def items : Setting → List Setting
  | .list items => items
  | _ => []

/-- A list of entries with a changed value for a name, which is added if it is missing. -/
def alter (name : String) (f : Option Setting → Setting) :
    List (String × Setting) → List (String × Setting)
  | [] => [(name, f none)]
  | (key, value) :: rest =>
    if key = name then (key, f (some value)) :: rest else (key, value) :: alter name f rest

/-- A list of entries with a value for a name, in place of the one it may have. -/
def insert (name : String) (value : Setting) (entries : List (String × Setting)) :
    List (String × Setting) :=
  alter name (fun _ => value) entries

/-! ## Layers -/

/-- The lower case of a name.  Beyond ASCII this is only done for the Kelvin sign: its lower case is
a letter of ASCII, and only names in ASCII mean anything. -/
def lowerName (name : String) : String :=
  name.map fun c => if c = '\u212A' then 'k' else c.toLower

mutual

/-- What a value becomes over an older one.  A table is merged into it entry by entry, with names in
lower case, and a moment is a text. -/
def merge (old : Option Setting) : Setting → Setting
  | .table incoming => (old.getD (.table [])).withEntries incoming
  | .moment text => .str text
  | value => value

/-- A table with more entries.  What is no table becomes one for the first of them. -/
def withEntries (base : Setting) : List (String × Setting) → Setting
  | [] => base
  | (name, value) :: rest =>
    (Setting.table (alter (lowerName name) (fun old => merge old value) base.entries)).withEntries
    rest

end

/-- One step on the way to a setting. -/
inductive Step where
  | entry (name : String)
  /-- The item at an index.  A negative index counts from the end. -/
  | item (index : Int)
  deriving DecidableEq, Repr

/-- A list with a changed item.  It is filled up with nulls until it has such an item. -/
def alterItem (index : Int) (f : Option Setting → Setting) (items : List Setting) : List Setting :=
  let fromStart := if 0 ≤ index then index else items.length + index
  let items := List.replicate (-fromStart).toNat .null ++ items
  let place := fromStart.toNat
  let items := items ++ List.replicate (place + 1 - items.length) .null
  items.modify place fun old => f (some old)

/-- A setting in which what is at a step is changed.  It becomes a table or a list if it is none. -/
def alterStep (f : Option Setting → Setting) (base : Setting) : Step → Setting
  | .entry name => .table (alter name f base.entries)
  | .item index => .list (alterItem index f base.items)

/-- A setting with a value at the end of a path.  Entries are merged there, and items are replaced.
-/
def withPath (value : Setting) : List Step → Setting → Setting
  | [], base => base
  | [.entry name], base => base.alterStep (fun old => merge old value) (.entry name)
  | [.item index], base => base.alterStep (fun _ => value) (.item index)
  | step :: path, base => base.alterStep (fun old => withPath value path (old.getD .null)) step

/-- The characters of a name in a path. -/
def isStepChar (c : Char) : Bool :=
  c.isAlphanum || c = ' ' || c = '_' || c = '-'

/-- A name at the head of a path. -/
def takeEntry (text : List Char) : Option (Step × List Char) :=
  match text.span isStepChar with
  | ([], _) => none
  | (name, rest) => some (.entry (String.ofList name), rest)

/-- An index in brackets, after the opening one.  There may be blanks around it. -/
def takeItem (text : List Char) : Option (Step × List Char) := do
  let isBlank := fun c => c = ' ' || c = '\t'
  let (sign, rest) := (text.dropWhile isBlank).span (· = '-')
  let (digits, rest) := rest.span Char.isDigit
  let index ← Text.int? (sign ++ digits)
  match rest.dropWhile isBlank with
  | ']' :: rest => return (.item index, rest)
  | _ => none

/-- The steps behind the first one: names behind points, and indexes in brackets. -/
def takeSteps : Nat → List Char → Option (List Step)
  | _, [] => some []
  | 0, _ :: _ => none
  | fuel + 1, c :: rest => do
    let (step, rest) ←
      if c = '.' then takeEntry rest else if c = '[' then takeItem rest else none
    return step :: (← takeSteps fuel rest)

/-- The path that a name spells, in lower case.  A name that spells none is a single step. -/
def path (name : String) : List Step :=
  let name := lowerName name
  let steps? := do
    let (first, rest) ← takeEntry name.toList
    return first :: (← takeSteps rest.length rest)
  steps?.getD [.entry name]

/-- One layer of settings over another one.  The names in front are paths. -/
def override (base : Setting) (layer : List (String × Setting)) : Setting :=
  layer.foldl (fun base (name, value) => withPath value (path name) base) base

/-! ## Data -/

mutual

/-- JSON data as settings.  Of two members of one name the later one counts. -/
def ofJson : Json → Setting
  | .null => .null
  | .bool b => .bool b
  | .int i => .int i
  | .real x => .real x
  | .str s => .str s
  | .arr items => .list (ofJsonItems items)
  | .obj members => .table (ofJsonMembers members)

def ofJsonItems : List Json → List Setting
  | [] => []
  | item :: rest => ofJson item :: ofJsonItems rest

def ofJsonMembers : List (String × Json) → List (String × Setting)
  | [] => []
  | (name, value) :: rest =>
    let entries := ofJsonMembers rest
    if (entries.lookup name).isSome then entries else (name, ofJson value) :: entries

end

/-- A part of a record: the entry of that name, or the item at that position. -/
def part? (name : String) (position : Nat) : Setting → Option Setting
  | .table entries => entries.lookup name
  | .list items => items[position]?
  | _ => none

/-- A record: a table or a list.  A moment is a record too, of parts that nobody asks for. -/
def isRecord : Setting → Bool
  | .table _ | .list _ | .moment _ => true
  | _ => false

end Setting

end Resumable
