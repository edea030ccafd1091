import Resumable.Yaml.Scalar

/-!
YAML documents: lists and tables, by indentation or in brackets.

The reader goes from place to place.  A node by indentation belongs to the one around it as long as
its lines are indented further; `indent` is how far the node around it is indented, and less than
zero for the document itself.  Nodes that are given a name are kept, so that an alias can stand for
them.
-/

namespace Resumable.Yaml

/-- Reading with the nodes that have names. -/
abbrev Reader (α : Type) :=
  StateT (List (String × Node)) Option α

/-- What is said about a node in front of it. -/
structure Properties where
  name : Option String := none
  tag : Option Tag := none

/-- A word up to a blank, the end of the line or a mark of brackets. -/
def takeWord (here : Place) : String × Place :=
  let word := here.text.takeWhile fun c => !(isBlank c || c = '\n' || isFlowMark c)
  (String.ofList word, here.skip word.length)

/-- The tag that a word behind an exclamation mark is. -/
def tagOfWord (word : List Char) : Tag :=
  match word with
  | '!' :: name => .core (String.ofList name)
  | _ => .other

/-- What is said about a node, and the place behind it and behind blanks. -/
def takeProperties : Nat → Properties → Place → Option (Properties × Place)
  | 0, _, _ => none
  | fuel + 1, properties, here =>
    match here.text with
    | '&' :: _ =>
      let (word, next) := takeWord (here.skip 1)
      if word.isEmpty || properties.name.isSome then none
      else takeProperties fuel { properties with name := some word } next.skipBlanks
    | '!' :: _ =>
      let (word, next) := takeWord (here.skip 1)
      if properties.tag.isSome then none
      else takeProperties fuel { properties with tag := some (tagOfWord word.toList) }
        next.skipBlanks
    | _ => some (properties, here)

/-- Something is said about the node that begins here. -/
def atProperties (here : Place) : Bool :=
  here.text.head?.any fun c => c = '&' || c = '!'

/-- Keep a node under a name. -/
def keep (name : Option String) (node : Node) : Reader Unit :=
  match name with
  | some name => modify ((name, node) :: ·)
  | none => pure ()

/-- A node with what is said about it.  It is kept if it has a name; inside of itself, nothing
stands for the name. -/
def named (properties : Properties) (read : Reader (Node × Place)) : Reader (Node × Place) := do
  keep properties.name Node.missing
  let (node, next) ← read
  let node := node.withTag properties.tag
  keep properties.name node
  return (node, next)

/-- The node that an alias stands for, after its mark. -/
def takeAlias (here : Place) : Reader (Node × Place) := do
  let (word, next) := takeWord here
  return (← (← get).lookup word, next)

/-- The next place where something is written, and whether it is on another line. -/
def nextContent (inBrackets : Bool) (least : Nat) (here : Place) : Reader (Place × Bool) :=
  here.content inBrackets least (2 * here.text.length + 2)

/-- The next place in brackets where something is written. -/
def nextInside (least : Nat) (here : Place) : Reader Place := do
  return (← nextContent true least here).1

/-- What is written where something is said about a node, but the node is not there. -/
def blankNode : Node :=
  .scalar true none ""

/-! ## Brackets -/

/-- Nothing more comes in these brackets, or something else does. -/
def endsItem (here : Place) : Bool :=
  here.text.head?.all fun c => c = ',' || c = ']' || c = '\x7d' || c = ':'

mutual

/-- A node in brackets, whose lines are indented by `least` columns. -/
def flowNode (least : Nat) : Nat → Place → Reader (Node × Place)
  | 0, _ => failure
  | fuel + 1, here => do
    if atProperties here then
      let (properties, next) ← takeProperties 3 {} here
      let next ← nextInside least next
      guard (next.text.head? ≠ some '*')
      named properties (if endsItem next then pure (blankNode, next) else flowNode least fuel next)
    else match here.text with
      | '*' :: _ => takeAlias (here.skip 1)
      | '"' :: rest => takeQuoted '"' least (rest.length + 1) [] (here.skip 1)
      | '\'' :: rest => takeQuoted '\'' least (rest.length + 1) [] (here.skip 1)
      | '[' :: _ => flowItems least fuel [] (here.skip 1)
      | '\x7b' :: _ => flowEntries least fuel [] (here.skip 1)
      | _ => takePlain true (-1) here

/-- A node in brackets that may be a key, and the value behind it if there is a colon. -/
def flowPair (least : Nat) : Nat → Place → Reader (Node × Option Node × Place)
  | 0, _ => failure
  | fuel + 1, here => do
    let explicit := here.atMark '?'
    let here ← if explicit then nextInside least (here.skip 1) else pure here
    let (key, next) ← if endsItem here then pure (Node.missing, here) else flowNode least fuel here
    let next ← nextInside least next
    match next.text with
    | ':' :: _ =>
      let next ← nextInside least (next.skip 1)
      if endsItem next then return (key, some Node.missing, next)
      else
        let (value, next) ← flowNode least fuel next
        return (key, some value, ← nextInside least next)
    | _ =>
      guard (explicit || !endsItem here)
      return (key, if explicit then some Node.missing else none, next)

/-- The items of a list in brackets.  A key and its value are a table of their own. -/
def flowItems (least : Nat) : Nat → List Node → Place → Reader (Node × Place)
  | 0, _, _ => failure
  | fuel + 1, read, here => do
    let here ← nextInside least here
    match here.text with
    | ']' :: _ => return (.list read.reverse, here.skip 1)
    | _ =>
      let (key, value, next) ← flowPair least fuel here
      let item := match value with
        | some value => .table [(key, value)]
        | none => key
      match next.text with
      | ',' :: _ => flowItems least fuel (item :: read) (next.skip 1)
      | ']' :: _ => return (.list (item :: read).reverse, next.skip 1)
      | _ => failure

/-- The entries of a table in braces. -/
def flowEntries (least : Nat) : Nat → List (Node × Node) → Place → Reader (Node × Place)
  | 0, _, _ => failure
  | fuel + 1, read, here => do
    let here ← nextInside least here
    match here.text with
    | '\x7d' :: _ => return (.table read.reverse, here.skip 1)
    | _ =>
      let (key, value, next) ← flowPair least fuel here
      let read := (key, value.getD Node.missing) :: read
      match next.text with
      | ',' :: _ => flowEntries least fuel read (next.skip 1)
      | '\x7d' :: _ => return (.table read.reverse, next.skip 1)
      | _ => failure

end

/-- A node begins here that shows its own end. -/
def atClosed (here : Place) : Bool :=
  here.text.head?.any fun c => c = '[' || c = '\x7b' || c = '"' || c = '\'' || c = '*'

/-- A node that shows its own end. -/
def closedNode (least : Nat) (here : Place) : Reader (Node × Place) :=
  flowNode least (4 * here.text.length + 4) here

/-! ## Indentation -/

/-- A key on one line with a colon behind it, if there is one, and the place behind the colon. -/
def takeKey (here : Place) : Reader (Option (Node × Place)) := fun names =>
  let key : Reader (Node × Place) := do
    let (properties, first) ← takeProperties 3 {} here
    let (node, next) ← named properties <|
      if atClosed first then closedNode 0 first
      else do
        guard (startsPlain false first.text)
        let (line, next) := takePlainLine false first
        pure (Node.scalar true none (String.ofList line), next)
    let colon := next.skipBlanks
    guard (colon.atMark ':')
    guard (!(here.text.take (here.text.length - colon.text.length)).contains '\n')
    return (node, colon.skip 1)
  match key names with
  | some (found, names) => some (some found, names)
  | none => some (none, names)

/-- There is a key here. -/
def isKey (here : Place) : Reader Bool := fun names => do
  let (found, _) ← takeKey here names
  return (found.isSome, names)

mutual

/-- A node by indentation.  A list or a table can begin here only if `fresh` says so. -/
def blockNode : Nat → Int → Nat → Bool → Place → Reader (Node × Place)
  | 0, _, _, _, _ => failure
  | fuel + 1, indent, least, fresh, here => do
    if here.atMark '-' then
      guard fresh
      blockItems fuel here.column [] here
    else if here.atMark '?' || (fresh && (← isKey here)) then
      guard fresh
      blockEntries fuel here.column [] here
    else if atProperties here then
      let (properties, behind) ← takeProperties 3 {} here
      let (next, crossed) ← nextContent false least behind
      guard (next.text.head? ≠ some '*')
      named properties <|
        if next.text.isEmpty || (crossed && (next.column : Int) ≤ indent) then
          pure (blankNode, behind)
        else blockNode fuel indent least crossed next
    else match here.text with
      | '|' :: _ => takeBlock false indent (here.skip 1)
      | '>' :: _ => takeBlock true indent (here.skip 1)
      | _ => if atClosed here then closedNode least here else takePlain false indent here
termination_by structural fuel => fuel

/-- What belongs to a mark in this column and stands behind it.  `fresh` says that a list or a table
can begin on the same line. -/
def blockValue : Nat → Nat → Bool → Place → Reader (Node × Place)
  | 0, _, _, _ => failure
  | fuel + 1, column, fresh, here => do
    let (next, crossed) ← nextContent false (column + 1) here
    let least := if fresh && !crossed && !next.text.head?.any isFlowMark then column else column + 1
    if next.text.isEmpty then return (Node.missing, here)
    else if !crossed then blockNode fuel column least fresh next
    else if column < next.column then blockNode fuel column least true next
    else if column = next.column && next.atMark '-' && !fresh then blockItems fuel column [] next
    else return (Node.missing, here)
termination_by structural fuel => fuel

/-- The items of a list whose marks are in this column. -/
def blockItems : Nat → Nat → List Node → Place → Reader (Node × Place)
  | 0, _, _, _ => failure
  | fuel + 1, column, read, here => do
    let (item, behind) ← blockValue fuel column true (here.skip 1)
    let (next, crossed) ← nextContent false column behind
    if next.text.isEmpty || (crossed && next.column < column) then
      return (.list (item :: read).reverse, behind)
    else
      guard (crossed && next.column = column)
      if next.atMark '-' then blockItems fuel column (item :: read) next
      else return (.list (item :: read).reverse, behind)
termination_by structural fuel => fuel

/-- A key and its value in this column. -/
def blockEntry : Nat → Nat → Place → Reader ((Node × Node) × Place)
  | 0, _, _ => failure
  | fuel + 1, column, here => do
    if here.atMark '?' then
      let (key, behind) ← blockValue fuel column true (here.skip 1)
      let (next, crossed) ← nextContent false (column + 1) behind
      if crossed && next.column = column && next.atMark ':' then
        let (value, behind) ← blockValue fuel column true (next.skip 1)
        return ((key, value), behind)
      else return ((key, Node.missing), behind)
    else
      match ← takeKey here with
      | some (key, next) =>
        let (value, behind) ← blockValue fuel column false next
        return ((key, value), behind)
      | none => failure
termination_by structural fuel => fuel

/-- The entries of a table whose keys are in this column. -/
def blockEntries : Nat → Nat → List (Node × Node) → Place → Reader (Node × Place)
  | 0, _, _, _ => failure
  | fuel + 1, column, read, here => do
    let (entry, behind) ← blockEntry fuel column here
    let (next, crossed) ← nextContent false (column + 1) behind
    if next.text.isEmpty || (crossed && next.column < column) then
      return (.table (entry :: read).reverse, behind)
    else
      guard (crossed && next.column = column)
      blockEntries fuel column (entry :: read) next
termination_by structural fuel => fuel

end

/-! ## Documents -/

/-- A line that is only the mark of a document, perhaps with something behind it. -/
def isMarked (mark : String) (line : List Char) : Bool :=
  match Text.afterWord mark line with
  | some rest => rest.head?.all isBlank
  | none => false

/-- The line says nothing. -/
def isIdle (line : List Char) : Bool :=
  match line.dropWhile isBlank with
  | [] | '#' :: _ => true
  | _ => false

/-- A document: its text, and whether it begins behind a mark on the same line. -/
structure Document where
  marked : Bool := false
  text : List Char

/-- Where the reader of lines stands. -/
inductive Stage where
  /-- In front of a document. -/
  | before
  /-- Behind a directive, which needs a mark. -/
  | directed
  /-- In a document. -/
  | inside (marked : Bool)
  deriving DecidableEq, Repr

/-- The documents that lines make up, of which those in `lines` belong to the present one. -/
def documents (stage : Stage) (lines : List (List Char)) : List (List Char) → Option (List Document)
  | [] =>
    match stage with
    | .before => some []
    | .directed => none
    | .inside marked => some [{ marked, text := joinLines lines.reverse }]
  | line :: rest =>
    let present : List Document := match stage with
      | .inside marked => [{ marked, text := joinLines lines.reverse }]
      | _ => []
    if isMarked "---" line then
      (documents (.inside true) [' ' :: ' ' :: ' ' :: line.drop 3] rest).map (present ++ ·)
    else if isMarked "..." line && stage ≠ .directed then
      (documents .before [] rest).map (present ++ ·)
    else match stage with
      | .inside _ => documents stage (line :: lines) rest
      | _ =>
        if line.head? = some '%' then documents .directed [] rest
        else if isIdle line then documents stage (line :: lines) rest
        else if stage = .directed then none
        else documents (.inside false) (line :: lines) rest

/-- The node that a document is. -/
def Document.node? (document : Document) : Option Node := do
  let fuel := 2 * document.text.length + 2
  let (first, crossed) ← Place.content false 0 fuel ⟨0, document.text⟩
  if first.text.isEmpty then return Node.missing
  let fresh := crossed || !document.marked
  let ((node, behind), _) ← (blockNode (4 * fuel) (-1) 0 fresh first).run []
  let (last, _) ← behind.content false 0 fuel
  guard last.text.isEmpty
  return node

/-- The text with single characters at the ends of its lines. -/
def plainEnds : List Char → List Char
  | [] => []
  | '\r' :: '\n' :: rest => '\n' :: plainEnds rest
  | '\r' :: rest => '\n' :: plainEnds rest
  | c :: rest => c :: plainEnds rest

/-- The settings in a text, which has to be a single document with a table, or no document. -/
def read? (text : String) : Option (List (String × Setting)) := do
  match ← documents .before [] (splitLines (plainEnds text.toList)) with
  | [] => return []
  | [document] =>
    match ← (← document.node?).setting? with
    | .table entries => return entries
    | _ => none
  | _ => none

end Resumable.Yaml
