import Resumable.Text.Blank
import Resumable.Yaml.Node

/-!
Places in YAML texts, and the scalars that stand there.

All ends of lines are single characters here.  Lines inside a scalar are folded: the end of a line
is a blank, and more of them are one end of a line less.
-/

namespace Resumable.Yaml

/-! ## Places -/

/-- What is left of a text, and the column where it begins. -/
structure Place where
  column : Nat
  text : List Char

def isBlank (c : Char) : Bool :=
  c = ' ' || c = '\t'

/-- The marks of lists and tables that are written in brackets. -/
def isFlowMark (c : Char) : Bool :=
  c = ',' || c = '[' || c = ']' || c = '\x7b' || c = '\x7d'

namespace Place

/-- The place behind some characters of the same line. -/
def skip (here : Place) (count : Nat) : Place :=
  ⟨here.column + count, here.text.drop count⟩

/-- The place behind the blanks. -/
def skipBlanks (here : Place) : Place :=
  here.skip (here.text.takeWhile isBlank).length

/-- The mark stands here by itself. -/
def atMark (mark : Char) (here : Place) : Bool :=
  match here.text with
  | c :: rest => c = mark && (rest.isEmpty || rest.head?.any fun c => isBlank c || c = '\n')
  | [] => false

/-- There are tabs in front of this column where the line begins. -/
def tabsBefore (least : Nat) (here : Place) : Bool :=
  here.column = 0 && ((here.text.takeWhile isBlank).take least).contains '\t'

/-- The next place where something is written, behind blanks, ends of lines and comments, and
whether it is on another line.  There a line is indented by `least` columns without tabs.  In
brackets it is not indented less, either. -/
def content (inBrackets : Bool) (least : Nat) : Nat → Place → Option (Place × Bool)
  | 0, _ => none
  | fuel + 1, here =>
    let next := here.skipBlanks
    match next.text with
    | '\n' :: rest => do
      let (found, _) ← content inBrackets least fuel ⟨0, rest⟩
      guard (!inBrackets || found.text.isEmpty || least ≤ found.column)
      return (found, true)
    | '#' :: rest =>
      if here.tabsBefore least then none
      else if here.column < next.column || next.column = 0 then
        content inBrackets least fuel ⟨next.column, rest.dropWhile (· ≠ '\n')⟩
      else some (next, false)
    | text => if here.tabsBefore least && !text.isEmpty then none else some (next, false)

end Place

/-! ## Folding -/

/-- What some ends of lines in a row are folded to. -/
def folded (breaks : Nat) : List Char :=
  if breaks = 1 then [' '] else List.replicate (breaks - 1) '\n'

/-- How many ends of lines there are in front, and the place behind them and the blanks around them.
-/
def takeBreaks : Nat → Place → Nat × Place
  | 0, here => (0, here)
  | fuel + 1, here =>
    match here.skipBlanks.text with
    | '\n' :: rest =>
      let (breaks, next) := takeBreaks fuel ⟨0, rest⟩
      (breaks + 1, next)
    | _ => (0, here.skipBlanks)

/-! ## Plain scalars -/

/-- A colon ends a key if this follows. -/
def endsKey (inBrackets : Bool) (text : List Char) : Bool :=
  match text with
  | [] => true
  | c :: _ => isBlank c || c = '\n' || (inBrackets && isFlowMark c)

/-- A plain scalar can begin here. -/
def startsPlain (inBrackets : Bool) : List Char → Bool
  | [] => false
  | c :: rest =>
    if c = '-' || c = '?' || c = ':' then !endsKey inBrackets rest
    else !(isBlank c || c = '\n' || isFlowMark c || "#&*!|>'\"%@\x60".toList.contains c)

/-- The part of a plain scalar on one line, with the blanks behind it. -/
def plainLine (inBrackets : Bool) : List Char → List Char
  | [] => []
  | c :: rest =>
    if c = '\n' || (inBrackets && isFlowMark c) || (c = ':' && endsKey inBrackets rest) ||
      (isBlank c && rest.head? = some '#')
    then []
    else c :: plainLine inBrackets rest

/-- The part of a plain scalar on one line, and the place behind it. -/
def takePlainLine (inBrackets : Bool) (here : Place) : List Char × Place :=
  let line := Text.trimEnd (plainLine inBrackets here.text)
  (line, here.skip line.length)

/-- The further lines of a plain scalar: those that are indented by more than `indent`. -/
def takePlainRest (inBrackets : Bool) (indent : Int) : Nat → List Char → Place → List Char × Place
  | 0, read, here => (read, here)
  | fuel + 1, read, here =>
    let (breaks, next) := takeBreaks here.text.length here
    if breaks = 0 || (next.column : Int) ≤ indent || next.text.head? = some '#' then (read, here)
    else
      match takePlainLine inBrackets next with
      | ([], _) => (read, here)
      | (line, behind) =>
        takePlainRest inBrackets indent fuel (read ++ folded breaks ++ line) behind

/-- A plain scalar and the place behind it. -/
def takePlain (inBrackets : Bool) (indent : Int) (here : Place) : Option (Node × Place) := do
  guard (startsPlain inBrackets here.text)
  let (line, next) := takePlainLine inBrackets here
  let (text, next) := takePlainRest inBrackets indent here.text.length line next
  return (.scalar true none (String.ofList text), next)

/-! ## Quoted scalars -/

/-- How many digits give the number of a character behind an escape mark. -/
def escapeWidth : Char → Option Nat
  | 'x' => some 2
  | 'u' => some 4
  | 'U' => some 8
  | _ => none

/-- The character that an escape mark stands for. -/
def escapeMark : Char → Option Char
  | '0' => some '\x00'
  | 'a' => some '\x07'
  | 'b' => some '\x08'
  | 't' | '\t' => some '\t'
  | 'n' => some '\n'
  | 'v' => some '\x0b'
  | 'f' => some '\x0c'
  | 'r' => some '\r'
  | 'e' => some '\x1b'
  | ' ' => some ' '
  | '"' => some '"'
  | '/' => some '/'
  | '\\' => some '\\'
  | 'N' => some '\u0085'
  | '_' => some '\u00A0'
  | 'L' => some '\u2028'
  | 'P' => some '\u2029'
  | _ => none

/-- What an escape stands for, after its backslash, and the place behind it.  A backslash at the end
of a line joins it with the next one. -/
def takeEscape (here : Place) : Option (List Char × Place) :=
  match here.text with
  | [] => none
  | '\n' :: _ =>
    let (breaks, next) := takeBreaks here.text.length here
    some (List.replicate (breaks - 1) '\n', next)
  | mark :: rest =>
    match escapeWidth mark with
    | some width => do
      guard (width ≤ rest.length)
      return ([← Text.hexValue? (rest.take width) >>= Text.char?], here.skip (width + 1))
    | none => (escapeMark mark).map fun c => ([c], here.skip 1)

/-- A scalar up to its closing quote, which is `mark`.  Only in double quotes there are escapes; a
single quote is written twice.  Further lines are indented by `least` columns. -/
def takeQuoted (mark : Char) (least : Nat) : Nat → List Char → Place → Option (Node × Place)
  | 0, _, _ => none
  | fuel + 1, read, here =>
    match here.text with
    | [] => none
    | c :: rest =>
      if c = mark then
        if mark = '\'' && rest.head? = some mark then takeQuoted mark least fuel (read ++ [c])
          (here.skip 2)
        else some (.scalar false none (String.ofList read), here.skip 1)
      else if c = '\\' && mark = '"' then do
        let (part, next) ← takeEscape (here.skip 1)
        guard (here.column < next.column || least ≤ next.column)
        takeQuoted mark least fuel (read ++ part) next
      else if isBlank c || c = '\n' then
        let (breaks, next) := takeBreaks here.text.length here
        if breaks = 0 then
          takeQuoted mark least fuel (read ++ here.text.takeWhile isBlank) next
        else if next.column < least then none
        else takeQuoted mark least fuel (read ++ folded breaks) next
      else takeQuoted mark least fuel (read ++ [c]) (here.skip 1)

/-! ## Scalars in lines of their own -/

/-- What becomes of the ends of lines behind the last line. -/
inductive Chomp where
  | strip
  | clip
  | keep
  deriving DecidableEq, Repr

/-- How a scalar in lines of its own is written. -/
structure BlockHeader where
  chomp : Chomp := .clip
  indent : Option Nat := none

/-- What is said about the ends of lines, if something is, and the text behind it. -/
def takeChomp : List Char → Option Chomp × List Char
  | '+' :: rest => (some .keep, rest)
  | '-' :: rest => (some .strip, rest)
  | rest => (none, rest)

/-- How far the lines are indented, if it is said, and the text behind it. -/
def takeIndent : List Char → Option Nat × List Char
  | c :: rest =>
    if '1' ≤ c && c ≤ '9' then (some (c.toNat - '0'.toNat), rest) else (none, c :: rest)
  | [] => (none, [])

/-- The marks behind the first one, in any order, and the text behind them. -/
def takeBlockHeader (text : List Char) : BlockHeader × List Char :=
  match takeChomp text with
  | (some chomp, rest) =>
    let (indent, rest) := takeIndent rest
    ({ chomp, indent }, rest)
  | (none, rest) =>
    let (indent, rest) := takeIndent rest
    let (chomp, rest) := takeChomp rest
    ({ chomp := chomp.getD .clip, indent }, rest)

/-- How far a line is indented. -/
def indentOf (line : List Char) : Nat :=
  (line.takeWhile (· = ' ')).length

/-- Lines of which the blank ones at the end are counted apart. -/
def splitTail (lines : List (List Char)) : List (List Char) × Nat :=
  let tail := lines.reverse.takeWhile List.isEmpty
  (lines.take (lines.length - tail.length), tail.length)

/-- Lines put together so that lines which are not indented further are folded.  `breaks` ends of
lines are in front, and `indented` tells about the line before them. -/
def foldLines : Option Bool → Nat → List (List Char) → List Char
  | _, _, [] => []
  | before, breaks, [] :: rest => foldLines before (breaks + 1) rest
  | before, breaks, line :: rest =>
    let indented := line.head?.any isBlank
    let gap := match before with
      | none => List.replicate breaks '\n'
      | some was =>
        if was || indented then List.replicate (breaks + 1) '\n' else folded (breaks + 1)
    gap ++ line ++ foldLines (some indented) 0 rest

/-- Lines put together as they are. -/
def joinLines (lines : List (List Char)) : List Char :=
  ['\n'].intercalate lines

/-- The lines of a text. -/
def splitLines (text : List Char) : List (List Char) :=
  ((String.ofList text).splitOn "\n").map String.toList

/-- A scalar in lines of its own, behind its first mark, which tells whether the lines are folded.
The lines are indented by more than `indent`. -/
def takeBlock (fold : Bool) (indent : Int) (here : Place) : Option (Node × Place) := do
  let (header, rest) := takeBlockHeader here.text
  let (place, _) ← Place.content false 0 2 ⟨here.column + 1, rest.takeWhile (· ≠ '\n')⟩
  guard (place.text.isEmpty && (rest.head?.all fun c => isBlank c || c = '\n'))
  let lines := splitLines ((rest.dropWhile (· ≠ '\n')).drop 1)
  let blank := fun line : List Char => line.all (· = ' ')
  let base := match header.indent with
    | some n => indent.toNat + n
    | none =>
      let first := (lines.find? fun line => !blank line).map indentOf
      max (max (first.getD 0) (indent + 1).toNat) 1
  let own := lines.takeWhile fun line => blank line || base ≤ indentOf line
  let behind := lines.drop own.length
  let (body, tail) := splitTail (own.map (·.drop base))
  let ends := tail - (if behind.isEmpty then 1 else 0)
  let text := if fold then foldLines none 0 body else joinLines body
  let finish := match header.chomp with
    | .strip => []
    | .clip => if body.isEmpty then [] else ['\n']
    | .keep => List.replicate (if body.isEmpty then ends else ends + 1) '\n'
  let rest := behind.flatMap ('\n' :: ·)
  return (.scalar false none (String.ofList (text ++ finish)), ⟨1, rest⟩)

end Resumable.Yaml
