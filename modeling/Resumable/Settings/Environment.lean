import Resumable.Double.Reader
import Resumable.Settings.Setting
import Resumable.Text.Alphanumeric
import Resumable.Text.Blank
import Resumable.Text.Integer

/-!
Settings in environment variables, and files that list such variables.

A variable whose name is `nameHead` and a path, in any case and with two underscores between the
steps of the path, is a setting.  Its value is a truth value or a number if it reads like one.
-/

namespace Resumable.Environment

/-- Variables with their values. -/
abbrev Variables := List (String × String)

/-! ## Variables -/

/-- What the names of settings begin with, in lower case. -/
def nameHead : String :=
  "jumper__"

/-- The setting that a value reads like. -/
def setting (value : String) : Setting :=
  if value.toLower = "true" then .bool true
  else if value.toLower = "false" then .bool false
  else match Text.int? value.toList with
    | some i => .int i
    | none => match Double.ofText? value.toList with
      | some x => .real x
      | none => .str value

/-- The entry that a variable makes. -/
def entry? (name value : String) : Option (String × Setting) :=
  let name := Setting.lowerName name
  if nameHead.toList.isPrefixOf name.toList then
    let rest := String.ofList (name.toList.drop nameHead.length)
    some (rest.replace "__" ".", setting value)
  else none

/-- The settings in variables. -/
def layer (env : Variables) : List (String × Setting) :=
  env.filterMap fun (name, value) => entry? name value

/-! ## Files of variables -/

/-- Where the reader of a file stands in a line. -/
inductive LineState where
  | plain
  /-- Behind a blank, where a comment may begin. -/
  | blank
  | escaped
  /-- In quotes of that kind. -/
  | quoted (mark : Char)
  | escapedInQuotes (mark : Char)
  | comment
  deriving DecidableEq, Repr

/-- Where the reader stands behind one more character. -/
def LineState.next (c : Char) : LineState → LineState
  | .plain =>
    if Text.isBlank c && c ≠ '\n' && c ≠ '\r' then .blank
    else if c = '\\' then .escaped
    else if c = '"' || c = '\'' then .quoted c
    else .plain
  | .blank =>
    if c = '#' then .comment
    else if c = '\\' then .escaped
    else if c = '"' || c = '\'' then .quoted c
    else .plain
  | .escaped => .plain
  | .quoted mark =>
    if c = '\\' then .escapedInQuotes mark
    else if c = mark then .plain
    else .quoted mark
  | .escapedInQuotes mark => .quoted mark
  | .comment => .comment

/-- The lines of a file without their comments, in front of which `read` is read already.  A line
goes on behind its end while a quote is open.  One that the end of the file breaks off is `none`. -/
def logicalLines : LineState → List Char → List Char → List (Option (List Char))
  | .plain, read, [] | .comment, read, [] => [some read.reverse]
  | _, _, [] => [none]
  | .comment, read, c :: rest =>
    if c = '\n' then some read.reverse :: logicalLines .plain [] rest
    else logicalLines .comment read rest
  | state, read, c :: rest =>
    if c = '#' && read.all Text.isBlank then logicalLines .comment [] rest
    else match state.next c with
      | .comment => logicalLines .comment read rest
      | .plain =>
        if c = '\n' then some read.reverse :: logicalLines .plain [] rest
        else logicalLines .plain (c :: read) rest
      | next => logicalLines next (c :: read) rest

/-- The text of a value, given what the variables are that it may refer to.  Quotes are left out, a
backslash takes the next character as it is, and a dollar stands in front of a name.  In single
quotes all characters stand for themselves.  Behind a blank that is not in quotes there may only be
a comment. -/
def takeValue (lookup : String → String) : Nat → Option Char → List Char → List Char → Option String
  | 0, _, _, _ => none
  | fuel + 1, quote, text, read =>
    match quote, text with
    | none, [] => some (String.ofList read.reverse)
    | some _, [] => none
    | some '\'', c :: rest =>
      if c = '\'' then takeValue lookup fuel none rest read
      else takeValue lookup fuel quote rest (c :: read)
    | _, ['\\'] => takeValue lookup fuel quote [] read
    | _, '\\' :: c :: rest =>
      if c = 'n' then takeValue lookup fuel quote rest ('\n' :: read)
      else if c = '\\' || c = '\'' || c = '"' || c = '$' || c = ' ' then
        takeValue lookup fuel quote rest (c :: read)
      else none
    | _, '$' :: '\x7b' :: rest =>
      let name := rest.takeWhile (· ≠ '\x7d')
      match rest.dropWhile (· ≠ '\x7d') with
      | _ :: rest =>
        takeValue lookup fuel quote rest ((lookup (String.ofList name)).toList.reverse ++ read)
      | [] => none
    | _, '$' :: rest =>
      let name := rest.takeWhile Text.isAlphanumeric
      let read := (lookup (String.ofList name)).toList.reverse ++ read
      match rest.dropWhile Text.isAlphanumeric with
      | '$' :: rest => takeValue lookup fuel quote ('$' :: rest) read
      | c :: rest => takeValue lookup fuel quote rest (c :: read)
      | [] => takeValue lookup fuel quote [] read
    | some mark, c :: rest =>
      if c = mark then takeValue lookup fuel none rest read
      else takeValue lookup fuel quote rest (c :: read)
    | none, c :: rest =>
      if c = '\'' || c = '"' then takeValue lookup fuel (some c) rest read
      else if c = ' ' || c = '\t' then
        match rest.dropWhile fun c => c = ' ' || c = '\t' with
        | [] | '#' :: _ => some (String.ofList read.reverse)
        | _ => none
      else takeValue lookup fuel none rest (c :: read)

def isNameStart (c : Char) : Bool :=
  c.isAlpha || c = '_'

def isNameChar (c : Char) : Bool :=
  c.isAlphanum || c = '_' || c = '.'

/-- A name at the head of a line, and what is behind it. -/
def takeName (text : List Char) : Option (String × List Char) :=
  if text.head?.any isNameStart then
    some (String.ofList (text.takeWhile isNameChar),
      (text.dropWhile isNameChar).dropWhile Text.isBlank)
  else none

/-- The name that a line begins with, and what is behind its sign.  The word `export` may stand in
front. -/
def takeAssigned (text : List Char) : Option (String × List Char) := do
  match ← takeName text with
  | (name, '=' :: rest) => return (name, rest.dropWhile Text.isBlank)
  | ("export", rest) =>
    match ← takeName rest with
    | (name, '=' :: rest) => return (name, rest.dropWhile Text.isBlank)
    | _ => none
  | _ => none

/-- The value of a variable, empty if there is none. -/
def valueD (env : Variables) (name : String) : String :=
  (env.lookup name).getD ""

/-- The variables together with those in the lines of a file, up to the first line that cannot be
read.  A variable that is there keeps its value. -/
def readLines (env : Variables) : List (Option (List Char)) → Variables
  | [] | none :: _ => env
  | some line :: rest =>
    match Text.trim line with
    | [] => readLines env rest
    | line =>
      match takeAssigned line with
      | none => env
      | some (name, value) =>
        let value := match value with
          | '#' :: _ => some ""
          | value => takeValue (valueD env) (value.length + 1) none value []
        match value with
        | none => env
        | some value =>
          if (env.lookup name).isSome then readLines env rest
          else readLines (env ++ [(name, value)]) rest

/-- The variables together with those in a file.  A mark of the byte order in front is left out. -/
def withFile (env : Variables) (text : String) : Variables :=
  let text := match text.toList with
    | '\uFEFF' :: rest => rest
    | text => text
  readLines env (logicalLines .plain [] text)

end Resumable.Environment
