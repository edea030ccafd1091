import Resumable.Json.Reader

/-!
Reading only a part of a JSON text.

Who knows which members of a record matter can have the others skipped.  A value that is skipped has
to be written like JSON, but it may be nested as deep, its numbers may be as large, and its texts
may hold as strange surrogates as they like.
-/

namespace Resumable.Json

/-! ## Skipping -/

/-- The rest of the text after digits, of which there has to be one. -/
def skipDigits (text : List Char) : Option (List Char) :=
  match text.span Char.isDigit with
  | ([], _) => none
  | (_, rest) => some rest

/-- The rest of the text after a number. -/
def skipNumber (text : List Char) : Option (List Char) := do
  let text := match text with
    | '-' :: rest => rest
    | rest => rest
  let rest ← match text with
    | '0' :: rest => if rest.head?.any Char.isDigit then none else some rest
    | rest => skipDigits rest
  let rest ← match rest with
    | '.' :: rest => skipDigits rest
    | rest => some rest
  let (_, rest) ← readExponentPart rest
  return rest

/-- The rest of the text after a quoted text, behind its opening quote. -/
def skipText : Nat → List Char → Option (List Char)
  | 0, _ => none
  | fuel + 1, text =>
    match text with
    | [] => none
    | '"' :: rest => some rest
    | '\\' :: 'u' :: rest => do skipText fuel (← readHex rest).2
    | '\\' :: mark :: rest => do
      let _ ← escapeMark mark
      skipText fuel rest
    | c :: rest => if c.toNat < 0x20 then none else skipText fuel rest

mutual

/-- The rest of the text after a value.  Every step takes at least one character, so that twice the
length of the text is enough fuel. -/
def skipValue : Nat → List Char → Option (List Char)
  | 0, _ => none
  | fuel + 1, text =>
    match skipGap text with
    | '"' :: rest => skipText rest.length.succ rest
    | '[' :: rest =>
      match skipGap rest with
      | ']' :: rest => some rest
      | rest => skipItems fuel rest
    | '\x7b' :: rest =>
      match skipGap rest with
      | '\x7d' :: rest => some rest
      | rest => skipMembers fuel rest
    | 't' :: rest => Text.afterWord "rue" rest
    | 'f' :: rest => Text.afterWord "alse" rest
    | 'n' :: rest => Text.afterWord "ull" rest
    | rest => skipNumber rest

/-- The rest of the text after the items of an array. -/
def skipItems : Nat → List Char → Option (List Char)
  | 0, _ => none
  | fuel + 1, text => do
    match skipGap (← skipValue fuel text) with
    | ',' :: rest => skipItems fuel rest
    | ']' :: rest => return rest
    | _ => none

/-- The rest of the text after the members of an object. -/
def skipMembers : Nat → List Char → Option (List Char)
  | 0, _ => none
  | fuel + 1, text => do
    match skipGap text with
    | '"' :: rest =>
      match skipGap (← skipText rest.length.succ rest) with
      | ':' :: rest =>
        match skipGap (← skipValue fuel rest) with
        | ',' :: rest => skipMembers fuel rest
        | '\x7d' :: rest => return rest
        | _ => none
      | _ => none
    | _ => none

end

/-! ## Records -/

/-- What matters in a value: all of it or, if it is an object, only some of its members. -/
inductive Shape where
  | whole
  | record (members : List (String × Shape))

mutual

/-- What matters of the value at the head of the text. -/
def readShape : Nat → Nat → Shape → List Char → Option (Json × List Char)
  | 0, _, _, _ => none
  | _ + 1, depth, .whole, text => readValue (2 * text.length + 2) depth text
  | fuel + 1, depth, .record known, text =>
    match skipGap text with
    | '\x7b' :: rest =>
      if depth = 0 then none
      else match skipGap rest with
        | '\x7d' :: rest => some (.obj [], rest)
        | rest => readKnown fuel (depth - 1) known rest []
    | text => readValue (2 * text.length + 2) depth text

/-- The members that matter, up to the closing brace of their object.  Those that do not are left
out. -/
def readKnown : Nat → Nat → List (String × Shape) → List Char → List (String × Json) →
    Option (Json × List Char)
  | 0, _, _, _, _ => none
  | fuel + 1, depth, known, text, read =>
    match skipGap text with
    | '"' :: rest => do
      let (name, rest) ← readText rest.length.succ rest []
      match skipGap rest with
      | ':' :: rest =>
        let (read, rest) ← match known.lookup name with
          | some shape =>
            (readShape fuel depth shape rest).map fun (value, rest) => ((name, value) :: read, rest)
          | none => (skipValue (2 * rest.length + 2) rest).map fun rest => (read, rest)
        match skipGap rest with
        | ',' :: rest => readKnown fuel depth known rest read
        | '\x7d' :: rest => return (.obj read.reverse, rest)
        | _ => none
      | _ => none
    | _ => none

end

/-- What matters of the value that a text is the JSON form of, with at most `depth` arrays and
objects inside one another. -/
def readShape? (depth : Nat) (shape : Shape) (text : String) : Option Json := do
  let text := text.toList
  let (value, rest) ← readShape (2 * text.length + 2) depth shape text
  guard (skipGap rest).isEmpty
  return value

end Resumable.Json
