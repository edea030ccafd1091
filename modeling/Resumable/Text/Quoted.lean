import Resumable.Text.Unprintable

/-!
Quoted text: a text between double quotes in which every character can be seen.
-/

namespace Resumable.Text

/-- A character inside a quoted text.  The single quote needs no escape there. -/
def escaped (c : Char) : String :=
  match c with
  | '\x00' => "\\0"
  | '\t' => "\\t"
  | '\n' => "\\n"
  | '\r' => "\\r"
  | '"' => "\\\""
  | '\\' => "\\\\"
  | c =>
    if isPrintable c then String.singleton c
    else "\\u\x7b" ++ String.ofList (Nat.toDigits 16 c.toNat) ++ "\x7d"

/-- The quoted form of a text. -/
def quoted (text : String) : String :=
  text.toList.foldl (fun shown c => shown ++ escaped c) "\"" ++ "\""

end Resumable.Text
