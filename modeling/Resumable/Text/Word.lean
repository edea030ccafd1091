/-!
Fixed words in texts.
-/

namespace Resumable.Text

/-- The rest of the text behind a fixed word. -/
def afterWord (word : String) (text : List Char) : Option (List Char) :=
  if word.toList.isPrefixOf text then some (text.drop word.length) else none

end Resumable.Text
