import Resumable.Ini.Document
import Resumable.Json.Reader
import Resumable.Json5.Document
import Resumable.Ron.Document
import Resumable.Toml.Document
import Resumable.Yaml.Document

/-!
The formats of settings files, which the endings of their names tell.
-/

namespace Resumable.Settings

/-- The formats of settings files. -/
inductive Format where
  | toml
  | json
  | yaml
  | ini
  | ron
  | json5
  deriving DecidableEq, Repr

namespace Format

/-- The endings of file names, each with its format. -/
def endings : List (String × Format) :=
  [("toml", .toml), ("json", .json), ("yaml", .yaml), ("yml", .yaml), ("ini", .ini), ("ron", .ron),
    ("json5", .json5)]

/-- The format that an ending stands for. -/
def ofEnding? (ending : String) : Option Format :=
  endings.lookup ending

/-- The settings in a text. -/
def read? (text : String) : Format → Option (List (String × Setting))
  | .toml => Toml.read? text
  | .json => do
    match ← Json.read? 127 text with
    | .obj members => return Setting.ofJsonMembers members
    | _ => none
  | .yaml => Yaml.read? text
  | .ini => Ini.read? text
  | .ron => Ron.read? text
  | .json5 => Json5.read? text

end Format

end Resumable.Settings
