import Schemata.Config.Basic
import Schemata.Toml.Reader

/-!
# Settings files

Settings are read from the section `metadata` of a TOML file. What the section does not say
has its standard value.
-/
namespace Schemata.Config

def fileNames : Names :=
  ⟨"accepted-backends", "json-schema-dialect"⟩

/-- Reads the section: a table, or an array that begins with the settings in order. -/
def ofSection : Json → Except ShapeFault Config
  | .object members => Json.readFields (put fileNames) standard members
  | .array items => Json.readPositions (put fileNames) standard fileNames.toList items
  | value => .error (.wrongKind value "settings")

def ofFile? (text : String) : Option Config := do
  match Members.find? (← Toml.read? text) "metadata" with
  | none => return standard
  | some value => (ofSection value).toOption

/-- The settings of a file that may not be readable. Where there is no file, or a broken one,
the standard settings hold. -/
def load (text : Option String) : Config :=
  (text.bind ofFile?).getD standard

end Schemata.Config
