import Schemata.Json.Shape
import Schemata.Path

/-!
# Paths in JSON

A path is a JSON string, in its written form.
-/
namespace Schemata.Path

def toJson (path : Path) : Json :=
  .string path.render

def ofJson (value : Json) : Except ShapeFault Path := do
  (parse (← value.asText)).mapError fun error => .refused error.message

end Schemata.Path
