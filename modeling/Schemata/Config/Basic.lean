import Schemata.JsonSchema
import Schemata.Metadata.Validation

/-!
# Settings

What can be set for a registry: the backends that it accepts, and the dialect that JSON Schema
descriptions name.
-/
namespace Schemata

structure Config where
  acceptedBackends : List String
  schemaDialect : String
deriving DecidableEq

namespace Config

/-- What holds where nothing is set. -/
def standard : Config :=
  ⟨["mongo", "memory"], JsonSchema.draft04⟩

def judge (config : Config) : DataStoreJudge :=
  acceptBackends (.ofTexts config.acceptedBackends)

structure Names where
  acceptedBackends : String
  schemaDialect : String

/-- Sets what a name says; other names are left alone. -/
def put (names : Names) (config : Config) (name : String) (value : Json) :
    Except ShapeFault Config := do
  if name = names.acceptedBackends then
    return { config with acceptedBackends := ← value.asList Json.asText }
  else if name = names.schemaDialect then
    return { config with schemaDialect := ← value.asText }
  else
    return config

def Names.toList (names : Names) : List String :=
  [names.acceptedBackends, names.schemaDialect]

def jsonNames : Names :=
  ⟨"accepted_backends", "json_schema_dialect"⟩

def toJson (config : Config) : Json :=
  .object [
    (jsonNames.acceptedBackends, .ofTexts config.acceptedBackends),
    (jsonNames.schemaDialect, .string config.schemaDialect)]

/-- Reads the JSON form: an object, or an array of the settings in order. -/
def ofJson : Json → Except ShapeFault Config
  | .object members => Json.readFields (put jsonNames) standard members
  | .array items => do
      let config ← Json.readPositions (put jsonNames) standard jsonNames.toList items
      Json.checkLength jsonNames.toList items
      return config
  | value => .error (.wrongKind value "settings")

end Config
end Schemata
