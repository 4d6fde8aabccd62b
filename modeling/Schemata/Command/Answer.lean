import Schemata.Command.Error
import Schemata.Metadata.Document
import Schemata.Projection.Reader
import Schemata.Projector.Document
import Schemata.Registry.Lifecycle

/-!
# Command answers

What each command answers about a registry that was loaded from metadata documents.
-/
namespace Schemata.Command

def addEntry (registry : Registry) (entry : EntityMetadata) : Except CommandError Registry :=
  match (Registry.register entry).outcome registry with
  | (.ok _, registry) => .ok registry
  | (.error error, _) => .error (.registration entry.key error)

/-- The registry of some metadata documents. All of them are read before the first one is
registered. -/
def loadRegistry (config : Config) (metadata : Json) : Except CommandError Registry := do
  let entries ← (Metadata.readAll (.standard 0) metadata).mapError .document
  entries.foldlM addEntry (.ofConfig config)

def versionSummary (version : String × SchemaStatus) : Json :=
  .object [("version", .string version.1), ("status", .string version.2.name)]

def entitySummary (name : String) (record : EntityRecord) : Json :=
  .object ([("name", .string name), ("versions", .array (record.statuses.map versionSummary))]
    ++ (record.info.defaultVersion.toList.map fun version => ("defaultVersion", .string version))
    ++ [("backend", .string record.info.dataStore.backend)])

def entities (registry : Registry) : Json :=
  .array (registry.entities.entries.map fun entry => entitySummary entry.1 entry.2)

def roles (registry : Registry) : Json :=
  registry.mappedRoles.toJson

def schema (registry : Registry) (entity : String) (version : Option String) :
    Except CommandError Json :=
  (registry.describe entity version).mapError .registry

def projectorFor (schema : EntitySchema) (projection : Json) : Except CommandError Projector := do
  let projection ← (Projection.ofJson projection).mapError fun fault =>
    .declaration (.malformed fault)
  (Projector.compile schema.fields projection .root FieldTree.root).mapError .compilation

def projectOne (schema : EntitySchema) (projector : Projector) (document : Json) :
    Except CommandError Json :=
  (projector.projectDocument schema.fields document).mapError .projection

/-- The projection of a document, or of each document of an array. -/
def project (registry : Registry) (entity : String) (version : Option String)
    (projection document : Json) : Except CommandError Json := do
  let schema ← (registry.resolve entity version).mapError .registry
  let projector ← projectorFor schema projection
  match document with
  | .array documents => Json.array <$> documents.mapM (projectOne schema projector)
  | document => projectOne schema projector document

end Schemata.Command
