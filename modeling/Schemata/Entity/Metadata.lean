import Schemata.Entity.Info
import Schemata.Entity.Schema

/-!
# Entity metadata

The facts about an entity together with one version of its schema, as they are submitted for
registration.
-/
namespace Schemata

structure EntityMetadata where
  info : EntityInfo
  schema : EntitySchema

def versionKey (entity version : String) : String :=
  entity ++ ":" ++ version

namespace EntityMetadata

def version (metadata : EntityMetadata) : String :=
  metadata.schema.version.number

def key (metadata : EntityMetadata) : String :=
  versionKey metadata.info.name metadata.version

end EntityMetadata
end Schemata
