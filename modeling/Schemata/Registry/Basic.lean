import Schemata.Config.Basic

/-!
# Registries

A registry holds entities and their published versions. The roles shown for an entity are
those declared with it, followed by those that its versions declare as long as they are not
retired.
-/
namespace Schemata

/-- A registered entity: the facts about it, the roles declared with it, and its versions by
number. -/
structure EntityRecord where
  info : EntityInfo
  declaredRoles : RoleMap
  versions : SortedMap String EntitySchema

namespace EntityRecord

def ofInfo (info : EntityInfo) : EntityRecord :=
  ⟨info, info.roles, ∅⟩

def isLive (record : EntityRecord) (version : String) : Bool :=
  (record.versions.find? version).any fun schema => schema.status ≠ .retired

/-- The declared roles, followed by the roles of all versions that are not retired, in the
order of the versions. -/
def liveRoles (record : EntityRecord) : RoleMap :=
  (record.versions.values.filter fun schema => schema.status ≠ .retired).foldl
    (fun map schema => map.merge (schema.roles record.info.name)) record.declaredRoles

def refresh (record : EntityRecord) : EntityRecord :=
  { record with info := { record.info with roles := record.liveRoles } }

/-- The entity without a default version if the default is the given one. -/
def dropDefault (version : String) (info : EntityInfo) : EntityInfo :=
  if info.defaultVersion = some version then { info with defaultVersion := none } else info

/-- The facts about an entity once another submission of it is accepted. -/
def adoptInfo (info submitted : EntityInfo) : EntityInfo :=
  { info with
    versions := info.versions.union submitted.versions
    dataStore := submitted.dataStore
    defaultVersion := submitted.defaultVersion.or info.defaultVersion }

/-- The record once another submission of the entity is accepted. -/
def adopt (record : EntityRecord) (submitted : EntityInfo) : EntityRecord :=
  { record with info := adoptInfo record.info submitted, declaredRoles := submitted.roles }

def putVersion (record : EntityRecord) (schema : EntitySchema) : EntityRecord :=
  refresh { record with
    versions := record.versions.insert schema.version.number schema }

/-- The record with a version replaced by its retired schema; it is no default any more. -/
def retire (record : EntityRecord) (version : String) (retired : EntitySchema) :
    EntityRecord :=
  refresh { record with
    info := dropDefault version record.info
    versions := record.versions.insert version retired }

def removeVersion (record : EntityRecord) (version : String) : EntityRecord :=
  refresh { record with
    info := dropDefault version
      { record.info with versions := record.info.versions.erase version }
    versions := record.versions.erase version }

def statuses (record : EntityRecord) : List (String × SchemaStatus) :=
  record.versions.entries.map fun entry => (entry.1, entry.2.status)

end EntityRecord

/-- A registry: its entities by name, what it thinks of data stores, and its settings. -/
structure Registry where
  entities : SortedMap String EntityRecord
  judge : DataStoreJudge
  config : Config

namespace Registry

def empty (config : Config) (judge : DataStoreJudge) : Registry :=
  ⟨∅, judge, config⟩

/-- A registry without entities that accepts the backends of its settings. -/
def ofConfig (config : Config) : Registry :=
  empty config config.judge

def names (registry : Registry) : List String :=
  registry.entities.keys

def size (registry : Registry) : Nat :=
  registry.entities.size

def isEmpty (registry : Registry) : Bool :=
  registry.entities.isEmpty

def record (registry : Registry) (name : String) : Except MetadataError EntityRecord :=
  (registry.entities.find? name).elim (.error (.entityNotFound name)) .ok

def info (registry : Registry) (name : String) : Except MetadataError EntityInfo :=
  EntityRecord.info <$> registry.record name

def versions (registry : Registry) (name : String) :
    Except MetadataError (List (String × SchemaStatus)) :=
  EntityRecord.statuses <$> registry.record name

def hasVersion (registry : Registry) (name version : String) : Bool :=
  (registry.entities.find? name).any fun record => record.versions.contains version

def isLive (registry : Registry) (name version : String) : Bool :=
  (registry.entities.find? name).any fun record => record.isLive version

/-- The version asked for, or the default one. -/
def selectVersion (record : EntityRecord) (name : String) (version : Option String) :
    Except MetadataError String :=
  (version.or record.info.defaultVersion).elim (.error (.noDefaultVersion name)) .ok

/-- The schema of a version, or of the default version. Retired versions are found too. -/
def resolve (registry : Registry) (name : String) (version : Option String) :
    Except MetadataError EntitySchema := do
  let record ← registry.record name
  let version ← selectVersion record name version
  (record.versions.find? version).elim (.error (.versionNotFound name version)) .ok

def mappedRoles (registry : Registry) : RoleMap :=
  registry.entities.values.foldl (fun map record => map.merge record.info.roles) ∅

def describe (registry : Registry) (name : String) (version : Option String) :
    Except MetadataError Json := do
  let schema ← registry.resolve name version
  return JsonSchema.describe schema registry.config.schemaDialect

end Registry
end Schemata
