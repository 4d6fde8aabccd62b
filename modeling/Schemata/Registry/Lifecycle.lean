import Schemata.Registry.Basic

/-!
# Life in a registry

Metadata are validated, then published. A published version may become the default, be
retired, and be removed. Each of these is an attempt on the registry.
-/
namespace Schemata.Registry

/-- The versions that a submission may name as default: the live ones, and its own. -/
def catalogFor (registry : Registry) (submitted : EntityMetadata) : VersionCatalog :=
  fun name version =>
    (name = submitted.info.name && version = submitted.version) || registry.isLive name version

/-- Runs all checks on metadata whose version is not registered yet. -/
def validate (registry : Registry) (submitted : EntityMetadata) :
    Except MetadataError ValidatedMetadata :=
  if registry.hasVersion submitted.info.name submitted.version then
    .error (.duplicateVersion submitted.info.name submitted.version)
  else
    ValidatedMetadata.of (registry.catalogFor submitted) registry.judge submitted

def putRecord (registry : Registry) (name : String) (record : EntityRecord) : Registry :=
  { registry with entities := registry.entities.insert name record }

def recordFor (registry : Registry) (info : EntityInfo) : EntityRecord :=
  match registry.entities.find? info.name with
  | some record => record.adopt info
  | none => .ofInfo info

def publish (validated : ValidatedMetadata) : Attempt Registry MetadataError EntitySchema := do
  let registry ← get
  let metadata := validated.metadata
  let info := metadata.info.addVersion metadata.version
  if registry.hasVersion info.name metadata.version then
    throw (.duplicateVersion info.name metadata.version)
  let schema ← Attempt.ofExcept
    ((metadata.schema.moveTo .published).mapError MetadataError.transition)
  set (registry.putRecord info.name ((registry.recordFor info).putVersion schema))
  return schema

/-- Validates metadata and publishes them at once. -/
def register (submitted : EntityMetadata) : Attempt Registry MetadataError EntitySchema := do
  publish (← Attempt.look fun registry => registry.validate submitted)

def setDefault (name version : String) : Attempt Registry MetadataError Unit := do
  let registry ← get
  let record ← Attempt.ofExcept (registry.record name)
  if !record.isLive version then throw (.invalidDefaultVersion name version)
  set (registry.putRecord name { record with info := record.info.withDefault version })

def versionOf (record : EntityRecord) (name version : String) :
    Except MetadataError EntitySchema :=
  (record.versions.find? version).elim (.error (.versionNotFound name version)) .ok

/-- Retires a published version. It is found as before but is no default any more. -/
def retire (name version : String) : Attempt Registry MetadataError EntitySchema := do
  let registry ← get
  let record ← Attempt.ofExcept (registry.record name)
  let schema ← Attempt.ofExcept (versionOf record name version)
  let retired ← Attempt.ofExcept
    ((schema.moveTo .retired).mapError MetadataError.transition)
  set (registry.putRecord name (record.retire version retired))
  return retired

/-- The registry with a record under its name, or without the entity if it has no versions. -/
def putOrDrop (registry : Registry) (name : String) (record : EntityRecord) : Registry :=
  if record.versions.isEmpty then
    { registry with entities := registry.entities.erase name }
  else
    registry.putRecord name record

def remove (name version : String) : Attempt Registry MetadataError EntitySchema := do
  let registry ← get
  let record ← Attempt.ofExcept (registry.record name)
  let schema ← Attempt.ofExcept (versionOf record name version)
  set (registry.putOrDrop name (record.removeVersion version))
  return schema

end Schemata.Registry
