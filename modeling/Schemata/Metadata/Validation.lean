import Schemata.Metadata.Error

/-!
# Validation

The checks that metadata pass before they are registered. What depends on the surroundings is
asked from outside: a catalog of the versions that exist, and a judge of data stores.
-/
namespace Schemata

abbrev VersionCatalog := String → String → Bool

/-- Judges where an entity's documents are stored; gives the reason of a refusal. -/
abbrev DataStoreJudge := EntityInfo → Except String Unit

def EntityInfo.catalog (info : EntityInfo) : VersionCatalog :=
  fun entity version => info.name = entity && info.hasVersion version

def acceptBackends (accepted : TextSet) : DataStoreJudge :=
  fun info =>
    let backend := info.dataStore.backend
    if backend = "" then .error "no backend specified"
    else if accepted.contains backend then .ok ()
    else .error ("unsupported backend '" ++ backend ++ "'")

namespace Metadata

def checkName (info : EntityInfo) : Except MetadataError Unit :=
  if info.name = "" then .error .emptyName else .ok ()

/-- The schema bears the name of the entity. -/
def checkNamesAgree (metadata : EntityMetadata) : Except MetadataError Unit :=
  if metadata.schema.name = metadata.info.name then .ok ()
  else .error (.namesDisagree metadata.schema.name metadata.info.name)

/-- Gives back the version record if its number is a version number. -/
def checkVersion (version : Version) : Except MetadataError Version :=
  if version.number = "" then .error .emptyVersion
  else if Version.isNumber version.number then .ok version
  else .error (.invalidVersionNumber version.number)

def checkHasFields (schema : EntitySchema) : Except MetadataError Unit :=
  if schema.fields.isEmpty then .error (.noFields schema.name) else .ok ()

def checkDataStore (judge : DataStoreJudge) (info : EntityInfo) : Except MetadataError Unit :=
  (judge info).mapError (.dataStoreInvalid info.name)

def checkDefaultVersion (catalog : VersionCatalog) (info : EntityInfo) :
    Except MetadataError Unit :=
  match info.defaultVersion with
  | none => .ok ()
  | some version =>
      if catalog info.name version then .ok ()
      else .error (.invalidDefaultVersion info.name version)

def check (catalog : VersionCatalog) (judge : DataStoreJudge) (metadata : EntityMetadata) :
    Except MetadataError Unit := do
  checkName metadata.info
  checkNamesAgree metadata
  discard (checkVersion metadata.schema.version)
  checkHasFields metadata.schema
  checkDataStore judge metadata.info
  checkDefaultVersion catalog metadata.info

def validate (catalog : VersionCatalog) (judge : DataStoreJudge) (metadata : EntityMetadata) :
    Except MetadataError EntityMetadata := do
  check catalog judge metadata
  let schema ← (metadata.schema.moveTo .validated).mapError .transition
  return { metadata with schema := schema }

end Metadata

/-- Metadata that have come out of a validation. -/
structure ValidatedMetadata where
  metadata : EntityMetadata
  validated : ∃ catalog judge submitted,
    Metadata.validate catalog judge submitted = .ok metadata

/-- Validates metadata and keeps the fact that they have passed. -/
def ValidatedMetadata.of (catalog : VersionCatalog) (judge : DataStoreJudge)
    (submitted : EntityMetadata) : Except MetadataError ValidatedMetadata :=
  match outcome : Metadata.validate catalog judge submitted with
  | .error error => .error error
  | .ok metadata => .ok ⟨metadata, catalog, judge, submitted, outcome⟩

end Schemata
