import Schemata.Metadata.Fields

/-!
# Metadata documents

Reading entity metadata. A document holds the facts about an entity under `entityInfo` and one
version of its schema under `schema`; the version of the schema counts among the known ones.
-/
namespace Schemata.Metadata

/-- The version record of a schema: a number alone, or a whole record. -/
def versionOf : Option Json → Except MetadataError Version
  | some (.string number) => .ok (.ofNumber number)
  | some (.object members) => shaped (Version.ofMembers members)
  | some value => malformed (.versionKind value)
  | none => malformed .noVersion

def accessOf : Option Json → Except MetadataError Access
  | some value => shaped (Access.ofJson value)
  | none => .ok ∅

/-- The schema that a document declares. It bears the entity's name if it gives no other. -/
def schemaOf (types : TypeRegistry) (entity : String) (schema : Members) :
    Except MetadataError EntitySchema := do
  let name := ((schema.find? "name").bind Json.string?).getD entity
  let version ← versionOf (schema.find? "version")
  let access ← accessOf (schema.find? "access")
  let fields ← fieldTreeOf types (schema.find? "fields")
  return .propose name version fields access

def read (types : TypeRegistry) (document : Json) : Except MetadataError EntityMetadata := do
  let members ← membersOf .document document
  let info ← match members.find? "entityInfo" with
    | none => malformed .noInfo
    | some value => shaped (EntityInfo.ofJson value)
  let schema ← match members.find? "schema" with
    | none => malformed .noSchema
    | some value => membersOf .schema value
  let schema ← schemaOf types info.name schema
  return ⟨info.addVersion schema.version.number, schema⟩

def readAll (types : TypeRegistry) : Json → Except MetadataError (List EntityMetadata)
  | .array documents => documents.mapM (read types)
  | document => List.singleton <$> read types document

end Schemata.Metadata
