import Schemata.Entity.Metadata
import Schemata.FieldTree.Growth

/-!
# Metadata errors

Why entity metadata are not read, not accepted or not found.
-/
namespace Schemata

inductive DocumentPart where
  | document
  | schema
  | fields
  | field (path : Path)
  | constraints (path : Path)
deriving DecidableEq

def DocumentPart.describe : DocumentPart → String
  | .document => "metadata document"
  | .schema => "schema"
  | .fields => "fields"
  | .field path => path.render
  | .constraints path => path.render ++ ".constraints"

inductive Malformation where
  | notObject (part : DocumentPart)
  | noInfo
  | noSchema
  | noVersion
  | versionKind (value : Json)
  | noType (field : Path)
  | noItems (field : Path)
  | noFields (field : Path)
  | containerType (field : Path) (typeName : String)
  | constraintValue (name : String) (field : Path) (value : Json)
  | unknownConstraint (name : String) (field : Path)
  | shape (fault : ShapeFault)

def Malformation.message : Malformation → String
  | .notObject part => part.describe ++ " must be an object"
  | .noInfo => "missing 'entityInfo'"
  | .noSchema => "missing 'schema'"
  | .noVersion => "missing 'schema.version'"
  | .versionKind value => "schema.version must be an object, got " ++ value.compact
  | .noType field => "field '" ++ field.render ++ "' has no 'type'"
  | .noItems field => "array field '" ++ field.render ++ "' has no 'items'"
  | .noFields field => "object field '" ++ field.render ++ "' has no 'fields'"
  | .containerType field typeName =>
      "'" ++ field.render ++ "' uses container type '" ++ typeName ++
        "' where a scalar is expected"
  | .constraintValue name field value =>
      "constraint '" ++ name ++ "' on '" ++ field.render ++ "' has invalid value " ++
        value.compact
  | .unknownConstraint name field =>
      "unknown constraint '" ++ name ++ "' on '" ++ field.render ++ "'"
  | .shape fault => fault.message

/-- A failure of reading, registering or finding entity metadata. -/
inductive MetadataError where
  | namesDisagree (schema entity : String)
  | emptyName
  | noFields (schema : String)
  | emptyVersion
  | invalidVersionNumber (number : String)
  | invalidDefaultVersion (entity version : String)
  | dataStoreInvalid (entity reason : String)
  | duplicateVersion (entity version : String)
  | entityNotFound (entity : String)
  | versionNotFound (entity version : String)
  | noDefaultVersion (entity : String)
  | unknownType (field : Path) (typeName : String)
  | malformed (fault : Malformation)
  | fieldTree (error : FieldTreeError)
  | transition (move : IllegalTransition)

def MetadataError.message : MetadataError → String
  | .namesDisagree schema entity =>
      "invalid argument: schema name '" ++ schema ++ "' does not match entity name '" ++
        entity ++ "'"
  | .emptyName => "empty metadata name"
  | .noFields schema => "metadata with no fields: " ++ schema
  | .emptyVersion => "invalid version: version is empty"
  | .invalidVersionNumber number => "invalid version number: " ++ number
  | .invalidDefaultVersion entity version =>
      "invalid default version: " ++ versionKey entity version
  | .dataStoreInvalid entity reason =>
      "data store invalid for entity '" ++ entity ++ "': " ++ reason
  | .duplicateVersion entity version => "duplicate version: " ++ versionKey entity version
  | .entityNotFound entity => "entity not found: " ++ entity
  | .versionNotFound entity version => "version not found: " ++ versionKey entity version
  | .noDefaultVersion entity => "no default version for entity: " ++ entity
  | .unknownType field typeName =>
      "unknown type '" ++ typeName ++ "' for field '" ++ field.render ++ "'"
  | .malformed fault => "malformed metadata: " ++ fault.message
  | .fieldTree error => error.message
  | .transition move => move.message

end Schemata
