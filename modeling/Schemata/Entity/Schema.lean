import Schemata.Entity.Status
import Schemata.FieldTree.Walk
import Schemata.RoleMap
import Schemata.Version

/-!
# Entity schemas

One version of the shape of an entity, with the roles granted on the entity and on its fields.
-/
namespace Schemata

/-- One version of an entity's shape. -/
structure EntitySchema where
  name : String
  version : Version
  status : SchemaStatus
  fields : FieldTree
  access : Access

namespace EntitySchema

def propose (name : String) (version : Version) (fields : FieldTree) (access : Access) :
    EntitySchema :=
  ⟨name, version, .proposed, fields, access⟩

def moveTo (schema : EntitySchema) (goal : SchemaStatus) :
    Except IllegalTransition EntitySchema :=
  (schema.status.moveTo goal).map fun status => { schema with status := status }

def addGrants (path : String) (access : Access) (map : RoleMap) : RoleMap :=
  access.entries.foldl (fun map entry => map.add entry.2 entry.1 path) map

/-- The path of a field in role maps: the entity, then the field. -/
def grantPath (entity : String) (field : Path) : String :=
  entity ++ "." ++ field.render

def addFieldGrants (entity : String) (tree : FieldTree) (map : RoleMap) (id : NodeId) :
    RoleMap :=
  match tree.node? id with
  | none => map
  | some node =>
      if node.access.isEmpty then map
      else addGrants (grantPath entity (tree.fullPath id)) node.access map

/-- The roles declared on an entity and its fields: those of the entity under its name, then
those of each field, in the order in which fields were added. -/
def roles (entity : String) (schema : EntitySchema) : RoleMap :=
  schema.fields.fields.foldl (addFieldGrants entity schema.fields)
    (addGrants entity schema.access ∅)

end EntitySchema
end Schemata
