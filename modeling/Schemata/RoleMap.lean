import Schemata.Access

/-!
# Role maps

Which paths each role may reach by each operation. The paths of a role and an operation keep
the order in which they were added and may repeat.
-/
namespace Schemata

structure RoleMap where
  grants : SortedMap String (SortedMap Operation (List String))
deriving DecidableEq

namespace RoleMap

def empty : RoleMap := ⟨∅⟩

instance : EmptyCollection RoleMap := ⟨empty⟩

instance : Inhabited RoleMap := ⟨∅⟩

def isEmpty (map : RoleMap) : Bool :=
  map.grants.isEmpty

def roles (map : RoleMap) : List String :=
  map.grants.keys

def operations? (map : RoleMap) (role : String) : Option (SortedMap Operation (List String)) :=
  map.grants.find? role

def paths (map : RoleMap) (role : String) (operation : Operation) : List String :=
  ((map.operations? role).bind fun operations => operations.find? operation).getD []

def addPath (map : RoleMap) (role : String) (operation : Operation) (path : String) : RoleMap :=
  let operations := (map.operations? role).getD ∅
  let paths := (operations.find? operation).getD []
  ⟨map.grants.insert role (operations.insert operation (paths ++ [path]))⟩

def add (map : RoleMap) (roles : List String) (operation : Operation) (path : String) : RoleMap :=
  roles.foldl (fun map role => map.addPath role operation path) map

def addPaths (map : RoleMap) (role : String) (operation : Operation) (paths : List String) :
    RoleMap :=
  paths.foldl (fun map path => map.addPath role operation path) map

/-- The entries of the second map behind those of the first. -/
def merge (map other : RoleMap) : RoleMap :=
  other.grants.entries.foldl
    (fun map grant =>
      grant.2.entries.foldl (fun map entry => map.addPaths grant.1 entry.1 entry.2) map)
    map

def toJson (map : RoleMap) : Json :=
  .object (map.grants.entries.map fun grant => (grant.1, Access.toJson grant.2))

/-- Reads an object from roles to objects from operations to lists of paths. -/
def ofJson (value : Json) : Except ShapeFault RoleMap :=
  (fun grants => ⟨SortedMap.ofList grants⟩) <$> value.asMap .ok Access.ofJson

end RoleMap
end Schemata
