import Schemata.RoleMap

/-!
# Entity facts

What is known of an entity apart from any one version: its versions, the default one, where
its documents are stored, and the roles declared with it.
-/
namespace Schemata

/-- Where an entity's documents are stored: a backend, and whatever else the backend was
given, as it was written. -/
structure DataStore where
  backend : String
  properties : Members

namespace DataStore

def ofBackend (backend : String) : DataStore :=
  ⟨backend, []⟩

/-- The backend, then the other properties in order. -/
def toJson (store : DataStore) : Json :=
  .object (("backend", .string store.backend) :: store.properties)

/-- Reads an object; everything but the backend is kept. -/
def ofJson : Json → Except ShapeFault DataStore
  | .object members => do
      match Members.find? members "backend" with
      | none => throw (.missingField "backend")
      | some backend =>
          return ⟨← backend.asText, members.filter fun member => member.1 ≠ "backend"⟩
  | value => .error (.wrongKind value "struct DataStore")

end DataStore

structure EntityInfo where
  name : String
  versions : TextSet
  defaultVersion : Option String
  dataStore : DataStore
  roles : RoleMap

namespace EntityInfo

def ofName (name : String) (dataStore : DataStore) : EntityInfo :=
  ⟨name, ∅, none, dataStore, ∅⟩

def hasVersion (info : EntityInfo) (version : String) : Bool :=
  info.versions.contains version

def addVersion (info : EntityInfo) (version : String) : EntityInfo :=
  { info with versions := info.versions.insert version () }

def withDefault (info : EntityInfo) (version : String) : EntityInfo :=
  { info with defaultVersion := some version }

/-- The fields in order. The default version is left out if there is none, the roles if there
are none. -/
def toJson (info : EntityInfo) : Json :=
  .object ([("name", .string info.name), ("versions", .ofTexts info.versions.keys)]
    ++ (info.defaultVersion.toList.map fun version => ("defaultVersion", .string version))
    ++ [("datastore", info.dataStore.toJson)]
    ++ (if info.roles.isEmpty then [] else [("roles", info.roles.toJson)]))

/-- Facts of which some have not been met yet. -/
structure Draft where
  name : Option String
  versions : TextSet
  defaultVersion : Option String
  dataStore : Option DataStore
  roles : RoleMap

namespace Draft

def blank : Draft :=
  ⟨none, ∅, none, none, ∅⟩

def put (draft : Draft) (name : String) (value : Json) : Except ShapeFault Draft := do
  match name with
  | "name" => return { draft with name := some (← value.asText) }
  | "versions" =>
      return { draft with versions := TextSet.ofTexts (← value.asList Json.asText) }
  | "defaultVersion" => return { draft with defaultVersion := ← value.asOptional Json.asText }
  | "datastore" => return { draft with dataStore := some (← DataStore.ofJson value) }
  | "roles" => return { draft with roles := ← RoleMap.ofJson value }
  | _ => return draft

def finish (draft : Draft) (noName noDataStore : ShapeFault) : Except ShapeFault EntityInfo :=
  match draft.name, draft.dataStore with
  | none, _ => .error noName
  | some _, none => .error noDataStore
  | some name, some dataStore =>
      .ok ⟨name, draft.versions, draft.defaultVersion, dataStore, draft.roles⟩

end Draft

def fieldNames : List String :=
  ["name", "versions", "defaultVersion", "datastore", "roles"]

/-- The fault of a row of values that ends before a field that has no default. -/
def tooShort (length : Nat) : ShapeFault :=
  .wrongLength length "struct EntityInfo with 5 elements"

/-- Reads an object by names, or an array by positions. -/
def ofJson : Json → Except ShapeFault EntityInfo
  | .object members => do
      let draft ← Json.readFields Draft.put .blank members
      draft.finish (.missingField "name") (.missingField "datastore")
  | .array items => do
      let draft ← Json.readPositions Draft.put .blank fieldNames items
      let info ← draft.finish (tooShort 0) (tooShort 3)
      Json.checkLength fieldNames items
      return info
  | value => .error (.wrongKind value "struct EntityInfo")

end EntityInfo
end Schemata
