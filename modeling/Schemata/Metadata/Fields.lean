import Schemata.Metadata.Error

/-!
# Declared fields

The field tree that a metadata document declares. All fields of an object are added before the
fields of the objects nested in it; of several nested objects the last one is filled first.
-/
namespace Schemata.Metadata

abbrev Building := Attempt FieldTree MetadataError

def malformed {α : Type} (fault : Malformation) : Except MetadataError α :=
  .error (.malformed fault)

def membersOf (part : DocumentPart) (value : Json) : Except MetadataError Members :=
  value.object?.elim (malformed (.notObject part)) .ok

def shaped {α : Type} (reading : Except ShapeFault α) : Except MetadataError α :=
  reading.mapError fun fault => .malformed (.shape fault)

def typeName (declaration : Members) (field : Path) : Except MetadataError String :=
  ((declaration.find? "type").bind Json.string?).elim (malformed (.noType field)) .ok

def leafType (types : TypeRegistry) (name : String) (field : Path) :
    Except MetadataError TypeRef :=
  match types.find? name with
  | none => .error (.unknownType field name)
  | some type =>
      if type.type.isContainer then malformed (.containerType field name) else .ok type

def itemsOf (declaration : Members) (field : Path) : Except MetadataError Members :=
  match declaration.find? "items" with
  | none => malformed (.noItems field)
  | some items => membersOf (.field field) items

def checkFields (declaration : Members) (field : Path) : Except MetadataError Unit :=
  match declaration.find? "fields" with
  | none => malformed (.noFields field)
  | some fields => discard (membersOf (.field field) fields)

/-- The constraint that a name and a value declare. A leaf that is not required has none. -/
def constraintOf (field : Path) (name : String) (value : Json) :
    Except MetadataError (Option Constraint) :=
  let unfit := malformed (.constraintValue name field value)
  if name = Constraint.required.name then
    value.bool?.elim unfit fun required => .ok (if required then some .required else none)
  else
    match Constraint.reader? name with
    | none => malformed (.unknownConstraint name field)
    | some read => (read value).elim unfit fun constraint => .ok (some constraint)

def constraintsOf (field : Path) (value : Json) : Except MetadataError (List Constraint) := do
  let members ← membersOf (.constraints field) value
  let constraints ← members.mapM fun member => constraintOf field member.1 member.2
  return constraints.reduceOption

def grow {α : Type} (step : Attempt FieldTree FieldTreeError α) : Building α :=
  ExceptT.adapt MetadataError.fieldTree step

/-- Adds the declared field itself. Gives its place and, if it is an object or an array of
objects, the place of the object whose fields are still to be added. -/
def addField (types : TypeRegistry) (parent : NodeId) (name : String) (field : Path)
    (declaration : Members) : Building (NodeId × Option NodeId) := do
  match ← Attempt.ofExcept (typeName declaration field) with
  | "object" =>
      let id ← grow (FieldTree.addObject parent name)
      Attempt.ofExcept (checkFields declaration field)
      return (id, some id)
  | "array" =>
      let items ← Attempt.ofExcept (itemsOf declaration field)
      let itemField := field.child Path.wildcard
      match ← Attempt.ofExcept (typeName items itemField) with
      | "object" =>
          let (id, element) ← grow (FieldTree.addObjectArray parent name)
          Attempt.ofExcept (checkFields items itemField)
          return (id, some element)
      | scalar =>
          let type ← Attempt.ofExcept (leafType types scalar itemField)
          return (← grow (FieldTree.addArray parent name type), none)
  | scalar =>
      let type ← Attempt.ofExcept (leafType types scalar field)
      return (← grow (FieldTree.addLeaf parent name type), none)

def addConstraints (id : NodeId) (field : Path) (declaration : Members) : Building Unit :=
  match declaration.find? "constraints" with
  | none => pure ()
  | some value => do
      let constraints ← Attempt.ofExcept (constraintsOf field value)
      constraints.forM fun constraint => grow (FieldTree.addConstraint id constraint)

def addAccess (id : NodeId) (declaration : Members) : Building Unit :=
  match declaration.find? "access" with
  | none => pure ()
  | some value => do
      let access ← Attempt.ofExcept (shaped (Access.ofJson value))
      modify fun tree =>
        access.entries.foldl (fun tree entry => tree.grant id entry.1 entry.2) tree

/-- Adds a declared field with its constraints and grants, and gives the place of the object
whose fields are still to be added. -/
def declare (types : TypeRegistry) (parent : NodeId) (name : String) (value : Json) :
    Building (Option NodeId) := do
  let field := ((← get).fullPath parent).child name
  let declaration ← Attempt.ofExcept (membersOf (.field field) value)
  let (id, opened) ← addField types parent name field declaration
  addConstraints id field declaration
  addAccess id declaration
  return opened

def isArrayDeclaration (declaration : Members) : Bool :=
  match declaration.find? "type" with
  | some (.string "array") => true
  | _ => false

mutual

/-- Adds the fields that a value declares beneath an object, and all that is nested in them. -/
def fill (types : TypeRegistry) : Json → NodeId → Building Unit
  | .object members, parent => do
      let opened ← members.mapM fun member => declare types parent member.1 member.2
      fillOpened types members opened
  | _, _ => pure ()

/-- Fills the objects that some declarations opened, the last one first. -/
def fillOpened (types : TypeRegistry) :
    List (String × Json) → List (Option NodeId) → Building Unit
  | (_, declaration) :: rest, opened :: others => do
      fillOpened types rest others
      match opened with
      | none => pure ()
      | some id => fillFrom types declaration id
  | _, _ => pure ()

/-- Fills an object with the fields nested in its declaration, or in that of an array's
items. -/
def fillFrom (types : TypeRegistry) : Json → NodeId → Building Unit
  | .object members, id =>
      if isArrayDeclaration members then fillItems types members id
      else fillFields types members id
  | _, _ => pure ()

def fillFields (types : TypeRegistry) : List (String × Json) → NodeId → Building Unit
  | (name, value) :: rest, id =>
      if name = "fields" then fill types value id else fillFields types rest id
  | [], _ => pure ()

/-- Fills an object with the fields that the items of a declaration hold. -/
def fillItems (types : TypeRegistry) : List (String × Json) → NodeId → Building Unit
  | (name, .object members) :: rest, id =>
      if name = "items" then fillFields types members id else fillItems types rest id
  | _ :: rest, id => fillItems types rest id
  | [], _ => pure ()

end

def fieldTreeOf (types : TypeRegistry) (fields : Option Json) :
    Except MetadataError FieldTree :=
  match fields with
  | none => .ok ∅
  | some value => do
      discard (membersOf .fields value)
      let (result, tree) := (fill types value FieldTree.root).outcome ∅
      result.map fun _ => tree

end Schemata.Metadata
