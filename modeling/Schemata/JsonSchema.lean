import Schemata.Entity.Schema

/-!
# JSON Schema

A description of an entity's documents for documentation tools. It is built with a stack of
half-described objects, so that the depth of a tree does not matter.
-/
namespace Schemata.JsonSchema

/-- The dialect that descriptions name unless another one is asked for. -/
def draft04 : String :=
  "http://json-schema.org/draft-04/schema#"

def keyword? : Constraint → Option String
  | .minLength _ => some "minLength"
  | .maxLength _ => some "maxLength"
  | .minimum _ => some "minimum"
  | .maximum _ => some "maximum"
  | .matching _ => some "pattern"
  | .required => none
  | .oneOf _ => none

/-- Adds a constraint to the description of a leaf. A later constraint of a kind takes the
place of an earlier one. -/
def addConstraint (members : Members) (constraint : Constraint) : Members :=
  match keyword? constraint, constraint.value? with
  | some keyword, some value => members.put keyword value
  | _, _ => members

def leaf (type : TypeRef) (constraints : List Constraint) : Json :=
  .object (constraints.foldl addConstraint [("type", .string type.name)])

def object (properties : Members) : Json :=
  .object [("type", .string "object"), ("properties", .object properties)]

def array (items : Json) : Json :=
  .object [("type", .string "array"), ("items", items)]

def bareArray : Json :=
  .object [("type", .string "array")]

/-- What becomes of an object once all its properties are described. -/
inductive Slot where
  | document
  | field (name : String)
  | items (name : String)

/-- An object in the making: the fields still to be described, the properties described so
far, and where the object belongs. -/
structure Frame where
  remaining : List NodeId
  properties : Members
  slot : Slot

def Frame.describe (frame : Frame) (name : String) (description : Json) : Frame :=
  { frame with properties := frame.properties.put name description }

/-- The object with a finished object in its slot. -/
def Frame.place (frame : Frame) (done : Frame) : Frame :=
  match done.slot with
  | .document => frame
  | .field name => frame.describe name (object done.properties)
  | .items name => frame.describe name (array (object done.properties))

/-- The stack after one field: its frame with the field described, or a new frame on top. -/
def visit (tree : FieldTree) (frame : Frame) (node : FieldNode) : List Frame :=
  match node.shape with
  | .leaf type constraints => [frame.describe node.name (leaf type constraints)]
  | .object children => [⟨children, [], .field node.name⟩, frame]
  | .array element =>
      match (tree.node? element).map FieldNode.shape with
      | some (.leaf type constraints) =>
          [frame.describe node.name (array (leaf type constraints))]
      | some (.object children) => [⟨children, [], .items node.name⟩, frame]
      | _ => [frame.describe node.name bareArray]

/-- Takes fields from the top of the stack, and finished objects from it, for at most some
number of steps. -/
def build (tree : FieldTree) : Nat → List Frame → Members
  | 0, _ => []
  | _ + 1, [] => []
  | more + 1, frame :: below =>
      match frame.remaining with
      | [] =>
          match below with
          | [] => frame.properties
          | outer :: rest => build tree more (outer.place frame :: rest)
      | id :: remaining =>
          let frame := { frame with remaining := remaining }
          match tree.node? id with
          | none => build tree more (frame :: below)
          | some node => build tree more (visit tree frame node ++ below)

/-- The description of each field beneath the root. Each node takes at most two steps: one
when it is met, and one when the object it opened is finished. -/
def properties (tree : FieldTree) : Members :=
  build tree (2 * tree.size + 1) [⟨tree.children FieldTree.root, [], .document⟩]

def describe (schema : EntitySchema) (dialect : String) : Json :=
  .object [
    ("$schema", .string dialect),
    ("type", .string "object"),
    ("description", .string
      ("JSON schema for entity '" ++ schema.name ++ "' version '" ++
        schema.version.number ++ "'")),
    ("properties", .object (properties schema.fields)),
    ("required", .ofTexts (schema.fields.requiredFields.map Path.render))]

end Schemata.JsonSchema
