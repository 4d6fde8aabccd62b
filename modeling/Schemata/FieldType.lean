import Schemata.Attempt
import Schemata.Scalar
import Schemata.SortedMap

/-!
# Field types

The types that leaves of a field tree are bound to, and the registries that hand them out. A
registry gives one handle per name; two handles are the same only if one registry gave both
and for one registration.
-/
namespace Schemata

inductive ContainerKind where
  | object
  | array
  | other
deriving DecidableEq

/-- A type: a built-in scalar, or a container, whose values are encoded part by part. -/
inductive FieldType where
  | scalar (type : ScalarType)
  | container (name : String) (kind : ContainerKind)
deriving DecidableEq

namespace FieldType

def name : FieldType → String
  | scalar type => type.name
  | container name _ => name

def isContainer : FieldType → Bool
  | scalar _ => false
  | container _ _ => true

/-- Values of the type may be compared for equality. -/
def hasEquality (type : FieldType) : Bool :=
  !type.isContainer

def isOrdered : FieldType → Bool
  | scalar type => type.isOrdered
  | container _ _ => false

/-- The JSON form of a value; containers have none. -/
def encode (type : FieldType) (value : ScalarValue) : Except TypeError Json :=
  match type with
  | scalar type => type.encode value
  | container name _ => .error (.unsupported name .encoding)

def decode (type : FieldType) (node : Json) : Except TypeError ScalarValue :=
  match type with
  | scalar type => type.decode node
  | container name _ => .error (.unsupported name .decoding)

end FieldType

/-- A registered type: the registry that gave the handle, the number of the registration
there, and the type. -/
structure TypeRef where
  registry : Nat
  serial : Nat
  type : FieldType
deriving DecidableEq

namespace TypeRef

def name (handle : TypeRef) : String :=
  handle.type.name

/-- The two handles come from one registration. -/
def same (left right : TypeRef) : Bool :=
  left.registry = right.registry && left.serial = right.serial

instance : BEq TypeRef := ⟨same⟩

/-- Handles are hashed by name. -/
instance : Hashable TypeRef := ⟨fun handle => hash handle.name⟩

def describe (handle : TypeRef) : String :=
  "TypeRef(" ++ handle.name ++ ")"

end TypeRef

/-- A table of types by name. The number of the registry tells its handles from those of
other registries. -/
structure TypeRegistry where
  number : Nat
  handles : SortedMap String TypeRef

namespace TypeRegistry

def empty (number : Nat) : TypeRegistry :=
  ⟨number, ∅⟩

def find? (registry : TypeRegistry) (name : String) : Option TypeRef :=
  registry.handles.find? name

def contains (registry : TypeRegistry) (name : String) : Bool :=
  registry.handles.contains name

def names (registry : TypeRegistry) : List String :=
  registry.handles.keys

/-- The handle that the next registration gives. Registrations are never undone, so their
count is a number that no earlier one has. -/
def nextHandle (registry : TypeRegistry) (type : FieldType) : TypeRef :=
  ⟨registry.number, registry.handles.size, type⟩

def add (registry : TypeRegistry) (type : FieldType) : TypeRegistry :=
  { registry with handles := registry.handles.insert type.name (registry.nextHandle type) }

/-- Registers a type under a name that is not taken yet. -/
def register (type : FieldType) : Attempt TypeRegistry TypeError TypeRef := do
  let registry ← get
  if registry.contains type.name then throw (.alreadyRegistered type.name)
  set (registry.add type)
  return registry.nextHandle type

/-- The scalars and the two containers `object` and `array`. -/
def standardTypes : List FieldType :=
  ScalarType.all.map .scalar ++ [.container "object" .object, .container "array" .array]

def standard (number : Nat) : TypeRegistry :=
  standardTypes.foldl add (empty number)

end TypeRegistry
end Schemata
