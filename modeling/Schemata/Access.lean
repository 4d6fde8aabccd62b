import Schemata.Json.Shape
import Schemata.SortedMap

/-!
# Access

The operations that a role can be granted, and the roles granted per operation as they are
declared on an entity or a field.
-/
namespace Schemata

/-- What can be done with an entity or a field. -/
inductive Operation where
  | find
  | insert
  | update
  | delete
deriving DecidableEq

namespace Operation

def all : List Operation :=
  [find, insert, update, delete]

def name : Operation → String
  | find => "find"
  | insert => "insert"
  | update => "update"
  | delete => "delete"

def rank : Operation → Nat
  | find => 0
  | insert => 1
  | update => 2
  | delete => 3

instance : LT Operation := ⟨fun left right => left.rank < right.rank⟩

instance : DecidableLT Operation :=
  fun left right => inferInstanceAs (Decidable (left.rank < right.rank))

instance : Trans (α := Operation) (· < ·) (· < ·) (· < ·) :=
  ⟨fun below above => Nat.lt_trans below above⟩

instance : Std.Trichotomous (α := Operation) (· < ·) where
  trichotomous left right := by
    cases left <;> cases right <;> decide

def ofName? (name : String) : Option Operation :=
  all.find? fun operation => operation.name = name

structure Unknown where
  text : String

def Unknown.message (unknown : Unknown) : String :=
  "unknown operation: " ++ unknown.text

def ofName (name : String) : Except Unknown Operation :=
  (ofName? name).elim (.error ⟨name⟩) .ok

def readName (name : String) : Except ShapeFault Operation :=
  (ofName? name).elim (.error (.unknownVariant name (all.map Operation.name))) .ok

def toJson (operation : Operation) : Json :=
  .string operation.name

def ofJson (value : Json) : Except ShapeFault Operation := do
  readName (← value.asVariant)

end Operation

abbrev Access := SortedMap Operation (List String)

namespace Access

/-- Adds roles behind those that an operation already has. -/
def grant (access : Access) (operation : Operation) (roles : List String) : Access :=
  access.insert operation ((access.find? operation).getD [] ++ roles)

def toJson (access : Access) : Json :=
  .object (access.entries.map fun entry => (entry.1.name, Json.ofTexts entry.2))

/-- Reads an object from operations to lists of roles. -/
def ofJson (value : Json) : Except ShapeFault Access :=
  SortedMap.ofList <$> value.asMap Operation.readName (Json.asList Json.asText)

end Access
end Schemata
