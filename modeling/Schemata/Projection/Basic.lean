import Schemata.Path.Json

/-!
# Projections

Rules that say which parts of a document are shown. A rule includes or excludes a field, with
or without everything beneath it; or it selects a range of the elements of an array, perhaps
with a projection of its own for each of them. In a list the last rule that applies wins.
-/
namespace Schemata

/-- A projection as it is declared. Paths are relative to where the projection is used; those
of the projection inside a range are relative to the array's elements. -/
inductive Projection where
  | field (target : Path) (included recursive : Bool)
  | range (target : Path) (included : Bool) (first last : UInt64) (project : Option Projection)
  | list (rules : List Projection)

namespace Projection

def including (target : Path) : Projection :=
  .field target true false

def excluding (target : Path) : Projection :=
  .field target false false

def includingSubtree (target : Path) : Projection :=
  .field target true true

def excludingSubtree (target : Path) : Projection :=
  .field target false true

def commonMembers (target : Path) (included : Bool) : Members :=
  [("field", target.toJson), ("include", .bool included)]

def bounds (first last : UInt64) : Json :=
  .array [.number (.ofUInt64 first), .number (.ofUInt64 last)]

mutual

/-- A rule as an object, a list as an array. What has its default is left out, but for
`include`. -/
def toJson : Projection → Json
  | .field target included recursive =>
      .object (commonMembers target included ++
        if recursive then [("recursive", .bool true)] else [])
  | .range target included first last none =>
      .object (commonMembers target included ++ [("range", bounds first last)])
  | .range target included first last (some project) =>
      .object (commonMembers target included ++
        [("range", bounds first last), ("project", toJson project)])
  | .list rules => .array (toJsonAll rules)

def toJsonAll : List Projection → List Json
  | [] => []
  | rule :: rest => toJson rule :: toJsonAll rest

end

end Projection
end Schemata
