import Schemata.Json.Shape

/-!
# Constraints

What a leaf asks of its values. Constraints are data for a validation layer; the pattern of
`matching` and the enumeration of `oneOf` are only named here.
-/
namespace Schemata

inductive Constraint where
  | required
  | minLength (length : UInt64)
  | maxLength (length : UInt64)
  | minimum (bound : Binary64)
  | maximum (bound : Binary64)
  | matching (pattern : String)
  | oneOf (enumeration : String)
deriving DecidableEq

namespace Constraint

def name : Constraint → String
  | required => "required"
  | minLength _ => "minLength"
  | maxLength _ => "maxLength"
  | minimum _ => "minimum"
  | maximum _ => "maximum"
  | matching _ => "matches"
  | oneOf _ => "enum"

/-- The value that declarations give beside the name; a required leaf has none. -/
def value? : Constraint → Option Json
  | required => none
  | minLength length => some (.number (.ofUInt64 length))
  | maxLength length => some (.number (.ofUInt64 length))
  | minimum bound => some (.ofDouble bound)
  | maximum bound => some (.ofDouble bound)
  | matching pattern => some (.string pattern)
  | oneOf enumeration => some (.string enumeration)

/-- The JSON form: the name alone, or an object from the name to the value. -/
def toJson (constraint : Constraint) : Json :=
  match constraint.value? with
  | none => .string constraint.name
  | some value => .object [(constraint.name, value)]

def lengthOf? (value : Json) : Option UInt64 :=
  value.number?.bind Number.toUInt64?

def boundOf? (value : Json) : Option Binary64 :=
  value.number?.map Number.toDouble

/-- The reader for the values of a constraint's name, for names that come with a value. -/
def reader? : String → Option (Json → Option Constraint)
  | "minLength" => some fun value => (lengthOf? value).map minLength
  | "maxLength" => some fun value => (lengthOf? value).map maxLength
  | "minimum" => some fun value => (boundOf? value).map minimum
  | "maximum" => some fun value => (boundOf? value).map maximum
  | "matches" => some fun value => value.string?.map matching
  | "enum" => some fun value => value.string?.map oneOf
  | _ => none

def ofJson : Json → Except ShapeFault Constraint
  | .string "required" => .ok required
  | .object [("required", .null)] => .ok required
  | .object [(name, value)] =>
      (((reader? name).bind fun read => read value)).elim
        (.error (.wrongKind value ("a value for " ++ name))) .ok
  | value => .error (.wrongKind value "a constraint")

end Constraint
end Schemata
