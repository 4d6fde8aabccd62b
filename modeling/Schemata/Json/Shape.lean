import Schemata.Json.Printer
import Schemata.Text.Quoted

/-!
# Shapes of values

Reading a value of the domain out of a JSON value: the ways in which a JSON value can have
another shape than the one wanted, and readers for texts, lists, maps and records. The first
fault in written order is the one reported.
-/
namespace Schemata

/-- Why a JSON value does not have the shape of what is read from it. -/
inductive ShapeFault where
  | wrongKind (value : Json) (wanted : String)
  | missingField (name : String)
  | unknownField (name : String)
  | unknownVariant (name : String) (known : List String)
  | wrongLength (length : Nat) (wanted : String)
  | noAlternative (family : String)
  | refused (reason : String)

def Json.kindText : Json → String
  | .null => "null"
  | .bool value => "boolean `" ++ toString value ++ "`"
  | .number (.int value range) => "integer `" ++ (Number.int value range).render ++ "`"
  | .number (.double value finite) =>
      "floating point `" ++ (Number.double value finite).render ++ "`"
  | .string text => "string " ++ Text.quoted text
  | .array _ => "sequence"
  | .object _ => "map"

def ShapeFault.message : ShapeFault → String
  | .wrongKind value wanted => "invalid type: " ++ value.kindText ++ ", expected " ++ wanted
  | .missingField name => "missing field `" ++ name ++ "`"
  | .unknownField name => "unknown field `" ++ name ++ "`"
  | .unknownVariant name known =>
      "unknown variant `" ++ name ++ "`, expected one of " ++
        ", ".intercalate (known.map fun other => "`" ++ other ++ "`")
  | .wrongLength length wanted =>
      "invalid length " ++ toString length ++ ", expected " ++ wanted
  | .noAlternative family => "data did not match any variant of untagged enum " ++ family
  | .refused reason => reason

namespace Json

def asText : Json → Except ShapeFault String
  | .string text => .ok text
  | value => .error (.wrongKind value "a string")

/-- Reads the name of an alternative: the name alone, or an object from the name to null. -/
def asVariant : Json → Except ShapeFault String
  | .string name => .ok name
  | .object [(name, .null)] => .ok name
  | value => .error (.wrongKind value "a name")

def asList {α : Type} (readItem : Json → Except ShapeFault α) :
    Json → Except ShapeFault (List α)
  | .array items => items.mapM readItem
  | value => .error (.wrongKind value "a sequence")

def asMap {κ α : Type} (readName : String → Except ShapeFault κ)
    (readValue : Json → Except ShapeFault α) : Json → Except ShapeFault (List (κ × α))
  | .object members => members.mapM fun member => do
      let key ← readName member.1
      return (key, ← readValue member.2)
  | value => .error (.wrongKind value "a map")

def asOptional {α : Type} (read : Json → Except ShapeFault α) :
    Json → Except ShapeFault (Option α)
  | .null => .ok none
  | value => some <$> read value

/-- Reads an object field by field into a draft, in written order. -/
def readFields {δ : Type} (put : δ → String → Json → Except ShapeFault δ)
    (draft : δ) (members : Members) : Except ShapeFault δ :=
  members.foldlM (fun draft member => put draft member.1 member.2) draft

/-- Reads an array as the fields of a record in the order of their declaration. Fields may be
missing at the end. -/
def readPositions {δ : Type} (put : δ → String → Json → Except ShapeFault δ)
    (draft : δ) (fields : List String) (items : List Json) : Except ShapeFault δ :=
  (fields.zip items).foldlM (fun draft member => put draft member.1 member.2) draft

def checkLength (fields : List String) (items : List Json) : Except ShapeFault Unit :=
  if fields.length < items.length then
    .error (.wrongLength items.length "fewer elements in array")
  else .ok ()

/-- The double as a value; what is not finite has no number and is null. -/
def ofDouble (value : Binary64) : Json :=
  ((Number.ofDouble? value).map Json.number).getD .null

def ofTexts (texts : List String) : Json :=
  .array (texts.map .string)

end Json
end Schemata
