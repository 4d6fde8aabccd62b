import Schemata.Base64
import Schemata.Binary64.Decimal
import Schemata.Instant.Reader
import Schemata.Json.Printer
import Schemata.Text.Quoted

/-!
# Scalars

The values that leaves of a document hold, the seven built-in types of such values, and the
conversions between a value and its JSON form. `ScalarType.encode` takes only values of the
type's own kind, and integers for doubles; `ScalarType.decode` is more lenient.
-/
namespace Schemata

/-- The native form of a scalar. -/
inductive ScalarValue where
  | bool (value : Bool)
  | integer (value : Int64)
  | double (value : Binary64)
  | text (value : String)
  | date (value : Instant)
  | binary (bytes : List UInt8)
deriving DecidableEq

/-- In messages doubles are written positionally when the leading digit stands between
`10 ^ -4` and `10 ^ 15`, with an exponent without a plus sign otherwise. -/
def ScalarValue.doubleLayout : Binary64.DecimalLayout :=
  ⟨-4, 15, false, .up⟩

/-- The form of a value in messages: its kind and its content. -/
def ScalarValue.describe : ScalarValue → String
  | .bool value => "Bool(" ++ toString value ++ ")"
  | .integer value => "Integer(" ++ toString value.toInt ++ ")"
  | .double value => "Double(" ++ value.render doubleLayout ++ ")"
  | .text value => "String(" ++ Text.quoted value ++ ")"
  | .date value => "Date(" ++ value.describe ++ ")"
  | .binary bytes =>
      "Binary(" ++ Text.bracketed (bytes.map fun byte => toString byte.toNat) ++ ")"

inductive Conversion where
  | encoding
  | decoding
deriving DecidableEq

def Conversion.name : Conversion → String
  | .encoding => "to_json"
  | .decoding => "from_json"

/-- Why a value or a node does not belong to a type. -/
inductive ValueFault where
  | unexpected (wanted : String) (node : Json)
  | wrongKind (value : ScalarValue)
  | notFinite (value : Binary64)
  | badDate (text : String) (fault : Instant.Fault)
  | badBase64 (fault : Base64.Fault)

def ValueFault.message : ValueFault → String
  | .unexpected wanted node => "expected " ++ wanted ++ ", got " ++ node.compact
  | .wrongKind value => "cannot encode " ++ value.describe
  | .notFinite value => value.render ScalarValue.doubleLayout ++ " is not a finite number"
  | .badDate text fault => "'" ++ text ++ "': " ++ fault.message
  | .badBase64 fault => fault.message

inductive TypeError where
  | unsupported (typeName : String) (conversion : Conversion)
  | invalidValue (typeName : String) (fault : ValueFault)
  | alreadyRegistered (typeName : String)

def TypeError.message : TypeError → String
  | .unsupported typeName conversion =>
      "unsupported operation: " ++ conversion.name ++ " on type '" ++ typeName ++ "'"
  | .invalidValue typeName fault =>
      "invalid value for type '" ++ typeName ++ "': " ++ fault.message
  | .alreadyRegistered typeName => "type already registered: " ++ typeName

inductive ScalarType where
  | boolean
  | integer
  | double
  | string
  | date
  | binary
  | uid
deriving DecidableEq

namespace ScalarType

def all : List ScalarType :=
  [boolean, integer, double, string, date, binary, uid]

def name : ScalarType → String
  | boolean => "boolean"
  | integer => "integer"
  | double => "double"
  | string => "string"
  | date => "date"
  | binary => "binary"
  | uid => "uid"

def ofName? (name : String) : Option ScalarType :=
  all.find? fun type => type.name = name

def isOrdered (type : ScalarType) : Bool :=
  type ≠ boolean && type ≠ binary

def encodeValue : ScalarType → ScalarValue → Except ValueFault Json
  | boolean, .bool value => .ok (.bool value)
  | integer, .integer value => .ok (.number (.ofInt64 value))
  | double, .integer value =>
      let nearest := Binary64.ofInt value.toInt
      ((Number.ofDouble? nearest).map Json.number).elim (.error (.notFinite nearest)) .ok
  | double, .double value =>
      ((Number.ofDouble? value).map Json.number).elim (.error (.notFinite value)) .ok
  | string, .text value => .ok (.string value)
  | uid, .text value => .ok (.string value)
  | date, .date value => .ok (.string value.render)
  | binary, .binary bytes => .ok (.string (Base64.encode bytes))
  | _, value => .error (.wrongKind value)

def encode (type : ScalarType) (value : ScalarValue) : Except TypeError Json :=
  (type.encodeValue value).mapError (.invalidValue type.name)

/-- The integer of a node: a 64-bit integer, or a text that writes one between blanks. -/
def integerOf? : Json → Option Int64
  | .number value => value.toInt64?
  | .string text =>
      ((Text.readInt? (Text.trimBlank text.toList)).bind Number.ofInt?).bind Number.toInt64?
  | _ => none

/-- The double of a node: any number, or a text that writes one between blanks. -/
def doubleOf? : Json → Option Binary64
  | .number value => some value.toDouble
  | .string text => Binary64.parse? (Text.trimBlank text.toList)
  | _ => none

def textOf? : Json → Option String
  | .string text => some text
  | .bool value => some (Json.bool value).compact
  | .number value => some (Json.number value).compact
  | _ => none

def identifierOf? (node : Json) : Option String :=
  node.string?.filter (· ≠ "")

/-- The value of a node, or why the type has none for it. -/
def decodeValue (type : ScalarType) (node : Json) : Except ValueFault ScalarValue :=
  match type with
  | boolean =>
      (node.bool?.map ScalarValue.bool).elim (.error (.unexpected "boolean" node)) .ok
  | integer =>
      ((integerOf? node).map ScalarValue.integer).elim (.error (.unexpected "integer" node)) .ok
  | double =>
      ((doubleOf? node).map ScalarValue.double).elim (.error (.unexpected "number" node)) .ok
  | string =>
      ((textOf? node).map ScalarValue.text).elim (.error (.unexpected "text" node)) .ok
  | uid =>
      ((identifierOf? node).map ScalarValue.text).elim
        (.error (.unexpected "identifier" node)) .ok
  | date =>
      match node.string? with
      | none => .error (.unexpected "date string" node)
      | some text => ((Instant.parse text).mapError (.badDate text)).map .date
  | binary =>
      match node.string? with
      | none => .error (.unexpected "base64 string" node)
      | some text => ((Base64.decode text).mapError .badBase64).map .binary

def decode (type : ScalarType) (node : Json) : Except TypeError ScalarValue :=
  (type.decodeValue node).mapError (.invalidValue type.name)

end ScalarType
end Schemata
