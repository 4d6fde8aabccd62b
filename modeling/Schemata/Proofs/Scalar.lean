import Schemata.Scalar
import Schemata.Proofs.Attempt
import Schemata.Proofs.Base64
import Schemata.Proofs.Instant.Layout

/-!
# Scalars read, written and read again

Decoding accepts more notations than encoding produces. What a node decodes to is encoded in
the notation of its type, and decoding that gives the value again, up to what the notation
cannot show: dates are written to the millisecond, and only finite doubles are written.
-/
namespace Schemata

namespace ScalarValue

/-- The values that nodes of a type decode to. -/
inductive Belongs : ScalarType → ScalarValue → Prop
  | boolean (value : Bool) : Belongs .boolean (.bool value)
  | integer (value : Int64) : Belongs .integer (.integer value)
  | double (value : Binary64) : Belongs .double (.double value)
  | string (value : String) : Belongs .string (.text value)
  | uid (value : String) (nonempty : value ≠ "") : Belongs .uid (.text value)
  | date (value : Instant) (ends : value.LeapEndsMinute) : Belongs .date (.date value)
  | binary (bytes : List UInt8) : Belongs .binary (.binary bytes)

/-- The value has a notation that is read back. -/
def HasNotation : ScalarValue → Prop
  | .double value => value.isFinite = true
  | .date instant => instant.HasPlainYear
  | _ => True

/-- The value as its notation shows it. -/
def shown : ScalarValue → ScalarValue
  | .date instant => .date instant.toMillisecond
  | value => value

end ScalarValue

namespace ScalarType

open ScalarValue

variable {type : ScalarType} {node : Json} {value : ScalarValue}

private theorem exists_of_elim_eq_ok {α : Type} {read : Option α} {make : α → ScalarValue}
    {fault : ValueFault} (decoded : (read.map make).elim (.error fault) .ok = Except.ok value) :
    ∃ content, read = some content ∧ value = make content := by
  cases read with
  | none => exact nomatch decoded
  | some content => exact ⟨content, rfl, (Except.ok.inj decoded).symm⟩

private theorem exists_of_map_eq_ok {ε α : Type} {read : Except ε α} {make : α → ScalarValue}
    {explain : ε → ValueFault} (decoded : (read.mapError explain).map make = .ok value) :
    ∃ content, read = .ok content ∧ value = make content := by
  cases read with
  | error fault => exact nomatch decoded
  | ok content => exact ⟨content, rfl, (Except.ok.inj decoded).symm⟩

private theorem belongs_of_decodeValue (decoded : type.decodeValue node = .ok value) :
    value.Belongs type := by
  cases type with
  | boolean =>
    obtain ⟨content, -, rfl⟩ := exists_of_elim_eq_ok decoded
    exact .boolean content
  | integer =>
    obtain ⟨content, -, rfl⟩ := exists_of_elim_eq_ok decoded
    exact .integer content
  | double =>
    obtain ⟨content, -, rfl⟩ := exists_of_elim_eq_ok decoded
    exact .double content
  | string =>
    obtain ⟨content, -, rfl⟩ := exists_of_elim_eq_ok decoded
    exact .string content
  | uid =>
    obtain ⟨content, read, rfl⟩ := exists_of_elim_eq_ok decoded
    have nonempty := (Option.filter_eq_some_iff.1 read).2
    exact .uid content (of_decide_eq_true nonempty)
  | date =>
    simp only [decodeValue] at decoded
    split at decoded
    · exact nomatch decoded
    · obtain ⟨content, read, rfl⟩ := exists_of_map_eq_ok decoded
      exact .date content (Instant.leapEndsMinute_of_parse read)
  | binary =>
    simp only [decodeValue] at decoded
    split at decoded
    · exact nomatch decoded
    · obtain ⟨content, -, rfl⟩ := exists_of_map_eq_ok decoded
      exact .binary content

private theorem integerOf?_ofInt64 (value : Int64) :
    integerOf? (.number (.ofInt64 value)) = some value := by
  show (if value.toInt < 2 ^ 63 then some (Int64.ofInt value.toInt) else none) = some value
  rw [if_pos value.toInt_lt, Int64.ofInt_toInt]

private theorem identifierOf?_string {text : String} (nonempty : text ≠ "") :
    identifierOf? (.string text) = some text :=
  Option.filter_eq_some_iff.2 ⟨rfl, decide_eq_true nonempty⟩

/-- A value with a notation is encoded, and decoding what it is encoded to shows it. -/
theorem decodeValue_encodeValue (belongs : value.Belongs type) (written : value.HasNotation) :
    ∃ again, type.encodeValue value = .ok again ∧ type.decodeValue again = .ok value.shown := by
  cases belongs with
  | boolean content => exact ⟨_, rfl, rfl⟩
  | integer content => exact ⟨_, rfl, by simp [decodeValue, integerOf?_ofInt64, shown]⟩
  | double content =>
    have finite : Number.ofDouble? content = some (.double content written) := dif_pos written
    exact ⟨.number (.double content written), by simp [encodeValue, finite], rfl⟩
  | string content => exact ⟨_, rfl, rfl⟩
  | uid content nonempty =>
    exact ⟨_, rfl, by simp [decodeValue, identifierOf?_string nonempty, shown]⟩
  | date instant ends =>
    refine ⟨.string instant.render, rfl, ?_⟩
    simp only [decodeValue, Json.string?, Instant.parse_render written ends]
    rfl
  | binary bytes =>
    refine ⟨.string (Base64.encode bytes), rfl, ?_⟩
    simp only [decodeValue, Json.string?, Base64.decode_encode]
    rfl

/-- What a node decodes to is encoded again unless it is a double that is not finite, and
decoding that shows the value, with its date to the millisecond. -/
theorem encode_of_decode (decoded : type.decode node = .ok value) :
    (∀ number, value = .double number → number.isFinite = false →
      type.encode value = .error (.invalidValue type.name (.notFinite number))) ∧
    (value.HasNotation →
      ∃ again, type.encode value = .ok again ∧ type.decode again = .ok value.shown) := by
  have belongs := belongs_of_decodeValue (mapError_eq_ok_iff.1 decoded)
  constructor
  · intro number shape infinite
    subst shape
    cases belongs
    have refused : Number.ofDouble? number = none := dif_neg (by simp [infinite])
    simp [encode, encodeValue, refused]
  · intro written
    obtain ⟨again, encoded, back⟩ := decodeValue_encodeValue belongs written
    exact ⟨again, mapError_eq_ok_iff.2 encoded, mapError_eq_ok_iff.2 back⟩

def quarterPastEight : Instant :=
  ⟨1706688900, 123456000, by decide⟩

private theorem decode_quarterPastEight :
    date.decode (.string "2024-01-31T08:15:00.123456Z") = .ok (.date quarterPastEight) := by
  rfl

theorem encode_of_decode_quarterPastEight :
    ∃ again, date.encode (.date quarterPastEight) = .ok again ∧
      date.decode again = .ok (.date quarterPastEight.toMillisecond) :=
  (encode_of_decode decode_quarterPastEight).2 ⟨by decide, by decide⟩

/-- The microseconds of a timestamp are lost when it is encoded. -/
theorem quarterPastEight_not_restored :
    ¬ ∀ value, date.decode (.string "2024-01-31T08:15:00.123456Z") = .ok value →
      ∃ again, date.encode value = .ok again ∧ date.decode again = .ok value := by
  intro stable
  obtain ⟨again, encoded, decoded⟩ := stable _ decode_quarterPastEight
  have written : again = .string "20240131T08:15:00.123+0000" := (Except.ok.inj encoded).symm
  subst written
  have blunt : date.decode (.string "20240131T08:15:00.123+0000") =
      .ok (.date quarterPastEight.toMillisecond) := by rfl
  rw [blunt] at decoded
  exact absurd decoded (by simp [quarterPastEight, Instant.toMillisecond])

end ScalarType
end Schemata
