import Schemata.Proofs.Binary64.Nearest
import Schemata.Proofs.Scalar

/-!
# Scalars written and read

A type encodes the values of its own kind, and decodes them from what it has encoded. Integers are
encoded as doubles too and come back as the nearest ones; dates come back to the millisecond.
-/
namespace Schemata

namespace ScalarValue

/-- The values that a type encodes: those of its kind, doubles only if they are finite, and integers
for doubles. -/
inductive Encodable : ScalarType → ScalarValue → Prop
  | boolean (value : Bool) : Encodable .boolean (.bool value)
  | integer (value : Int64) : Encodable .integer (.integer value)
  | double (value : Binary64) (finite : value.isFinite = true) : Encodable .double (.double value)
  | integerAsDouble (value : Int64) : Encodable .double (.integer value)
  | string (value : String) : Encodable .string (.text value)
  | uid (value : String) : Encodable .uid (.text value)
  | date (value : Instant) : Encodable .date (.date value)
  | binary (bytes : List UInt8) : Encodable .binary (.binary bytes)

/-- The value as a value of a type. Only integers are values of two types. -/
def asValueOf : ScalarType → ScalarValue → ScalarValue
  | .double, .integer value => .double (Binary64.ofInt value.toInt)
  | _, value => value

end ScalarValue

/-- Integers of 64 bits are far below the largest double. -/
theorem Binary64.isNearest_ofInt64 (value : Int64) :
    (ofInt value.toInt).IsNearest value.toInt := by
  have low : -2 ^ 63 ≤ value.toInt := value.minValue_le_toInt
  have high := value.toInt_lt
  have small : value.toInt.natAbs < 2 ^ 64 := by omega
  apply isNearest_ofInt
  by_cases zero : value.toInt.natAbs = 0
  · rw [zero]
    decide
  · exact Nat.lt_trans ((Nat.log2_lt zero).2 small) (by decide)

namespace ScalarType

open ScalarValue

variable {type : ScalarType} {node : Json} {value : ScalarValue}

private theorem ofDouble?_of_isFinite {number : Binary64} (finite : number.isFinite = true) :
    Number.ofDouble? number = some (.double number finite) :=
  dif_pos finite

private theorem encodable_of_encodeValue (encoded : type.encodeValue value = .ok node) :
    value.Encodable type := by
  unfold encodeValue at encoded
  split at encoded
  · exact .boolean _
  · exact .integer _
  · exact .integerAsDouble _
  · next number =>
    by_cases finite : number.isFinite = true
    · exact .double number finite
    · rw [Number.ofDouble?, dif_neg finite] at encoded
      cases encoded
  · exact .string _
  · exact .uid _
  · exact .date _
  · exact .binary _
  · cases encoded

private theorem exists_encodeValue (encodable : value.Encodable type) :
    ∃ node, type.encodeValue value = .ok node := by
  cases encodable with
  | double number finite => exact ⟨_, by rw [encodeValue, ofDouble?_of_isFinite finite]; rfl⟩
  | integerAsDouble number =>
    have finite := (Binary64.isNearest_ofInt64 number).finite
    exact ⟨_, by simp only [encodeValue, ofDouble?_of_isFinite finite]; rfl⟩
  | _ => exact ⟨_, rfl⟩

private theorem decodeValue_eq_shown
    (belongs : value.Belongs type) (written : value.HasNotation)
    (encoded : type.encodeValue value = .ok node) :
    type.decodeValue node = .ok value.shown := by
  obtain ⟨again, same, decoded⟩ := decodeValue_encodeValue belongs written
  rw [encoded] at same
  cases same
  exact decoded

/-- Apart from dates and the empty identifier, what is encoded comes back as a value of the type. -/
theorem decodeValue_eq_asValueOf
    (notDate : type ≠ .date) (notEmpty : ¬(type = .uid ∧ value = .text ""))
    (encoded : type.encodeValue value = .ok node) :
    type.decodeValue node = .ok (value.asValueOf type) := by
  cases encodable_of_encodeValue encoded with
  | boolean content => exact decodeValue_eq_shown (.boolean content) trivial encoded
  | integer content => exact decodeValue_eq_shown (.integer content) trivial encoded
  | double content finite => exact decodeValue_eq_shown (.double content) finite encoded
  | integerAsDouble content =>
    have finite := (Binary64.isNearest_ofInt64 content).finite
    simp only [encodeValue, ofDouble?_of_isFinite finite] at encoded
    cases encoded
    rfl
  | string content => exact decodeValue_eq_shown (.string content) trivial encoded
  | uid content =>
    have nonempty : content ≠ "" := fun empty => notEmpty ⟨rfl, by rw [empty]⟩
    exact decodeValue_eq_shown (.uid content nonempty) trivial encoded
  | date content => exact absurd rfl notDate
  | binary bytes => exact decodeValue_eq_shown (.binary bytes) trivial encoded

private theorem encode_eq_ok_iff :
    type.encode value = .ok node ↔ type.encodeValue value = .ok node :=
  mapError_eq_ok_iff

/-- A type encodes just the values of its kind, doubles if they are finite and integers for doubles.
What it encodes it decodes to the same value, and an integer for a double to the nearest double; only
the empty identifier is encoded and not decoded. Bytes are read from no other text than the one that
is written for them. -/
theorem encoded_comes_back :
    (∀ (type : ScalarType) (value : ScalarValue),
      (∃ node, type.encode value = .ok node) ↔ value.Encodable type) ∧
    (∀ (type : ScalarType) (value : ScalarValue) (node : Json),
      type ≠ .date → type.encode value = .ok node →
        type.decode node =
          if type = .uid ∧ value = .text "" then
            .error (.invalidValue "uid" (.unexpected "identifier" node))
          else .ok (value.asValueOf type)) ∧
    (∀ value : Int64, (Binary64.ofInt value.toInt).IsNearest value.toInt) ∧
    ∀ (text : String) (bytes : List UInt8),
      Base64.decode text = .ok bytes ↔ text = Base64.encode bytes := by
  refine ⟨fun type value => ?_, fun type value node notDate encoded => ?_,
    Binary64.isNearest_ofInt64, fun _ _ => Base64.decode_eq_ok_iff⟩
  · simp only [encode_eq_ok_iff]
    exact ⟨fun ⟨_, encoded⟩ => encodable_of_encodeValue encoded, exists_encodeValue⟩
  · rw [encode_eq_ok_iff] at encoded
    split
    · next empty =>
      obtain ⟨rfl, rfl⟩ := empty
      cases encoded
      rfl
    · next notEmpty =>
      exact mapError_eq_ok_iff.2 (decodeValue_eq_asValueOf notDate notEmpty encoded)

/-- The least integer that is no double is half-way between two of them. -/
example :
    double.decode (.number (.double (Binary64.ofInt 9007199254740993) (by decide))) =
      .ok (.double (Binary64.ofInt 9007199254740992)) := by
  rfl

/-- What a date is encoded to is read by the layout of documents. It shows the date to the
millisecond, with a leap second within a minute counted as the second that comes next, and only such
a leap second is not kept. The date that is shown is encoded to the same text. -/
theorem encoded_date_comes_back (instant : Instant) (plain : instant.HasPlainYear) :
    (∃ text,
      date.encode (.date instant) = .ok (.string text) ∧
        Instant.ofLayout? text.toList = some instant.settled.toMillisecond ∧
        date.decode (.string text) = .ok (.date instant.settled.toMillisecond) ∧
        date.encode (.date instant.settled.toMillisecond) = .ok (.string text)) ∧
      (instant.settled.toMillisecond = instant.toMillisecond ↔ instant.LeapEndsMinute) := by
  have plainToo := Instant.hasPlainYear_settled plain
  have ends := instant.leapEndsMinute_settled
  refine ⟨⟨instant.render, rfl, ?_, ?_, ?_⟩, instant.toMillisecond_settled_iff⟩
  · rw [← instant.render_settled]
    exact Instant.ofLayout?_render plainToo ends
  · rw [← instant.render_settled]
    exact mapError_eq_ok_iff.2 (decodeValue_eq_shown (.date instant.settled ends) plainToo rfl)
  · rw [encode_eq_ok_iff, encodeValue, Instant.render_toMillisecond, Instant.render_settled]

def leapSecond : Instant :=
  ⟨1483228799, 1123456789, by decide⟩

theorem leapSecond_comes_back :
    leapSecond.HasPlainYear ∧ leapSecond.render = "20161231T23:59:60.123+0000" ∧
      (∃ text,
        date.encode (.date leapSecond) = .ok (.string text) ∧
          Instant.ofLayout? text.toList = some leapSecond.settled.toMillisecond ∧
          date.decode (.string text) = .ok (.date leapSecond.settled.toMillisecond) ∧
          date.encode (.date leapSecond.settled.toMillisecond) = .ok (.string text)) ∧
      leapSecond.settled.toMillisecond = leapSecond.toMillisecond := by
  have plain : leapSecond.HasPlainYear := ⟨by decide, by decide⟩
  have ends : leapSecond.LeapEndsMinute := fun _ => by decide
  have comesBack := encoded_date_comes_back leapSecond plain
  exact ⟨plain, by rfl, comesBack.1, comesBack.2.2 ends⟩

def leapWithinMinute : Instant :=
  ⟨1706688904, 1333333333, by decide⟩

/-- A leap second within a minute comes back as the second after it. -/
theorem leapWithinMinute_not_restored :
    leapWithinMinute.HasPlainYear ∧
      date.encode (.date leapWithinMinute) = .ok (.string "20240131T08:15:05.333+0000") ∧
      date.decode (.string "20240131T08:15:05.333+0000") =
        .ok (.date ⟨1706688905, 333000000, by decide⟩) ∧
      date.decode (.string "20240131T08:15:05.333+0000") ≠
        .ok (.date leapWithinMinute.toMillisecond) := by
  have decoded :
      date.decode (.string "20240131T08:15:05.333+0000") =
        .ok (.date ⟨1706688905, 333000000, by decide⟩) := by
    rfl
  refine ⟨⟨by decide, by decide⟩, by rfl, decoded, ?_⟩
  rw [decoded]
  simp [leapWithinMinute, Instant.toMillisecond]

end ScalarType
end Schemata
