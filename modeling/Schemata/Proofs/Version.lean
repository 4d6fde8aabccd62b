import Mathlib.Data.List.TakeWhile
import Schemata.Proofs.Metadata.Checks

/-!
# The grammar of version numbers

A version number is three rows of digits with dots between them, perhaps followed by a dash and a
qualifier on one line. The recognizer takes the longest row of digits that it meets; what may stand
behind a row starts with no digit, and so no other division of the text is missed.
-/
namespace Schemata

namespace Version

/-- A text of one or more digits. -/
structure IsDigits (text : String) : Prop where
  nonempty : text ≠ ""
  ascii : ∀ c ∈ text.toList, '0' ≤ c ∧ c ≤ '9'

/-- The texts that are version numbers. -/
inductive IsNumber : String → Prop
  | plain {major minor patch : String} :
      IsDigits major → IsDigits minor → IsDigits patch →
      IsNumber (major ++ "." ++ minor ++ "." ++ patch)
  | qualified {major minor patch : String} (qualifier : String) :
      IsDigits major → IsDigits minor → IsDigits patch → '\n' ∉ qualifier.toList →
      IsNumber (major ++ "." ++ minor ++ "." ++ patch ++ "-" ++ qualifier)

variable {text rest : List Char} {row : String}

private theorem isDigit_iff {c : Char} : c.isDigit = true ↔ '0' ≤ c ∧ c ≤ '9' := by
  simp [Char.isDigit, Char.le_def]

theorem IsDigits.isDigit (digits : IsDigits row) : ∀ c ∈ row.toList, c.isDigit = true :=
  fun c member => isDigit_iff.2 (digits.ascii c member)

/-- A row of digits is skipped whole if no digit follows it. -/
theorem afterDigits?_append (digits : IsDigits row)
    (ends : ∀ c ∈ rest.head?, c.isDigit = false) :
    afterDigits? (row.toList ++ rest) = some rest := by
  have skipped : (row.toList ++ rest).dropWhile Char.isDigit = rest := by
    rw [List.dropWhile_append_of_pos digits.isDigit]
    cases rest with
    | nil => rfl
    | cons c rest => simp [ends c rfl]
  cases start : row.toList with
  | nil => exact absurd (String.toList_eq_nil_iff.1 start) digits.nonempty
  | cons c more =>
    have first : c.isDigit = true := digits.isDigit c (by simp [start])
    rw [start] at skipped
    rw [afterDigits?, skipped]
    simp [first]

/-- What is skipped is a row of digits. -/
theorem exists_row_of_afterDigits? (skipped : afterDigits? text = some rest) :
    ∃ row, IsDigits row ∧ text = row.toList ++ rest := by
  unfold afterDigits? at skipped
  split at skipped
  · next starts =>
    cases skipped
    refine ⟨String.ofList (text.takeWhile Char.isDigit), ⟨?_, ?_⟩, ?_⟩
    · cases text with
      | nil => cases starts
      | cons c more =>
        have digit : c.isDigit = true := starts
        simp [digit]
    · intro c member
      rw [String.toList_ofList] at member
      exact isDigit_iff.1 (List.mem_takeWhile_imp member)
    · rw [String.toList_ofList, List.takeWhile_append_dropWhile]
  · cases skipped

private theorem afterDot?_eq_some_iff : afterDot? text = some rest ↔ text = '.' :: rest := by
  unfold afterDot?
  split
  · simp
  · next noDot =>
    constructor
    · intro impossible
      cases impossible
    · exact fun dot => absurd dot (noDot rest)

private theorem isQualifier_iff :
    isQualifier text = true ↔
      text = [] ∨ ∃ qualifier, '\n' ∉ qualifier ∧ text = '-' :: qualifier := by
  unfold isQualifier
  split
  · simp
  · simp
  · next notEmpty noDash =>
    constructor
    · intro impossible
      cases impossible
    · rintro (empty | ⟨qualifier, _, dash⟩)
      · exact absurd empty notEmpty
      · exact absurd dash (noDash qualifier)

/-- Three rows of digits with dots between them are skipped, and what follows is judged as the
qualifier. -/
theorem isNumber_of_rows {major minor patch number : String}
    (majorDigits : IsDigits major) (minorDigits : IsDigits minor) (patchDigits : IsDigits patch)
    (rest : List Char)
    (written :
      number.toList = major.toList ++ '.' :: (minor.toList ++ '.' :: (patch.toList ++ rest)))
    (qualifier : isQualifier rest = true) :
    isNumber number = true := by
  have dot (more : List Char) : ∀ c ∈ ('.' :: more).head?, c.isDigit = false := by
    intro c same
    cases same
    rfl
  have ends : ∀ c ∈ rest.head?, c.isDigit = false := by
    rcases isQualifier_iff.1 qualifier with rfl | ⟨more, _, rfl⟩
    · exact fun c none => nomatch none
    · intro c same
      cases same
      rfl
  rw [isNumber, written, afterDigits?_append majorDigits (dot _), Option.bind_some,
    afterDot?_eq_some_iff.2 rfl, Option.bind_some, afterDigits?_append minorDigits (dot _),
    Option.bind_some, afterDot?_eq_some_iff.2 rfl, Option.bind_some,
    afterDigits?_append patchDigits ends, Option.any_some, qualifier]

/-- What is accepted consists of three rows of digits, of dots between them and of a qualifier. -/
theorem exists_rows_of_isNumber {number : String} (accepted : isNumber number = true) :
    ∃ major minor patch rest,
      IsDigits major ∧ IsDigits minor ∧ IsDigits patch ∧
        number.toList =
          major.toList ++ '.' :: (minor.toList ++ '.' :: (patch.toList ++ rest)) ∧
        isQualifier rest = true := by
  simp only [isNumber, Option.any_eq_true, Option.bind_eq_some_iff,
    afterDot?_eq_some_iff] at accepted
  obtain ⟨rest, ⟨_, ⟨_, ⟨_, ⟨_, majorSkipped, rfl⟩, minorSkipped⟩, rfl⟩, patchSkipped⟩,
    qualifier⟩ := accepted
  obtain ⟨major, majorDigits, written⟩ := exists_row_of_afterDigits? majorSkipped
  obtain ⟨minor, minorDigits, rfl⟩ := exists_row_of_afterDigits? minorSkipped
  obtain ⟨patch, patchDigits, rfl⟩ := exists_row_of_afterDigits? patchSkipped
  exact ⟨major, minor, patch, rest, majorDigits, minorDigits, patchDigits, written, qualifier⟩

/-- The recognizer accepts exactly the texts of the grammar. -/
theorem isNumber_iff {number : String} : isNumber number = true ↔ IsNumber number := by
  constructor
  · intro accepted
    obtain ⟨major, minor, patch, rest, majorDigits, minorDigits, patchDigits, written, qualifier⟩ :=
      exists_rows_of_isNumber accepted
    rcases isQualifier_iff.1 qualifier with rfl | ⟨more, oneLine, rfl⟩
    · have same : number = major ++ "." ++ minor ++ "." ++ patch :=
        String.toList_injective (by simp [written])
      rw [same]
      exact .plain majorDigits minorDigits patchDigits
    · have same : number = major ++ "." ++ minor ++ "." ++ patch ++ "-" ++ String.ofList more :=
        String.toList_injective (by simp [written])
      rw [same]
      exact .qualified _ majorDigits minorDigits patchDigits (by rwa [String.toList_ofList])
  · rintro (⟨majorDigits, minorDigits, patchDigits⟩ |
      ⟨qualifier, majorDigits, minorDigits, patchDigits, oneLine⟩)
    · exact isNumber_of_rows majorDigits minorDigits patchDigits [] (by simp) rfl
    · have oneLineQualifier : isQualifier ('-' :: qualifier.toList) = true :=
        isQualifier_iff.2 (Or.inr ⟨_, oneLine, rfl⟩)
      exact isNumber_of_rows majorDigits minorDigits patchDigits _ (by simp) oneLineQualifier

instance (number : String) : Decidable (IsNumber number) :=
  decidable_of_iff _ isNumber_iff

end Version

namespace Metadata

/-- A version record passes, unchanged, exactly if its number is one by the grammar. The empty text
is refused as empty, and every other text that is no version number with the text itself. -/
theorem checkVersion_by_grammar (version : Version) :
    (∀ checked, checkVersion version = .ok checked ↔
      Version.IsNumber version.number ∧ checked = version) ∧
    ∀ error, checkVersion version = .error error ↔
      (version.number = "" ∧ error = .emptyVersion) ∨
        (version.number ≠ "" ∧ ¬Version.IsNumber version.number ∧
          error = .invalidVersionNumber version.number) := by
  refine ⟨fun checked => ?_, fun error => ?_⟩
  · rw [checkVersion_eq_ok_iff, Version.isNumber_iff]
  · unfold checkVersion
    by_cases empty : version.number = ""
    · simp [empty, eq_comm]
    · rw [if_neg empty]
      by_cases accepted : Version.isNumber version.number = true
      · simp [accepted, empty, Version.isNumber_iff.1 accepted]
      · have refused : ¬Version.IsNumber version.number :=
          fun written => accepted (Version.isNumber_iff.2 written)
        simp [accepted, empty, refused, eq_comm]

/-- Dots and dashes may stand in a qualifier and line feeds not, and only ASCII digits are digits. -/
example :
    Version.IsNumber "1.0.0-rc.1-b" ∧ Version.IsNumber "01.2.30-" ∧
      ¬Version.IsNumber "1.0.0\n" ∧ ¬Version.IsNumber "1.0.0-a\nb" ∧
      ¬Version.IsNumber "1.0.٣" ∧ ¬Version.IsNumber "1.0" := by
  decide

end Metadata
end Schemata
