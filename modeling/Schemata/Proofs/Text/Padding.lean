import Mathlib.Algebra.Group.Nat.Defs
import Schemata.Text.Blank
import Schemata.Text.Digits

/-!
# Numbers of a fixed width

A number that is padded with zeros is a row of digits, of the width if it fits, and is read
back from them.
-/
namespace Schemata.Text

private theorem isBlank_of_isDigit {c : Char} (digit : c.isDigit = true) : isBlank c = false := by
  have range : 48 ≤ c.toNat ∧ c.toNat ≤ 57 := by
    simpa [Char.isDigit, UInt32.le_iff_toNat_le] using digit
  simp [isBlank, inRanges, blankRanges]
  omega

variable (width n : Nat)

private theorem toList_padded :
    (padded width n).toList =
      List.replicate (width - (Nat.toDigits 10 n).length) '0' ++ Nat.toDigits 10 n := by
  simp [padded, Nat.repr_eq_ofList_toDigits]

theorem isDigit_of_mem_padded {c : Char} (member : c ∈ (padded width n).toList) :
    c.isDigit = true := by
  rw [toList_padded, List.mem_append, List.mem_replicate] at member
  rcases member with ⟨-, rfl⟩ | digit
  · decide
  · exact Nat.isDigit_of_mem_toDigits (by decide) (by decide) digit

theorem readNat?_padded : readNat? (padded width n).toList = some n := by
  have digits : (padded width n).toList.all Char.isDigit = true :=
    List.all_eq_true.2 fun _ => isDigit_of_mem_padded width n
  have nonempty : (padded width n).toList.isEmpty = false := by
    have := Nat.length_toDigits_pos (b := 10) (n := n)
    rw [List.isEmpty_eq_false_iff, ← List.length_pos_iff, toList_padded]
    simp only [List.length_append]
    omega
  have value : Nat.ofDigitChars 10 (padded width n).toList 0 = n := by
    rw [toList_padded, Nat.ofDigitChars_append, Nat.ofDigitChars_replicate_zero,
      Nat.mul_zero, Nat.ofDigitChars_toDigits (by decide) (by decide)]
  simp [readNat?, digits, nonempty, value]

variable {width n}

theorem length_padded (positive : 0 < width) (fits : n < 10 ^ width) :
    (padded width n).toList.length = width := by
  have := (Nat.length_toDigits_le_iff (by decide) positive).2 fits
  rw [toList_padded, List.length_append, List.length_replicate]
  omega

theorem exists_digit_padded (positive : 0 < width)
    (full : (padded width n).toList.length = width) :
    ∃ c digits, (padded width n).toList = c :: digits ∧ c.isDigit = true := by
  cases row : (padded width n).toList with
  | nil =>
    rw [row, List.length_nil] at full
    omega
  | cons c digits =>
    have member : c ∈ (padded width n).toList := by simp [row]
    exact ⟨c, digits, rfl, isDigit_of_mem_padded width n member⟩

theorem skipBlank_padded (positive : 0 < width)
    (full : (padded width n).toList.length = width) (rest : List Char) :
    skipBlank ((padded width n).toList ++ rest) = (padded width n).toList ++ rest := by
  obtain ⟨c, digits, row, digit⟩ := exists_digit_padded positive full
  simp [row, skipBlank, isBlank_of_isDigit digit]

end Schemata.Text
