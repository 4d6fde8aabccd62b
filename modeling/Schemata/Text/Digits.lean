/-!
# Decimal digits

Natural numbers written with the ASCII digits. The written form of a number is core's
`Nat.repr`; `readNat?` reads it back, leading zeros allowed.
-/
namespace Schemata.Text

/-- The number that a non-empty row of ASCII digits writes. -/
def readNat? (digits : List Char) : Option Nat :=
  if digits.isEmpty then none
  else if digits.all Char.isDigit then some (Nat.ofDigitChars 10 digits 0)
  else none

/-- The integer that a row of digits writes after at most one sign. -/
def readInt? : List Char → Option Int
  | '+' :: digits => (readNat? digits).map Int.ofNat
  | '-' :: digits => (readNat? digits).map fun n => -Int.ofNat n
  | digits => (readNat? digits).map Int.ofNat

/-- A number with zeros in front, up to a width. -/
def padded (width n : Nat) : String :=
  let digits := n.repr
  String.ofList (List.replicate (width - digits.length) '0') ++ digits

/-- The value of a hexadecimal digit of either case. -/
def hexValue? (c : Char) : Option Nat :=
  if c.isDigit then some (c.toNat - '0'.toNat)
  else if 'a' ≤ c ∧ c ≤ 'f' then some (c.toNat - 'a'.toNat + 10)
  else if 'A' ≤ c ∧ c ≤ 'F' then some (c.toNat - 'A'.toNat + 10)
  else none

/-- Reading a number's written form gives the number back. -/
theorem readNat?_toDigits (n : Nat) : readNat? (Nat.toDigits 10 n) = some n := by
  have digits : (Nat.toDigits 10 n).all Char.isDigit = true :=
    List.all_eq_true.2 fun _ member =>
      Nat.isDigit_of_mem_toDigits (by decide) (by decide) member
  have nonempty : (Nat.toDigits 10 n).isEmpty = false := by
    by_cases small : n < 10
    · simp [Nat.toDigits_of_lt_base small]
    · rw [Nat.toDigits_of_base_le (by decide) (by omega)]
      simp
  simp [readNat?, digits, nonempty, Nat.ofDigitChars_toDigits]

end Schemata.Text
