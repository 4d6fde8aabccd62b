import Mathlib.Algebra.Order.Field.Basic
import Mathlib.Algebra.Order.Field.Power
import Mathlib.Algebra.Order.Field.Rat
import Mathlib.Tactic.FieldSimp
import Mathlib.Tactic.Linarith
import Mathlib.Tactic.NormNum
import Mathlib.Tactic.Ring
import Schemata.Binary64.Basic

/-!
# The double nearest to an integer

From one power of two to the next the doubles are the multiples of a smaller power of two. The double
that stands for an integer is the nearest of these multiples, of two equally near ones the even one.
A double of a range below is not nearer than the power of two between the ranges.
-/
namespace Schemata.Binary64

/-- The number that a finite double stands for. -/
def value (x : Binary64) : ℚ :=
  (if x.negative then -1 else 1) * (x.significand * 2 ^ x.power)

/-- No finite double is nearer to a number, and if another one is as near, the last binary digit is
zero. -/
structure IsNearest (x : Binary64) (target : ℚ) : Prop where
  finite : x.isFinite = true
  nearest : ∀ y : Binary64, y.isFinite = true → |x.value - target| ≤ |y.value - target|
  even :
    ∀ y : Binary64, y.isFinite = true → y.value ≠ x.value →
      |y.value - target| = |x.value - target| → x.significand % 2 = 0

private theorem significand_lt (x : Binary64) : x.significand < 2 ^ 53 := by
  have := x.fraction_lt
  unfold significand
  split <;> omega

private theorem value_neg (x : Binary64) : x.neg.value = -x.value := by
  have same : x.neg.value = (if !x.negative then -1 else 1) * (x.significand * 2 ^ x.power) := rfl
  rw [same, value]
  cases x.negative <;>
    simp only [Bool.not_true, Bool.not_false, if_true, if_false, Bool.false_eq_true, one_mul,
      neg_mul, neg_neg]

/-- What is nearest to a number is nearest with the other sign to the negative number. -/
theorem IsNearest.neg {x : Binary64} {target : ℚ} (nearest : x.IsNearest target) :
    x.neg.IsNearest (-target) := by
  have mirrored (y : Binary64) : |y.neg.value - target| = |y.value - -target| := by
    rw [value_neg, ← abs_neg]
    ring_nf
  have here : |x.neg.value - -target| = |x.value - target| := by
    rw [value_neg, ← abs_neg]
    ring_nf
  refine ⟨nearest.finite, fun y finite => ?_, fun y finite other same => ?_⟩
  · rw [here, ← mirrored]
    exact nearest.nearest y.neg finite
  · rw [here, ← mirrored] at same
    refine nearest.even y.neg finite ?_ same
    rw [value_neg] at other ⊢
    exact fun equal => other (neg_eq_iff_eq_neg.1 equal)

/-- A double by its 53 binary digits and the place of the first of them, counted from the least double
with 53 digits. Digits that are all carried over make the first digit of the next place. -/
theorem fields_ofMagnitude {lead count : Nat} (negative : Bool) (low : 2 ^ 52 ≤ count)
    (high : count ≤ 2 ^ 53) (inRange : lead < 2045) :
    (ofMagnitude negative (lead * 2 ^ 52 + count)).exponent =
        (if count = 2 ^ 53 then lead + 2 else lead + 1) ∧
      (ofMagnitude negative (lead * 2 ^ 52 + count)).significand =
        (if count = 2 ^ 53 then 2 ^ 52 else count) := by
  have exponent : (ofMagnitude negative (lead * 2 ^ 52 + count)).exponent =
      (if count = 2 ^ 53 then lead + 2 else lead + 1) := by
    show (lead * 2 ^ 52 + count) / 2 ^ 52 % 2 ^ 11 = _
    split <;> omega
  have fraction : (ofMagnitude negative (lead * 2 ^ 52 + count)).fraction =
      (if count = 2 ^ 53 then 0 else count - 2 ^ 52) := by
    show (lead * 2 ^ 52 + count) % 2 ^ 52 = _
    split <;> omega
  refine ⟨exponent, ?_⟩
  rw [significand, exponent, fraction]
  split <;> split <;> omega

private theorem value_ofMagnitude {lead count : Nat} (low : 2 ^ 52 ≤ count) (high : count ≤ 2 ^ 53)
    (inRange : lead < 2045) :
    (ofMagnitude false (lead * 2 ^ 52 + count)).value = count * 2 ^ ((lead : ℤ) - 1074) := by
  obtain ⟨exponent, significand⟩ := fields_ofMagnitude false low high inRange
  have positive : (ofMagnitude false (lead * 2 ^ 52 + count)).negative = false := rfl
  rw [value, positive, significand, power, exponent, if_neg Bool.false_ne_true, one_mul]
  by_cases carried : count = 2 ^ 53
  · have next : ((lead + 2 : ℕ) : ℤ) - 1075 = (lead : ℤ) - 1074 + 1 := by omega
    rw [if_pos carried, if_pos carried, if_neg (by omega), next, zpow_add_one₀ two_ne_zero, carried]
    norm_num
    ring
  · have here : ((lead + 1 : ℕ) : ℤ) - 1075 = (lead : ℤ) - 1074 := by omega
    rw [if_neg carried, if_neg carried, if_neg (by omega), here]

section Ratio

variable {num den : Nat}

/-- Rounding a ratio takes the nearest whole number, an even one if two are equally near. -/
theorem nearestEven_spec (positive : 0 < den) (other : ℤ) :
    (nearestEven num den * den - num : ℤ).natAbs ≤ (other * den - num).natAbs ∧
      (other ≠ nearestEven num den →
        (other * den - num).natAbs = (nearestEven num den * den - num : ℤ).natAbs →
        nearestEven num den % 2 = 0) := by
  have split : (num : ℤ) = (num / den : ℕ) * den + (num % den : ℕ) := by
    exact_mod_cast (Nat.div_add_mod' num den).symm
  have rest : num % den < den := Nat.mod_lt _ positive
  have below (least : other ≤ (num / den : ℕ)) : other * den ≤ (num / den : ℕ) * den :=
    Int.mul_le_mul_of_nonneg_right least (by omega)
  have wayBelow (least : other ≤ (num / den : ℕ) - 1) : other * den ≤ ((num / den : ℕ) - 1) * den :=
    Int.mul_le_mul_of_nonneg_right least (by omega)
  have above (most : (num / den : ℕ) + 1 ≤ other) : ((num / den : ℕ) + 1) * den ≤ other * den :=
    Int.mul_le_mul_of_nonneg_right most (by omega)
  have wayAbove (most : (num / den : ℕ) + 2 ≤ other) : ((num / den : ℕ) + 2) * den ≤ other * den :=
    Int.mul_le_mul_of_nonneg_right most (by omega)
  have next : ((num / den + 1 : ℕ) * den : ℤ) = (num / den : ℕ) * den + den := by
    rw [Nat.cast_succ, Int.add_mul, Int.one_mul]
  simp only [Int.add_mul, Int.sub_mul, Int.one_mul] at wayBelow above wayAbove
  unfold nearestEven
  generalize num / den = whole at *
  generalize num % den = left at *
  generalize other * (den : ℤ) = multiple at *
  by_cases up : den < 2 * left ∨ (den = 2 * left ∧ whole % 2 = 1)
  · simp only [if_pos up, next]
    generalize (whole * den : ℤ) = base at *
    constructor <;> omega
  · simp only [if_neg up]
    generalize (whole * den : ℤ) = base at *
    constructor <;> omega

private theorem abs_sub_ratio (positive : 0 < den) (other : ℤ) :
    |(other : ℚ) - num / den| = ((other * den - num).natAbs : ℚ) / den := by
  have denPositive : (0 : ℚ) < den := Nat.cast_pos.2 positive
  have scaled : (other : ℚ) - num / den = (other * den - num) / den := by
    field_simp
  rw [scaled, abs_div, abs_of_pos denPositive, Nat.cast_natAbs, Int.cast_abs]
  push_cast
  rfl

private theorem nearestEven_ratio (positive : 0 < den) (other : ℤ) :
    |(nearestEven num den : ℚ) - num / den| ≤ |(other : ℚ) - num / den| ∧
      (other ≠ nearestEven num den →
        |(other : ℚ) - num / den| = |(nearestEven num den : ℚ) - num / den| →
        nearestEven num den % 2 = 0) := by
  have denPositive : (0 : ℚ) < den := Nat.cast_pos.2 positive
  obtain ⟨nearest, even⟩ := @nearestEven_spec num den positive other
  have here := @abs_sub_ratio num den positive (nearestEven num den)
  rw [Int.cast_natCast] at here
  rw [here, abs_sub_ratio positive other]
  refine ⟨?_, fun apart same => even apart ?_⟩
  · exact div_le_div_of_nonneg_right (Nat.cast_le.2 nearest) denPositive.le
  · exact Nat.cast_injective ((div_left_inj' denPositive.ne').1 same)

/-- A ratio between two powers of two is rounded to a number between them. -/
theorem nearestEven_mem (positive : 0 < den) (low : 2 ^ 52 * den ≤ num) (high : num < 2 ^ 53 * den) :
    2 ^ 52 ≤ nearestEven num den ∧ nearestEven num den ≤ 2 ^ 53 := by
  have least : 2 ^ 52 ≤ num / den := (Nat.le_div_iff_mul_le positive).2 low
  have most : num / den < 2 ^ 53 := (Nat.div_lt_iff_lt_mul positive).2 high
  simp only [nearestEven]
  split <;> omega

end Ratio

section Whole

variable {n : Nat}

/-- The ratio that a whole number is of its power of two, on both sides of the range in which doubles
are whole numbers. -/
theorem scale_bounds (positive : 0 < n) :
    2 ^ 52 * 2 ^ (n.log2 - 52) ≤ n * 2 ^ (52 - n.log2) ∧
      n * 2 ^ (52 - n.log2) < 2 ^ 53 * 2 ^ (n.log2 - 52) := by
  have low : 2 ^ n.log2 ≤ n := Nat.log2_self_le positive.ne'
  have high : n < 2 ^ (n.log2 + 1) := Nat.lt_log2_self
  have least : 2 ^ 52 * 2 ^ (n.log2 - 52) = 2 ^ n.log2 * 2 ^ (52 - n.log2) := by
    rw [← Nat.pow_add, ← Nat.pow_add]
    congr 1
    omega
  have most : 2 ^ 53 * 2 ^ (n.log2 - 52) = 2 ^ (n.log2 + 1) * 2 ^ (52 - n.log2) := by
    rw [← Nat.pow_add, ← Nat.pow_add]
    congr 1
    omega
  rw [least, most]
  exact ⟨Nat.mul_le_mul_right _ low, Nat.mul_lt_mul_of_pos_right high (Nat.two_pow_pos _)⟩

/-- A positive whole number is counted in the power of two that leaves it 53 digits. -/
theorem unitPower_one (positive : 0 < n) : unitPower n 1 = n.log2 - 52 := by
  have low : 2 ^ n.log2 ≤ n := Nat.log2_self_le positive.ne'
  have tooMany :
      ¬ n * Nat.pow 2 (-((n.log2 : ℤ) - 53)).toNat <
        2 ^ 53 * (1 * Nat.pow 2 ((n.log2 : ℤ) - 53).toNat) := by
    have down : (-((n.log2 : ℤ) - 53)).toNat = 53 - n.log2 := by omega
    have up : ((n.log2 : ℤ) - 53).toNat = n.log2 - 53 := by omega
    have same : 2 ^ 53 * 2 ^ (n.log2 - 53) = 2 ^ n.log2 * 2 ^ (53 - n.log2) := by
      rw [← Nat.pow_add, ← Nat.pow_add]
      congr 1
      omega
    rw [not_lt, Nat.pow_eq, Nat.pow_eq, one_mul, down, up, same]
    exact Nat.mul_le_mul_right _ low
  have one : (1 : ℕ).log2 = 0 := by decide
  simp only [unitPower, one, Nat.cast_zero, sub_zero, if_neg tooMany]
  omega

/-- The number of units that a positive whole number is rounded to. -/
def roundedCount (n : Nat) : Nat :=
  nearestEven (n * 2 ^ (52 - n.log2)) (2 ^ (n.log2 - 52))

private theorem roundedCount_mem (positive : 0 < n) :
    2 ^ 52 ≤ roundedCount n ∧ roundedCount n ≤ 2 ^ 53 :=
  nearestEven_mem (Nat.two_pow_pos _) (scale_bounds positive).1 (scale_bounds positive).2

private theorem ofRatio_one (positive : 0 < n) (inRange : n.log2 < 1023) (negative : Bool) :
    ofRatio negative n 1 =
      ofMagnitude negative ((n.log2 + 1022) * 2 ^ 52 + roundedCount n) := by
  have unit := unitPower_one positive
  have down : (-((n.log2 : ℤ) - 52)).toNat = 52 - n.log2 := by omega
  have up : ((n.log2 : ℤ) - 52).toNat = n.log2 - 52 := by omega
  have lead : ((n.log2 : ℤ) - 52 + 1074).toNat = n.log2 + 1022 := by omega
  have most := (roundedCount_mem positive).2
  have finite : (n.log2 + 1022) * 2 ^ 52 + roundedCount n ≤ 2047 * 2 ^ 52 := by omega
  have count : nearestEven (n * Nat.pow 2 (52 - n.log2)) (1 * Nat.pow 2 (n.log2 - 52)) =
      roundedCount n := by
    rw [one_mul, roundedCount, Nat.pow_eq, Nat.pow_eq]
  simp only [ofRatio, if_neg positive.ne', unit, down, up, lead, count, Nat.min_eq_left finite]

def unit (n : Nat) : ℚ :=
  2 ^ ((n.log2 : ℤ) - 52)

private theorem unit_pos (n : Nat) : 0 < unit n :=
  zpow_pos two_pos _

private theorem scaled_eq_div_unit (n : Nat) :
    ((n * 2 ^ (52 - n.log2) : ℕ) : ℚ) / (2 ^ (n.log2 - 52) : ℕ) = n / unit n := by
  have scales : (2 : ℚ) ^ (n.log2 - 52) = unit n * 2 ^ (52 - n.log2) := by
    rw [unit, ← zpow_natCast, ← zpow_natCast, ← zpow_add₀ two_ne_zero]
    congr 1
    omega
  have unitPositive := unit_pos n
  push_cast
  rw [scales]
  field_simp

private theorem abs_mul_unit_sub (n : Nat) (count : ℚ) :
    |count * unit n - n| = unit n * |count - n / unit n| := by
  have unitPositive := unit_pos n
  have scaled : count * unit n - n = unit n * (count - n / unit n) := by
    field_simp
  rw [scaled, abs_mul, abs_of_pos unitPositive]

/-- The rounded number of units is the whole number that is nearest to the exact one. -/
theorem roundedCount_nearest (n : Nat) (other : ℤ) :
    |(roundedCount n : ℚ) * unit n - n| ≤ |(other : ℚ) * unit n - n| ∧
      (other ≠ roundedCount n →
        |(other : ℚ) * unit n - n| = |(roundedCount n : ℚ) * unit n - n| →
        roundedCount n % 2 = 0) := by
  have positive : 0 < 2 ^ (n.log2 - 52) := Nat.two_pow_pos _
  obtain ⟨nearest, even⟩ :=
    @nearestEven_ratio (n * 2 ^ (52 - n.log2)) _ positive other
  rw [scaled_eq_div_unit] at nearest even
  rw [abs_mul_unit_sub, abs_mul_unit_sub]
  refine ⟨mul_le_mul_of_nonneg_left nearest (unit_pos n).le, fun apart same => even apart ?_⟩
  exact mul_left_cancel₀ (unit_pos n).ne' same

/-- A double is a whole number of units, or stands for less than the power of two up to which that is
so. -/
theorem units_or_below (n : Nat) (y : Binary64) :
    (∃ count : ℤ, y.value = count * unit n) ∨ |y.value| < 2 ^ 52 * unit n := by
  by_cases fine : (n.log2 : ℤ) - 52 ≤ y.power
  · left
    have scales : (2 : ℚ) ^ y.power = (2 ^ (y.power - (n.log2 - 52)).toNat : ℕ) * unit n := by
      rw [unit, Nat.cast_pow, Nat.cast_two, ← zpow_natCast, ← zpow_add₀ two_ne_zero]
      congr 1
      omega
    refine ⟨(if y.negative then -1 else 1) *
      (y.significand * 2 ^ (y.power - (n.log2 - 52)).toNat : ℕ), ?_⟩
    rw [value, scales]
    push_cast
    ring
  · right
    have digits : (y.significand : ℚ) < 2 ^ 53 := by exact_mod_cast y.significand_lt
    have sign : |(if y.negative then -1 else 1 : ℚ)| = 1 := by
      split <;> simp
    have power : (2 : ℚ) ^ y.power ≤ 2 ^ ((n.log2 : ℤ) - 53) :=
      zpow_le_zpow_right₀ one_le_two (by omega)
    have half : 2 ^ 53 * (2 : ℚ) ^ ((n.log2 : ℤ) - 53) = 2 ^ 52 * unit n := by
      rw [unit, ← zpow_natCast, ← zpow_natCast, ← zpow_add₀ two_ne_zero, ← zpow_add₀ two_ne_zero]
      congr 1
      omega
    have powerPositive : (0 : ℚ) < 2 ^ y.power := zpow_pos two_pos _
    rw [value, abs_mul, sign, one_mul, abs_of_nonneg (by positivity)]
    calc (y.significand : ℚ) * 2 ^ y.power
        < 2 ^ 53 * 2 ^ y.power := mul_lt_mul_of_pos_right digits powerPositive
      _ ≤ 2 ^ 53 * 2 ^ ((n.log2 : ℤ) - 53) := mul_le_mul_of_nonneg_left power (by positivity)
      _ = 2 ^ 52 * unit n := half

private theorem first_digit_le (positive : 0 < n) : 2 ^ 52 * unit n ≤ n := by
  have low : ((2 ^ n.log2 : ℕ) : ℚ) ≤ n := Nat.cast_le.2 (Nat.log2_self_le positive.ne')
  have lead : 2 ^ 52 * unit n = ((2 ^ n.log2 : ℕ) : ℚ) := by
    rw [unit, Nat.cast_pow, Nat.cast_two, ← zpow_natCast, ← zpow_natCast,
      ← zpow_add₀ two_ne_zero]
    congr 1
    omega
  rw [lead]
  exact low

/-- No double is nearer than the rounded number of units, and one that is as near is a number of units
itself. -/
theorem roundedCount_le (positive : 0 < n) (y : Binary64) :
    |(roundedCount n : ℚ) * unit n - n| ≤ |y.value - n| ∧
      (y.value ≠ roundedCount n * unit n →
        |y.value - n| = |(roundedCount n : ℚ) * unit n - n| → roundedCount n % 2 = 0) := by
  rcases units_or_below n y with ⟨count, same⟩ | below
  · obtain ⟨nearest, even⟩ := roundedCount_nearest n count
    rw [same]
    refine ⟨nearest, fun apart => even fun equal => apart ?_⟩
    rw [equal, Int.cast_natCast]
  · have first := first_digit_le positive
    have nearest := (roundedCount_nearest n (2 ^ 52)).1
    rw [Int.cast_pow, Int.cast_ofNat, abs_of_nonpos (sub_nonpos.2 first)] at nearest
    have apart : |(roundedCount n : ℚ) * unit n - n| < |y.value - n| := by
      have := le_abs_self y.value
      have := neg_le_abs (y.value - n)
      linarith
    exact ⟨apart.le, fun _ same => absurd same apart.ne'⟩

/-- Rounding a positive whole number that is not too large for a double gives the nearest one. -/
theorem isNearest_ofRatio_one (positive : 0 < n) (inRange : n.log2 < 1023) :
    (ofRatio false n 1).IsNearest n := by
  obtain ⟨low, high⟩ := roundedCount_mem positive
  have lead : n.log2 + 1022 < 2045 := by omega
  obtain ⟨exponent, significand⟩ := fields_ofMagnitude false low high lead
  have value : (ofMagnitude false ((n.log2 + 1022) * 2 ^ 52 + roundedCount n)).value =
      roundedCount n * unit n := by
    have place : ((n.log2 + 1022 : ℕ) : ℤ) - 1074 = n.log2 - 52 := by omega
    rw [value_ofMagnitude low high lead, place, unit]
  rw [ofRatio_one positive inRange]
  refine ⟨?_, fun y _ => ?_, fun y _ apart same => ?_⟩
  · rw [isFinite, exponent, decide_eq_true_eq]
    split <;> omega
  · rw [value]
    exact (roundedCount_le positive y).1
  · rw [value] at apart same
    have even := (roundedCount_le positive y).2 apart same
    rw [significand]
    split <;> omega

end Whole

private theorem isNearest_zero : (zero false).IsNearest 0 := by
  have nothing : (zero false).value = 0 := by
    simp [value, zero, significand, ofMagnitude]
  refine ⟨by decide, fun y _ => ?_, fun y _ apart same => ?_⟩
  · rw [nothing, sub_zero, abs_zero]
    exact abs_nonneg _
  · rw [nothing, sub_zero, sub_zero, abs_zero, abs_eq_zero] at same
    exact absurd (same.trans nothing.symm) apart

/-- An integer that is not too large for a double is rounded to the nearest one. -/
theorem isNearest_ofInt {i : ℤ} (inRange : i.natAbs.log2 < 1023) : (ofInt i).IsNearest i := by
  unfold ofInt
  rcases Int.lt_trichotomy i 0 with negative | rfl | positive
  · have magnitude : 0 < i.natAbs := by omega
    have whole : (i : ℚ) = -(i.natAbs : ℚ) := by
      rw [Nat.cast_natAbs, Int.cast_abs, abs_of_neg (Int.cast_lt_zero.2 negative), neg_neg]
    have mirrored : ofRatio true i.natAbs 1 = (ofRatio false i.natAbs 1).neg := by
      rw [ofRatio_one magnitude inRange, ofRatio_one magnitude inRange]
      rfl
    rw [decide_eq_true negative, mirrored, whole]
    exact (isNearest_ofRatio_one magnitude inRange).neg
  · exact_mod_cast isNearest_zero
  · have magnitude : 0 < i.natAbs := by omega
    have whole : (i : ℚ) = (i.natAbs : ℚ) := by
      rw [Nat.cast_natAbs, Int.cast_abs, abs_of_pos (Int.cast_pos.2 positive)]
    rw [decide_eq_false (not_lt.2 positive.le), whole]
    exact isNearest_ofRatio_one magnitude inRange

end Schemata.Binary64
