/-!
# Doubles

The 64-bit binary floating point numbers, as sign, biased exponent and fraction, with exact
rounding of a ratio of natural numbers to the nearest double.
-/
namespace Schemata

-- Constant powers are the built-in ones, whatever other powers are known where they are read.
attribute [default_instance 100000] instPowNat

/-- A double, by the three fields of its bit pattern. -/
structure Binary64 where
  negative : Bool
  exponent : Nat
  fraction : Nat
  exponent_lt : exponent < 2 ^ 11
  fraction_lt : fraction < 2 ^ 52
deriving DecidableEq

namespace Binary64

/-- The double whose exponent and fraction fields, read as one number, are `magnitude`. -/
def ofMagnitude (negative : Bool) (magnitude : Nat) : Binary64 where
  negative := negative
  exponent := magnitude / 2 ^ 52 % 2 ^ 11
  fraction := magnitude % 2 ^ 52
  exponent_lt := Nat.mod_lt _ (by decide)
  fraction_lt := Nat.mod_lt _ (by decide)

/-- The exponent and fraction fields read as one number; it grows with the absolute value. -/
def magnitude (x : Binary64) : Nat :=
  x.exponent * 2 ^ 52 + x.fraction

def ofBits (bits : Nat) : Binary64 :=
  ofMagnitude (bits / 2 ^ 63 % 2 = 1) bits

def bits (x : Binary64) : Nat :=
  (if x.negative then 2 ^ 63 else 0) + x.magnitude

def zero (negative : Bool) : Binary64 :=
  ofMagnitude negative 0

def infinity (negative : Bool) : Binary64 :=
  ofMagnitude negative (2047 * 2 ^ 52)

def notANumber (negative : Bool) : Binary64 :=
  ofMagnitude negative (2047 * 2 ^ 52 + 2 ^ 51)

def isFinite (x : Binary64) : Bool :=
  x.exponent < 2047

def isNaN (x : Binary64) : Bool :=
  x.exponent = 2047 && x.fraction ≠ 0

def isZero (x : Binary64) : Bool :=
  x.exponent = 0 && x.fraction = 0

/-- The whole number `m` of the absolute value `m * 2 ^ q` of a finite double. -/
def significand (x : Binary64) : Nat :=
  if x.exponent = 0 then x.fraction else 2 ^ 52 + x.fraction

/-- The power `q` of the absolute value `m * 2 ^ q` of a finite double. -/
def power (x : Binary64) : Int :=
  if x.exponent = 0 then -1074 else (x.exponent : Int) - 1075

/-- The power of two in which a positive ratio is counted: the quotient then has 53 binary
digits, or fewer when the power is already the least one, `-1074`. -/
def unitPower (num den : Nat) : Int :=
  let guess : Int := (num.log2 : Int) - den.log2 - 53
  let fits := num * Nat.pow 2 (-guess).toNat < 2 ^ 53 * (den * Nat.pow 2 guess.toNat)
  max (if fits then guess else guess + 1) (-1074)

/-- The whole number nearest to a ratio, an exact half going to the even neighbour. -/
def nearestEven (num den : Nat) : Nat :=
  let whole := num / den
  let rest := num % den
  if den < 2 * rest ∨ (den = 2 * rest ∧ whole % 2 = 1) then whole + 1 else whole

/-- The double nearest to the ratio `num / den`, ties going to the even fraction; ratios
beyond the largest double become infinite. -/
def ofRatio (negative : Bool) (num den : Nat) : Binary64 :=
  if num = 0 then zero negative
  else
    let unit := unitPower num den
    let count := nearestEven (num * Nat.pow 2 (-unit).toNat) (den * Nat.pow 2 unit.toNat)
    ofMagnitude negative (min ((unit + 1074).toNat * 2 ^ 52 + count) (2047 * 2 ^ 52))

def ratio (x : Binary64) : Nat × Nat :=
  (x.significand * Nat.pow 2 x.power.toNat, Nat.pow 2 (-x.power).toNat)

/-- The rounded product of two finite doubles. -/
def mul (x y : Binary64) : Binary64 :=
  ofRatio (x.negative != y.negative) (x.ratio.1 * y.ratio.1) (x.ratio.2 * y.ratio.2)

/-- The rounded quotient of a finite double by a finite double that is not zero. -/
def div (x y : Binary64) : Binary64 :=
  ofRatio (x.negative != y.negative) (x.ratio.1 * y.ratio.2) (x.ratio.2 * y.ratio.1)

def neg (x : Binary64) : Binary64 :=
  { x with negative := !x.negative }

def ofInt (i : Int) : Binary64 :=
  ofRatio (i < 0) i.natAbs 1

end Binary64
end Schemata
