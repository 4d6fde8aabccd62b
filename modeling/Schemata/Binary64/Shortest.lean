import Schemata.Binary64.Basic

/-!
# Shortest decimal text of a double

`shortest` finds the fewest digits that read back as a finite double, and among those the
nearest; `render` lays them out as a `DecimalLayout` says.
-/
namespace Schemata.Binary64

/-- Which of two equally near neighbours is taken. -/
inductive Tie where
  | even
  | up
deriving DecidableEq

/-- Two ratios in order, the second of the pairs being positive. -/
def ratioLe (a b : Nat × Nat) : Bool :=
  a.1 * b.2 ≤ b.1 * a.2

def decimalRatio (digits : Nat) (exponent : Int) : Nat × Nat :=
  (digits * Nat.pow 10 exponent.toNat, Nat.pow 10 (-exponent).toNat)

def binaryRatio (count : Nat) (power : Int) : Nat × Nat :=
  (count * Nat.pow 2 power.toNat, Nat.pow 2 (-power).toNat)

/-- The smallest ratio that rounds to the double or bounds those that do: half-way down to
the neighbour below, which is nearer at the start of a binade. -/
def lowerHalfway (x : Binary64) : Nat × Nat :=
  if x.fraction = 0 ∧ 1 < x.exponent then
    binaryRatio (4 * x.significand - 1) (x.power - 2)
  else binaryRatio (2 * x.significand - 1) (x.power - 1)

/-- The bound half-way up to the neighbour above. -/
def upperHalfway (x : Binary64) : Nat × Nat :=
  binaryRatio (2 * x.significand + 1) (x.power - 1)

/-- A ratio rounds to a positive finite double. The two bounds themselves do so exactly when
the double's fraction is even. -/
def roundsTo (x : Binary64) (value : Nat × Nat) : Bool :=
  if x.fraction % 2 = 0 then
    ratioLe x.lowerHalfway value && ratioLe value x.upperHalfway
  else
    !ratioLe value x.lowerHalfway && !ratioLe x.upperHalfway value

/-- The power of ten of the leading digit of a positive ratio, searched upwards from a bound
below it. -/
def leadingPower (value : Nat × Nat) : Nat → Int → Int
  | 0, start => start
  | fuel + 1, start =>
      if ratioLe (decimalRatio 1 (start + 1)) value then leadingPower value fuel (start + 1)
      else start

/-- The better of the two multiples of `10 ^ exponent` around a double, if one reads back. -/
def onGrid (tie : Tie) (x : Binary64) (exponent : Int) : Option Nat :=
  let value := x.ratio
  let num := value.1 * Nat.pow 10 (-exponent).toNat
  let den := value.2 * Nat.pow 10 exponent.toNat
  let below := num / den
  let rest := num % den
  let belowFits := roundsTo x (decimalRatio below exponent)
  let aboveFits := roundsTo x (decimalRatio (below + 1) exponent)
  let upIsNearer := den < 2 * rest ∨
    (den = 2 * rest ∧ (tie = .up ∨ below % 2 = 1))
  if belowFits && aboveFits then some (if upIsNearer then below + 1 else below)
  else if belowFits then some below
  else if aboveFits then some (below + 1)
  else none

/-- The first grid, from coarse to fine, that has a multiple which reads back. -/
def searchGrids (tie : Tie) (x : Binary64) : Nat → Int → Nat × Int
  | 0, exponent => ((onGrid tie x exponent).getD 0, exponent)
  | grids + 1, exponent =>
      match onGrid tie x exponent with
      | some digits => (digits, exponent)
      | none => searchGrids tie x grids (exponent - 1)

/-- The fewest digits, with their power of ten, that read back as a finite double other than
zero. Seventeen digits always do. -/
def shortest (tie : Tie) (x : Binary64) : Nat × Int :=
  let bits := x.ratio.1.log2
  let start : Int := ((bits : Int) - x.ratio.2.log2 - 2) * 30103 / 100000 - 1
  searchGrids tie x 17 (leadingPower x.ratio 4 start)

/-- How a double is written: the decimal exponents of its leading digit that are written
positionally, whether a positive exponent has a sign, and how ties are broken. -/
structure DecimalLayout where
  leastPositional : Int
  mostPositional : Int
  signedExponent : Bool
  tie : Tie

/-- Digits without the zeros at their end, and the power of ten of the last one left. -/
def stripZeros (digits : List Char) (exponent : Int) : List Char × Int :=
  let zeros := (digits.reverse.takeWhile (· == '0')).length
  (digits.take (digits.length - zeros), exponent + zeros)

/-- Digits written with a point; a whole number gets the fraction `.0`. -/
def positionalText (digits : List Char) (exponent : Int) : List Char :=
  let count : Int := digits.length
  if 0 ≤ exponent then digits ++ List.replicate exponent.toNat '0' ++ ['.', '0']
  else if 0 < count + exponent then
    digits.take (count + exponent).toNat ++ '.' :: digits.drop (count + exponent).toNat
  else '0' :: '.' :: List.replicate (-(count + exponent)).toNat '0' ++ digits

/-- Digits written with one digit before the point and an exponent. -/
def scientificText (signed : Bool) (digits : List Char) (lead : Int) : List Char :=
  let fraction := digits.drop 1
  let point := if fraction.isEmpty then [] else '.' :: fraction
  let sign := if lead < 0 then ['-'] else if signed then ['+'] else []
  digits.take 1 ++ point ++ 'e' :: sign ++ Nat.toDigits 10 lead.natAbs

/-- The text of a double: its shortest digits in a layout, and the three names. -/
def render (layout : DecimalLayout) (x : Binary64) : String :=
  let sign := if x.negative then "-" else ""
  if x.isNaN then "NaN"
  else if !x.isFinite then sign ++ "inf"
  else if x.isZero then sign ++ "0.0"
  else
    let (number, power) := shortest layout.tie x
    let (digits, exponent) := stripZeros (Nat.toDigits 10 number) power
    let lead := exponent + digits.length - 1
    let body :=
      if layout.leastPositional ≤ lead ∧ lead ≤ layout.mostPositional then
        positionalText digits exponent
      else scientificText layout.signedExponent digits lead
    sign ++ String.ofList body

end Schemata.Binary64
