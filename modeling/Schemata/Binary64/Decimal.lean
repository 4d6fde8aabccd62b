import Schemata.Binary64.Basic
import Schemata.Text.Digits

/-!
# Doubles from decimal text

`ofDecimal` rounds `digits * 10 ^ exponent` once, to the nearest double. `ofScaled?` is the
faster reading that rounds twice: first the digits, then their product with the double nearest
to the power of ten. `parse?` reads the decimal notations of a double.
-/
namespace Schemata.Binary64

open Schemata.Text

/-- The double nearest to `digits * 10 ^ exponent`. The two outer branches answer without
computing a power when the number is far outside of the range of doubles. -/
def ofDecimal (negative : Bool) (digits : Nat) (exponent : Int) : Binary64 :=
  let order : Int := exponent + (Nat.toDigits 10 digits).length
  if digits = 0 ∨ order < -400 then zero negative
  else if 400 < order then infinity negative
  else ofRatio negative (digits * Nat.pow 10 exponent.toNat) (Nat.pow 10 (-exponent).toNat)

def powerOfTen (exponent : Nat) : Binary64 :=
  ofDecimal false 1 exponent

/-- Scales a double by a power of ten with one rounding when the power is at most `10 ^ 308`;
smaller scales are reached in steps of `10 ^ 308`. Nothing is returned when the result
exceeds every double. -/
def scaled? (x : Binary64) (exponent : Int) : Option Binary64 :=
  if exponent.natAbs ≤ 308 then
    let power := powerOfTen exponent.natAbs
    if 0 ≤ exponent then
      let product := x.mul power
      if product.isFinite then some product else none
    else some (x.div power)
  else if x.isZero then some x
  else if 0 ≤ exponent then none
  else scaled? (x.div (powerOfTen 308)) (exponent + 308)
termination_by (-exponent).toNat
decreasing_by omega

/-- The double that `digits * 10 ^ exponent` becomes when the digits are rounded first and
their product with the power of ten again. -/
def ofScaled? (negative : Bool) (digits : Nat) (exponent : Int) : Option Binary64 :=
  (scaled? (ofRatio false digits 1) exponent).map fun x => { x with negative := negative }

/-- Reads the part of a notation after its digits: nothing, or `e` and an exponent. -/
def exponentPart? : List Char → Option Int
  | [] => some 0
  | mark :: text => if mark = 'e' ∨ mark = 'E' then readInt? text else none

/-- Reads digits with at most one point, then an exponent. A digit on one side of the point
is enough. -/
def positional? (negative : Bool) (text : List Char) : Option Binary64 :=
  let whole := text.takeWhile Char.isDigit
  let afterWhole := text.dropWhile Char.isDigit
  let (fraction, rest) := match afterWhole with
    | '.' :: more => (more.takeWhile Char.isDigit, more.dropWhile Char.isDigit)
    | _ => ([], afterWhole)
  match readNat? (whole ++ fraction), exponentPart? rest with
  | some digits, some exponent =>
      some (ofDecimal negative digits (exponent - fraction.length))
  | _, _ => none

/-- Reads a notation without its sign; the names of the infinities and of "not a number" may
be written in capitals or small letters. -/
def unsigned? (negative : Bool) (text : List Char) : Option Binary64 :=
  let name := String.ofList (text.map Char.toLower)
  if name = "inf" ∨ name = "infinity" then some (infinity negative)
  else if name = "nan" then some (notANumber negative)
  else positional? negative text

/-- Reads a double: an optional sign, then a decimal notation or one of the three names. -/
def parse? : List Char → Option Binary64
  | '+' :: text => unsigned? false text
  | '-' :: text => unsigned? true text
  | text => unsigned? false text

end Schemata.Binary64
