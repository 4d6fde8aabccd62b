import Schemata.Binary64.Decimal
import Schemata.Calendar

/-!
# Bare values of a settings file

Truth values, numbers, dates and times of a TOML file. They are checked for their form and
range only.
-/
namespace Schemata.Toml

open Schemata.Text

/-- Digits of a base, with single underscores between them. -/
def isDigitRow (isDigit : Char → Bool) (row : List Char) : Bool :=
  (row.splitOn '_').all fun piece => !piece.isEmpty && piece.all isDigit

/-- Decimal digits without a leading zero. -/
def isWhole (row : List Char) : Bool :=
  isDigitRow Char.isDigit row && (row.length = 1 || row.head? ≠ some '0')

def dropSign : List Char → List Char
  | '+' :: rest => rest
  | '-' :: rest => rest
  | text => text

def dropUnderscores (text : List Char) : List Char :=
  text.filter (· ≠ '_')

def isDecimalInteger (text : List Char) : Bool :=
  isWhole (dropSign text) &&
    (readInt? (dropUnderscores text)).any fun value => -2 ^ 63 ≤ value && value < 2 ^ 63

def baseValue (base : Nat) (digits : List Char) : Nat :=
  digits.foldl (fun value digit => value * base + (hexValue? digit).getD 0) 0

def isBaseInteger (base : Nat) (row : List Char) : Bool :=
  isDigitRow (fun c => (hexValue? c).any (· < base)) row &&
    baseValue base (dropUnderscores row) < 2 ^ 63

def isInteger : List Char → Bool
  | '0' :: 'x' :: row => isBaseInteger 16 row
  | '0' :: 'o' :: row => isBaseInteger 8 row
  | '0' :: 'b' :: row => isBaseInteger 2 row
  | text => isDecimalInteger text

/-- Whole digits and a fraction, or whole digits alone. -/
def isMantissa (text : List Char) : Bool :=
  match text.splitOn '.' with
  | [whole] => isWhole whole
  | [whole, fraction] => isWhole whole && isDigitRow Char.isDigit fraction
  | _ => false

/-- A sign and digits with a fraction, an exponent or both. -/
def isPositional (text : List Char) : Bool :=
  let mantissa := text.takeWhile fun c => c ≠ 'e' && c ≠ 'E'
  match text.drop mantissa.length with
  | [] => mantissa.contains '.' && isMantissa (dropSign mantissa)
  | _ :: exponent =>
      isMantissa (dropSign mantissa) && isDigitRow Char.isDigit (dropSign exponent)

/-- A double by its name, or a decimal notation of one below infinity. -/
def isFloat (text : List Char) : Bool :=
  dropSign text = ['i', 'n', 'f'] || dropSign text = ['n', 'a', 'n'] ||
    isPositional text &&
      (Binary64.parse? (dropUnderscores text)).any fun value => value ≠ .infinity false

/-- A row of exactly `width` digits at the start of a text, and what follows it. -/
def fixedNumber? (width : Nat) (text : List Char) : Option (Nat × List Char) :=
  let row := text.take width
  if row.length = width then (readNat? row).map fun value => (value, text.drop width) else none

def after? (expected : Char) : List Char → Option (List Char)
  | [] => none
  | c :: rest => if c = expected then some rest else none

def afterDate? (text : List Char) : Option (List Char) := do
  let (year, text) ← fixedNumber? 4 text
  let (month, text) ← fixedNumber? 2 (← after? '-' text)
  let (day, text) ← fixedNumber? 2 (← after? '-' text)
  if (CalendarDate.mk year month day).isValid then some text else none

def afterMinutes? (text : List Char) : Option (List Char) := do
  let (hour, text) ← fixedNumber? 2 text
  let (minute, text) ← fixedNumber? 2 (← after? ':' text)
  if hour < 24 && minute < 60 then some text else none

/-- What follows the fraction of a second that may stand at the start of a text. -/
def afterFraction? : List Char → Option (List Char)
  | '.' :: rest =>
      if rest.head?.any Char.isDigit then some (rest.dropWhile Char.isDigit) else none
  | text => some text

def afterTime? (text : List Char) : Option (List Char) := do
  let (second, text) ← fixedNumber? 2 (← after? ':' (← afterMinutes? text))
  if second ≤ 60 then afterFraction? text else none

/-- Nothing, `Z`, or a sign with hours and minutes. -/
def isOffset : List Char → Bool
  | [] => true
  | ['Z'] => true
  | ['z'] => true
  | '+' :: text => afterMinutes? text = some []
  | '-' :: text => afterMinutes? text = some []
  | _ => false

def isTimeWithOffset (text : List Char) : Bool :=
  (afterTime? text).any isOffset

def isDate (text : List Char) : Bool :=
  afterDate? text = some []

/-- A date, a date with a time, or a time without an offset. -/
def isTime (text : List Char) : Bool :=
  match afterDate? text with
  | some [] => true
  | some ('T' :: rest) => isTimeWithOffset rest
  | some ('t' :: rest) => isTimeWithOffset rest
  | some _ => false
  | none => afterTime? text = some []

def truthNames : List (List Char) :=
  [['t', 'r', 'u', 'e'], ['f', 'a', 'l', 's', 'e']]

def isPlain (text : List Char) : Bool :=
  truthNames.contains text || isFloat text || isInteger text

end Schemata.Toml
