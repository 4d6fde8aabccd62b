/-!
# Calendar dates

Days of the Gregorian calendar, extended to all years, and their numbers counted from
1970-01-01.
-/
namespace Schemata

/-- A day by year, month and day of the month. -/
structure CalendarDate where
  year : Int
  month : Nat
  day : Nat
deriving DecidableEq

namespace CalendarDate

def isLeapYear (year : Int) : Bool :=
  year % 4 = 0 && (year % 100 ≠ 0 || year % 400 = 0)

def daysInMonth (year : Int) : Nat → Nat
  | 2 => if isLeapYear year then 29 else 28
  | 4 | 6 | 9 | 11 => 30
  | _ => 31

def isValid (date : CalendarDate) : Bool :=
  1 ≤ date.month && date.month ≤ 12 && 1 ≤ date.day &&
    date.day ≤ daysInMonth date.year date.month

/-- The number of the day. Years are counted from March, so that the leap day is the last of
its year, and in periods of 400 years with 146097 days each. -/
def dayNumber (date : CalendarDate) : Int :=
  let year := if date.month ≤ 2 then date.year - 1 else date.year
  let period := year / 400
  let yearOfPeriod := year % 400
  let monthFromMarch : Int := ((date.month : Int) + 9) % 12
  let dayOfYear := (153 * monthFromMarch + 2) / 5 + date.day - 1
  let dayOfPeriod := yearOfPeriod * 365 + yearOfPeriod / 4 - yearOfPeriod / 100 + dayOfYear
  period * 146097 + dayOfPeriod - 719468

def ofDayNumber (number : Int) : CalendarDate :=
  let shifted := number + 719468
  let period := shifted / 146097
  let dayOfPeriod := shifted % 146097
  let yearOfPeriod :=
    (dayOfPeriod - dayOfPeriod / 1460 + dayOfPeriod / 36524 - dayOfPeriod / 146096) / 365
  let dayOfYear :=
    dayOfPeriod - (365 * yearOfPeriod + yearOfPeriod / 4 - yearOfPeriod / 100)
  let monthFromMarch := (5 * dayOfYear + 2) / 153
  let day := dayOfYear - (153 * monthFromMarch + 2) / 5 + 1
  let month := if monthFromMarch < 10 then monthFromMarch + 3 else monthFromMarch - 9
  let year := yearOfPeriod + period * 400
  { year := if month ≤ 2 then year + 1 else year
    month := month.toNat
    day := day.toNat }

end CalendarDate
end Schemata
