import Schemata.Calendar
import Schemata.Text.Digits

/-!
# Instants

A point in time in UTC to the nanosecond, with room for leap seconds, and its two written
forms: the layout of documents and the readable form of messages.
-/
namespace Schemata

/-- Seconds since 1970-01-01 and nanoseconds. From `10 ^ 9` on the nanoseconds are those of a leap
second, which may follow any second. -/
structure Instant where
  seconds : Int
  nanos : Nat
  nanos_lt : nanos < 2000000000
deriving DecidableEq

namespace Instant

def date (instant : Instant) : CalendarDate :=
  CalendarDate.ofDayNumber (instant.seconds / 86400)

def secondOfDay (instant : Instant) : Nat :=
  (instant.seconds % 86400).toNat

def hour (instant : Instant) : Nat :=
  instant.secondOfDay / 3600

def minute (instant : Instant) : Nat :=
  instant.secondOfDay / 60 % 60

/-- The second of the minute. A leap second is counted on, up to 60. -/
def second (instant : Instant) : Nat :=
  instant.secondOfDay % 60 + instant.nanos / 1000000000

def nanoOfSecond (instant : Instant) : Nat :=
  instant.nanos % 1000000000

/-- A year of four digits; years before 0 and after 9999 carry a sign. -/
def yearText (year : Int) : String :=
  if 0 ≤ year ∧ year ≤ 9999 then Text.padded 4 year.toNat
  else (if year < 0 then "-" else "+") ++ Text.padded 4 year.natAbs

/-- The layout of dates in documents, to the millisecond: `20240131T08:15:00.000+0000`. -/
def render (instant : Instant) : String :=
  let date := instant.date
  yearText date.year ++ Text.padded 2 date.month ++ Text.padded 2 date.day ++ "T" ++
    Text.padded 2 instant.hour ++ ":" ++ Text.padded 2 instant.minute ++ ":" ++
    Text.padded 2 instant.second ++ "." ++
    Text.padded 3 (instant.nanoOfSecond / 1000000) ++ "+0000"

/-- The fraction of a second with as many groups of three digits as it needs. -/
def fractionText (nanos : Nat) : String :=
  if nanos = 0 then ""
  else if nanos % 1000000 = 0 then "." ++ Text.padded 3 (nanos / 1000000)
  else if nanos % 1000 = 0 then "." ++ Text.padded 6 (nanos / 1000)
  else "." ++ Text.padded 9 nanos

/-- The readable form of messages: `2024-01-31T08:15:00.123456789Z`. -/
def describe (instant : Instant) : String :=
  let date := instant.date
  yearText date.year ++ "-" ++ Text.padded 2 date.month ++ "-" ++ Text.padded 2 date.day ++
    "T" ++ Text.padded 2 instant.hour ++ ":" ++ Text.padded 2 instant.minute ++ ":" ++
    Text.padded 2 instant.second ++ fractionText instant.nanoOfSecond ++ "Z"

end Instant
end Schemata
