import Schemata.Instant.Basic
import Schemata.Text.Blank
import Schemata.Text.Utf8

/-!
# Reading instants

Two notations are read: the layout of documents, `20240131T08:15:00.000+0000`, and Internet
timestamps, `2024-01-31T08:15:00Z`. A text that is neither is refused for what is wrong with
it as an Internet timestamp.
-/
namespace Schemata.Instant

open Schemata.Text

/-- Date, time of day and offset from UTC as they are written. -/
structure Fields where
  date : CalendarDate
  hour : Nat
  minute : Nat
  second : Nat
  nano : Nat
  offsetMinutes : Int

/-- The days from the first of the year -262143 to the last of the year 262142, the dates that
are kept. -/
def keepsDay (day : Int) : Bool :=
  (CalendarDate.mk (-262143) 1 1).dayNumber ≤ day &&
    day ≤ (CalendarDate.mk 262142 12 31).dayNumber

/-- The instant of some fields, if the date exists, the parts of the time are in range and the
offset is less than a day. A 60th second becomes a leap second. -/
def ofFields? (fields : Fields) : Option Instant :=
  let minutes : Int :=
    fields.date.dayNumber * 1440 + fields.hour * 60 + fields.minute - fields.offsetMinutes
  if inRange : fields.second ≤ 60 ∧ fields.nano < 1000000000 then
    let instant : Instant :=
      { seconds := minutes * 60 + (min fields.second 59 : Nat)
        nanos := fields.nano + fields.second / 60 * 1000000000
        nanos_lt := by omega }
    if fields.date.isValid && keepsDay fields.date.dayNumber &&
        fields.hour < 24 && fields.minute < 60 && fields.offsetMinutes.natAbs < 1440 &&
        keepsDay (instant.seconds / 86400) then
      some instant
    else none
  else none

/-- Reads one to `width` digits behind blanks. -/
def number? (width : Nat) (text : List Char) : Option (Nat × List Char) :=
  let text := skipBlank text
  let digits := (text.takeWhile Char.isDigit).take width
  (readNat? digits).map fun value => (value, text.drop digits.length)

/-- Reads a year: up to four digits, or a sign and any number of digits. -/
def year? (text : List Char) : Option (Int × List Char) :=
  match skipBlank text with
  | '-' :: rest =>
      let digits := rest.takeWhile Char.isDigit
      (readNat? digits).map fun value => (-(value : Int), rest.drop digits.length)
  | '+' :: rest =>
      let digits := rest.takeWhile Char.isDigit
      (readNat? digits).map fun value => ((value : Int), rest.drop digits.length)
  | rest => (number? 4 rest).map fun (value, rest) => ((value : Int), rest)

def literal? (expected : Char) : List Char → Option (List Char)
  | c :: rest => if c = expected then some rest else none
  | [] => none

/-- Reads nothing, or a point and exactly three digits; the value is in nanoseconds. -/
def milliseconds? : List Char → Option (Nat × List Char)
  | '.' :: rest =>
      if rest.length < 3 then none
      else (readNat? (rest.take 3)).map fun value => (value * 1000000, rest.drop 3)
  | rest => some (0, rest)

/-- A sign in front of an offset; the typographic minus is one too. -/
def offsetSign? : Char → Option Int
  | '+' => some 1
  | '-' => some (-1)
  | '\u2212' => some (-1)
  | _ => none

/-- Reads an offset in minutes: blanks, a sign, two digits of hours, then two digits of
minutes with any colons and blanks in front. -/
def offset? (text : List Char) : Option (Int × List Char) := do
  match skipBlank text with
  | sign :: rest =>
      let sign ← offsetSign? sign
      let hours ← readNat? (rest.take 2)
      let rest := (rest.drop 2).dropWhile fun c => c = ':' || isBlank c
      let minutes ← readNat? (rest.take 2)
      if (rest.take 2).length = 2 ∧ minutes < 60 then
        some (sign * (hours * 60 + minutes), rest.drop 2)
      else none
  | [] => none

def ofLayout? (text : List Char) : Option Instant := do
  let (year, text) ← year? text
  let (month, text) ← number? 2 text
  let (day, text) ← number? 2 text
  let text ← literal? 'T' text
  let (hour, text) ← number? 2 text
  let text ← literal? ':' text
  let (minute, text) ← number? 2 text
  let text ← literal? ':' text
  let (second, text) ← number? 2 text
  let (nano, text) ← milliseconds? text
  let (offset, text) ← offset? text
  if text.isEmpty then ofFields? ⟨⟨year, month, day⟩, hour, minute, second, nano, offset⟩
  else none

inductive Fault where
  | invalid
  | tooShort
  | tooLong
  | outOfRange
deriving DecidableEq

def Fault.message : Fault → String
  | .invalid => "input contains invalid characters"
  | .tooShort => "premature end of input"
  | .tooLong => "trailing input"
  | .outOfRange => "input is out of range"

/-- Reads exactly `width` digits. Lengths are compared in bytes. -/
def digits (width : Nat) (text : List Char) : Except Fault (Nat × List Char) :=
  if byteCount text < width then .error .tooShort
  else
    let row := text.take width
    match if row.length = width then readNat? row else none with
    | some value => .ok (value, text.drop width)
    | none => .error .invalid

def oneOf (expected : List Char) : List Char → Except Fault (List Char)
  | [] => .error .tooShort
  | c :: rest => if c ∈ expected then .ok rest else .error .invalid

/-- Reads nothing, or a point and a row of digits, of which the first nine count. -/
def fraction : List Char → Except Fault (Nat × List Char)
  | '.' :: rest =>
      let row := rest.takeWhile Char.isDigit
      if rest.isEmpty then .error .tooShort
      else if row.isEmpty then .error .invalid
      else
        let nanos := Nat.ofDigitChars 10 ((row ++ List.replicate 9 '0').take 9) 0
        .ok (nanos, rest.drop row.length)
  | rest => .ok (0, rest)

def offsetMinutes (text : List Char) : Except Fault (Nat × List Char) := do
  let (value, text) ← digits 2 text
  if value < 60 then .ok (value, text) else .error .outOfRange

/-- Reads an offset in minutes: `Z`, or a sign, hours, a colon and minutes. -/
def zone : List Char → Except Fault (Int × List Char)
  | [] => .error .tooShort
  | 'Z' :: rest => .ok (0, rest)
  | 'z' :: rest => .ok (0, rest)
  | c :: rest =>
      match offsetSign? c with
      | none => .error .invalid
      | some sign => do
          let (hours, rest) ← digits 2 rest
          let rest ← oneOf [':'] rest
          let (minutes, rest) ← offsetMinutes rest
          return (sign * (hours * 60 + minutes), rest)

def calendarDate (text : List Char) : Except Fault (CalendarDate × List Char) := do
  let (year, text) ← digits 4 text
  let text ← oneOf ['-'] text
  let (month, text) ← digits 2 text
  let text ← oneOf ['-'] text
  let (day, text) ← digits 2 text
  let date : CalendarDate := ⟨year, month, day⟩
  if date.isValid then return (date, text) else throw .outOfRange

/-- The number of bytes of a date and a time up to the seconds. -/
def leastBytes : Nat := 19

/-- Reads an Internet timestamp. It has to be long enough for a date and a time. The date is
looked at before the time is read, and the time before the offset. -/
def ofTimestamp (text : List Char) : Except Fault Instant := do
  if byteCount text < leastBytes then throw .tooShort
  let (date, text) ← calendarDate text
  let text ← oneOf ['T', 't', ' '] text
  let (hour, text) ← digits 2 text
  let text ← oneOf [':'] text
  let (minute, text) ← digits 2 text
  let text ← oneOf [':'] text
  let (second, text) ← digits 2 text
  let (nano, text) ← fraction text
  if 24 ≤ hour || 60 ≤ minute || 60 < second then throw .outOfRange
  let (offset, text) ← zone text
  if !text.isEmpty then throw .tooLong
  match ofFields? ⟨date, hour, minute, second, nano, offset⟩ with
  | some instant => return instant
  | none => throw .outOfRange

def parse (text : String) : Except Fault Instant :=
  match ofLayout? text.toList with
  | some instant => .ok instant
  | none => ofTimestamp text.toList

end Schemata.Instant
