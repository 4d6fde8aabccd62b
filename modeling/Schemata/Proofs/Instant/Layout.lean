import Schemata.Instant.Reader
import Schemata.Proofs.Attempt
import Schemata.Proofs.Calendar
import Schemata.Proofs.Text.Padding

/-!
# The layout of documents read back

The layout of documents shows an instant to the millisecond, and a leap second as the next second
of its minute. For years of four digits reading it gives the instant without the digits below the
millisecond, unless a leap second does not end its minute: that one is read as the second after it.
-/
namespace Schemata.Instant

open Schemata.Text

def toMillisecond (instant : Instant) : Instant where
  seconds := instant.seconds
  nanos := instant.nanos / 1000000 * 1000000
  nanos_lt := by have := instant.nanos_lt; omega

/-- A leap second comes after the last second of a minute, if the instant is in one. -/
def LeapEndsMinute (instant : Instant) : Prop :=
  1000000000 ≤ instant.nanos → instant.seconds % 60 = 59

/-- The instant with a leap second within a minute counted as the second that comes next. -/
def settled (instant : Instant) : Instant :=
  if 1000000000 ≤ instant.nanos ∧ instant.seconds % 60 ≠ 59 then
    ⟨instant.seconds + 1, instant.nanos - 1000000000, by have := instant.nanos_lt; omega⟩
  else instant

/-- The year of the instant has four digits at most and no sign. -/
def HasPlainYear (instant : Instant) : Prop :=
  0 ≤ instant.date.year ∧ instant.date.year ≤ 9999

section Padded

variable {width n : Nat}

/-- A padded number is read whole, whatever follows it. -/
theorem number?_padded (positive : 0 < width)
    (full : (padded width n).toList.length = width) (rest : List Char) :
    number? width ((padded width n).toList ++ rest) = some (n, rest) := by
  have digits : ∀ c ∈ (padded width n).toList, c.isDigit = true :=
    fun _ => isDigit_of_mem_padded width n
  have row : (((padded width n).toList ++ rest).takeWhile Char.isDigit).take width =
      (padded width n).toList := by
    rw [List.takeWhile_append_of_pos digits, List.take_left' full]
  simp only [number?, skipBlank_padded positive full, row, readNat?_padded, full]
  rw [Option.map_some, List.drop_left' full]

private theorem year?_padded (full : (padded 4 n).toList.length = 4) (rest : List Char) :
    year? ((padded 4 n).toList ++ rest) = some ((n : Int), rest) := by
  have positive : 0 < 4 := by decide
  have number := number?_padded positive full rest
  have skipped := skipBlank_padded positive full rest
  obtain ⟨c, digits, row, digit⟩ := exists_digit_padded positive full
  have unsigned (sign : Char) (tail : List Char) (mark : sign.isDigit = false) :
      (padded 4 n).toList ++ rest ≠ sign :: tail := by
    intro same
    rw [row, List.cons_append] at same
    rw [(List.cons.inj same).1, mark] at digit
    exact Bool.noConfusion digit
  unfold year?
  rw [skipped]
  split
  case h_1 tail same => exact absurd same (unsigned '-' tail (by decide))
  case h_2 tail same => exact absurd same (unsigned '+' tail (by decide))
  case h_3 =>
    rw [number]
    rfl

private theorem milliseconds?_padded (full : (padded 3 n).toList.length = 3) (rest : List Char) :
    milliseconds? ('.' :: ((padded 3 n).toList ++ rest)) = some (n * 1000000, rest) := by
  have enough : ¬ ((padded 3 n).toList ++ rest).length < 3 := by
    rw [List.length_append]
    omega
  rw [milliseconds?, if_neg enough, List.take_left' full, List.drop_left' full,
    readNat?_padded]
  rfl

end Padded

private theorem offset?_utc : offset? "+0000".toList = some (0, []) := by
  decide

section Fields

variable (instant : Instant)

private theorem secondOfDay_lt : instant.secondOfDay < 86400 := by
  unfold secondOfDay
  omega

private theorem hour_lt : instant.hour < 24 := by
  have := instant.secondOfDay_lt
  unfold hour
  omega

private theorem minute_lt : instant.minute < 60 := by
  unfold minute
  omega

private theorem second_le : instant.second ≤ 60 := by
  have := instant.nanos_lt
  unfold second
  omega

private theorem keepsDay_of_hasPlainYear {instant : Instant} (plain : instant.HasPlainYear) :
    keepsDay (instant.seconds / 86400) = true := by
  obtain ⟨place, date, -⟩ := CalendarDate.exists_place (instant.seconds / 86400)
  have years := place.yearOfPeriod_mem
  have period : -1 ≤ (instant.seconds / 86400 + 719468) / 146097 ∧
      (instant.seconds / 86400 + 719468) / 146097 ≤ 24 := by
    simp only [HasPlainYear, Instant.date, date, CalendarDate.Place.date] at plain
    split at plain <;> omega
  have first : (CalendarDate.mk (-262143) 1 1).dayNumber = -96465292 := by decide
  have last : (CalendarDate.mk 262142 12 31).dayNumber = 95026236 := by decide
  simp only [keepsDay, first, last, Bool.and_eq_true, decide_eq_true_eq]
  omega

/-- The fields that the layout shows belong to the instant to the millisecond. -/
theorem ofFields?_toMillisecond (ends : instant.LeapEndsMinute)
    (kept : keepsDay (instant.seconds / 86400) = true) :
    ofFields? ⟨instant.date, instant.hour, instant.minute, instant.second,
      instant.nanoOfSecond / 1000000 * 1000000, 0⟩ = some instant.toMillisecond := by
  have day := CalendarDate.dayNumber_ofDayNumber (instant.seconds / 86400)
  have valid := CalendarDate.isValid_ofDayNumber (instant.seconds / 86400)
  have range : instant.second ≤ 60 ∧ instant.nanoOfSecond / 1000000 * 1000000 < 1000000000 := by
    refine ⟨instant.second_le, ?_⟩
    unfold nanoOfSecond
    omega
  have nanos_lt := instant.nanos_lt
  unfold LeapEndsMinute at ends
  have seconds : ((instant.seconds / 86400) * 1440 + (instant.hour : Int) * 60 +
      (instant.minute : Int) - 0) * 60 + ((min instant.second 59 : Nat) : Int) =
      instant.seconds := by
    simp only [hour, minute, second, secondOfDay]
    omega
  have nanos : instant.nanoOfSecond / 1000000 * 1000000 + instant.second / 60 * 1000000000 =
      instant.nanos / 1000000 * 1000000 := by
    simp only [nanoOfSecond, second, secondOfDay]
    omega
  rw [ofFields?, dif_pos range]
  simp only [Instant.date, day, valid, kept, instant.hour_lt, instant.minute_lt, seconds, nanos]
  rfl

end Fields

theorem toList_render {instant : Instant} (plain : instant.HasPlainYear) :
    instant.render.toList =
      (padded 4 instant.date.year.toNat).toList ++ ((padded 2 instant.date.month).toList ++
        ((padded 2 instant.date.day).toList ++ 'T' :: ((padded 2 instant.hour).toList ++
        ':' :: ((padded 2 instant.minute).toList ++ ':' :: ((padded 2 instant.second).toList ++
        '.' :: ((padded 3 (instant.nanoOfSecond / 1000000)).toList ++ "+0000".toList)))))) := by
  have unsigned : yearText instant.date.year = padded 4 instant.date.year.toNat := if_pos plain
  simp [render, unsigned]

theorem ofLayout?_render {instant : Instant} (plain : instant.HasPlainYear)
    (ends : instant.LeapEndsMinute) :
    ofLayout? instant.render.toList = some instant.toMillisecond := by
  have inYear := CalendarDate.le_of_isValid
    (CalendarDate.isValid_ofDayNumber (instant.seconds / 86400))
  have two : 0 < 2 := by decide
  have year_full : (padded 4 instant.date.year.toNat).toList.length = 4 := by
    have last := plain.2
    exact length_padded (by decide) (by omega)
  have month_full : (padded 2 instant.date.month).toList.length = 2 :=
    length_padded two (Nat.lt_of_le_of_lt inYear.1 (by decide))
  have day_full : (padded 2 instant.date.day).toList.length = 2 :=
    length_padded two (Nat.lt_of_le_of_lt inYear.2 (by decide))
  have hour_full : (padded 2 instant.hour).toList.length = 2 :=
    length_padded two (Nat.lt_trans instant.hour_lt (by decide))
  have minute_full : (padded 2 instant.minute).toList.length = 2 :=
    length_padded two (Nat.lt_trans instant.minute_lt (by decide))
  have second_full : (padded 2 instant.second).toList.length = 2 :=
    length_padded two (Nat.lt_of_le_of_lt instant.second_le (by decide))
  have fraction_full : (padded 3 (instant.nanoOfSecond / 1000000)).toList.length = 3 := by
    have below : instant.nanoOfSecond < 1000000000 := Nat.mod_lt _ (by decide)
    exact length_padded (by decide) (by omega)
  have literal (c : Char) (rest : List Char) : literal? c (c :: rest) = some rest := if_pos rfl
  have date : CalendarDate.mk instant.date.year.toNat instant.date.month instant.date.day =
      instant.date := by
    rw [Int.toNat_of_nonneg plain.1]
  rw [toList_render plain, ofLayout?]
  simp only [year?_padded year_full, number?_padded two month_full, number?_padded two day_full,
    number?_padded two hour_full, number?_padded two minute_full,
    number?_padded two second_full, milliseconds?_padded fraction_full, literal, offset?_utc,
    date, ofFields?_toMillisecond instant ends (keepsDay_of_hasPlainYear plain),
    Option.bind_eq_bind, Option.bind_some]
  rfl

/-- Reading the layout of an instant gives the instant to the millisecond. -/
theorem parse_render {instant : Instant} (plain : instant.HasPlainYear)
    (ends : instant.LeapEndsMinute) :
    parse instant.render = .ok instant.toMillisecond := by
  rw [parse, ofLayout?_render plain ends]

/-- The layout does not show what is below the millisecond. -/
theorem render_toMillisecond (instant : Instant) :
    instant.toMillisecond.render = instant.render := by
  have second : instant.toMillisecond.second = instant.second := by
    show instant.secondOfDay % 60 + instant.nanos / 1000000 * 1000000 / 1000000000 = _
    unfold Instant.second
    omega
  have milliseconds : instant.toMillisecond.nanoOfSecond / 1000000 =
      instant.nanoOfSecond / 1000000 := by
    show instant.nanos / 1000000 * 1000000 % 1000000000 / 1000000 = _
    unfold nanoOfSecond
    omega
  unfold render
  rw [second, milliseconds]
  rfl

section Settled

variable (instant : Instant)

private theorem settled_of_leapEndsMinute {instant : Instant} (ends : instant.LeapEndsMinute) :
    instant.settled = instant :=
  if_neg fun within => within.2 (ends within.1)

theorem leapEndsMinute_settled : instant.settled.LeapEndsMinute := by
  have nanos_lt := instant.nanos_lt
  unfold settled LeapEndsMinute
  split
  · dsimp only
    omega
  · omega

theorem toMillisecond_settled_iff :
    instant.settled.toMillisecond = instant.toMillisecond ↔ instant.LeapEndsMinute := by
  constructor
  · intro same leap
    have sameSeconds : instant.settled.seconds = instant.seconds :=
      (Instant.mk.inj same).1
    apply Decidable.byContradiction
    intro within
    have next : instant.settled.seconds = instant.seconds + 1 := by
      rw [settled, if_pos ⟨leap, within⟩]
    omega
  · intro ends
    rw [settled_of_leapEndsMinute ends]

/-- A leap second within a minute is in the same minute as the second that comes next. -/
theorem minutes_settled : instant.settled.seconds / 60 = instant.seconds / 60 := by
  unfold settled
  split
  · dsimp only
    omega
  · rfl

private theorem date_settled : instant.settled.date = instant.date := by
  have minutes := instant.minutes_settled
  have sameDay : instant.settled.seconds / 86400 = instant.seconds / 86400 := by omega
  rw [date, date, sameDay]

theorem hasPlainYear_settled {instant : Instant} (plain : instant.HasPlainYear) :
    instant.settled.HasPlainYear := by
  rw [HasPlainYear, date_settled]
  exact plain

private theorem second_settled :
    instant.settled.second = instant.second ∧
      instant.settled.nanoOfSecond = instant.nanoOfSecond := by
  have nanos_lt := instant.nanos_lt
  unfold settled
  split
  · unfold second nanoOfSecond secondOfDay
    dsimp only
    omega
  · exact ⟨rfl, rfl⟩

/-- The layout does not tell a leap second within a minute from the second that comes next. -/
theorem render_settled : instant.settled.render = instant.render := by
  have minutes := instant.minutes_settled
  have hour : instant.settled.hour = instant.hour := by
    unfold Instant.hour secondOfDay
    omega
  have minute : instant.settled.minute = instant.minute := by
    unfold Instant.minute secondOfDay
    omega
  obtain ⟨second, nanoOfSecond⟩ := instant.second_settled
  unfold render
  rw [date_settled, hour, minute, second, nanoOfSecond]

end Settled

private theorem leapEndsMinute_of_ofFields? {fields : Fields} {instant : Instant}
    (read : ofFields? fields = some instant) : instant.LeapEndsMinute := by
  unfold ofFields? at read
  split at read
  · next inRange =>
      dsimp only at read
      split at read
      · cases read
        unfold LeapEndsMinute
        dsimp only
        omega
      · cases read
  · cases read

private theorem exists_fields_of_ofLayout? {text : List Char} {instant : Instant}
    (read : ofLayout? text = some instant) :
    ∃ fields, ofFields? fields = some instant := by
  simp only [ofLayout?, Option.bind_eq_bind, Option.bind_eq_some_iff, Prod.exists,
    Option.ite_none_right_eq_some] at read
  obtain ⟨year, _, _, month, _, _, day, _, _, _, _, hour, _, _, _, _, minute, _, _, _, _, second,
    _, _, nano, _, _, offset, _, _, _, fields⟩ := read
  exact ⟨⟨⟨year, month, day⟩, hour, minute, second, nano, offset⟩, fields⟩

private theorem exists_fields_of_ofTimestamp {text : List Char} {instant : Instant}
    (read : ofTimestamp text = .ok instant) :
    ∃ fields, ofFields? fields = some instant := by
  unfold ofTimestamp at read
  split at read
  · cases read
  · simp only [bind_eq_ok_iff] at read
    obtain ⟨_, _, _, _, hour, _, _, _, minute, _, _, _, second, _, fraction, _, read⟩ := read
    split at read
    · cases read
    · obtain ⟨offset, _, read⟩ := bind_eq_ok_iff.1 read
      split at read
      · cases read
      · split at read
        · next found =>
            cases read
            exact ⟨_, found⟩
        · cases read

/-- What is read is never in a leap second within a minute. -/
theorem leapEndsMinute_of_parse {text : String} {instant : Instant}
    (read : parse text = .ok instant) : instant.LeapEndsMinute := by
  unfold parse at read
  split at read
  · next layout =>
      cases read
      obtain ⟨fields, found⟩ := exists_fields_of_ofLayout? layout
      exact leapEndsMinute_of_ofFields? found
  · obtain ⟨fields, found⟩ := exists_fields_of_ofTimestamp read
    exact leapEndsMinute_of_ofFields? found

end Schemata.Instant
