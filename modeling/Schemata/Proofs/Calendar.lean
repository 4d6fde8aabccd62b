import Schemata.Calendar

/-!
# Day numbers read back

The date of a day number occurs in the calendar and has that number. Days are placed in the
cycles of the calendar: periods of 400 years, centuries, cycles of four years, years and
months, all counted from March.
-/
namespace Schemata.CalendarDate

/-- The place of a day within its period of 400 years: a century, a cycle of four years of it,
a year of the cycle and a day of the year. A year has a 366th day if it is the last of a cycle
that is not the last of its century, or the last of the period. -/
structure Place where
  century : Int
  cycle : Int
  yearOfCycle : Int
  dayOfYear : Int
  century_mem : 0 ≤ century ∧ century ≤ 3
  cycle_mem : 0 ≤ cycle ∧ cycle ≤ 24
  year_mem : 0 ≤ yearOfCycle ∧ yearOfCycle ≤ 3
  day_mem : 0 ≤ dayOfYear ∧ dayOfYear ≤ 365
  leap : dayOfYear = 365 → yearOfCycle = 3 ∧ (cycle = 24 → century = 3)

namespace Place

variable (place : Place)

def dayOfPeriod : Int :=
  36524 * place.century + 1461 * place.cycle + 365 * place.yearOfCycle + place.dayOfYear

def yearOfPeriod : Int :=
  100 * place.century + 4 * place.cycle + place.yearOfCycle

theorem yearOfPeriod_mem : 0 ≤ place.yearOfPeriod ∧ place.yearOfPeriod < 400 := by
  have := place.century_mem
  have := place.cycle_mem
  have := place.year_mem
  unfold yearOfPeriod
  omega

private theorem exists_of_mem {day : Int} (low : 0 ≤ day) (high : day < 146097) :
    ∃ place : Place, place.dayOfPeriod = day := by
  have century : ∃ c : Int, 0 ≤ c ∧ c ≤ 3 ∧ 36524 * c ≤ day ∧
      day ≤ 36524 * c + 36524 ∧ (day = 36524 * c + 36524 → c = 3) :=
    ⟨day / 36524 - day / 146096, by omega, by omega, by omega, by omega, by omega⟩
  obtain ⟨c, c_low, c_high, below, above, last⟩ := century
  have cycle : ∃ q s : Int, day - 36524 * c = 1461 * q + s ∧ 0 ≤ q ∧ q ≤ 24 ∧ 0 ≤ s ∧
      s ≤ 1460 :=
    ⟨(day - 36524 * c) / 1461, (day - 36524 * c) % 1461, by omega, by omega, by omega,
      by omega, by omega⟩
  obtain ⟨q, s, split, q_low, q_high, s_low, s_high⟩ := cycle
  have year : ∃ y t : Int, s = 365 * y + t ∧ 0 ≤ y ∧ y ≤ 3 ∧ 0 ≤ t ∧ t ≤ 365 ∧
      (t = 365 → y = 3) :=
    ⟨s / 365 - s / 1460, s - 365 * (s / 365 - s / 1460), by omega, by omega, by omega,
      by omega, by omega, by omega⟩
  obtain ⟨y, t, rest, y_low, y_high, t_low, t_high, leap⟩ := year
  exact ⟨⟨c, q, y, t, ⟨c_low, c_high⟩, ⟨q_low, q_high⟩, ⟨y_low, y_high⟩, ⟨t_low, t_high⟩,
    fun full => ⟨leap full, fun _ => by have := leap full; omega⟩⟩,
    by simp only [dayOfPeriod]; omega⟩

private theorem year_of_dayOfPeriod :
    (place.dayOfPeriod - place.dayOfPeriod / 1460 + place.dayOfPeriod / 36524 -
      place.dayOfPeriod / 146096) / 365 = place.yearOfPeriod := by
  obtain ⟨c, q, y, t, c_mem, q_mem, y_mem, t_mem, leap⟩ := place
  simp only [dayOfPeriod, yearOfPeriod]
  have quarter : (36524 * c + 1461 * q + 365 * y + t) / 1460 =
      25 * c + q + (24 * c + q + 365 * y + t) / 1460 := by omega
  have inCentury : 1461 * q + 365 * y + t < 36524 ∨
      1461 * q + 365 * y + t = 36524 ∧ c = 3 := by omega
  have centuries : (36524 * c + 1461 * q + 365 * y + t) / 36524 -
      (36524 * c + 1461 * q + 365 * y + t) / 146096 = c := by
    rcases inCentury with early | last
    · have whole : (36524 * c + 1461 * q + 365 * y + t) / 36524 = c := by omega
      have none : (36524 * c + 1461 * q + 365 * y + t) / 146096 = 0 := by omega
      omega
    · omega
  omega

private theorem dayOfYear_of_dayOfPeriod :
    place.dayOfPeriod - (365 * place.yearOfPeriod + place.yearOfPeriod / 4 -
      place.yearOfPeriod / 100) = place.dayOfYear := by
  have := place.cycle_mem
  have := place.year_mem
  simp only [dayOfPeriod, yearOfPeriod]
  omega

/-- The 366th day of a year counted from March is in a leap year. -/
theorem isLeapYear_of_dayOfYear (full : place.dayOfYear = 365) (period : Int) :
    isLeapYear (place.yearOfPeriod + period * 400 + 1) = true := by
  have := place.cycle_mem
  have leap := place.leap full
  have fourth : (place.yearOfPeriod + period * 400 + 1) % 4 = 0 := by
    simp only [yearOfPeriod]
    omega
  have century : (place.yearOfPeriod + period * 400 + 1) % 100 ≠ 0 ∨
      (place.yearOfPeriod + period * 400 + 1) % 400 = 0 := by
    simp only [yearOfPeriod]
    omega
  simpa [isLeapYear, fourth] using century

def monthFromMarch : Int :=
  (5 * place.dayOfYear + 2) / 153

def dayOfMonth : Int :=
  place.dayOfYear - (153 * place.monthFromMarch + 2) / 5 + 1

def month : Int :=
  if place.monthFromMarch < 10 then place.monthFromMarch + 3 else place.monthFromMarch - 9

def date (period : Int) : CalendarDate :=
  let year := place.yearOfPeriod + period * 400
  { year := if place.month ≤ 2 then year + 1 else year
    month := place.month.toNat
    day := place.dayOfMonth.toNat }

private theorem monthFromMarch_mem : 0 ≤ place.monthFromMarch ∧ place.monthFromMarch ≤ 11 := by
  have := place.day_mem
  unfold monthFromMarch
  omega

private theorem month_mem : 1 ≤ place.month ∧ place.month ≤ 12 := by
  have := place.monthFromMarch_mem
  unfold month
  split <;> omega

private theorem dayOfMonth_pos : 1 ≤ place.dayOfMonth := by
  have := place.day_mem
  unfold dayOfMonth monthFromMarch
  omega

private theorem dayOfMonth_le_of_not_february (early : place.monthFromMarch < 11) (year : Int) :
    place.dayOfMonth.toNat ≤ daysInMonth year place.month.toNat := by
  have low := place.monthFromMarch_mem.1
  have first : 153 * place.monthFromMarch ≤ 5 * place.dayOfYear + 2 := by
    unfold monthFromMarch
    omega
  have last : 5 * place.dayOfYear + 2 < 153 * place.monthFromMarch + 153 := by
    unfold monthFromMarch
    omega
  simp only [dayOfMonth, month]
  generalize place.monthFromMarch = m at *
  obtain rfl | rfl | rfl | rfl | rfl | rfl | rfl | rfl | rfl | rfl | rfl :
      m = 0 ∨ m = 1 ∨ m = 2 ∨ m = 3 ∨ m = 4 ∨ m = 5 ∨ m = 6 ∨ m = 7 ∨ m = 8 ∨ m = 9 ∨
        m = 10 := by omega
  all_goals
    simp [daysInMonth]
    omega

private theorem dayOfMonth_le_of_february (late : place.monthFromMarch = 11) (period : Int) :
    place.dayOfMonth.toNat ≤ daysInMonth (place.yearOfPeriod + period * 400 + 1) 2 := by
  have days := place.day_mem
  by_cases full : place.dayOfYear = 365
  · have leap := place.isLeapYear_of_dayOfYear full period
    simp [daysInMonth, leap, dayOfMonth, late, full]
  · simp only [daysInMonth, dayOfMonth, late]
    split <;> omega

private theorem isValid_date (period : Int) : (place.date period).isValid = true := by
  have months := place.month_mem
  have first := place.dayOfMonth_pos
  have last : (place.date period).day ≤
      daysInMonth (place.date period).year (place.date period).month := by
    by_cases early : place.monthFromMarch < 11
    · exact place.dayOfMonth_le_of_not_february early _
    · have late : place.monthFromMarch = 11 := by
        have := place.monthFromMarch_mem
        omega
      have february : place.month = 2 := by simp [month, late]
      simpa [date, february] using place.dayOfMonth_le_of_february late period
  have month_low : 1 ≤ (place.date period).month := by simp only [date]; omega
  have month_high : (place.date period).month ≤ 12 := by simp only [date]; omega
  have day_low : 1 ≤ (place.date period).day := by simp only [date]; omega
  simp [isValid, month_low, month_high, day_low, last]

private theorem dayNumber_date (period : Int) :
    (place.date period).dayNumber = period * 146097 + place.dayOfPeriod - 719468 := by
  have months := place.monthFromMarch_mem
  have days := place.dayOfMonth_pos
  have year := place.yearOfPeriod_mem
  have inYear := place.dayOfYear_of_dayOfPeriod
  have marchYear : (if (place.date period).month ≤ 2 then (place.date period).year - 1
      else (place.date period).year) = place.yearOfPeriod + period * 400 := by
    simp only [date, month]
    split <;> split <;> omega
  have march : ((place.date period).month + 9 : Int) % 12 = place.monthFromMarch := by
    simp only [date, month]
    split <;> omega
  have day : (153 * place.monthFromMarch + 2) / 5 + ((place.date period).day : Int) - 1 =
      place.dayOfYear := by
    simp only [date, dayOfMonth] at days ⊢
    omega
  have period_eq : (place.yearOfPeriod + period * 400) / 400 = period := by omega
  have year_eq : (place.yearOfPeriod + period * 400) % 400 = place.yearOfPeriod := by omega
  simp only [dayNumber, marchYear, march, day, period_eq, year_eq]
  omega

end Place

private theorem daysInMonth_le (year : Int) (month : Nat) : daysInMonth year month ≤ 31 := by
  unfold daysInMonth
  split
  · split <;> decide
  all_goals decide

theorem le_of_isValid {date : CalendarDate} (valid : date.isValid = true) :
    date.month ≤ 12 ∧ date.day ≤ 31 := by
  simp only [isValid, Bool.and_eq_true, decide_eq_true_eq] at valid
  exact ⟨valid.1.1.2, Nat.le_trans valid.2 (daysInMonth_le _ _)⟩

/-- The date of a day is found by its place in its period. -/
theorem exists_place (number : Int) :
    ∃ place : Place, ofDayNumber number = place.date ((number + 719468) / 146097) ∧
      (number + 719468) / 146097 * 146097 + place.dayOfPeriod - 719468 = number := by
  have low : 0 ≤ (number + 719468) % 146097 := by omega
  have high : (number + 719468) % 146097 < 146097 := by omega
  obtain ⟨place, found⟩ := Place.exists_of_mem low high
  have year := place.year_of_dayOfPeriod
  have day := place.dayOfYear_of_dayOfPeriod
  refine ⟨place, ?_, by omega⟩
  simp only [ofDayNumber, ← found, year, day]
  rfl

theorem isValid_ofDayNumber (number : Int) : (ofDayNumber number).isValid = true := by
  obtain ⟨place, date, -⟩ := exists_place number
  rw [date]
  exact place.isValid_date _

/-- The date of a day number has that number. -/
theorem dayNumber_ofDayNumber (number : Int) : (ofDayNumber number).dayNumber = number := by
  obtain ⟨place, date, counted⟩ := exists_place number
  rw [date, place.dayNumber_date]
  exact counted

end Schemata.CalendarDate
