import Mathlib.Tactic.IntervalCases

/-!
# The days of the Gregorian calendar

Two ways to count days. The first counts them from 1 January 1970 by the years and the leap days
that precede a date, and a table of months. The second splits them into eras of 400 years that
begin on 1 March, so that a leap day is the last one of its year. The laws take the second back
to the first.
-/

namespace Dragonfly.Calendar

/-- A leap year is one with 366 days: every fourth year, except for the full centuries that are
no multiples of 400. -/
def isLeap (year : Int) : Bool := year % 4 = 0 && (year % 100 ≠ 0 || year % 400 = 0)

/-- The days of a year before a month; January is month 0. -/
def monthStart (year mon : Int) : Int :=
  [0, 31, 59, 90, 120, 151, 181, 212, 243, 273, 304, 334].getD mon.toNat 0 +
    if isLeap year = true ∧ 2 ≤ mon then 1 else 0

/-- The number of days from 1 January 1970 to a date, counted by the years before it, their leap
days, and the months and days of its own year. -/
def epochDay (year mon mday : Int) : Int :=
  365 * (year - 1970) + (year - 1969) / 4 - (year - 1901) / 100 + (year - 1601) / 400 +
    monthStart year mon + mday - 1

/-- The days of an era before one of its years. -/
def yearStart (year : Int) : Int := 365 * year + year / 4 - year / 100 + year / 400

/-- The days of a year that begins in March before a month; March is month 0. -/
def marchStart (month : Int) : Int := (153 * month + 2) / 5

/-- The days of an era up to one of its days, without the leap days. -/
def plainDays (day : Int) : Int := day - day / 1460 + day / 36524 - day / 146096

/-! ## The years of an era -/

/-- Leaving out leap days keeps the order: a later day has no fewer plain days before it. -/
theorem plain_days_monotone {day later : Int} (ordered : day ≤ later) :
    plainDays day ≤ plainDays later := by
  have fourth (other : Int) : other / 146096 = other / 36524 / 4 := by omega
  have cycles : day - day / 1460 ≤ later - later / 1460 := by omega
  have centuries : day / 36524 ≤ later / 36524 := Int.ediv_le_ediv (by decide) ordered
  have kept : day / 36524 - day / 36524 / 4 ≤ later / 36524 - later / 36524 / 4 := by omega
  simp only [plainDays, fourth]
  omega

/-- The first and the last day of a year have the plain days of that year. -/
theorem plain_days_year : ∀ year : Nat, year < 400 →
    365 * (year : Int) ≤ plainDays (yearStart year) ∧
      plainDays (yearStart (year + 1) - 1) < 365 * (year + 1) := by
  decide +kernel

/-- A day that comes before the start of some year lies in one of the years before that one. -/
theorem day_in_year {day : Int} (begun : 0 ≤ day) (years : Nat) (below : day < yearStart years) :
    ∃ year : Nat, year < years ∧ yearStart year ≤ day ∧ day < yearStart (year + 1) := by
  induction years with
  | zero =>
    have first : yearStart (0 : Nat) = 0 := rfl
    omega
  | succ years inductionHypothesis =>
    by_cases earlier : day < yearStart years
    · obtain ⟨year, before, inside⟩ := inductionHypothesis earlier
      exact ⟨year, Nat.lt_succ_of_lt before, inside⟩
    · exact ⟨years, Nat.lt_succ_self years, Int.not_lt.mp earlier, by exact_mod_cast below⟩

/-- The year of an era in which a day lies is the number of its plain days, divided by 365 and
rounded down. -/
theorem year_of_day {day : Int} (begun : 0 ≤ day) (below : day < 146097) :
    0 ≤ plainDays day / 365 ∧ plainDays day / 365 < 400 ∧ yearStart (plainDays day / 365) ≤ day ∧
      day < yearStart (plainDays day / 365 + 1) := by
  obtain ⟨year, small, fromStart, toEnd⟩ := day_in_year begun 400 below
  obtain ⟨least, most⟩ := plain_days_year year small
  have above := plain_days_monotone fromStart
  have under := plain_days_monotone (Int.le_sub_one_of_lt toEnd)
  have same : plainDays day / 365 = year := by omega
  rw [same]
  exact ⟨Int.natCast_nonneg _, by omega, fromStart, toEnd⟩

/-- A year that begins in March has at most 366 days. -/
theorem year_length (year : Int) : yearStart (year + 1) ≤ yearStart year + 366 := by
  simp only [yearStart]
  omega

/-- Every era has the same years as the first one, moved by the 146097 days of an era for each
era between them. -/
theorem year_start_era (year era : Int) :
    yearStart (year + era * 400) = yearStart year + era * 146097 := by
  have fourths : (year + era * 400) / 4 = year / 4 + era * 100 := by omega
  have centuries : (year + era * 400) / 100 = year / 100 + era * 4 := by omega
  have eras : (year + era * 400) / 400 = year / 400 + era := by omega
  rw [yearStart, yearStart, fourths, centuries, eras]
  omega

/-- A month counted from March has 31 days at most, from its first day to the next month's; of
the twelve months, the one a day lies in. -/
theorem month_of_day {yearDay : Int} (begun : 0 ≤ yearDay) (below : yearDay < 366) :
    0 ≤ (5 * yearDay + 2) / 153 ∧ (5 * yearDay + 2) / 153 < 12 ∧
      marchStart ((5 * yearDay + 2) / 153) ≤ yearDay ∧
      yearDay < marchStart ((5 * yearDay + 2) / 153) + 31 := by
  simp only [marchStart]
  omega

/-! ## Dates -/

/-- What makes a leap year, stated of numbers instead of their comparisons as Booleans. -/
theorem leap_iff (year : Int) :
    isLeap year = true ↔ year % 4 = 0 ∧ (year % 100 ≠ 0 ∨ year % 400 = 0) := by
  simp [isLeap]

/-- The first of March of a year, counted from 1970, is the day on which the year of the era
begins. -/
theorem first_of_march (year : Int) : epochDay year 2 1 = yearStart year - 719468 := by
  have january : monthStart year 2 = 59 + if isLeap year = true then 1 else 0 := by
    simp [monthStart]
  rw [epochDay, january, yearStart]
  simp only [leap_iff]
  split
  · omega
  · omega

/-- The first of January of the next year comes 306 days behind the first of March. -/
theorem first_of_january (year : Int) :
    epochDay (year + 1) 0 1 = yearStart year + 306 - 719468 := by
  have january : monthStart (year + 1) 0 = 0 := by simp [monthStart]
  rw [epochDay, january, yearStart]
  omega

/-- The lengths of the months from March to December do not depend on the year, so both tables
agree from March on. -/
theorem month_from_march (year : Int) {month : Int} (march : 0 ≤ month) (december : month < 10) :
    monthStart year (month + 2) = monthStart year 2 + marchStart month := by
  have later : 2 ≤ month + 2 := by omega
  simp only [monthStart, later, Int.le_refl, and_true, add_right_comm _ (ite _ _ _)]
  congr 1
  interval_cases month
  all_goals rfl

/-- January and February belong to the year of the era that began in March of the year before,
which is why their table is moved. -/
theorem month_to_february (year : Int) {month : Int} (january : 10 ≤ month)
    (february : month < 12) :
    monthStart year (month - 10) = monthStart year 0 + marchStart month - 306 := by
  have early : ¬ 2 ≤ month - 10 := by omega
  interval_cases month
  all_goals simp [monthStart, marchStart]

/-- The table of the months counts a day as the months from March do. -/
theorem march_day (year : Int) {month : Int} (day : Int) (march : 0 ≤ month)
    (february : month < 12) :
    epochDay (year + if month < 10 then 0 else 1)
        (if month < 10 then month + 2 else month - 10) (day + 1) =
      yearStart year + marchStart month + day - 719468 := by
  by_cases december : month < 10
  · have first := first_of_march year
    simp only [if_pos december, Int.add_zero, epochDay] at first ⊢
    rw [month_from_march year march december]
    omega
  · have first := first_of_january year
    simp only [if_neg december, epochDay] at first ⊢
    rw [month_to_february _ (Int.not_lt.mp december) february]
    omega

end Dragonfly.Calendar
