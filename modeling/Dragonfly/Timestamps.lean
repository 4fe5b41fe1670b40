import Dragonfly.Calendar
import Dragonfly.Events
import Dragonfly.FieldFormat
import Dragonfly.FileOutput

/-!
# The timestamps of the engine

`lua_timer_thread` writes a time as UTC, and `dragonfly_date2epoch` reads such a text, but has
`mktime` take it for a local time, with the daylight saving flag that was in memory. What it
returns is off by the offset of the time zone that `mktime` presumes.

A time zone is a parameter, and so is the offset that is presumed where daylight saving is asked
for in a zone without it. The calendar is the one of POSIX, without leap seconds.
-/

namespace Dragonfly.Timestamps

open Calendar Config Events FieldFormat FileOutput

/-- A `struct tm` as far as `mktime` reads it: the date and the time of day, and the flag for
daylight saving. -/
structure BrokenDown where
  date : Tm
  isdst : Int

/-! ## Text -/

/-- The conversion `%F`: the year in four digits, the month and the day in two, with hyphens
between them. -/
def dateFormat : List (Directive BrokenDown) :=
  [.number 0 9999 4 (fun tm => tm.date.year + 1900)
      fun tm value => { tm with date := { tm.date with year := value - 1900 } },
    .literal 45,
    .number 1 12 2 (fun tm => tm.date.mon + 1)
      fun tm value => { tm with date := { tm.date with mon := value - 1 } },
    .literal 45,
    .number 1 31 2 (fun tm => tm.date.mday)
      fun tm value => { tm with date := { tm.date with mday := value } }]

/-- The conversion `%T`: hours, minutes and seconds in two digits each, with colons between
them. -/
def timeFormat : List (Directive BrokenDown) :=
  [.number 0 23 2 (fun tm => tm.date.hour)
      fun tm value => { tm with date := { tm.date with hour := value } },
    .literal 58,
    .number 0 59 2 (fun tm => tm.date.min)
      fun tm value => { tm with date := { tm.date with min := value } },
    .literal 58,
    .number 0 61 2 (fun tm => tm.date.sec)
      fun tm value => { tm with date := { tm.date with sec := value } }]

/-- The format `%FT%T`: a date and a time with the letter T between them. -/
def readFormat : List (Directive BrokenDown) := dateFormat ++ .literal 84 :: timeFormat

/-- The text `lua_timer_thread` writes for a time: `strftime` with `%FT%TZ` of `gmtime`. -/
def timestamp (now : Int) : List Byte := write (readFormat ++ [.literal 90]) ⟨utc now, 0⟩

/-- The call of `strptime` with the format `%FT%T`, which overwrites the fields that the text
has and leaves the flag. -/
def strptime (text : List Byte) (tm : BrokenDown) : BrokenDown := read readFormat text tm

example : timestamp 951782400 = bytesOf "2000-02-29T00:00:00Z" := by decide

/-! ## Local time -/

/-- The seconds between the Epoch and a time that is taken for UTC; months beyond a year count for
the years after it. -/
def timegm (tm : Tm) : Int :=
  epochDay (tm.year + 1900 + tm.mon / 12) (tm.mon % 12) tm.mday * 86400 + tm.hour * 3600 +
    tm.min * 60 + tm.sec

/-- A time zone as `mktime` knows it: for each local time the offset from UTC of standard time and
of daylight saving time, and whether daylight saving is in effect. A zone that has no daylight
saving has an offset for it all the same, because a caller may ask for it: the C library then
presumes one, such as an hour more than standard time. -/
structure Zone where
  standard : Int → Int
  daylight : Int → Int
  inEffect : Int → Bool

/-- The offset `mktime` presumes at a local time: a positive flag asks for daylight saving, zero
for standard time, and with a negative one it finds out. -/
def Zone.presumed (zone : Zone) (time isdst : Int) : Int :=
  if isdst < 0 then if zone.inEffect time then zone.daylight time else zone.standard time
  else if isdst = 0 then zone.standard time
  else zone.daylight time

/-- The function `mktime`: the instant of the date taken as UTC, less the offset the zone
presumes for it. -/
def mktime (zone : Zone) (tm : BrokenDown) : Int :=
  timegm tm.date - zone.presumed (timegm tm.date) tm.isdst

section Calls

variable {Value : Type} (lua : Lua Value)

/-- `dragonfly_date2epoch`, with what was in the memory of its `struct tm`. -/
def dragonflyDate2epoch (zone : Zone) (epoch : BrokenDown) (arguments : List Value) : Call Int :=
  match arguments with
  | [argument] =>
      match lua.toString argument with
      | none => .raised (.badArgument 1)
      | some timestamp => .returned (mktime zone (strptime timestamp epoch))
  | _ => .raised (.message "expecting exactly 1 argument")

end Calls

/-! ## The calendar -/

/-- The fields of `gmtime` are those of a day that is counted from March. -/
theorem utc_fields (now : Int) : ∃ year month day : Int,
    0 ≤ month ∧ month < 12 ∧ 0 ≤ day ∧ day < 31 ∧
      now / 86400 + 719468 = yearStart year + marchStart month + day ∧
      utc now = {
        year := year + (if month < 10 then 0 else 1) - 1900
        mon := if month < 10 then month + 2 else month - 10
        mday := day + 1
        hour := now % 86400 / 3600
        min := now % 3600 / 60
        sec := now % 60 } := by
  have begun : 0 ≤ (now / 86400 + 719468) % 146097 := by omega
  have below : (now / 86400 + 719468) % 146097 < 146097 := by omega
  obtain ⟨first, last, fromStart, toEnd⟩ := year_of_day begun below
  generalize counted : (now / 86400 + 719468) % 146097 = eraDay at *
  generalize plain : plainDays eraDay / 365 = year at *
  have leap : yearStart year = 365 * year + year / 4 - year / 100 := by
    simp only [yearStart]
    omega
  have length := year_length year
  generalize placed : eraDay - yearStart year = yearDay at *
  obtain ⟨march, february, ownStart, ownEnd⟩ :=
    @month_of_day yearDay (by omega) (by omega)
  refine ⟨year + (now / 86400 + 719468) / 146097 * 400, (5 * yearDay + 2) / 153,
    yearDay - marchStart ((5 * yearDay + 2) / 153), march, february, by omega, by omega, ?_, ?_⟩
  · rw [year_start_era]
    omega
  · simp only [plainDays] at plain
    simp only [utc, counted, plain, ← leap, placed, marchStart]

/-- `timegm` takes the fields of `gmtime` back to the time. -/
theorem timegm_utc (now : Int) : timegm (utc now) = now := by
  obtain ⟨year, month, day, march, february, -, -, counted, fields⟩ := utc_fields now
  have days := march_day year day march february
  have small : 0 ≤ (if month < 10 then month + 2 else month - 10) ∧
      (if month < 10 then month + 2 else month - 10) < 12 := by
    split <;> omega
  rw [fields]
  simp only [timegm, Int.ediv_eq_zero_of_lt small.1 small.2, Int.emod_eq_of_lt small.1 small.2,
    Int.sub_add_cancel, Int.add_zero, days]
  omega

/-- From 1970 to the year 9999 the year of an instant has four digits, as the format needs them. -/
theorem utc_year {now : Int} (begins : 0 ≤ now) (ends : now < 253402300800) :
    0 ≤ (utc now).year + 1900 ∧ (utc now).year + 1900 ≤ 9999 := by
  obtain ⟨year, month, day, march, february, first, last, counted, fields⟩ := utc_fields now
  simp only [yearStart, marchStart] at counted
  rw [fields]
  simp only [Int.sub_add_cancel]
  constructor
  · split
    · omega
    · omega
  · split
    · omega
    · omega

/-- The fields of an instant but its year lie within the bounds of the format, whatever the
instant is. -/
theorem utc_bounds (now : Int) :
    (1 ≤ (utc now).mon + 1 ∧ (utc now).mon + 1 ≤ 12) ∧
      (1 ≤ (utc now).mday ∧ (utc now).mday ≤ 31) ∧
      (0 ≤ (utc now).hour ∧ (utc now).hour ≤ 23) ∧
      (0 ≤ (utc now).min ∧ (utc now).min ≤ 59) ∧ (0 ≤ (utc now).sec ∧ (utc now).sec ≤ 61) := by
  obtain ⟨year, month, day, march, february, first, last, counted, fields⟩ := utc_fields now
  rw [fields]
  dsimp only
  refine ⟨?_, by omega, by omega, by omega, by omega⟩
  split
  · omega
  · omega

/-- All fields of an instant from 1970 to 9999 fit the format of a timestamp. -/
theorem utc_fits {now : Int} (begins : 0 ≤ now) (ends : now < 253402300800) (isdst : Int) :
    Fits readFormat ⟨utc now, isdst⟩ := by
  obtain ⟨leastYear, mostYear⟩ := utc_year begins ends
  obtain ⟨⟨leastMon, mostMon⟩, ⟨leastDay, mostDay⟩, ⟨leastHour, mostHour⟩, ⟨leastMin, mostMin⟩,
    ⟨leastSec, mostSec⟩⟩ := utc_bounds now
  exact ⟨⟨leastYear, mostYear, by decide, by decide⟩, ⟨leastMon, mostMon, by decide, by decide⟩,
    ⟨leastDay, mostDay, by decide, by decide⟩, ⟨leastHour, mostHour, by decide, by decide⟩,
    ⟨leastMin, mostMin, by decide, by decide⟩, ⟨leastSec, mostSec, by decide, by decide⟩, trivial⟩

/-- What `strptime` makes of the timestamp of an instant: the broken-down time of the instant,
with the flag that was there before. -/
theorem strptime_timestamp {now : Int} (begins : 0 ≤ now) (ends : now < 253402300800)
    (epoch : BrokenDown) : strptime (timestamp now) epoch = ⟨utc now, epoch.isdst⟩ := by
  have split : timestamp now = write readFormat ⟨utc now, 0⟩ ++ [90] := write_append ..
  rw [strptime, split, read_write (utc_fits begins ends 0)]
  simp only [carry, readFormat, dateFormat, timeFormat, List.cons_append, List.nil_append,
    Int.add_sub_cancel]

/-- `mktime` goes wrong by the offset it presumes, where the fields are not local. -/
theorem mktime_utc (zone : Zone) (time isdst : Int) :
    mktime zone ⟨utc time, isdst⟩ = time - zone.presumed time isdst := by
  rw [mktime, timegm_utc]

/-- The call returns the time of its timestamp if and only if the offset is zero that the zone of
the process has then, by the daylight saving flag that was in memory. -/
theorem epoch_returned_iff {Value : Type} (lua : Lua Value) (zone : Zone) (epoch : BrokenDown)
    (argument : Value) (now : Int) (begins : 0 ≤ now) (ends : now < 253402300800)
    (text : lua.toString argument = some (timestamp now)) :
    dragonflyDate2epoch lua zone epoch [argument] = .returned now ↔
      zone.presumed now epoch.isdst = 0 := by
  have returned : dragonflyDate2epoch lua zone epoch [argument] =
      .returned (now - zone.presumed now epoch.isdst) := by
    simp only [dragonflyDate2epoch, text, strptime_timestamp begins ends, mktime_utc]
  rw [returned, Call.returned.injEq]
  omega

/-- Lua with nothing but strings, which is all that the calls of the timestamps are given. -/
def strings : Lua (List Byte) where
  toString := some
  toInteger _ := 0
  pack _ := []
  unpack _ := none

/-- UTC as a time zone: it never has daylight saving, and where a caller asks for it all the same,
`mktime` presumes an hour. -/
def coordinated : Zone := ⟨fun _ => 0, fun _ => 3600, fun _ => false⟩

/-- In UTC, with a flag that has `mktime` find out, the timestamp of a leap day is read as the time
it was written for. -/
theorem epoch_returned_leap_day :
    dragonflyDate2epoch strings coordinated ⟨⟨99, 11, 31, 23, 59, 59⟩, -1⟩
        [timestamp 951782400] = .returned 951782400 :=
  (epoch_returned_iff strings _ _ _ 951782400 (by decide) (by decide) rfl).mpr rfl

/-- An hour east of UTC the call returns a time that is an hour early, with a flag of zero; and so it
does in UTC itself, where the flag that was in memory is positive and asks for daylight saving. -/
theorem epoch_an_hour_early :
    dragonflyDate2epoch strings ⟨fun _ => 3600, fun _ => 7200, fun _ => false⟩
        ⟨⟨0, 0, 0, 0, 0, 0⟩, 0⟩ [timestamp 951782400] = .returned (951782400 - 3600) ∧
      dragonflyDate2epoch strings coordinated ⟨⟨0, 0, 0, 0, 0, 0⟩, 1⟩
        [timestamp 951782400] = .returned (951782400 - 3600) :=
  ⟨rfl, rfl⟩

end Dragonfly.Timestamps
