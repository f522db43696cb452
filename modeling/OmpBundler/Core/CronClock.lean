import OmpBundler.Core.CronFields
import OmpBundler.Library.Gregorian

/-!
The next instant of a cron schedule.

`nextRunAfter` walks through the days of the time zone and tries the hours
and minutes of the schedule on each. A wall clock is turned into an instant
with the offset of a first guess, and then with the offset of the instant
that this gives.

A time zone is given by its offset in minutes at each instant, which is
what the formatters of the runtime know of it; instants are milliseconds.
The formatters show the year before the first one as the first one, and
`Date.UTC` takes the years up to ninety-nine for years of the twentieth
century.
-/

namespace OmpBundler.Core

open Library.Gregorian

/-- A time zone that `Intl` knows. -/
structure Timezone where
  /-- Local time less UTC at an instant, in minutes. -/
  offset : ℤ → ℤ
  lessThanADay : ∀ epochMs, -1440 < offset epochMs ∧ offset epochMs < 1440

/-- What a formatter shows of an instant; the month from zero on. -/
structure WallClock where
  year : ℤ
  month : ℕ
  day : ℕ
  hour : ℕ
  minute : ℕ
  deriving DecidableEq, Repr

namespace Cron

/-- The year as it is shown, without its era. -/
def shownYear (year : ℤ) : ℤ := if 1 ≤ year then year else 1 - year

/-- The year that `Date.UTC` takes a number for. -/
def fullYear (year : ℤ) : ℤ := if 0 ≤ year ∧ year ≤ 99 then 1900 + year else year

/-- `Date.UTC`. -/
def dateUTC (year : ℤ) (month day hour minute : ℕ) : ℤ :=
  (dayNumber (fullYear year) month day * 1440 + hour * 60 + minute) * 60000

/-- The offset in milliseconds. -/
def offsetMs (tz : Timezone) (epochMs : ℤ) : ℤ := tz.offset epochMs * 60000

/-- The minute of local time that an instant lies in, from the first minute
of 1970 on. -/
def localMinute (tz : Timezone) (epochMs : ℤ) : ℤ := (epochMs + offsetMs tz epochMs) / 60000

/-- The wall clock of a minute of local time. -/
def wallClock (minutes : ℤ) : WallClock :=
  let date := civil (minutes / 1440)
  ⟨shownYear date.year, date.month, date.day, (minutes % 1440 / 60).toNat, (minutes % 60).toNat⟩

/-- The wall clock of an instant. -/
def formatToParts (tz : Timezone) (epochMs : ℤ) : WallClock := wallClock (localMinute tz epochMs)

/-- Whether an instant has the wall clock. -/
def wallEquals (tz : Timezone) (epochMs : ℤ) (year : ℤ) (month day hour minute : ℕ) : Bool :=
  formatToParts tz epochMs = ⟨year, month, day, hour, minute⟩

/-- An instant with the wall clock, if one of the two tries has it. -/
def wallToEpoch (tz : Timezone) (year : ℤ) (month day hour minute : ℕ) : Option ℤ :=
  let guess := dateUTC year month day hour minute
  let cand := guess - offsetMs tz guess
  if wallEquals tz cand year month day hour minute then some cand
  else
    let cand := guess - offsetMs tz cand
    if wallEquals tz cand year month day hour minute then some cand else none

/-- Days that are scanned. -/
def maxDays : ℕ := 366

/-- Whether a day matches: the day of the month or the weekday is enough if
both are restricted. -/
def dayMatches (schedule : CronSchedule) (month day weekday : ℕ) : Bool :=
  let domAll := schedule.dayOfMonth.length = 31
  let dowAll := schedule.dayOfWeek.length = 7
  (if domAll ∧ dowAll then true
    else if domAll then weekday ∈ schedule.dayOfWeek
    else if dowAll then day ∈ schedule.dayOfMonth
    else day ∈ schedule.dayOfMonth ∨ weekday ∈ schedule.dayOfWeek) &&
  month + 1 ∈ schedule.month

/-- The hours and minutes of the schedule on one day, the first one with an
instant after the given one; on the first day only those behind its clock. -/
def tryDay (schedule : CronSchedule) (tz : Timezone) (after : ℤ) (start : Option WallClock)
    (date : Date) : Option ℤ :=
  schedule.hour.findSome? fun hour => schedule.minute.findSome? fun minute =>
    if start.any fun clock => hour < clock.hour ∨ hour = clock.hour ∧ minute ≤ clock.minute then none
    else (wallToEpoch tz date.year date.month date.day hour minute).filter (after < ·)

/-- The date that follows in the calendar. -/
def nextDay (date : Date) : Date := civil (dayNumber (fullYear date.year) date.month (date.day + 1))

/-- The loop over the days. -/
def scanDays (schedule : CronSchedule) (tz : Timezone) (after : ℤ) :
    ℕ → Option WallClock → Date → ℕ → Option ℤ
  | 0, _, _, _ => none
  | n + 1, start, date, weekday =>
      (if dayMatches schedule date.month date.day weekday then tryDay schedule tz after start date
        else none).or
        (scanDays schedule tz after n none (nextDay date) ((weekday + 1) % 7))

/-- The next instant after the given one that matches. -/
def nextRunAfter (schedule : CronSchedule) (after : ℤ) (tz : Timezone) : Except String ℤ :=
  let start := formatToParts tz after
  let weekday := weekday (dayNumber (fullYear start.year) start.month start.day)
  match scanDays schedule tz after maxDays (some start) ⟨start.year, start.month, start.day⟩
      weekday with
  | some epochMs => .ok epochMs
  | none => .error "cron expression never matches within the search window"

/-! ### Instants that match -/

/-- The field leaves a value out. -/
def Restricted (values all : List ℕ) : Prop := ∃ v ∈ all, v ∉ values

instance (values all : List ℕ) : Decidable (Restricted values all) :=
  inferInstanceAs (Decidable (∃ v ∈ all, v ∉ values))

/-- The minute of local time matches: its minute, hour and month are in the
schedule, and its day. If the days of the month and the weekdays are both
restricted, one of them is enough. -/
def MinuteMatches (schedule : CronSchedule) (minutes : ℤ) : Prop :=
  let date := civil (minutes / 1440)
  let byDay := date.day ∈ schedule.dayOfMonth
  let byWeekday := weekday (minutes / 1440) ∈ schedule.dayOfWeek
  (minutes % 60).toNat ∈ schedule.minute ∧ (minutes % 1440 / 60).toNat ∈ schedule.hour ∧
    date.month + 1 ∈ schedule.month ∧
    (if Restricted schedule.dayOfMonth (List.range' 1 31) ∧
        Restricted schedule.dayOfWeek (List.range 7) then byDay ∨ byWeekday
      else byDay ∧ byWeekday)

instance (schedule : CronSchedule) (minutes : ℤ) : Decidable (MinuteMatches schedule minutes) :=
  inferInstanceAs (Decidable ((minutes % 60).toNat ∈ schedule.minute ∧
    (minutes % 1440 / 60).toNat ∈ schedule.hour ∧
    (civil (minutes / 1440)).month + 1 ∈ schedule.month ∧
    if Restricted schedule.dayOfMonth (List.range' 1 31) ∧
        Restricted schedule.dayOfWeek (List.range 7)
      then (civil (minutes / 1440)).day ∈ schedule.dayOfMonth ∨
        weekday (minutes / 1440) ∈ schedule.dayOfWeek
      else (civil (minutes / 1440)).day ∈ schedule.dayOfMonth ∧
        weekday (minutes / 1440) ∈ schedule.dayOfWeek))

/-- The wall clock of an instant matches. -/
def InstantMatches (schedule : CronSchedule) (tz : Timezone) (epochMs : ℤ) : Prop :=
  MinuteMatches schedule (localMinute tz epochMs)

instance (schedule : CronSchedule) (tz : Timezone) (epochMs : ℤ) :
    Decidable (InstantMatches schedule tz epochMs) :=
  inferInstanceAs (Decidable (MinuteMatches schedule (localMinute tz epochMs)))

end Cron

end OmpBundler.Core
