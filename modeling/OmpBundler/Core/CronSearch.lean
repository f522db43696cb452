import OmpBundler.Core.CronClock
import OmpBundler.Library.Search

/-!
What the search for the next instant finds.

On a day after the year 99 the wall clocks of the calendar and the minutes
of local time are the same thing, so the search goes through the minutes
of local time in their order, from the clock of the given instant on to the
end of the 366th day, and takes the first one that matches and is turned
into a later instant. Before the year 100 it goes through days of another
year.
-/

namespace OmpBundler.Core

open Library.Gregorian Library.Search

namespace Cron

/-- Each field is a list of values of the field, in order. -/
structure Proper (schedule : CronSchedule) : Prop where
  minute : schedule.minute.Pairwise (· < ·) ∧ ∀ v ∈ schedule.minute, v < 60
  hour : schedule.hour.Pairwise (· < ·) ∧ ∀ v ∈ schedule.hour, v < 24
  dayOfMonth : schedule.dayOfMonth.Pairwise (· < ·) ∧ ∀ v ∈ schedule.dayOfMonth, 1 ≤ v ∧ v ≤ 31
  dayOfWeek : schedule.dayOfWeek.Pairwise (· < ·) ∧ ∀ v ∈ schedule.dayOfWeek, v < 7

/-! ### Schedules that are parsed -/

/-- The values that are taken for a field are values of the field. -/
theorem bounds_of_parseField {d : FieldDef} {raw : List Char} {values : List ℕ}
    (field : d ∈ fieldDefs) (parsed : parseField raw d = .ok values) :
    values.Pairwise (· < ·) ∧ ∀ v ∈ values, d.min ≤ v ∧ v ≤ d.max ∧ (d.max = 7 → v < 7) := by
  obtain ⟨sorted, parts, lists, taken⟩ := parseField_eq_ok parsed
  refine ⟨sorted, fun v mem => ?_⟩
  obtain ⟨p, listed, w, inside, rfl⟩ := (taken v).mp mem
  obtain ⟨least, ⟨startMin, startMax⟩, stopMin, stopMax⟩ := lists.2 p listed
  have bounds : d.min ≤ w ∧ w ≤ d.max := by
    by_cases ordered : p.span.start d ≤ p.span.stop d
    · obtain ⟨k, le, rfl⟩ := (mem_spanValues_of_le ordered).mp inside
      omega
    · obtain ⟨k, ⟨le, rfl⟩ | ⟨behind, before, rfl⟩⟩ :=
        (mem_spanValues_of_lt (Nat.lt_of_not_le ordered)).mp inside
      · omega
      · omega
  rw [FieldDef.norm]
  split_ifs with sunday
  · obtain rfl := eq_dayOfWeekField field sunday.1
    exact ⟨Nat.zero_le _, Nat.zero_le _, fun _ => by omega⟩
  · exact ⟨bounds.1, bounds.2, fun seven => by omega⟩

theorem proper_of_parse {expr : String} {schedule : CronSchedule}
    (parsed : parseCronExpression expr = .ok schedule) : Proper schedule := by
  unfold parseCronExpression at parsed
  dsimp only at parsed
  split_ifs at parsed
  split at parsed
  · simp only [Library.Fallible.bind_eq_ok] at parsed
    obtain ⟨minute, minutes, hour, hours, day, days, month, months, week, weeks, built⟩ := parsed
    obtain rfl := Except.ok.inj built
    obtain ⟨sorted, inside⟩ := bounds_of_parseField (by decide) minutes
    obtain ⟨sorted', inside'⟩ := bounds_of_parseField (by decide) hours
    obtain ⟨sortedDay, insideDay⟩ := bounds_of_parseField (by decide) days
    obtain ⟨sortedWeek, insideWeek⟩ := bounds_of_parseField (by decide) weeks
    exact ⟨⟨sorted, fun v mem => Nat.lt_succ_of_le (inside v mem).2.1⟩,
      ⟨sorted', fun v mem => Nat.lt_succ_of_le (inside' v mem).2.1⟩,
      ⟨sortedDay, fun v mem => ⟨(insideDay v mem).1, (insideDay v mem).2.1⟩⟩,
      ⟨sortedWeek, fun v mem => (insideWeek v mem).2.2 rfl⟩⟩
  · cases parsed

/-! ### Restricted fields -/

/-- A field lists all its values if and only if it has as many. -/
theorem length_eq_iff {values : List ℕ} {first count : ℕ} (sorted : values.Pairwise (· < ·))
    (inside : ∀ v ∈ values, first ≤ v ∧ v < first + count) :
    values.length = count ↔ ¬ Restricted values (List.range' first count) := by
  have distinct : values.Nodup := sorted.imp fun lt => Nat.ne_of_lt lt
  have sub : values ⊆ List.range' first count := fun v mem =>
    List.mem_range'_1.mpr (inside v mem)
  have subperm := List.subperm_of_subset distinct sub
  simp only [Restricted, not_exists, not_and, not_not]
  constructor
  · intro full v mem
    have perm := subperm.perm_of_length_le (by rw [List.length_range', full])
    exact perm.mem_iff.mpr mem
  · intro all
    have back := List.subperm_of_subset (List.nodup_range' 1) all
    have := subperm.length_le
    have := back.length_le
    rw [List.length_range'] at *
    omega

variable {schedule : CronSchedule} {tz : Timezone} {after : ℤ}

/-- The rule for the days as it is coded, and as it is meant. -/
theorem dayMatches_iff (proper : Proper schedule) {month day weekday : ℕ}
    (inMonth : 1 ≤ day ∧ day ≤ 31) (inWeek : weekday < 7) :
    dayMatches schedule month day weekday = true ↔ month + 1 ∈ schedule.month ∧
      (if Restricted schedule.dayOfMonth (List.range' 1 31) ∧
          Restricted schedule.dayOfWeek (List.range 7)
        then day ∈ schedule.dayOfMonth ∨ weekday ∈ schedule.dayOfWeek
        else day ∈ schedule.dayOfMonth ∧ weekday ∈ schedule.dayOfWeek) := by
  have dom : schedule.dayOfMonth.length = 31 ↔
      ¬ Restricted schedule.dayOfMonth (List.range' 1 31) :=
    length_eq_iff proper.dayOfMonth.1 fun v mem => by
      have := proper.dayOfMonth.2 v mem
      omega
  have dow : schedule.dayOfWeek.length = 7 ↔ ¬ Restricted schedule.dayOfWeek (List.range 7) := by
    rw [List.range_eq_range']
    exact length_eq_iff proper.dayOfWeek.1 fun v mem => by
      have := proper.dayOfWeek.2 v mem
      omega
  have every {values all : List ℕ} {v : ℕ} (free : ¬ Restricted values all) (mem : v ∈ all) :
      v ∈ values := by
    by_contra absent
    exact free ⟨v, mem, absent⟩
  rw [dayMatches, Bool.and_eq_true, decide_eq_true_iff, and_comm]
  refine and_congr_right fun _ => ?_
  have both : (Restricted schedule.dayOfMonth (List.range' 1 31) ∧
      Restricted schedule.dayOfWeek (List.range 7)) ↔
      ¬ schedule.dayOfMonth.length = 31 ∧ ¬ schedule.dayOfWeek.length = 7 := by
    rw [dom, dow, not_not, not_not]
  simp only [both]
  by_cases byDay : schedule.dayOfMonth.length = 31
  · have allDays := every (dom.mp byDay) (List.mem_range'_1.mpr ⟨inMonth.1, by omega⟩)
    by_cases byWeekday : schedule.dayOfWeek.length = 7
    · have allWeekdays := every (dow.mp byWeekday) (List.mem_range.mpr inWeek)
      simp [byDay, byWeekday, allDays, allWeekdays]
    · simp [byDay, byWeekday, allDays]
  · by_cases byWeekday : schedule.dayOfWeek.length = 7
    · have allWeekdays := every (dow.mp byWeekday) (List.mem_range.mpr inWeek)
      simp [byDay, byWeekday, allWeekdays]
    · simp [byDay, byWeekday]

/-! ### Wall clocks -/

/-- The instant that a minute of local time is turned into, if one of the two
tries hits the minute. -/
def epochOf (tz : Timezone) (minutes : ℤ) : Option ℤ :=
  let guess := minutes * 60000
  let cand := guess - offsetMs tz guess
  if localMinute tz cand = minutes then some cand
  else
    let cand := guess - offsetMs tz cand
    if localMinute tz cand = minutes then some cand else none

/-- What the second try is turned into lies within two days of the guess. -/
theorem localMinute_try (tz : Timezone) (minutes epochMs : ℤ) :
    minutes - 2880 < localMinute tz (minutes * 60000 - offsetMs tz epochMs) ∧
      localMinute tz (minutes * 60000 - offsetMs tz epochMs) < minutes + 2880 := by
  have := tz.lessThanADay epochMs
  have := tz.lessThanADay (minutes * 60000 - offsetMs tz epochMs)
  rw [localMinute, offsetMs, offsetMs] at *
  omega

/-- After the year 99 the year is shown as it is, and taken for itself. -/
theorem shownYear_of_le {year : ℤ} (late : 1 ≤ year) : shownYear year = year := if_pos late

theorem fullYear_of_le {year : ℤ} (late : 100 ≤ year) : fullYear year = year :=
  if_neg fun early => by omega

/-- The wall clock of a minute on a day after the year 99 is that of no other
minute nearby. -/
theorem wallClock_eq_iff {n minutes : ℤ} {hour minute : ℕ} (late : 100 ≤ yearFromDay n)
    (hours : hour < 24) (minutes_lt : minute < 60)
    (near : n * 1440 - 2880 < minutes ∧ minutes < n * 1440 + 1440 + 2880) :
    wallClock minutes = ⟨(civil n).year, (civil n).month, (civil n).day, hour, minute⟩ ↔
      minutes = n * 1440 + hour * 60 + minute := by
  have first : dayFromYear 100 ≤ n := dayFromYear_le_iff.mpr late
  have shown : shownYear (yearFromDay (minutes / 1440)) = yearFromDay (minutes / 1440) := by
    refine shownYear_of_le (dayFromYear_le_iff.mp ?_)
    have := dayFromYear_mono (show (1 : ℤ) ≤ 100 by decide)
    omega
  constructor
  · intro same
    obtain ⟨year, month, day, hour_eq, minute_eq⟩ := WallClock.mk.inj same
    rw [civil_year, shown] at year
    have date : civil (minutes / 1440) = civil n := Date.ext year month day
    have := civil_injective date
    omega
  · rintro rfl
    have day : (n * 1440 + hour * 60 + minute) / 1440 = n := by omega
    rw [wallClock, day]
    have hour_eq : ((n * 1440 + hour * 60 + minute) % 1440 / 60).toNat = hour := by omega
    have minute_eq : ((n * 1440 + hour * 60 + minute) % 60).toNat = minute := by omega
    rw [hour_eq, minute_eq, civil_year, shownYear_of_le (by omega)]

/-- On a day after the year 99 a wall clock is turned into an instant as its
minute of local time is. -/
theorem wallToEpoch_civil {n : ℤ} {hour minute : ℕ} (late : 100 ≤ yearFromDay n)
    (hours : hour < 24) (minutes_lt : minute < 60) :
    wallToEpoch tz (civil n).year (civil n).month (civil n).day hour minute =
      epochOf tz (n * 1440 + hour * 60 + minute) := by
  have guess : dateUTC (civil n).year (civil n).month (civil n).day hour minute =
      (n * 1440 + hour * 60 + minute) * 60000 := by
    rw [dateUTC, fullYear_of_le (show 100 ≤ (civil n).year from late), dayNumber_civil]
  have hit (epochMs : ℤ) : wallEquals tz
      ((n * 1440 + hour * 60 + minute) * 60000 - offsetMs tz epochMs) (civil n).year
        (civil n).month (civil n).day hour minute = true ↔
      localMinute tz ((n * 1440 + hour * 60 + minute) * 60000 - offsetMs tz epochMs) =
        n * 1440 + hour * 60 + minute := by
    have near := localMinute_try tz (n * 1440 + hour * 60 + minute) epochMs
    rw [wallEquals, decide_eq_true_iff, formatToParts]
    exact wallClock_eq_iff late hours minutes_lt ⟨by omega, by omega⟩
  rw [wallToEpoch, epochOf, guess]
  simp only [hit]

/-! ### One day -/

/-- A matching minute of a day that is turned into an instant after the given
one. On the first day only the minutes behind the clock of the start count. -/
structure Found (schedule : CronSchedule) (tz : Timezone) (after : ℤ) (n : ℤ)
    (start : Option WallClock) (minutes epochMs : ℤ) : Prop where
  day : minutes / 1440 = n
  behind : ∀ clock ∈ start, (clock.hour * 60 + clock.minute : ℤ) < minutes % 1440
  matching : MinuteMatches schedule minutes
  epoch : epochOf tz minutes = some epochMs
  later : after < epochMs

/-- The minutes that are tried on a day come in their order. -/
theorem tryDay_isFirst (proper : Proper schedule) {n : ℤ} {start : Option WallClock}
    (late : 100 ≤ yearFromDay n) (clocks : ∀ clock ∈ start, clock.minute < 60) :
    IsFirst (fun minutes epochMs => ∃ hour ∈ schedule.hour, ∃ minute ∈ schedule.minute,
        minutes = n * 1440 + hour * 60 + minute ∧
        (∀ clock ∈ start, clock.hour * 60 + clock.minute < hour * 60 + minute) ∧
        epochOf tz minutes = some epochMs ∧ after < epochMs)
      (tryDay schedule tz after start (civil n)) := by
  refine IsFirst.findSome? (fun hour hourMem => IsFirst.findSome? (fun minute minuteMem => ?_) ?_) ?_
  · have hours := proper.hour.2 hour hourMem
    have minutes := proper.minute.2 minute minuteMem
    have early : (start.any fun clock =>
        hour < clock.hour ∨ hour = clock.hour ∧ minute ≤ clock.minute) = true ↔
        ¬ ∀ clock ∈ start, clock.hour * 60 + clock.minute < hour * 60 + minute := by
      cases start with
      | none => simp
      | some clock =>
        have := clocks clock rfl
        simp only [Option.any_some, decide_eq_true_eq, Option.mem_def, Option.some.injEq,
          forall_eq']
        omega
    rw [wallToEpoch_civil late hours minutes]
    by_cases behind : ∀ clock ∈ start, clock.hour * 60 + clock.minute < hour * 60 + minute
    · rw [if_neg fun also => early.mp also behind]
      refine (IsFirst.single (n * 1440 + hour * 60 + minute) _).congr fun k u => ?_
      rw [Option.filter_eq_some_iff, decide_eq_true_iff]
      constructor
      · rintro ⟨rfl, epoch, later⟩
        exact ⟨rfl, behind, epoch, later⟩
      · rintro ⟨rfl, -, epoch, later⟩
        exact ⟨rfl, epoch, later⟩
    · rw [if_pos (early.mpr behind)]
      exact fun k u found => behind found.2.1
  · refine proper.minute.1.imp fun lt k u k' u' found found' => ?_
    rw [found.1, found'.1]
    omega
  · refine List.Pairwise.imp_of_mem (fun {hour hour'} mem mem' lt k u k' u' => ?_) proper.hour.1
    rintro ⟨minute, minuteMem, found⟩ ⟨minute', minuteMem', found'⟩
    have := proper.minute.2 minute minuteMem
    rw [found.1, found'.1]
    omega

theorem day_isFirst (proper : Proper schedule) {n : ℤ} {start : Option WallClock}
    (late : 100 ≤ yearFromDay n) (clocks : ∀ clock ∈ start, clock.minute < 60) :
    IsFirst (Found schedule tz after n start)
      (if dayMatches schedule (civil n).month (civil n).day (weekday n) then
        tryDay schedule tz after start (civil n) else none) := by
  have inMonth : 1 ≤ (civil n).day ∧ (civil n).day ≤ 31 := ⟨one_le_civil_day n, civil_day_le n⟩
  have days {month : ℕ} := @dayMatches_iff schedule proper month _ _ inMonth (weekday_lt n)
  by_cases matching : dayMatches schedule (civil n).month (civil n).day (weekday n) = true
  · rw [if_pos matching]
    refine (tryDay_isFirst proper late clocks).congr fun minutes epochMs => ?_
    constructor
    · rintro ⟨hour, hourMem, minute, minuteMem, rfl, behind, epoch, later⟩
      have hours := proper.hour.2 hour hourMem
      have minutes := proper.minute.2 minute minuteMem
      have day : (n * 1440 + hour * 60 + minute : ℤ) / 1440 = n := by omega
      refine ⟨day, fun clock mem => ?_, ?_, epoch, later⟩
      · have := behind clock mem
        omega
      · have minute_eq : ((n * 1440 + hour * 60 + minute : ℤ) % 60).toNat = minute := by omega
        have hour_eq : ((n * 1440 + hour * 60 + minute : ℤ) % 1440 / 60).toNat = hour := by omega
        rw [MinuteMatches, day, minute_eq, hour_eq]
        exact ⟨minuteMem, hourMem, days.mp matching⟩
    · rintro ⟨rfl, behind, ⟨minuteMem, hourMem, -⟩, epoch, later⟩
      refine ⟨_, hourMem, _, minuteMem, by omega, fun clock mem => ?_, epoch, later⟩
      have := behind clock mem
      omega
  · rw [if_neg matching]
    rintro minutes epochMs ⟨rfl, -, ⟨-, -, date⟩, -, -⟩
    exact matching (days.mpr date)

theorem nextDay_civil {n : ℤ} (late : 100 ≤ yearFromDay n) : nextDay (civil n) = civil (n + 1) := by
  rw [nextDay, fullYear_of_le (show 100 ≤ (civil n).year from late), dayNumber_succ, dayNumber_civil]

theorem yearFromDay_succ_le {n : ℤ} (late : 100 ≤ yearFromDay n) : 100 ≤ yearFromDay (n + 1) := by
  have := dayFromYear_le_iff.mpr late
  exact dayFromYear_le_iff.mp (by omega)

/-- The loop over days after the year 99. -/
theorem scanDays_isFirst (proper : Proper schedule) (count : ℕ) {n : ℤ}
    (late : 100 ≤ yearFromDay n) :
    IsFirst (fun minutes epochMs => n * 1440 ≤ minutes ∧ minutes < (n + count) * 1440 ∧
        MinuteMatches schedule minutes ∧ epochOf tz minutes = some epochMs ∧ after < epochMs)
      (scanDays schedule tz after count none (civil n) (weekday n)) := by
  induction count generalizing n with
  | zero =>
    rintro minutes epochMs ⟨first, last, -⟩
    push_cast at last
    omega
  | succ count ih =>
    rw [scanDays, nextDay_civil late, ← weekday_succ]
    have first : IsFirst (Found schedule tz after n none) _ := day_isFirst proper late (by simp)
    refine (first.or (ih (yearFromDay_succ_le late)) ?_).congr fun minutes epochMs => ?_
    · intro minutes epochMs minutes' epochMs' found found'
      have := found.day
      omega
    · push_cast
      constructor
      · rintro (found | ⟨begin_, last, rest⟩)
        · have := found.day
          exact ⟨by omega, by omega, found.matching, found.epoch, found.later⟩
        · exact ⟨by omega, by omega, rest⟩
      · rintro ⟨begin_, last, matching, epoch, later⟩
        by_cases today : minutes / 1440 = n
        · exact .inl ⟨today, by simp, matching, epoch, later⟩
        · exact .inr ⟨by omega, by omega, matching, epoch, later⟩

/-! ### The whole search -/

/-- The date that the start of the search shows. -/
def startDate (tz : Timezone) (after : ℤ) : Date :=
  ⟨(formatToParts tz after).year, (formatToParts tz after).month, (formatToParts tz after).day⟩

/-- The day that `Date.UTC` takes this date for. -/
def startDay (tz : Timezone) (after : ℤ) : ℤ :=
  dayNumber (fullYear (startDate tz after).year) (startDate tz after).month (startDate tz after).day

/-- The minutes of local time that the search goes through: those of 366 days,
on the first of them only the ones behind the clock. -/
def Searched (tz : Timezone) (after minutes : ℤ) : Prop :=
  startDay tz after * 1440 ≤ minutes ∧ minutes < (startDay tz after + 366) * 1440 ∧
    (minutes / 1440 = startDay tz after → civil (startDay tz after) = startDate tz after ∧
      localMinute tz after % 1440 < minutes % 1440)

/-- The search looks at the minute, it matches, and it is turned into a later
instant. -/
structure Candidate (schedule : CronSchedule) (tz : Timezone) (after minutes epochMs : ℤ) : Prop where
  searched : Searched tz after minutes
  matching : MinuteMatches schedule minutes
  epoch : epochOf tz minutes = some epochMs
  later : after < epochMs

theorem one_le_shownYear (year : ℤ) : 1 ≤ shownYear year := by
  unfold shownYear
  split_ifs <;> omega

/-- The search goes through days after the year 99. -/
theorem dayFromYear_le_startDay (tz : Timezone) (after : ℤ) :
    dayFromYear (fullYear (startDate tz after).year) ≤ startDay tz after := by
  have day : 1 ≤ (startDate tz after).day := one_le_civil_day _
  unfold startDay dayNumber
  omega

theorem le_fullYear {year : ℤ} (positive : 1 ≤ year) : 100 ≤ fullYear year := by
  unfold fullYear
  split_ifs <;> omega

theorem startDay_late (tz : Timezone) (after : ℤ) : 100 ≤ yearFromDay (startDay tz after) := by
  have := dayFromYear_le_iff.mp (dayFromYear_le_startDay tz after)
  have := le_fullYear (one_le_shownYear (civil (localMinute tz after / 1440)).year)
  exact le_trans this ‹_›

/-- A date that is not that of the first day has no instants there. -/
theorem wallToEpoch_startDate (other : civil (startDay tz after) ≠ startDate tz after) {hour minute : ℕ}
    (hours : hour < 24) (minutes : minute < 60) :
    wallToEpoch tz (startDate tz after).year (startDate tz after).month (startDate tz after).day
      hour minute = none := by
  have late := dayFromYear_le_iff.mpr (startDay_late tz after)
  have guess : dateUTC (startDate tz after).year (startDate tz after).month (startDate tz after).day
      hour minute = (startDay tz after * 1440 + hour * 60 + minute) * 60000 := rfl
  have missed (epochMs : ℤ) : ¬ wallEquals tz
      ((startDay tz after * 1440 + hour * 60 + minute) * 60000 - offsetMs tz epochMs)
      (startDate tz after).year (startDate tz after).month (startDate tz after).day hour minute := by
    have near := localMinute_try tz (startDay tz after * 1440 + hour * 60 + minute) epochMs
    rw [wallEquals, decide_eq_true_iff, formatToParts]
    generalize localMinute tz ((startDay tz after * 1440 + hour * 60 + minute) * 60000 -
      offsetMs tz epochMs) = k at near ⊢
    intro same
    obtain ⟨year, month, day, -, -⟩ := WallClock.mk.inj same
    -- the instant lies in the year that is shown
    have first : dayFromYear 1 ≤ k / 1440 := by
      have := dayFromYear_mono (show (1 : ℤ) ≤ 100 by decide)
      omega
    rw [civil_year, shownYear_of_le (dayFromYear_le_iff.mp first)] at year
    by_cases early : (startDate tz after).year ≤ 99
    · -- which is not the one that `Date.UTC` takes it for
      have positive : 1 ≤ (startDate tz after).year := one_le_shownYear _
      have taken : fullYear (startDate tz after).year = 1900 + (startDate tz after).year :=
        if_pos ⟨by omega, early⟩
      have begin_ := dayFromYear_le_startDay tz after
      rw [taken] at begin_
      have := dayFromYear_mono (show (1900 : ℤ) ≤ 1900 + (startDate tz after).year by omega)
      have : 1900 ≤ yearFromDay (k / 1440) := dayFromYear_le_iff.mp (by omega)
      omega
    · have whole : dayNumber (civil (k / 1440)).year (civil (k / 1440)).month
          (civil (k / 1440)).day = startDay tz after := by
        rw [startDay, fullYear_of_le (by omega), civil_year, year, month, day]
      rw [dayNumber_civil] at whole
      exact other (Date.ext (by rw [← whole]; exact year) (by rw [← whole]; exact month)
        (by rw [← whole]; exact day))
  rw [wallToEpoch, guess]
  simp only [missed]
  rfl

/-- The first day of the search. -/
theorem firstDay_isFirst (proper : Proper schedule) :
    IsFirst (fun minutes epochMs => minutes / 1440 = startDay tz after ∧
        Candidate schedule tz after minutes epochMs)
      (if dayMatches schedule (startDate tz after).month (startDate tz after).day
          (weekday (startDay tz after)) then
        tryDay schedule tz after (some (formatToParts tz after)) (startDate tz after) else none) := by
  have clock_lt : ∀ clock ∈ some (formatToParts tz after), clock.minute < 60 := by
    rintro clock mem
    obtain rfl := Option.some.inj mem
    show (localMinute tz after % 60).toNat < 60
    omega
  by_cases here : civil (startDay tz after) = startDate tz after
  · rw [← here]
    refine (day_isFirst proper (startDay_late tz after) clock_lt).congr fun minutes epochMs => ?_
    have clock : ((formatToParts tz after).hour * 60 + (formatToParts tz after).minute : ℤ) =
        localMinute tz after % 1440 := by
      show (((localMinute tz after % 1440 / 60).toNat : ℤ) * 60 +
        (localMinute tz after % 60).toNat : ℤ) = _
      omega
    constructor
    · rintro ⟨day, behind, matching, epoch, later⟩
      have behind := behind _ rfl
      rw [clock] at behind
      exact ⟨day, ⟨by omega, by omega, fun _ => ⟨here, behind⟩⟩, matching, epoch, later⟩
    · rintro ⟨day, ⟨-, -, behind⟩, matching, epoch, later⟩
      refine ⟨day, fun start mem => ?_, matching, epoch, later⟩
      obtain rfl := Option.some.inj mem
      rw [clock]
      exact (behind day).2
  · have nothing : tryDay schedule tz after (some (formatToParts tz after)) (startDate tz after) =
        none := by
      refine List.findSome?_eq_none_iff.mpr fun hour hourMem =>
        List.findSome?_eq_none_iff.mpr fun minute minuteMem => ?_
      rw [wallToEpoch_startDate here (proper.hour.2 hour hourMem) (proper.minute.2 minute minuteMem)]
      split_ifs <;> rfl
    rw [nothing, ite_self]
    rintro minutes epochMs ⟨day, candidate⟩
    exact here (candidate.searched.2.2 day).1

/-- The search takes the first candidate. -/
theorem nextRunAfter_isFirst (proper : Proper schedule) :
    IsFirst (Candidate schedule tz after) (nextRunAfter schedule after tz).toOption := by
  have found : (nextRunAfter schedule after tz).toOption = scanDays schedule tz after maxDays
      (some (formatToParts tz after)) (startDate tz after) (weekday (startDay tz after)) := by
    unfold nextRunAfter
    dsimp only
    split
    · next epochMs scanned => exact scanned.symm
    · next scanned => exact scanned.symm
  have late := startDay_late tz after
  have next : nextDay (startDate tz after) = civil (startDay tz after + 1) := by
    rw [nextDay, dayNumber_succ]
    rfl
  rw [found, show maxDays = 365 + 1 from rfl, scanDays, next, ← weekday_succ]
  refine ((firstDay_isFirst proper).or
    (scanDays_isFirst proper 365 (yearFromDay_succ_le late)) ?_).congr fun minutes epochMs => ?_
  · rintro minutes epochMs minutes' epochMs' ⟨day, -⟩ ⟨first, -⟩
    omega
  · constructor
    · rintro (⟨-, candidate⟩ | ⟨first, last, matching, epoch, later⟩)
      · exact candidate
      · push_cast at last
        exact ⟨⟨by omega, by omega, fun day => by omega⟩, matching, epoch, later⟩
    · intro candidate
      obtain ⟨first, last, behind⟩ := candidate.searched
      by_cases day : minutes / 1440 = startDay tz after
      · exact .inl ⟨day, candidate⟩
      · push_cast
        exact .inr ⟨by omega, by omega, candidate.matching, candidate.epoch, candidate.later⟩

end Cron

end OmpBundler.Core
