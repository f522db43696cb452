import OmpBundler.Core.CronScheduler
import OmpBundler.Core.CronSearch

/-!
Whether the search finds the next instant.

Where the offset never changes, local time and instants run in step, and
the search misses what lies on the 367th day, though it may be less than
366 days away. Where the offset changes, an hour of local time may come
twice, and the search takes the minutes of local time in their order,
each for one instant only.
-/

namespace OmpBundler.Core

open Library.Gregorian Library.Search

namespace Cron

variable {schedule : CronSchedule} {tz : Timezone} {after : ℤ}

/-- A minute within the 366 days after an instant that matches. -/
structure InWindow (schedule : CronSchedule) (tz : Timezone) (after epochMs : ℤ) : Prop where
  minute : 60000 ∣ epochMs
  later : after < epochMs
  near : epochMs ≤ after + 366 * 86400000
  matching : InstantMatches schedule tz epochMs

/-- The least matching minute within 366 days is found, and an error is thrown
if there is none. -/
def NextAsDocumented (schedule : CronSchedule) (tz : Timezone) (after : ℤ) : Prop :=
  ((∃ u, InWindow schedule tz after u) → ∃ u, nextRunAfter schedule after tz = .ok u ∧
    InWindow schedule tz after u ∧ ∀ v, InWindow schedule tz after v → u ≤ v) ∧
  ((¬ ∃ u, InWindow schedule tz after u) → ∃ error, nextRunAfter schedule after tz = .error error)

/-- From the year 100 on: if a minute within 366 days matches, one on the 366
local days from that of the instant on does. Before: no minute matches within
366 days, nor on the days that the search goes through. -/
def SearchSuffices (schedule : CronSchedule) (tz : Timezone) (after : ℤ) : Prop :=
  if 100 ≤ yearFromDay (localMinute tz after / 1440) then
    (∃ u, InWindow schedule tz after u) → ∃ u, InWindow schedule tz after u ∧
      localMinute tz u < (localMinute tz after / 1440 + 366) * 1440
  else
    (¬ ∃ u, InWindow schedule tz after u) ∧
      ∀ minutes, Searched tz after minutes → ¬ MinuteMatches schedule minutes

/-! ### A constant offset -/

section Constant

variable {c : ℤ} (constant : ∀ epochMs, tz.offset epochMs = c)

include constant

theorem localMinute_constant (epochMs : ℤ) : localMinute tz epochMs = epochMs / 60000 + c := by
  rw [localMinute, offsetMs, constant]
  omega

/-- Every minute of local time is one instant. -/
theorem epochOf_constant (minutes : ℤ) : epochOf tz minutes = some ((minutes - c) * 60000) := by
  have cand : minutes * 60000 - offsetMs tz (minutes * 60000) = (minutes - c) * 60000 := by
    rw [offsetMs, constant]
    omega
  rw [epochOf, cand, if_pos]
  rw [localMinute_constant constant]
  omega

theorem inWindow_iff {epochMs : ℤ} : InWindow schedule tz after epochMs ↔
    ∃ minutes, epochMs = (minutes - c) * 60000 ∧ localMinute tz after < minutes ∧
      minutes ≤ localMinute tz after + 527040 ∧ MinuteMatches schedule minutes := by
  have start := localMinute_constant constant after
  have here := localMinute_constant constant epochMs
  constructor
  · rintro ⟨minute, later, near, matching⟩
    exact ⟨localMinute tz epochMs, by omega, by omega, by omega, matching⟩
  · rintro ⟨minutes, rfl, later, near, matching⟩
    have same : localMinute tz ((minutes - c) * 60000) = minutes := by omega
    refine ⟨⟨minutes - c, by omega⟩, by omega, by omega, ?_⟩
    rw [InstantMatches, same]
    exact matching

theorem candidate_iff {minutes epochMs : ℤ} : Candidate schedule tz after minutes epochMs ↔
    Searched tz after minutes ∧ MinuteMatches schedule minutes ∧
      epochMs = (minutes - c) * 60000 ∧ localMinute tz after < minutes := by
  have start := localMinute_constant constant after
  constructor
  · rintro ⟨searched, matching, epoch, later⟩
    rw [epochOf_constant constant] at epoch
    obtain rfl := Option.some.inj epoch
    exact ⟨searched, matching, rfl, by omega⟩
  · rintro ⟨searched, matching, rfl, later⟩
    exact ⟨searched, matching, epochOf_constant constant minutes, by omega⟩

end Constant

/-- From the year 100 on the search begins on the day of the instant. -/
theorem startDay_of_le (late : 100 ≤ yearFromDay (localMinute tz after / 1440)) :
    startDay tz after = localMinute tz after / 1440 ∧
      startDate tz after = civil (localMinute tz after / 1440) := by
  have date : startDate tz after = civil (localMinute tz after / 1440) :=
    Date.ext (shownYear_of_le (by rw [civil_year]; omega)) rfl rfl
  refine ⟨?_, date⟩
  rw [startDay, date, fullYear_of_le (show 100 ≤ (civil _).year from late), dayNumber_civil]

theorem searched_iff (late : 100 ≤ yearFromDay (localMinute tz after / 1440)) {minutes : ℤ} :
    Searched tz after minutes ↔ localMinute tz after < minutes ∧
      minutes < (localMinute tz after / 1440 + 366) * 1440 := by
  obtain ⟨day, date⟩ := startDay_of_le late
  rw [Searched, day, date]
  constructor
  · rintro ⟨first, last, behind⟩
    refine ⟨?_, last⟩
    by_cases today : minutes / 1440 = localMinute tz after / 1440
    · have := (behind today).2
      omega
    · omega
  · rintro ⟨later, last⟩
    exact ⟨by omega, last, fun today => ⟨rfl, by omega⟩⟩

/-- Before the year 100 the days of the search are years away. -/
theorem startDay_far (early : yearFromDay (localMinute tz after / 1440) < 100) :
    localMinute tz after / 1440 + 368 ≤ startDay tz after := by
  have first := dayFromYear_le_startDay tz after
  have shown : (startDate tz after).year = shownYear (yearFromDay (localMinute tz after / 1440)) :=
    rfl
  rw [shown] at first
  have next := (yearFromDay_spec (localMinute tz after / 1440)).2
  generalize yearFromDay (localMinute tz after / 1440) = year at *
  by_cases positive : 1 ≤ year
  · rw [shownYear_of_le positive, fullYear, if_pos ⟨by omega, by omega⟩] at first
    have := dayFromYear_mono (show year + 1 ≤ 1900 + year by omega)
    omega
  · rw [shownYear, if_neg positive] at first
    by_cases short : 1 - year ≤ 99
    · rw [fullYear, if_pos ⟨by omega, short⟩] at first
      have := dayFromYear_mono (show year + 1 ≤ 1900 + (1 - year) by omega)
      omega
    · rw [fullYear_of_le (by omega)] at first
      have := dayFromYear_mono (show year + 1 ≤ 1 - year by omega)
      omega

/-- What is found is the first candidate. -/
theorem candidate_of_ok (proper : Proper schedule) {u : ℤ}
    (found : nextRunAfter schedule after tz = .ok u) :
    ∃ minutes, Candidate schedule tz after minutes u ∧
      ∀ minutes' u', Candidate schedule tz after minutes' u' → minutes ≤ minutes' := by
  have first := @nextRunAfter_isFirst schedule tz after proper
  rw [found] at first
  exact first

theorem no_candidate_of_error (proper : Proper schedule) {error : String}
    (thrown : nextRunAfter schedule after tz = .error error) (minutes u : ℤ) :
    ¬ Candidate schedule tz after minutes u := by
  have first := @nextRunAfter_isFirst schedule tz after proper
  rw [thrown] at first
  exact first minutes u

section Constant

variable {c : ℤ} (proper : Proper schedule) (constant : ∀ epochMs, tz.offset epochMs = c)

include proper constant

/-- From the year 100 on. -/
theorem nextAsDocumented_late (late : 100 ≤ yearFromDay (localMinute tz after / 1440)) :
    NextAsDocumented schedule tz after ↔ ((∃ u, InWindow schedule tz after u) →
      ∃ u, InWindow schedule tz after u ∧
        localMinute tz u < (localMinute tz after / 1440 + 366) * 1440) := by
  have within {minutes u : ℤ} (candidate : Candidate schedule tz after minutes u) :
      InWindow schedule tz after u ∧ localMinute tz u = minutes ∧ u = (minutes - c) * 60000 := by
    obtain ⟨searched, matching, rfl, later⟩ := (candidate_iff constant).mp candidate
    have last := ((searched_iff late).mp searched).2
    have here := localMinute_constant constant ((minutes - c) * 60000)
    exact ⟨(inWindow_iff constant).mpr ⟨minutes, rfl, later, by omega, matching⟩, by omega, rfl⟩
  have candidate {u : ℤ} (inside : InWindow schedule tz after u)
      (before : localMinute tz u < (localMinute tz after / 1440 + 366) * 1440) :
      Candidate schedule tz after (localMinute tz u) u := by
    obtain ⟨minutes, rfl, later, near, matching⟩ := (inWindow_iff constant).mp inside
    have here := localMinute_constant constant ((minutes - c) * 60000)
    have same : localMinute tz ((minutes - c) * 60000) = minutes := by omega
    rw [same] at before ⊢
    exact (candidate_iff constant).mpr ⟨(searched_iff late).mpr ⟨later, before⟩, matching, rfl, later⟩
  constructor
  · rintro ⟨found, -⟩ exists_match
    obtain ⟨u, ok, inside, -⟩ := found exists_match
    obtain ⟨minutes, first, -⟩ := candidate_of_ok proper ok
    refine ⟨u, inside, ?_⟩
    rw [(within first).2.1]
    exact ((searched_iff late).mp first.searched).2
  · intro suffices_
    refine ⟨fun exists_match => ?_, fun no_match => ?_⟩
    · obtain ⟨v, inside, before⟩ := suffices_ exists_match
      cases result : nextRunAfter schedule after tz with
      | error error =>
        exact absurd (candidate inside before) (no_candidate_of_error proper result _ _)
      | ok u =>
        obtain ⟨minutes, first, least⟩ := candidate_of_ok proper result
        obtain ⟨own, here, -⟩ := within first
        refine ⟨u, rfl, own, fun w other => ?_⟩
        -- a minute behind the search is behind what it finds
        have upTo : minutes ≤ localMinute tz w := by
          by_cases reached : localMinute tz w < (localMinute tz after / 1440 + 366) * 1440
          · exact least _ _ (candidate other reached)
          · have := ((searched_iff late).mp first.searched).2
            omega
        obtain ⟨m, ownTime, -⟩ := (inWindow_iff constant).mp own
        obtain ⟨m', otherTime, -⟩ := (inWindow_iff constant).mp other
        rw [localMinute_constant constant] at here upTo
        omega
    · cases result : nextRunAfter schedule after tz with
      | error error => exact ⟨error, rfl⟩
      | ok u =>
        obtain ⟨minutes, first, -⟩ := candidate_of_ok proper result
        exact absurd ⟨u, (within first).1⟩ no_match

/-- Before the year 100. -/
theorem nextAsDocumented_early (early : yearFromDay (localMinute tz after / 1440) < 100) :
    NextAsDocumented schedule tz after ↔ (¬ ∃ u, InWindow schedule tz after u) ∧
      ∀ minutes, Searched tz after minutes → ¬ MinuteMatches schedule minutes := by
  have far := startDay_far early
  have outside {minutes u : ℤ} (candidate : Candidate schedule tz after minutes u) :
      ¬ InWindow schedule tz after u := by
    rintro inside
    obtain ⟨minutes', same, -, near, -⟩ := (inWindow_iff constant).mp inside
    obtain ⟨⟨first, -⟩, -, rfl, -⟩ := (candidate_iff constant).mp candidate
    omega
  have candidate {minutes : ℤ} (searched : Searched tz after minutes)
      (matching : MinuteMatches schedule minutes) :
      Candidate schedule tz after minutes ((minutes - c) * 60000) := by
    have first := searched.1
    exact (candidate_iff constant).mpr ⟨searched, matching, rfl, by omega⟩
  constructor
  · rintro ⟨found, thrown⟩
    have no_match : ¬ ∃ u, InWindow schedule tz after u := by
      intro exists_match
      obtain ⟨u, ok, inside, -⟩ := found exists_match
      obtain ⟨minutes, first, -⟩ := candidate_of_ok proper ok
      exact outside first inside
    refine ⟨no_match, fun minutes searched matching => ?_⟩
    obtain ⟨error, result⟩ := thrown no_match
    exact no_candidate_of_error proper result _ _ (candidate searched matching)
  · rintro ⟨no_match, none_searched⟩
    refine ⟨fun exists_match => absurd exists_match no_match, fun _ => ?_⟩
    cases result : nextRunAfter schedule after tz with
    | error error => exact ⟨error, rfl⟩
    | ok u =>
      obtain ⟨minutes, first, -⟩ := candidate_of_ok proper result
      exact absurd first.matching (none_searched minutes first.searched)

end Constant

/-- Where the offset never changes, the next instant is found if and only if
the days that the search goes through suffice. -/
theorem nextRunAfter_as_documented_iff (expr : String) (schedule : CronSchedule)
    (parsed : parseCronExpression expr = .ok schedule) (tz : Timezone) (c : ℤ)
    (constant : ∀ epochMs, tz.offset epochMs = c) (after : ℤ) :
    NextAsDocumented schedule tz after ↔ SearchSuffices schedule tz after := by
  rw [SearchSuffices]
  split_ifs with late
  · exact nextAsDocumented_late (proper_of_parse parsed) constant late
  · exact nextAsDocumented_early (proper_of_parse parsed) constant (by omega)

/-- The offset of UTC. -/
def utcZone : Timezone := ⟨fun _ => 0, fun _ => by decide⟩

/-- Midnight of the first of January. -/
def newYear : CronSchedule :=
  ⟨[0], [0], [1], [1], List.range 7⟩

/-- At half past midnight of 1 January 2024 the next one is less than 366 days
away, but on the 367th day. -/
theorem new_year_is_missed :
    ¬ ∀ (expr : String) (schedule : CronSchedule), parseCronExpression expr = .ok schedule →
      ∀ (tz : Timezone) (c : ℤ), (∀ epochMs, tz.offset epochMs = c) → ∀ after,
        NextAsDocumented schedule tz after := by
  intro literal
  have parsed : parseCronExpression "0 0 1 1 *" = .ok newYear := by decide +kernel
  obtain ⟨found, -⟩ := literal "0 0 1 1 *" newYear parsed utcZone 0 (fun _ => rfl) 1704069000000
  obtain ⟨u, ok, -⟩ := found ⟨1735689600000, by decide, by decide, by decide, by decide +kernel⟩
  have thrown : (nextRunAfter newYear 1704069000000 utcZone).toOption = none := by decide +kernel
  rw [ok] at thrown
  cases thrown

/-- Nine o'clock is found. -/
theorem nextRunAfter_as_documented_nine :
    NextAsDocumented ⟨[0], [9], List.range' 1 31, List.range' 1 12, List.range 7⟩ utcZone
      1786003200000 := by
  refine (nextRunAfter_as_documented_iff "0 9 * * *" _ (by decide +kernel) utcZone 0 (fun _ => rfl)
    1786003200000).mpr ?_
  rw [SearchSuffices, if_pos (by decide +kernel)]
  exact fun _ => ⟨1786006800000, ⟨by decide, by decide, by decide, by decide +kernel⟩,
    by decide +kernel⟩

/-! ### An offset that changes -/

theorem tryDay_later {start : Option WallClock} {date : Date} {u : ℤ}
    (found : tryDay schedule tz after start date = some u) : after < u := by
  obtain ⟨hour, -, found⟩ := List.exists_of_findSome?_eq_some found
  obtain ⟨minute, -, found⟩ := List.exists_of_findSome?_eq_some found
  split_ifs at found
  exact of_decide_eq_true (Option.filter_eq_some_iff.mp found).2

/-- Whatever the lists of the schedule are, the search goes forward. -/
theorem scanDays_later {count : ℕ} {start : Option WallClock} {date : Date} {weekday : ℕ} {u : ℤ}
    (found : scanDays schedule tz after count start date weekday = some u) : after < u := by
  induction count generalizing start date weekday with
  | zero => cases found
  | succ count ih =>
    rw [scanDays, Option.or_eq_some_iff] at found
    rcases found with today | ⟨-, behind⟩
    · split_ifs at today
      exact tryDay_later today
    · exact ih behind

theorem nextRunAfter_later {u : ℤ} (found : nextRunAfter schedule after tz = .ok u) : after < u := by
  unfold nextRunAfter at found
  dsimp only at found
  split at found
  · next scanned =>
    obtain rfl := Except.ok.inj found
    exact scanDays_later scanned
  · cases found

/-- The runtime of the scheduler over the zones that `Intl` knows. -/
def zoneRuntime (rt : ScheduleRuntime) (zones : String → Option Timezone) : CronRuntime where
  toScheduleRuntime := rt
  nextRunAfter schedule after timezone :=
    (zones timezone).elim (.error ("invalid timezone: \"" ++ timezone ++ "\""))
      (nextRunAfter schedule after)
  later {_ _ _ timezone} found := by
    cases known : zones timezone with
    | none =>
      rw [known] at found
      cases found
    | some tz =>
      rw [known] at found
      exact nextRunAfter_later found

end Cron

end OmpBundler.Core
