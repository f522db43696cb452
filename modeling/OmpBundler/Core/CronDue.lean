import OmpBundler.Core.CronRuns

/-!
Which instants a job is fired for.

When the search always finds the least matching instant, the two loops of
`computeDueFires` go through the matching instants between the last run and
the clock in their order. One loop takes the first ones. The other takes the
last one, but marks that it has found none by a negative number, so that it
loses an instant before 1970.
-/

namespace OmpBundler.Core

open Library.Fallible Library.Successors

namespace Cron

variable {rt : CronRuntime} {job : CronJob} {matching : ℤ → Prop} {now cursor : ℤ}

/-- The search finds the least matching instant, from everywhere. -/
def FindsNext (rt : CronRuntime) (job : CronJob) (matching : ℤ → Prop) : Prop :=
  ∀ after, ∃ fire, rt.nextRunAfter job.parsed after job.timezone = .ok fire ∧
    IsNext matching after fire

/-- The loop for jobs that skip as it is written, given up after `n` rounds. -/
def skipLoop (rt : CronRuntime) (job : CronJob) (now : ℤ) :
    ℕ → ℤ → ℤ → Option (Except String ℤ)
  | 0, _, _ => none
  | n + 1, cursor, latest =>
      match rt.nextRunAfter job.parsed cursor job.timezone with
      | .error text => some (.error text)
      | .ok fire => if now < fire then some (.ok latest) else skipLoop rt job now n fire fire

/-- The loop ends, because each instant is later than the one before. -/
theorem skipLoop_eq {n : ℕ} (latest : ℤ) (enough : (now - cursor).toNat < n) :
    skipLoop rt job now n cursor latest = some (latestDue rt job now n cursor latest) := by
  induction n generalizing cursor latest with
  | zero => omega
  | succ n ih =>
    rw [skipLoop, latestDue]
    cases found : rt.nextRunAfter job.parsed cursor job.timezone with
    | error text => rfl
    | ok fire =>
      have forward := rt.later found
      show (if now < fire then _ else _) = some (if now < fire then _ else _)
      by_cases future : now < fire
      · rw [if_pos future, if_pos future]
        rfl
      · rw [if_neg future, if_neg future]
        exact ih fire (by omega)

/-- The loop for jobs that catch up takes the first matching instants. -/
theorem firstDue_eq (finds : FindsNext rt job matching) (n : ℕ) :
    firstDue rt job now n cursor = .ok ((between matching cursor now).sort.take n) := by
  induction n generalizing cursor with
  | zero => rfl
  | succ n ih =>
    obtain ⟨fire, found, next⟩ := finds cursor
    rw [firstDue, found]
    show (if now < fire then _ else _) = _
    by_cases future : now < fire
    · rw [if_pos future, between_of_lt next future, Finset.sort_empty, List.take_nil]
      rfl
    · rw [if_neg future, sort_between next (by omega), List.take_succ_cons, ih]
      rfl

/-- The loop for jobs that skip takes the last matching instant. -/
theorem latestDue_eq (finds : FindsNext rt job matching) {n : ℕ} (latest : ℤ)
    (enough : (now - cursor).toNat < n) :
    latestDue rt job now n cursor latest =
      .ok ((between matching cursor now).sort.getLastD latest) := by
  induction n generalizing cursor latest with
  | zero => omega
  | succ n ih =>
    obtain ⟨fire, found, next⟩ := finds cursor
    rw [latestDue, found]
    show (if now < fire then _ else _) = _
    by_cases future : now < fire
    · rw [if_pos future, between_of_lt next future, Finset.sort_empty, List.getLastD_nil]
      rfl
    · have := next.1
      rw [if_neg future, sort_between next (by omega), List.getLastD_cons]
      exact ih fire (by omega)

/-- What a job is to be fired for: the last instant that is due, or the
first ones. -/
noncomputable def dueOf (policy : MissedPolicy) (instants : Finset ℤ) : List ℤ :=
  match policy with
  | .skip => instants.sort.getLast?.toList
  | .catchUp => instants.sort.take (min catchUpCap instants.card)

/-- The loop over the instants to skip ends, and the function gives what the
job is to be fired for. -/
def DueAsDocumented (rt : CronRuntime) (job : CronJob) (matching : ℤ → Prop) (lastRun : Option ℤ)
    (now : ℤ) : Prop :=
  (∃ rounds result, skipLoop rt job now rounds (lastRun.getD now) (-1) = some result) ∧
    computeDueFires rt job lastRun now =
      .ok (dueOf job.missed (between matching (lastRun.getD now) now))

theorem dueOf_catchUp (instants : Finset ℤ) :
    dueOf .catchUp instants = instants.sort.take catchUpCap := by
  rw [dueOf, ← Finset.length_sort (s := instants) (· ≤ ·), ← List.take_eq_take_min]

theorem computeDueFires_eq_catchUp (finds : FindsNext rt job matching)
    (policy : job.missed = .catchUp) (lastRun : Option ℤ) :
    computeDueFires rt job lastRun now =
      .ok (dueOf .catchUp (between matching (lastRun.getD now) now)) := by
  rw [computeDueFires, policy, dueOf_catchUp]
  exact firstDue_eq finds catchUpCap

theorem computeDueFires_eq_skip (finds : FindsNext rt job matching) (policy : job.missed = .skip)
    (lastRun : Option ℤ) :
    computeDueFires rt job lastRun now =
      .ok (((between matching (lastRun.getD now) now).sort.getLast?.filter (0 ≤ ·)).toList) := by
  rw [computeDueFires, policy]
  dsimp only
  rw [latestDue_eq finds (-1) (by omega), List.getLastD_eq_getLast?]
  cases last : (between matching (lastRun.getD now) now).sort.getLast? with
  | none => rfl
  | some m =>
    show Except.ok (if 0 ≤ m then [m] else []) = _
    by_cases found : 0 ≤ m
    · rw [if_pos found, Option.filter_some, decide_eq_true found]
      rfl
    · rw [if_neg found, Option.filter_some, decide_eq_false found]
      rfl

/-- The last element of a sorted set is its greatest. -/
theorem getLast?_sort {instants : Finset ℤ} {m : ℤ} (last : instants.sort.getLast? = some m) :
    m ∈ instants ∧ ∀ k ∈ instants, k ≤ m := by
  obtain ⟨front, split⟩ := List.getLast?_eq_some_iff.mp last
  have sorted := instants.pairwise_sort (· ≤ ·)
  rw [split, List.pairwise_append] at sorted
  refine ⟨(Finset.mem_sort (· ≤ ·)).mp (by rw [split]; simp), fun k mem => ?_⟩
  have listed := (Finset.mem_sort (· ≤ ·)).mpr mem
  rw [split] at listed
  rcases List.mem_append.mp listed with earlier | last
  · exact sorted.2.2 k earlier m (List.mem_singleton_self m)
  · exact (List.mem_singleton.mp last).le

/-- A job is fired for the instants that it is to be fired for, unless it
skips and everything that is due lies before 1970. -/
theorem computeDueFires_as_documented_iff (finds : FindsNext rt job matching)
    (lastRun : Option ℤ) :
    DueAsDocumented rt job matching lastRun now ↔
      (job.missed = .skip → (∃ m, lastRun.getD now < m ∧ m ≤ now ∧ matching m) →
        ∃ m, 0 ≤ m ∧ lastRun.getD now < m ∧ m ≤ now ∧ matching m) := by
  have ends : ∃ rounds result, skipLoop rt job now rounds (lastRun.getD now) (-1) = some result :=
    ⟨_, _, skipLoop_eq (-1) (Nat.lt_succ_self _)⟩
  rw [DueAsDocumented, and_iff_right ends]
  cases policy : job.missed with
  | catchUp => simp [computeDueFires_eq_catchUp finds policy]
  | skip =>
    rw [computeDueFires_eq_skip finds policy, Except.ok.injEq, dueOf]
    cases last : (between matching (lastRun.getD now) now).sort.getLast? with
    | none =>
      refine ⟨fun _ _ ⟨m, after, upTo, element⟩ => ?_, fun _ => rfl⟩
      have mem := mem_between.mpr ⟨⟨after, upTo⟩, element⟩
      rw [← Finset.mem_sort (· ≤ ·), List.getLast?_eq_none_iff.mp last] at mem
      exact absurd mem List.not_mem_nil
    | some m =>
      obtain ⟨mem, greatest⟩ := getLast?_sort last
      obtain ⟨⟨after, upTo⟩, element⟩ := mem_between.mp mem
      by_cases found : 0 ≤ m
      · rw [Option.filter_some, decide_eq_true found]
        exact ⟨fun _ _ _ => ⟨m, found, after, upTo, element⟩, fun _ => rfl⟩
      · rw [Option.filter_some, decide_eq_false found]
        refine ⟨fun same => absurd same (by simp), fun exists_later => ?_⟩
        obtain ⟨k, late, above, le, also⟩ := exists_later rfl ⟨m, after, upTo, element⟩
        have := greatest k (mem_between.mpr ⟨⟨above, le⟩, also⟩)
        omega

/-! ### Half past every hour -/

/-- A job that skips what it has missed. -/
def skippingJob : CronJob := { hourlyJob "hourly" "30" 30 with missed := .skip }

theorem skippingJob_finds :
    FindsNext hourlyRuntime skippingJob (hourlyMatching (hourlySchedule 30) "UTC") := by
  intro after
  cases found : hourlyNext (hourlySchedule 30) after "UTC" with
  | ok fire => exact ⟨fire, found, hourlyNext_isNext found⟩
  | error text =>
    rw [hourlyNext, if_pos (by decide)] at found
    cases first : (List.range 60).find?
        (fun i : ℕ => minuteMatches (hourlySchedule 30) (after / 60000 + 1 + i)) with
    | some i =>
      rw [first] at found
      cases found
    | none =>
      rw [List.find?_eq_none] at first
      have missed := first ((29 - after / 60000) % 60).toNat (List.mem_range.mpr (by omega))
      simp only [minuteMatches, hourlySchedule, List.mem_singleton, decide_eq_true_eq] at missed
      omega

theorem matches_half_past {m : ℤ} (k : ℤ) (time : m = 60000 * (60 * k + 30)) :
    hourlyMatching (hourlySchedule 30) "UTC" m := by
  refine ⟨by decide, _, time, ?_⟩
  simp only [minuteMatches, hourlySchedule, List.mem_singleton, decide_eq_true_eq]
  omega

/-- In the last second of 1969 nothing is fired for half past eleven. -/
theorem instant_before_1970_is_dropped :
    ¬ ∀ (rt : CronRuntime) (job : CronJob) (matching : ℤ → Prop) (lastRun : Option ℤ) (now : ℤ),
      FindsNext rt job matching → DueAsDocumented rt job matching lastRun now := by
  intro literal
  obtain ⟨-, computed⟩ := literal hourlyRuntime skippingJob _ (some (-3600000)) (-1000)
    skippingJob_finds
  have nothing : computeDueFires hourlyRuntime skippingJob (some (-3600000)) (-1000) = .ok [] := by
    decide +kernel
  rw [nothing, Except.ok.injEq] at computed
  have due : -1800000 ∈ between (hourlyMatching (hourlySchedule 30) "UTC") (-3600000) (-1000) :=
    mem_between.mpr ⟨by decide, matches_half_past (-1) (by decide)⟩
  rw [← Finset.mem_sort (· ≤ ·)] at due
  cases last : (between (hourlyMatching (hourlySchedule 30) "UTC") (-3600000) (-1000)).sort.getLast?
    with
  | none =>
    rw [List.getLast?_eq_none_iff.mp last] at due
    exact List.not_mem_nil due
  | some m =>
    have taken : ([] : List ℤ) = (some m).toList := by rw [← last]; exact computed
    cases taken

/-- Two hours and a quarter after the epoch, the job is fired for half past
one. -/
theorem computeDueFires_as_documented_hourly :
    DueAsDocumented hourlyRuntime skippingJob (hourlyMatching (hourlySchedule 30) "UTC") (some 0)
      8100000 :=
  (computeDueFires_as_documented_iff skippingJob_finds (some 0)).mpr fun _ _ =>
    ⟨5400000, by decide, by decide, by decide, matches_half_past 1 (by decide)⟩

end Cron

end OmpBundler.Core
