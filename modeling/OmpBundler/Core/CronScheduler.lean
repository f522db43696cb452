import Mathlib.Logic.Function.Basic
import OmpBundler.Core.CronSchedules
import OmpBundler.Library.Successors
import OmpBundler.Library.Transition

/-!
The tick loop of the cron scheduler.

A tick loads the schedules, makes the boot runs that are outstanding, and
then visits the jobs in their order: a job that has no last run is anchored
at the clock, every other one is fired for the instants that are due. The
last runs are files, kept in one directory for each id, and outlive both
the process and the schedules. A run of a prompt or a command takes no step
of its own here, for the loop waits for it.

The search for the next instant of a schedule is a parameter, of which the
loop uses that it goes forward.
-/

namespace OmpBundler.Core

open Library Library.Fallible Library.Successors Library.Transition

/-- What the runtime provides, and `nextRunAfter`. -/
structure CronRuntime extends ScheduleRuntime where
  nextRunAfter : CronSchedule → ℤ → String → Except String ℤ
  later {schedule : CronSchedule} {after fire : ℤ} {timezone : String} :
    nextRunAfter schedule after timezone = .ok fire → after < fire

/-- A directory: no two of its entries have one name. -/
structure ScheduleDir where
  entries : List ScheduleEntry
  distinct : (entries.map ScheduleEntry.name).Nodup

/-- A scheduled fire: the job as it was loaded, the instant it is for, and
the clock and the directory at its tick. -/
structure CronFire where
  job : CronJob
  epoch : ℤ
  now : ℤ
  dir : ScheduleDir

/-- The files under `cronDataDir/jobs`, and what the loop keeps. -/
structure CronScheduler where
  /-- `fireEpoch` of `last-run.json`, by the directory of the job. -/
  lastRun : String → Option ℤ
  /-- The first value that the file had. -/
  anchor : String → Option ℤ
  bootRan : List String
  /-- Boot runs, with the clock. -/
  booted : List (CronJob × ℤ)
  fired : List CronFire
  /-- The delay of the next tick. -/
  wake : ℤ

namespace Cron

/-- Maximum delay of a tick, in milliseconds. -/
def maxWake : ℤ := 60000

/-- Maximum of fires of a job in a tick that catches up. -/
def catchUpCap : ℕ := 5

/-- The directory of a job below `jobs`: `join` drops the id `.`. -/
def jobDir (id : String) : String := if id = "." then "" else id

section Loop

variable (rt : CronRuntime)

/-- The most recent instant that is due, at most `n` instants ahead. -/
def latestDue (job : CronJob) (now : ℤ) : ℕ → ℤ → ℤ → Except String ℤ
  | 0, _, latest => .ok latest
  | n + 1, cursor, latest => do
      let fire ← rt.nextRunAfter job.parsed cursor job.timezone
      if now < fire then return latest
      latestDue job now n fire fire

/-- The instants that are due, at most `n`. -/
def firstDue (job : CronJob) (now : ℤ) : ℕ → ℤ → Except String (List ℤ)
  | 0, _ => .ok []
  | n + 1, cursor => do
      let fire ← rt.nextRunAfter job.parsed cursor job.timezone
      if now < fire then return []
      return fire :: (← firstDue job now n fire)

/-- The instants to fire a job for. The loop over the ones to skip ends
because each is later than the one before. -/
def computeDueFires (job : CronJob) (lastRun : Option ℤ) (now : ℤ) : Except String (List ℤ) :=
  let base := lastRun.getD now
  match job.missed with
  | .skip => do
      let latest ← latestDue rt job now ((now - base).toNat + 1) base (-1)
      return if 0 ≤ latest then [latest] else []
  | .catchUp => firstDue rt job now catchUpCap base

/-- Run one fire of a job and write its last run. -/
def fireOne (dir : ScheduleDir) (now : ℤ) (job : CronJob) (s : CronScheduler) (epoch : ℤ) :
    CronScheduler :=
  { s with
    lastRun := Function.update s.lastRun (jobDir job.id) (some epoch)
    fired := s.fired ++ [⟨job, epoch, now, dir⟩] }

/-- Anchor a job that is seen for the first time. -/
def anchorAt (now : ℤ) (job : CronJob) (s : CronScheduler) : CronScheduler :=
  { s with
    lastRun := Function.update s.lastRun (jobDir job.id) (some now)
    anchor := Function.update s.anchor (jobDir job.id) (some now) }

/-- The boot run of a job, unless it has had it in this process. It writes no
last run. -/
def bootOne (now : ℤ) (s : CronScheduler) (job : CronJob) : CronScheduler :=
  if !job.runAtBoot || job.id ∈ s.bootRan then s
  else { s with bootRan := job.id :: s.bootRan, booted := s.booted ++ [(job, now)] }

/-- The turn of one job in a tick, and its next instant. -/
def visit (dir : ScheduleDir) (now : ℤ) (job : CronJob) (s : CronScheduler) :
    CronScheduler × Except String ℤ :=
  match s.lastRun (jobDir job.id) with
  | none => (anchorAt now job s, rt.nextRunAfter job.parsed now job.timezone)
  | some last =>
      match computeDueFires rt job (some last) now with
      | .error text => (s, .error text)
      | .ok due =>
          (due.foldl (fireOne dir now job) s, rt.nextRunAfter job.parsed now job.timezone)

/-- The turns of the jobs, and the earliest of their next instants. An error
ends the tick. -/
def visitAll (dir : ScheduleDir) (now : ℤ) :
    List CronJob → Option ℤ → CronScheduler → CronScheduler × Except String (Option ℤ)
  | [], earliest, s => (s, .ok earliest)
  | job :: jobs, earliest, s =>
      match (visit rt dir now job s).2 with
      | .error text => ((visit rt dir now job s).1, .error text)
      | .ok next =>
          visitAll dir now jobs (some (earliest.elim next (min next))) (visit rt dir now job s).1

/-- The delay of the tick after this one. -/
def delayOf (now : ℤ) : Except String (Option ℤ) → ℤ
  | .error _ => maxWake
  | .ok earliest => max 0 (earliest.elim maxWake fun next => min maxWake (next - now))

def tick (dir : ScheduleDir) (now : ℤ) (s : CronScheduler) : CronScheduler :=
  match loadSchedules rt.toScheduleRuntime dir.entries with
  | .error _ => { s with wake := 0 }
  | .ok [] => { s with wake := maxWake }
  | .ok jobs =>
      let visited := visitAll rt dir now jobs none (jobs.foldl (bootOne now) s)
      { visited.1 with wake := delayOf now visited.2 }

/-- A tick, with the directory and the clock that it reads, or a restart of
the process. -/
inductive Action where
  | tick (dir : ScheduleDir) (now : ℤ)
  | restart

def step (s : CronScheduler) : Action → CronScheduler
  | .tick dir now => tick rt dir now s
  | .restart => { s with bootRan := [], wake := 0 }

/-- Nothing has been fired yet; last runs may have been left behind by other
processes. -/
def Initial (s : CronScheduler) : Prop :=
  s.fired = [] ∧ s.anchor = s.lastRun ∧ s.bootRan = [] ∧ s.booted = [] ∧ s.wake = 0

def machine : Machine CronScheduler Action where
  init := Initial
  step s action := some (step rt s action)

end Loop

/-- The instants that a job has been fired for. -/
def epochs (id : String) (s : CronScheduler) : List ℤ :=
  (s.fired.filter fun f => f.job.id = id).map CronFire.epoch

/-! ### The instants that are due -/

section Due

variable {rt : CronRuntime} {matching : CronSchedule → String → ℤ → Prop}

/-- The search gives the least matching instant after its argument. -/
def LeastMatching (rt : CronRuntime) (matching : CronSchedule → String → ℤ → Prop) : Prop :=
  ∀ {schedule after timezone fire}, rt.nextRunAfter schedule after timezone = .ok fire →
    IsNext (matching schedule timezone) after fire

/-- A bound that is large enough does not matter. -/
theorem latestDue_bound {job : CronJob} {now cursor latest : ℤ} {n k : ℕ}
    (enough : (now - cursor).toNat < n) (more : (now - cursor).toNat < k) :
    latestDue rt job now n cursor latest = latestDue rt job now k cursor latest := by
  induction n generalizing cursor latest k with
  | zero => omega
  | succ n ih =>
      obtain ⟨k, rfl⟩ : ∃ j, k = j + 1 := ⟨k - 1, by omega⟩
      simp only [latestDue]
      cases found : rt.nextRunAfter job.parsed cursor job.timezone with
      | error text => rfl
      | ok fire =>
          have forward := rt.later found
          show (if now < fire then _ else _) = (if now < fire then _ else _)
          by_cases future : now < fire
          · rw [if_pos future, if_pos future]
          · rw [if_neg future, if_neg future]
            exact ih (by omega) (by omega)

/-- What the loop for jobs that skip gives: the last matching instant after
`cursor` that is due, or what it was given, if there is none. -/
theorem latestDue_ok {job : CronJob} {now cursor latest result : ℤ} {n : ℕ}
    (least : LeastMatching rt matching) (enough : (now - cursor).toNat < n)
    (due : latestDue rt job now n cursor latest = .ok result) :
    (result = latest ∨
      cursor < result ∧ result ≤ now ∧ matching job.parsed job.timezone result) ∧
    ∀ m, matching job.parsed job.timezone m → cursor < m → m ≤ now → cursor < result ∧ m ≤ result := by
  induction n generalizing cursor latest with
  | zero => omega
  | succ n ih =>
      rw [latestDue, bind_eq_ok] at due
      obtain ⟨fire, found, due⟩ := due
      obtain ⟨forward, element, first⟩ := least found
      by_cases future : now < fire
      · rw [if_pos future] at due
        obtain rfl := Except.ok.inj due
        refine ⟨.inl rfl, fun m matches_m after upTo => ?_⟩
        have := first m matches_m after
        omega
      · rw [if_neg future] at due
        obtain ⟨value, last⟩ := ih (by omega) due
        have reached : cursor < result ∧ fire ≤ result := by
          rcases value with rfl | ⟨after, _, _⟩ <;> omega
        refine ⟨.inr ?_, fun m matches_m after upTo => ⟨reached.1, ?_⟩⟩
        · rcases value with rfl | ⟨after, upTo, element⟩
          · exact ⟨forward, by omega, element⟩
          · exact ⟨by omega, upTo, element⟩
        · by_cases later : fire < m
          · exact (last m matches_m later upTo).2
          · omega

theorem firstDue_ok {job : CronJob} {now cursor : ℤ} {n : ℕ} {due : List ℤ}
    (least : LeastMatching rt matching) (computed : firstDue rt job now n cursor = .ok due) :
    Successive (matching job.parsed job.timezone) cursor due ∧ ∀ m ∈ due, m ≤ now := by
  induction n generalizing cursor due with
  | zero =>
      obtain rfl := Except.ok.inj computed
      exact ⟨trivial, by simp⟩
  | succ n ih =>
      rw [firstDue, bind_eq_ok] at computed
      obtain ⟨fire, found, computed⟩ := computed
      by_cases future : now < fire
      · rw [if_pos future] at computed
        obtain rfl := Except.ok.inj computed
        exact ⟨trivial, by simp⟩
      · rw [if_neg future, bind_eq_ok] at computed
        obtain ⟨rest, computed, built⟩ := computed
        obtain rfl := Except.ok.inj built
        obtain ⟨successive, upTo⟩ := ih computed
        exact ⟨⟨least found, successive⟩, List.forall_mem_cons.mpr ⟨by omega, upTo⟩⟩

/-- The instants that are due are matching ones in order, after the last run
and not after the clock. -/
theorem computeDueFires_ok {job : CronJob} {last now : ℤ} {due : List ℤ}
    (least : LeastMatching rt matching) (computed : computeDueFires rt job (some last) now = .ok due) :
    due.Pairwise (· < ·) ∧
      ∀ m ∈ due, matching job.parsed job.timezone m ∧ last < m ∧ m ≤ now := by
  unfold computeDueFires at computed
  split at computed
  case h_1 =>
      rw [bind_eq_ok] at computed
      obtain ⟨latest, computed, built⟩ := computed
      obtain rfl := Except.ok.inj built
      obtain ⟨value, _⟩ := latestDue_ok least (by omega) computed
      by_cases found : 0 ≤ latest
      · rw [if_pos found, List.forall_mem_singleton]
        refine ⟨List.pairwise_singleton .., ?_⟩
        rcases value with rfl | ⟨after, upTo, element⟩
        · omega
        · exact ⟨element, after, upTo⟩
      · rw [if_neg found]
        exact ⟨.nil, by simp⟩
  case h_2 =>
      obtain ⟨successive, upTo⟩ := firstDue_ok least computed
      exact ⟨successive.initialSegment.1, fun m mem =>
        ⟨(successive.mem m mem).1, (successive.mem m mem).2, upTo m mem⟩⟩

/-- A job that catches up is fired for one instant after another. -/
theorem computeDueFires_catchUp {job : CronJob} {last now : ℤ} {due : List ℤ}
    (least : LeastMatching rt matching) (policy : job.missed = .catchUp)
    (computed : computeDueFires rt job (some last) now = .ok due) :
    Successive (matching job.parsed job.timezone) last due := by
  rw [computeDueFires, policy] at computed
  exact (firstDue_ok least computed).1

end Due

end Cron

end OmpBundler.Core
