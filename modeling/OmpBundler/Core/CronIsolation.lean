import OmpBundler.Core.CronRuns

/-!
One job beside the others.

The runs compared are the one over all files and the one over the file of a
single job, with the same clock. They are related (`Same`) while the last
run of the job and its fires agree; a visit of the job keeps that, and so
does a visit of another job that has a directory of its own. What breaks it
is what throws before the job is visited: a file that does not load, or the
search of a job that comes first.
-/

namespace OmpBundler.Core

open Library Library.Fallible Library.Transition

/-! ### The file of a job -/

namespace Cron

end Cron

section Loading

variable {rt : ScheduleRuntime} {entry : ScheduleEntry} {l : List ScheduleEntry} {job : CronJob}
  {id : String}

/-- Jobs come from entries. -/
theorem exists_entry {found : List (Option CronJob)} (loaded : l.mapM (loadEntry rt) = .ok found)
    (mem : job ∈ found.filterMap fun o => o) : ∃ entry ∈ l, loadEntry rt entry = .ok (some job) := by
  rw [mapM_eq_ok] at loaded
  induction loaded with
  | nil => simp at mem
  | @cons entry o l found first _ ih =>
      cases o with
      | none =>
          obtain ⟨entry, mem, loaded⟩ := ih (by simpa using mem)
          exact ⟨entry, List.mem_cons_of_mem _ mem, loaded⟩
      | some one =>
          simp only [List.filterMap_cons, List.mem_cons] at mem
          rcases mem with rfl | mem
          · exact ⟨_, List.mem_cons_self, first⟩
          · obtain ⟨entry, mem, loaded⟩ := ih mem
            exact ⟨entry, List.mem_cons_of_mem _ mem, loaded⟩

end Loading

/-- The directory with the file of one job only. -/
def ScheduleDir.only (id : String) (dir : ScheduleDir) : ScheduleDir where
  entries := dir.entries.filter fun e => e.name = id ++ ".yml"
  distinct := dir.distinct.sublist (List.filter_sublist.map _)

section Only

variable {rt : ScheduleRuntime} {dir : ScheduleDir} {entry : ScheduleEntry} {id : String}

end Only

namespace Cron

/-! ### Two runs -/

section Isolation

variable {rt : CronRuntime} {dir dir' : ScheduleDir} {now : ℤ} {job : CronJob} {id : String}
  {s t : CronScheduler}

/-- The fires of an id: the job, the instant and the clock. -/
def history (id : String) (s : CronScheduler) : List (CronJob × ℤ × ℤ) :=
  (s.fired.filter fun f => f.job.id = id).map fun f => (f.job, f.epoch, f.now)

/-- The two states agree about one id. -/
structure Same (id : String) (s t : CronScheduler) : Prop where
  lastRun : s.lastRun (jobDir id) = t.lastRun (jobDir id)
  history : history id s = history id t

theorem Same.of_alike {s' t' : CronScheduler} (same : Same id s t) (left : Alike s s')
    (right : Alike t t') : Same id s' t' := by
  refine ⟨?_, ?_⟩
  · rw [left.lastRun, right.lastRun, same.lastRun]
  · rw [Cron.history, Cron.history, left.fired, right.fired]
    exact same.history

theorem history_fireAll {last : ℤ} {due : List ℤ} (own : job.id = id) :
    history id (fireAll dir now job last due s) =
      history id s ++ due.map fun epoch => (job, epoch, now) := by
  simp [history, fireAll, List.filter_map, Function.comp_def, own]

theorem history_fireAll_ne {last : ℤ} {due : List ℤ} (other : job.id ≠ id) :
    history id (fireAll dir now job last due s) = history id s := by
  simp [history, fireAll, List.filter_map, Function.comp_def, other]

/-- The visit of the job itself, in both runs. -/
theorem Same.visit_own (same : Same id s t) (own : job.id = id) :
    Same id (visit rt dir now job s).1 (visit rt dir' now job t).1 := by
  subst own
  unfold visit
  rw [same.lastRun]
  cases last : t.lastRun (jobDir job.id) with
  | none => exact ⟨anchorAt_lastRun.trans anchorAt_lastRun.symm, same.history⟩
  | some last_run =>
      dsimp only
      cases computeDueFires rt job (some last_run) now with
      | error text => exact same
      | ok due =>
          dsimp only
          rw [foldl_fireOne _ last, foldl_fireOne _ (same.lastRun.trans last)]
          refine ⟨?_, ?_⟩
          · rw [fireAll_lastRun, fireAll_lastRun]
          · rw [history_fireAll rfl, history_fireAll rfl, same.history]

/-- The visit of another job, in the run that has it. -/
theorem Same.visit_other (same : Same id s t) (other : jobDir job.id ≠ jobDir id) :
    Same id (visit rt dir now job s).1 t := by
  have place : jobDir id ≠ jobDir job.id := fun equal => other equal.symm
  have named : job.id ≠ id := fun equal => other (by rw [equal])
  rcases visit_cases rt dir now job s with
    ⟨_, visited⟩ | ⟨last, due, _, visited, _⟩
  · rw [visited]
    exact ⟨(anchorAt_lastRun_of_ne place).trans same.lastRun, same.history⟩
  · rw [visited]
    exact ⟨(fireAll_lastRun_of_ne place).trans same.lastRun,
      (history_fireAll_ne named).trans same.history⟩

/-- Nothing stops the job in this tick: if its file loads, so do all; no other
schedule has its directory; and the visits before its own do not throw. -/
def Undisturbed (rt : CronRuntime) (id : String) (s : CronScheduler) : Action → Prop
  | .restart => True
  | .tick dir now =>
      (∀ e ∈ dir.entries, e.name = id ++ ".yml" → (∃ own, loadEntry rt.toScheduleRuntime e = .ok own) →
        ∀ o ∈ dir.entries, ∃ found, loadEntry rt.toScheduleRuntime o = .ok found) ∧
      ∀ jobs, loadSchedules rt.toScheduleRuntime dir.entries = .ok jobs →
        (∀ job ∈ jobs, jobDir job.id = jobDir id → job.id = id) ∧
        ∀ before job after, jobs = before ++ job :: after → job.id = id →
          ∃ next, (visitAll rt dir now before none (jobs.foldl (bootOne now) s)).2 = .ok next

/-- The action where no file but that of the job exists. -/
def Action.only (id : String) : Action → Action
  | .tick dir now => .tick (dir.only id) now
  | .restart => .restart

end Isolation

/-! ### A broken file beside an hourly schedule -/

section Broken

end Broken

end Cron

end OmpBundler.Core
