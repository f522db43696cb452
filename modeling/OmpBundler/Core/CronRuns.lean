import OmpBundler.Core.CronScheduler

/-!
Runs of the tick loop, whatever the clock shows and whatever happens to the
schedule files.

What a visit of a job does to its last run and to the fires is said once
(`visit_cases`); the rest of the tick changes neither. The first result
holds in every run: the instants that an id is fired for increase, and each
is one of the schedule in force, not after the clock. The second is about
a job that catches up: its instants are an initial segment of those after
its anchor, as long as no other schedule keeps its last run in the same
directory.
-/

namespace OmpBundler.Core.Cron

open Library Library.Fallible Library.Successors Library.Transition

section Visits

variable {rt : CronRuntime} {dir : ScheduleDir} {now : ℤ} {job : CronJob} {s t : CronScheduler}
  {id : String}

/-- The job is fired for the instants, one after another. -/
def fireAll (dir : ScheduleDir) (now : ℤ) (job : CronJob) (last : ℤ) (due : List ℤ)
    (s : CronScheduler) : CronScheduler :=
  { s with
    lastRun := Function.update s.lastRun (jobDir job.id) (some (due.getLastD last))
    fired := s.fired ++ due.map fun epoch => ⟨job, epoch, now, dir⟩ }

@[simp] theorem anchorAt_lastRun : (anchorAt now job s).lastRun (jobDir job.id) = some now :=
  Function.update_self ..

@[simp] theorem fireAll_lastRun {last : ℤ} {due : List ℤ} :
    (fireAll dir now job last due s).lastRun (jobDir job.id) = some (due.getLastD last) :=
  Function.update_self ..

/-- A visit leaves the last runs of other directories alone. -/
theorem anchorAt_lastRun_of_ne (other : jobDir id ≠ jobDir job.id) :
    (anchorAt now job s).lastRun (jobDir id) = s.lastRun (jobDir id) :=
  Function.update_of_ne other ..

theorem fireAll_lastRun_of_ne {last : ℤ} {due : List ℤ} (other : jobDir id ≠ jobDir job.id) :
    (fireAll dir now job last due s).lastRun (jobDir id) = s.lastRun (jobDir id) :=
  Function.update_of_ne other ..

theorem foldl_fireOne {last : ℤ} (due : List ℤ) (here : s.lastRun (jobDir job.id) = some last) :
    due.foldl (fireOne dir now job) s = fireAll dir now job last due s := by
  induction due generalizing s last with
  | nil =>
      have same : Function.update s.lastRun (jobDir job.id) (some last) = s.lastRun := by
        rw [← here, Function.update_eq_self]
      simp only [List.foldl_nil, fireAll, List.getLastD_nil, same, List.map_nil, List.append_nil]
  | cons epoch due ih =>
      have written : (fireOne dir now job s epoch).lastRun (jobDir job.id) = some epoch :=
        Function.update_self ..
      rw [List.foldl_cons, ih written]
      simp only [fireAll, fireOne, Function.update_idem, List.getLastD_cons, List.map_cons,
        List.append_assoc, List.singleton_append]

/-- A visit anchors the job, or fires it for what is due; when the search
fails, that is nothing. -/
theorem visit_cases (rt : CronRuntime) (dir : ScheduleDir) (now : ℤ) (job : CronJob)
    (s : CronScheduler) :
    s.lastRun (jobDir job.id) = none ∧ (visit rt dir now job s).1 = anchorAt now job s ∨
    ∃ last due, s.lastRun (jobDir job.id) = some last ∧
      (visit rt dir now job s).1 = fireAll dir now job last due s ∧
      (computeDueFires rt job (some last) now = .ok due ∨ due = []) := by
  unfold visit
  split
  case h_1 none => exact .inl ⟨none, rfl⟩
  case h_2 last here =>
      refine .inr ⟨last, ?_⟩
      split
      case h_1 => exact ⟨[], here, foldl_fireOne [] here, .inr rfl⟩
      case h_2 due computed => exact ⟨due, here, foldl_fireOne due here, .inl computed⟩

/-- Two states with the same files and the same fires. -/
structure Alike (s t : CronScheduler) : Prop where
  lastRun : t.lastRun = s.lastRun
  anchor : t.anchor = s.anchor
  fired : t.fired = s.fired

theorem Alike.refl (s : CronScheduler) : Alike s s := ⟨rfl, rfl, rfl⟩

theorem Alike.epochs (alike : Alike s t) : epochs id t = epochs id s := by
  rw [Cron.epochs, Cron.epochs, alike.fired]

theorem boot_alike (now : ℤ) (jobs : List CronJob) : Alike s (jobs.foldl (bootOne now) s) := by
  induction jobs generalizing s with
  | nil => exact .refl s
  | cons job jobs ih =>
      have one : Alike s (bootOne now s job) := by
        unfold bootOne
        split
        · exact .refl s
        · exact ⟨rfl, rfl, rfl⟩
      have rest := ih (s := bootOne now s job)
      exact ⟨rest.lastRun.trans one.lastRun, rest.anchor.trans one.anchor, rest.fired.trans one.fired⟩

theorem visitAll_preserved {P : CronScheduler → Prop} {jobs : List CronJob} (earliest : Option ℤ)
    (turn : ∀ job ∈ jobs, ∀ s, P s → P (visit rt dir now job s).1) (holds : P s) :
    P (visitAll rt dir now jobs earliest s).1 := by
  induction jobs generalizing s earliest with
  | nil => exact holds
  | cons job jobs ih =>
      have first := turn job List.mem_cons_self s holds
      rw [visitAll]
      split
      · exact first
      · exact ih _ (fun job mem => turn job (List.mem_cons_of_mem _ mem)) first

/-- What does not depend on the rest of the state, and is preserved by the
visits of the jobs, is preserved by the tick. -/
theorem tick_preserved {P : CronScheduler → Prop} (rest : ∀ s t, Alike s t → P s → P t)
    (turn : ∀ jobs, loadSchedules rt.toScheduleRuntime dir.entries = .ok jobs →
      ∀ job ∈ jobs, ∀ s, P s → P (visit rt dir now job s).1)
    (holds : P s) : P (tick rt dir now s) := by
  unfold tick
  split
  case h_1 => exact rest s _ ⟨rfl, rfl, rfl⟩ holds
  case h_2 => exact rest s _ ⟨rfl, rfl, rfl⟩ holds
  case h_3 jobs _ loaded =>
      have booted := rest s _ (boot_alike now jobs) holds
      have visited := visitAll_preserved none (turn jobs loaded) booted
      exact rest (visitAll rt dir now jobs none (jobs.foldl (bootOne now) s)).1 _ ⟨rfl, rfl, rfl⟩ visited

@[simp] theorem epochs_anchorAt : epochs id (anchorAt now job s) = epochs id s := rfl

theorem epochs_fireAll_self {last : ℤ} {due : List ℤ} (same : job.id = id) :
    epochs id (fireAll dir now job last due s) = epochs id s ++ due := by
  simp [epochs, fireAll, List.filter_map, Function.comp_def, same]

theorem epochs_fireAll_ne {last : ℤ} {due : List ℤ} (other : job.id ≠ id) :
    epochs id (fireAll dir now job last due s) = epochs id s := by
  simp [epochs, fireAll, List.filter_map, Function.comp_def, other]

end Visits

section Order

variable {rt : CronRuntime} {matching : CronSchedule → String → ℤ → Prop} {dir : ScheduleDir}
  {now : ℤ} {s t : CronScheduler}

/-- Every fire is of a job that its directory holds, for an instant of the
schedule of the job that its clock has reached. -/
def InForce (rt : CronRuntime) (matching : CronSchedule → String → ℤ → Prop) (f : CronFire) : Prop :=
  (∃ jobs, loadSchedules rt.toScheduleRuntime f.dir.entries = .ok jobs ∧ f.job ∈ jobs) ∧
    matching f.job.parsed f.job.timezone f.epoch ∧ f.epoch ≤ f.now

/-- The fires so far are in force, and those of one id in order. -/
def FiresSoundly (rt : CronRuntime) (matching : CronSchedule → String → ℤ → Prop)
    (s : CronScheduler) : Prop :=
  (∀ f ∈ s.fired, InForce rt matching f) ∧ ∀ id, (epochs id s).Pairwise (· < ·)

/-- The last run of an id has reached all its fires. -/
def Reached (s : CronScheduler) : Prop :=
  ∀ id, ∀ epoch ∈ epochs id s, ∃ last, s.lastRun (jobDir id) = some last ∧ epoch ≤ last

/-- What is due comes in order, each instant after the last run. -/
theorem due_sound {job : CronJob} {last : ℤ} {due : List ℤ} (least : LeastMatching rt matching)
    (computed : computeDueFires rt job (some last) now = .ok due ∨ due = []) :
    due.Pairwise (· < ·) ∧ ∀ m ∈ due, matching job.parsed job.timezone m ∧ last < m ∧ m ≤ now := by
  rcases computed with computed | rfl
  · exact computeDueFires_ok least computed
  · exact ⟨.nil, by simp⟩

theorem le_getLastD {due : List ℤ} (last : ℤ) (ordered : due.Pairwise (· < ·)) :
    ∀ m ∈ due, m ≤ due.getLastD last := by
  induction due generalizing last with
  | nil => simp
  | cons epoch due ih =>
      obtain ⟨before, ordered⟩ := List.pairwise_cons.mp ordered
      rw [List.getLastD_cons, List.forall_mem_cons]
      refine ⟨?_, ih _ ordered⟩
      cases due with
      | nil => simp
      | cons next due =>
          have first := before next List.mem_cons_self
          have := ih epoch ordered next List.mem_cons_self
          omega

theorem getLastD_append {first second : List ℤ} {last : ℤ} :
    (first ++ second).getLastD last = second.getLastD (first.getLastD last) := by
  induction first generalizing last with
  | nil => rfl
  | cons epoch first ih => rw [List.cons_append, List.getLastD_cons, List.getLastD_cons, ih]

theorem visit_sound {job : CronJob} {jobs : List CronJob} (least : LeastMatching rt matching)
    (loaded : loadSchedules rt.toScheduleRuntime dir.entries = .ok jobs) (mem : job ∈ jobs)
    (sound : FiresSoundly rt matching s) (reached : Reached s) :
    FiresSoundly rt matching (visit rt dir now job s).1 ∧ Reached (visit rt dir now job s).1 := by
  obtain ⟨inForce, ordered⟩ := sound
  rcases visit_cases rt dir now job s with
    ⟨absent, visited⟩ | ⟨last, due, here, visited, computed⟩
  · rw [visited]
    refine ⟨⟨inForce, ordered⟩, fun id epoch fired => ?_⟩
    obtain ⟨last, present, upTo⟩ := reached id epoch fired
    refine ⟨last, ?_, upTo⟩
    have other : jobDir id ≠ jobDir job.id := by
      intro same
      rw [same, absent] at present
      simp at present
    rw [anchorAt_lastRun_of_ne other, present]
  · rw [visited]
    obtain ⟨increasing, sound⟩ := due_sound least computed
    refine ⟨⟨?_, fun id => ?_⟩, fun id epoch fired => ?_⟩
    · intro f fired
      rcases List.mem_append.mp fired with fired | fired
      · exact inForce f fired
      · obtain ⟨epoch, epoch_mem, rfl⟩ := List.mem_map.mp fired
        exact ⟨⟨jobs, loaded, mem⟩, (sound epoch epoch_mem).1, (sound epoch epoch_mem).2.2⟩
    · by_cases same : job.id = id
      · rw [epochs_fireAll_self same]
        refine List.pairwise_append.mpr ⟨ordered id, increasing, fun before past after fires => ?_⟩
        obtain ⟨reach, present, upTo⟩ := reached id before past
        rw [← same, here] at present
        obtain rfl := Option.some.inj present
        have := (sound after fires).2.1
        omega
      · rw [epochs_fireAll_ne same]
        exact ordered id
    · have later : last ≤ due.getLastD last := by
        cases due with
        | nil => simp
        | cons first due =>
            have := le_getLastD last increasing first List.mem_cons_self
            have := (sound first List.mem_cons_self).2.1
            omega
      by_cases place : jobDir id = jobDir job.id
      · refine ⟨due.getLastD last, ?_, ?_⟩
        · rw [place, fireAll_lastRun]
        · have past (old : epoch ∈ epochs id s) : epoch ≤ due.getLastD last := by
            obtain ⟨reach, present, upTo⟩ := reached id epoch old
            rw [place, here] at present
            obtain rfl := Option.some.inj present
            omega
          by_cases same : job.id = id
          · rw [epochs_fireAll_self same] at fired
            rcases List.mem_append.mp fired with old | new
            · exact past old
            · exact le_getLastD _ increasing epoch new
          · rw [epochs_fireAll_ne same] at fired
            exact past fired
      · have same : job.id ≠ id := fun same => place (by rw [same])
        rw [epochs_fireAll_ne same] at fired
        obtain ⟨reach, present, upTo⟩ := reached id epoch fired
        refine ⟨reach, ?_, upTo⟩
        rw [fireAll_lastRun_of_ne place, present]

/-- In every run the fires of an id are in order, and in force. -/
theorem fires_soundly (least : LeastMatching rt matching)
    (reach : (machine rt).Reachable Always s) : FiresSoundly rt matching s := by
  suffices both : FiresSoundly rt matching s ∧ Reached s from both.1
  refine reach.invariant (I := fun s => FiresSoundly rt matching s ∧ Reached s) ?_ ?_
  · rintro s ⟨none, _⟩
    simp [FiresSoundly, Reached, epochs, none]
  · have rest (s t : CronScheduler) (alike : Alike s t)
        (holds : FiresSoundly rt matching s ∧ Reached s) : FiresSoundly rt matching t ∧ Reached t := by
      simp only [FiresSoundly, Reached, alike.epochs, alike.fired, alike.lastRun]
      exact holds
    rintro s action t holds _ taken
    obtain rfl := Option.some.inj taken
    cases action with
    | restart => exact rest s _ ⟨rfl, rfl, rfl⟩ holds
    | tick dir now =>
        exact tick_preserved (P := fun s => FiresSoundly rt matching s ∧ Reached s) rest
          (fun jobs loaded job mem s holds => visit_sound least loaded mem holds.1 holds.2) holds

end Order

section CatchUp

variable {rt : CronRuntime} {matching : CronSchedule → String → ℤ → Prop} {dir : ScheduleDir}
  {now : ℤ} {s t : CronScheduler} {id timezone : String} {schedule : CronSchedule}

/-- The fires of an id are an initial segment of the matching instants after
its anchor. -/
def NoneSkipped (matching : CronSchedule → String → ℤ → Prop) (id : String)
    (schedule : CronSchedule) (timezone : String) (s : CronScheduler) : Prop :=
  ∀ anchor, s.anchor (jobDir id) = some anchor →
    InitialSegment (matching schedule timezone) anchor (epochs id s)

/-- Whenever the schedule is loaded, it catches up and is the same. -/
def Steady (rt : CronRuntime) (id : String) (schedule : CronSchedule) (timezone : String)
    (_ : CronScheduler) : Action → Prop
  | .restart => True
  | .tick dir _ =>
      ∀ jobs, loadSchedules rt.toScheduleRuntime dir.entries = .ok jobs →
        ∀ job ∈ jobs, job.id = id →
          job.missed = .catchUp ∧ job.parsed = schedule ∧ job.timezone = timezone

/-- No other schedule that is loaded has the directory of this one. -/
def Alone (rt : CronRuntime) (id : String) (_ : CronScheduler) : Action → Prop
  | .restart => True
  | .tick dir _ =>
      ∀ jobs, loadSchedules rt.toScheduleRuntime dir.entries = .ok jobs →
        ∀ job ∈ jobs, jobDir job.id = jobDir id → job.id = id

/-- The last run is the last fire, or the anchor, and the fires follow one
another from the anchor on. -/
structure InStep (matching : CronSchedule → String → ℤ → Prop) (id : String)
    (schedule : CronSchedule) (timezone : String) (s : CronScheduler) : Prop where
  unseen : s.anchor (jobDir id) = none → s.lastRun (jobDir id) = none ∧ epochs id s = []
  seen : ∀ anchor, s.anchor (jobDir id) = some anchor →
    s.lastRun (jobDir id) = some ((epochs id s).getLastD anchor) ∧
      Successive (matching schedule timezone) anchor (epochs id s)

theorem InStep.of_alike (alike : Alike s t) (inStep : InStep matching id schedule timezone s) :
    InStep matching id schedule timezone t := by
  obtain ⟨unseen, seen⟩ := inStep
  refine ⟨?_, ?_⟩
  · rwa [alike.anchor, alike.lastRun, alike.epochs]
  · rwa [alike.anchor, alike.lastRun, alike.epochs]

/-- What is kept for one id depends on its own directory and fires only. -/
theorem InStep.of_same (anchor : t.anchor (jobDir id) = s.anchor (jobDir id))
    (lastRun : t.lastRun (jobDir id) = s.lastRun (jobDir id)) (fires : epochs id t = epochs id s)
    (inStep : InStep matching id schedule timezone s) : InStep matching id schedule timezone t := by
  obtain ⟨unseen, seen⟩ := inStep
  refine ⟨?_, ?_⟩
  · rwa [anchor, lastRun, fires]
  · rwa [anchor, lastRun, fires]

/-- A visit of the job itself. -/
theorem visit_own {job : CronJob} (least : LeastMatching rt matching) (own : job.id = id)
    (steady : job.missed = .catchUp ∧ job.parsed = schedule ∧ job.timezone = timezone)
    (inStep : InStep matching id schedule timezone s) :
    InStep matching id schedule timezone (visit rt dir now job s).1 := by
  subst own
  obtain ⟨policy, rfl, rfl⟩ := steady
  rcases visit_cases rt dir now job s with
    ⟨absent, visited⟩ | ⟨last, due, here, visited, computed⟩
  · rw [visited]
    have none : s.anchor (jobDir job.id) = none := by
      cases anchored : s.anchor (jobDir job.id) with
      | none => rfl
      | some anchor =>
          have := (inStep.seen anchor anchored).1
          rw [absent] at this
          simp at this
    have fresh := (inStep.unseen none).2
    refine ⟨fun unseen => ?_, fun anchor anchored => ?_⟩
    · simp [anchorAt] at unseen
    · obtain rfl : now = anchor := by simpa [anchorAt] using anchored
      rw [epochs_anchorAt, fresh]
      exact ⟨anchorAt_lastRun, trivial⟩
  · rw [visited]
    refine ⟨fun unseen => ?_, fun anchor anchored => ?_⟩
    · have absent := (inStep.unseen unseen).1
      rw [here] at absent
      simp at absent
    · obtain ⟨latest, successive⟩ := inStep.seen anchor anchored
      obtain rfl := Option.some.inj (here.symm.trans latest)
      have following : Successive (matching job.parsed job.timezone)
          ((epochs job.id s).getLastD anchor) due := by
        rcases computed with computed | rfl
        · exact computeDueFires_catchUp least policy computed
        · trivial
      rw [epochs_fireAll_self rfl]
      refine ⟨?_, successive.append following⟩
      rw [getLastD_append, fireAll_lastRun]

/-- A visit of another job. -/
theorem visit_other {job : CronJob} (other : jobDir job.id ≠ jobDir id)
    (inStep : InStep matching id schedule timezone s) :
    InStep matching id schedule timezone (visit rt dir now job s).1 := by
  have place : jobDir id ≠ jobDir job.id := fun same => other same.symm
  have named : job.id ≠ id := fun same => other (by rw [same])
  rcases visit_cases rt dir now job s with
    ⟨_, visited⟩ | ⟨last, due, _, visited, _⟩
  · rw [visited]
    exact inStep.of_same (Function.update_of_ne place ..) (anchorAt_lastRun_of_ne place) rfl
  · rw [visited]
    exact inStep.of_same (s := s) rfl (fireAll_lastRun_of_ne place) (epochs_fireAll_ne named)

/-- While it has its directory for itself, no instant of a job that catches up
is skipped. -/
theorem none_skipped (least : LeastMatching rt matching)
    (reach : (machine rt).Reachable
      (fun s action => Steady rt id schedule timezone s action ∧ Alone rt id s action) s) :
    NoneSkipped matching id schedule timezone s := by
  have inStep : InStep matching id schedule timezone s := by
    refine reach.invariant ?_ ?_
    · rintro s ⟨none, anchored, _⟩
      refine ⟨fun unseen => ?_, fun anchor seen => ?_⟩
      · rw [← anchored]
        exact ⟨unseen, by simp [epochs, none]⟩
      · rw [← anchored, seen]
        simp [epochs, none, Successive]
    · rintro s action t inStep ⟨steady, alone⟩ taken
      obtain rfl := Option.some.inj taken
      cases action with
      | restart => exact inStep.of_alike (s := s) ⟨rfl, rfl, rfl⟩
      | tick dir now =>
          refine tick_preserved (fun s t alike inStep => inStep.of_alike alike) ?_ inStep
          intro jobs loaded job mem s inStep
          by_cases own : job.id = id
          · exact visit_own least own (steady jobs loaded job mem own) inStep
          · exact visit_other (fun same => own (alone jobs loaded job mem same)) inStep
  intro anchor anchored
  exact (inStep.seen anchor anchored).2.initialSegment

/-- The fires of every id are in order and in force, in every run. Those of a
job that catches up with one schedule skip nothing, in every run in which
no other schedule is loaded that has the same directory. -/
theorem fires_in_order (rt : CronRuntime) (matching : CronSchedule → String → ℤ → Prop)
    (least : LeastMatching rt matching) :
    (∀ s, (machine rt).Reachable Always s → FiresSoundly rt matching s) ∧
      ∀ id schedule timezone s,
        (machine rt).Reachable
          (fun s action => Steady rt id schedule timezone s action ∧ Alone rt id s action) s →
        NoneSkipped matching id schedule timezone s :=
  ⟨fun _ reach => fires_soundly least reach, fun _ _ _ _ reach => none_skipped least reach⟩

end CatchUp

/-! ### Two hourly schedules -/

section Hourly

/-- The text of a schedule that is due at a minute of every hour. -/
def hourlyText (minute : String) : String :=
  "schedule: \"" ++ minute ++ " * * * *\"\nmissed: catchUp\nprompt: Check the queue.\n"

def hourlyRecord (minute : String) : JsValue :=
  .object [("schedule", .string (minute ++ " * * * *")), ("missed", .string "catchUp"),
    ("prompt", .string "Check the queue.")]

/-- The schedule of a minute of every hour. -/
def hourlySchedule (minute : ℕ) : CronSchedule :=
  ⟨[minute], List.range 24, List.range' 1 31, List.range' 1 12, List.range 7⟩

def hourlyJob (id minute : String) (n : ℕ) : CronJob where
  id := id
  schedule := minute ++ " * * * *"
  timezone := "UTC"
  missed := .catchUp
  prompt := some "Check the queue."
  command := none
  timeout := none
  runAtBoot := false
  parsed := hourlySchedule n

def hourlyEntry (name minute : String) : ScheduleEntry := ⟨name, .file, .ok (hourlyText minute)⟩

/-- Whether only the minute of a schedule is restricted. -/
def isHourly (schedule : CronSchedule) (timezone : String) : Prop :=
  timezone = "UTC" ∧ schedule = { schedule with
    hour := List.range 24, dayOfMonth := List.range' 1 31, month := List.range' 1 12,
    dayOfWeek := List.range 7 }

instance {schedule : CronSchedule} {timezone : String} : Decidable (isHourly schedule timezone) :=
  inferInstanceAs (Decidable (_ ∧ _))

/-- Whether the `k`-th minute since the epoch is one of the schedule. -/
def minuteMatches (schedule : CronSchedule) (k : ℤ) : Bool := (k % 60).toNat ∈ schedule.minute

def hourlyMatching (schedule : CronSchedule) (timezone : String) (m : ℤ) : Prop :=
  isHourly schedule timezone ∧ ∃ k, m = 60000 * k ∧ minuteMatches schedule k

/-- The next instant of an hourly schedule. -/
def hourlyNext (schedule : CronSchedule) (after : ℤ) (timezone : String) : Except String ℤ :=
  if isHourly schedule timezone then
    match (List.range 60).find? fun i : ℕ => minuteMatches schedule (after / 60000 + 1 + i) with
    | some i => .ok (60000 * (after / 60000 + 1 + i))
    | none => .error "cron expression never matches within the search window"
  else .error ("invalid timezone: \"" ++ timezone ++ "\"")

theorem hourlyNext_isNext {schedule : CronSchedule} {after fire : ℤ} {timezone : String}
    (found : hourlyNext schedule after timezone = .ok fire) :
    IsNext (hourlyMatching schedule timezone) after fire := by
  unfold hourlyNext at found
  split at found
  case isFalse => simp at found
  case isTrue hourly =>
    split at found
    case h_2 => simp at found
    case h_1 i here =>
      obtain rfl := Except.ok.inj found
      obtain ⟨first, _, earlier⟩ := List.find?_range_eq_some.mp here
      refine ⟨by omega, ⟨hourly, _, rfl, first⟩, ?_⟩
      rintro _ ⟨_, k, rfl, element⟩ above
      by_contra below
      have before := earlier (k - (after / 60000 + 1)).toNat (by omega)
      have same : after / 60000 + 1 + ((k - (after / 60000 + 1)).toNat : ℤ) = k := by omega
      rw [same, element] at before
      simp at before

theorem hourly_utc : decide ("UTC" = "UTC") = true := by decide

/-- A runtime that knows hourly schedules. -/
def hourlyRuntime : CronRuntime where
  parseYaml text :=
    if text = hourlyText "0" then .ok (hourlyRecord "0")
    else if text = hourlyText "30" then .ok (hourlyRecord "30")
    else .error "unexpected token"
  numberOf _ := none
  validTimezone zone := decide (zone = "UTC")
  utc := hourly_utc
  nextRunAfter := hourlyNext
  later found := (hourlyNext_isNext found).1

theorem hourly_least : LeastMatching hourlyRuntime hourlyMatching := fun found =>
  hourlyNext_isNext found

/-- No last runs, and nothing fired. -/
def fresh : CronScheduler := ⟨fun _ => none, fun _ => none, [], [], [], 0⟩

/-- Ticks take place in every state. -/
theorem reachable_foldl {rt : CronRuntime} {C : CronScheduler → Action → Prop} {s : CronScheduler}
    {actions : List Action} (reach : (machine rt).Reachable C s)
    (condition : ∀ action ∈ actions, ∀ s, C s action) :
    (machine rt).Reachable C (actions.foldl (step rt) s) := by
  induction actions generalizing s with
  | nil => exact reach
  | cons action actions ih =>
      rw [List.forall_mem_cons] at condition
      exact ih (reach.step action (condition.1 s) rfl) condition.2

theorem fresh_reachable {rt : CronRuntime} {C : CronScheduler → Action → Prop} :
    (machine rt).Reachable C fresh :=
  .of_init ⟨rfl, rfl, rfl, rfl, rfl⟩

theorem loads_only {rt : ScheduleRuntime} {dir : List ScheduleEntry} {jobs found : List CronJob}
    (known : (loadSchedules rt dir).toOption = some jobs) (loaded : loadSchedules rt dir = .ok found) :
    found = jobs := by
  rw [loaded] at known
  exact Option.some.inj known

/-- The files `.yml` and `..yml`. -/
def sharedDir : ScheduleDir := ⟨[hourlyEntry ".yml" "30", hourlyEntry "..yml" "0"], by decide⟩

theorem sharedDir_loads : (loadSchedules hourlyRuntime.toScheduleRuntime sharedDir.entries).toOption =
    some [hourlyJob "." "0" 0, hourlyJob "" "30" 30] := by decide +kernel

/-- Two schedules that keep their last run in one directory lose fires of each
other: of the fires that `.yml` is to catch up, the one at half past twelve
is not after the last run that `..yml` has written. -/
theorem shared_dir_skips :
    ¬ ∀ (rt : CronRuntime) (matching : CronSchedule → String → ℤ → Prop),
      LeastMatching rt matching →
      (∀ s, (machine rt).Reachable Always s → FiresSoundly rt matching s) ∧
        ∀ id schedule timezone s, (machine rt).Reachable (Steady rt id schedule timezone) s →
          NoneSkipped matching id schedule timezone s := by
  intro literal
  have steady : ∀ action ∈ [0, 3600000, 5400000].map (Action.tick sharedDir), ∀ s,
      Steady hourlyRuntime "" (hourlySchedule 30) "UTC" s action := by
    intro action mem s
    obtain ⟨now, _, rfl⟩ := List.mem_map.mp mem
    intro jobs loaded job job_mem own
    obtain rfl := loads_only sharedDir_loads loaded
    simp only [List.mem_cons, List.not_mem_nil, or_false] at job_mem
    rcases job_mem with rfl | rfl
    · exact absurd own (by decide)
    · exact ⟨rfl, rfl, rfl⟩
  obtain ⟨_, _, complete⟩ := (literal hourlyRuntime hourlyMatching hourly_least).2 "" (hourlySchedule 30)
    "UTC" _ (reachable_foldl fresh_reachable steady) 0 (by decide +kernel)
  have fires : epochs "" (([0, 3600000, 5400000].map (Action.tick sharedDir)).foldl
      (step hourlyRuntime) fresh) = [5400000] := by decide +kernel
  rw [fires] at complete
  have missed := complete 1800000 ⟨by decide +kernel, 30, rfl, by decide⟩ (by decide)
    ⟨5400000, by simp, by decide⟩
  simp at missed

/-- The file `hourly.yml`. -/
def hourlyDir : ScheduleDir := ⟨[hourlyEntry "hourly.yml" "30"], by decide⟩

theorem hourlyDir_loads : (loadSchedules hourlyRuntime.toScheduleRuntime hourlyDir.entries).toOption =
    some [hourlyJob "hourly" "30" 30] := by decide +kernel

/-- Six hours after its anchor, the schedule is fired for five of the six
instants, and at the next tick for the sixth. -/
theorem fires_in_order_hourly :
    NoneSkipped hourlyMatching "hourly" (hourlySchedule 30) "UTC"
      (([0, 21600000, 21600000].map (Action.tick hourlyDir)).foldl (step hourlyRuntime) fresh) := by
  refine (fires_in_order hourlyRuntime hourlyMatching hourly_least).2 "hourly" (hourlySchedule 30)
    "UTC" _ (reachable_foldl fresh_reachable ?_)
  intro action mem s
  obtain ⟨now, _, rfl⟩ := List.mem_map.mp mem
  have only : ∀ jobs, loadSchedules hourlyRuntime.toScheduleRuntime hourlyDir.entries = .ok jobs →
      ∀ job ∈ jobs, job = hourlyJob "hourly" "30" 30 := by
    intro jobs loaded job mem
    obtain rfl := loads_only hourlyDir_loads loaded
    exact List.mem_singleton.mp mem
  refine ⟨fun jobs loaded job mem _ => ?_, fun jobs loaded job mem _ => ?_⟩
  · obtain rfl := only jobs loaded job mem
    exact ⟨rfl, rfl, rfl⟩
  · obtain rfl := only jobs loaded job mem
    rfl

example : epochs "hourly" (([0, 21600000, 21600000].map (Action.tick hourlyDir)).foldl
    (step hourlyRuntime) fresh) =
      [1800000, 5400000, 9000000, 12600000, 16200000, 19800000] := by decide +kernel

end Hourly

end OmpBundler.Core.Cron
