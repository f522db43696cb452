import OmpBundler.Core.GroupRegistry
import OmpBundler.Library.Fallible

/-!
Which children the registry accounts for.

The lock keeps the edits of the file apart, but it does not know which
child an operation speaks for. A registration looks at the group that
holds its key; an unregistration removes the key whoever holds it, and it
is queued by every exit, also by that of a child whose own registration
was refused.

A child is to be in the registry for as long as it stands: it has
registered, it still runs, and no sweep has dealt with its entry. That
holds throughout a run exactly if no unregistration rewrites the file
while a child stands under its key. Most steps touch neither the file nor
what the children have registered (`Quiet`); the others are those of the
operation that holds the lock, whose decision rests on the file as it
still is (`Prepared`).
-/

namespace OmpBundler.Core

open Library

namespace GroupRegistry

/-! ### What is to hold -/

/-- The child has registered under the key, it still runs, and no sweep has
dealt with its entry. -/
def Standing (s : GroupRegistry) (n : ℕ) (key : String) : Prop :=
  s.registered n = true ∧ s.swept n = false ∧ (s.childOf n).conversationKey = some key ∧
    (s.childOf n).Alive

/-- Every child that stands is in the registry, with its own group. -/
def Accounted (s : GroupRegistry) : Prop :=
  ∀ n key, s.Standing n key →
    ∃ entry, s.file.entry key = some entry ∧ (s.childOf n).pgid = some entry.pgid

/-- When an unregistration rewrites the file, no child stands under its
key. -/
def KeyVacated (s : GroupRegistry) : Action → Prop
  | .rewrite (.ok _) =>
      ∀ job ∈ s.lock.head?, ∀ n key, job.operation = .unregister n key →
        ∀ m, ¬ s.Standing m key
  | _ => True

/-! ### The lock -/

/-- The running operation has come to its decision on the file as it is. -/
def Prepared (s : GroupRegistry) (operation : RegistryOperation) (next : ChildRegistry)
    (result : Option SweepResult) : Prop :=
  ∃ registry probe, readChildRegistry s.path s.file = .ok registry ∧
    operation.decision probe registry = .ok (some next, result)

/-- What holds of the lock and the children in every state. -/
structure Sound (s : GroupRegistry) : Prop where
  /-- Only the first operation of the lock has started. -/
  serialized : ∀ job ∈ s.lock.tail, job.stage = .queued
  prepared : ∀ job ∈ s.lock.head?, ∀ next result,
    job.stage = .rewriting next result → s.Prepared job.operation next result
  /-- A registration speaks for its child. -/
  speaks : ∀ job ∈ s.lock, ∀ n key entry, job.operation = .register n key entry →
    n < s.nextChild ∧ (s.childOf n).conversationKey = some key ∧
      (s.childOf n).pgid = some entry.pgid
  known : ∀ n, s.registered n = true → n < s.nextChild

/-- An update that touches neither the file nor what the children have
registered. -/
structure Quiet (s t : GroupRegistry) : Prop where
  path : t.path = s.path
  file : t.file = s.file
  nextChild : t.nextChild = s.nextChild
  registered : t.registered = s.registered
  swept : t.swept = s.swept
  conversationKey : ∀ n, (t.childOf n).conversationKey = (s.childOf n).conversationKey
  pgid : ∀ n, (t.childOf n).pgid = (s.childOf n).pgid
  alive : ∀ n, (t.childOf n).Alive → (s.childOf n).Alive

namespace Quiet

variable {s t u : GroupRegistry}

theorem refl (s : GroupRegistry) : Quiet s s :=
  ⟨rfl, rfl, rfl, rfl, rfl, fun _ => rfl, fun _ => rfl, fun _ => id⟩

theorem trans (first : Quiet s t) (second : Quiet t u) : Quiet s u where
  path := second.path.trans first.path
  file := second.file.trans first.file
  nextChild := second.nextChild.trans first.nextChild
  registered := second.registered.trans first.registered
  swept := second.swept.trans first.swept
  conversationKey n := (second.conversationKey n).trans (first.conversationKey n)
  pgid n := (second.pgid n).trans (first.pgid n)
  alive n := first.alive n ∘ second.alive n

theorem lock (s : GroupRegistry) (lock : List RegistryJob) : Quiet s { s with lock := lock } :=
  ⟨rfl, rfl, rfl, rfl, rfl, fun _ => rfl, fun _ => rfl, fun _ => id⟩

/-- A change of one object that keeps its key and its group. -/
theorem setChild (s : GroupRegistry) (n : ℕ) (c : RpcChild)
    (key : c.conversationKey = (s.childOf n).conversationKey)
    (group : c.pgid = (s.childOf n).pgid) (alive : c.Alive → (s.childOf n).Alive) :
    Quiet s (s.setChild n c) := by
  refine ⟨rfl, rfl, rfl, rfl, rfl, fun m => ?_, fun m => ?_, fun m => ?_⟩
  all_goals
    rcases eq_or_ne m n with rfl | other
    · simpa
    · simp [Function.update_of_ne other]

theorem unregisterPgid (s : GroupRegistry) (n : ℕ) : Quiet s (s.unregisterPgid n) := by
  unfold GroupRegistry.unregisterPgid
  split
  · exact .lock s _
  · exact .refl s

theorem standing (quiet : Quiet s t) {n : ℕ} {key : String} (standing : t.Standing n key) :
    s.Standing n key := by
  obtain ⟨registered, swept, known, alive⟩ := standing
  exact ⟨quiet.registered ▸ registered, quiet.swept ▸ swept,
    (quiet.conversationKey n).symm.trans known, quiet.alive n alive⟩

theorem accounted (quiet : Quiet s t) (acc : s.Accounted) : t.Accounted := by
  intro n key standing
  rw [quiet.file, quiet.pgid]
  exact acc n key (quiet.standing standing)

end Quiet

namespace Sound

variable {s t : GroupRegistry} {job : RegistryJob} {rest : List RegistryJob}

theorem initial (path : String) (file : RegistryFile) : Sound (initial path file) :=
  ⟨by simp [GroupRegistry.initial], by simp [GroupRegistry.initial],
    by simp [GroupRegistry.initial], by simp [GroupRegistry.initial]⟩

/-- A quiet update leaves the lock sound. -/
theorem quiet (sound : Sound s) (quiet : Quiet s t) (lock : t.lock = s.lock) : Sound t where
  serialized := lock ▸ sound.serialized
  prepared job running next result stage := by
    obtain ⟨registry, probe, read, decision⟩ :=
      sound.prepared job (lock ▸ running) next result stage
    exact ⟨registry, probe, by rw [quiet.path, quiet.file]; exact read, decision⟩
  speaks job mem n key entry operation := by
    rw [quiet.nextChild, quiet.conversationKey, quiet.pgid]
    exact sound.speaks job (lock ▸ mem) n key entry operation
  known n registered := by
    rw [quiet.nextChild]
    exact sound.known n (quiet.registered ▸ registered)

/-- An operation joins the end of the lock. -/
theorem withRegistryLock (sound : Sound s) (operation : RegistryOperation)
    (speaks : ∀ n key entry, operation = .register n key entry →
      n < s.nextChild ∧ (s.childOf n).conversationKey = some key ∧
        (s.childOf n).pgid = some entry.pgid) : Sound (s.withRegistryLock operation) := by
  refine ⟨fun job mem => ?_, fun job running next result stage => ?_,
    fun job mem n key entry same => ?_, sound.known⟩
  · cases lock : s.lock with
    | nil => simp [lock] at mem
    | cons first rest =>
        have members := sound.serialized
        simp only [lock, List.tail_cons] at members
        simp only [withRegistryLock_lock, lock, List.cons_append, List.tail_cons,
          List.mem_append, List.mem_singleton] at mem
        rcases mem with old | rfl
        · exact members job old
        · rfl
  · cases lock : s.lock with
    | nil =>
        simp only [withRegistryLock_lock, lock, List.nil_append, List.head?_cons,
          Option.mem_def, Option.some.injEq] at running
        subst running
        simp at stage
    | cons first rest =>
        have before := sound.prepared
        simp only [lock, List.head?_cons] at before
        simp only [withRegistryLock_lock, lock, List.cons_append, List.head?_cons] at running
        exact before job running next result stage
  · simp only [withRegistryLock_lock, List.mem_append, List.mem_singleton] at mem
    rcases mem with old | rfl
    · exact sound.speaks job old n key entry same
    · exact speaks n key entry same

theorem unregisterPgid (sound : Sound s) (n : ℕ) : Sound (s.unregisterPgid n) := by
  unfold GroupRegistry.unregisterPgid
  split
  · exact sound.withRegistryLock _ (by simp)
  · exact sound

/-- The running operation moves on. -/
theorem head (sound : Sound s) (lock : s.lock = job :: rest) (stage : JobStage)
    (prepared : ∀ next result, stage = .rewriting next result →
      s.Prepared job.operation next result) :
    Sound { s with lock := ⟨job.operation, stage⟩ :: rest } where
  serialized := by simpa [lock] using sound.serialized
  prepared := by
    rintro _ ⟨⟩ next result same
    exact prepared next result same
  speaks j mem n key entry operation := by
    rcases List.mem_cons.mp mem with rfl | old
    · exact sound.speaks job (lock ▸ List.mem_cons_self) n key entry operation
    · exact sound.speaks j (lock ▸ List.mem_cons_of_mem _ old) n key entry operation
  known := sound.known

/-- The first operation leaves the lock; the next one has not started. -/
theorem pop (sound : Sound s) (lock : s.lock = job :: rest) :
    Sound { s with lock := rest } where
  serialized j mem := by
    have members := sound.serialized
    rw [lock] at members
    exact members j (List.mem_of_mem_tail mem)
  prepared j running next result stage := by
    have members := sound.serialized
    rw [lock] at members
    have queued : j.stage = .queued := members j (List.mem_of_mem_head? running)
    simp [queued] at stage
  speaks j mem := sound.speaks j (lock ▸ List.mem_cons_of_mem _ mem)
  known := sound.known

theorem completed (sound : Sound s) (operation : RegistryOperation)
    (result : Option SweepResult)
    (known : ∀ n key entry, operation = .register n key entry → n < s.nextChild) :
    Sound (s.completed operation result) := by
  cases operation with
  | unregister => exact sound
  | sweep =>
      cases result with
      | none => exact sound
      | some result => exact ⟨sound.serialized, sound.prepared, sound.speaks, sound.known⟩
  | register n key entry =>
      refine ⟨sound.serialized, sound.prepared, sound.speaks, fun m registered => ?_⟩
      rcases eq_or_ne m n with rfl | other
      · exact known m key entry rfl
      · exact sound.known m (by
          simpa [GroupRegistry.completed, Function.update_of_ne other] using registered)

theorem join (sound : Sound s) (c : RpcChild) (startedAt : ℤ) :
    Sound (s.join c startedAt) := by
  have joined : Sound { s.setChild s.nextChild c with nextChild := s.nextChild + 1 } := by
    refine ⟨sound.serialized, sound.prepared, fun job mem n key entry operation => ?_,
      fun n registered => Nat.lt_succ_of_lt (sound.known n registered)⟩
    obtain ⟨old, spoken⟩ := sound.speaks job mem n key entry operation
    refine ⟨Nat.lt_succ_of_lt old, ?_⟩
    simpa [Function.update_of_ne (Nat.ne_of_lt old)] using spoken
  unfold GroupRegistry.join
  dsimp only
  split
  case h_2 => exact joined
  case h_1 key entry configured =>
      refine joined.withRegistryLock _ ?_
      rintro n k e ⟨⟩
      have own := RpcChild.registryEntry_eq_some configured
      exact ⟨Nat.lt_succ_self _, by simpa using own⟩

end Sound

theorem resume_quiet (s : GroupRegistry) (operation : RegistryOperation)
    (result : Except String (Option SweepResult)) (kill : KillReply) :
    Quiet s (s.resume operation result kill) := by
  cases operation with
  | sweep => exact .refl s
  | unregister n key =>
      exact .setChild s n _ (RpcChild.unregistered_conversationKey _)
        (RpcChild.unregistered_pgid _) (RpcChild.unregistered_alive _).mp
  | register n key entry =>
      simp only [resume]
      have changed : Quiet s (s.setChild n
          ((s.childOf n).registered (result.map fun _ => ()) kill)) :=
        .setChild s n _ (RpcChild.registered_conversationKey _ _ _)
          (RpcChild.registered_pgid _ _ _) (RpcChild.registered_alive _ _ _).mp
      split
      · exact changed.trans (.unregisterPgid _ n)
      · exact changed

theorem reportExit_quiet (s : GroupRegistry) (n : ℕ) (status : ExitStatus) :
    Quiet s (s.reportExit n status) := by
  have changed : Quiet s (s.setChild n ((s.childOf n).onExit status)) :=
    .setChild s n _ (RpcChild.onExit_conversationKey _ _) (RpcChild.onExit_pgid _ _)
      fun alive => absurd alive (RpcChild.onExit_not_alive _ _)
  simp only [reportExit]
  split
  · exact changed.trans (.unregisterPgid _ n)
  · exact changed

theorem exit_quiet (s : GroupRegistry) {n : ℕ} {p : Process}
    (spawned : (s.childOf n).process = some p) :
    Quiet s (s.setChild n { s.childOf n with process := some { p with status := .exited } }) := by
  refine .setChild s n _ rfl ?_ ?_
  · simp [RpcChild.pgid, spawned]
  · simp [RpcChild.Alive]

theorem Sound.step {s t : GroupRegistry} {a : Action} (sound : Sound s)
    (taken : step s a = some t) : Sound t := by
  have registrar {job : RegistryJob} {rest : List RegistryJob} (lock : s.lock = job :: rest)
      (n : ℕ) (key : String) (entry : ChildRegistryEntry)
      (operation : job.operation = .register n key entry) : n < s.nextChild :=
    (sound.speaks job (lock ▸ List.mem_cons_self) n key entry operation).1
  cases step_cases taken with
  | start c startedAt => exact sound.join c startedAt
  | sweep => exact sound.withRegistryLock _ (by simp)
  | readFailed error lock => exact sound.head lock _ (by simp)
  | readDone lock read decision =>
      exact (sound.head lock _ (by simp)).completed _ _ (registrar lock)
  | readRewriting lock read decision =>
      refine sound.head lock _ ?_
      rintro next result ⟨⟩
      exact ⟨_, _, read, decision⟩
  | @rewritten job rest next result lock stage =>
      -- The first operation has settled, so no decision rests on the old file.
      have settled := sound.head lock (.settled (.ok result)) (by simp)
      have replaced : Sound { s with
          file := .valid next
          lock := ⟨job.operation, .settled (.ok result)⟩ :: rest } :=
        ⟨settled.serialized, by rintro _ ⟨⟩ _ _ ⟨⟩, settled.speaks, settled.known⟩
      exact replaced.completed _ _ (registrar lock)
  | rewriteFailed error lock => exact sound.head lock _ (by simp)
  | @settle job rest kill result lock =>
      have popped := sound.pop lock
      have quiet := resume_quiet { s with lock := rest } job.operation result kill
      cases operation : job.operation with
      | sweep => exact popped
      | unregister n key =>
          rw [operation] at quiet
          exact popped.quiet quiet rfl
      | register n key entry =>
          have changed : Quiet { s with lock := rest } ({ s with lock := rest }.setChild n
              ((s.childOf n).registered (result.map fun _ => ()) kill)) :=
            .setChild _ n _ (RpcChild.registered_conversationKey _ _ _)
              (RpcChild.registered_pgid _ _ _) (RpcChild.registered_alive _ _ _).mp
          simp only [resume]
          split
          · exact (popped.quiet changed rfl).unregisterPgid n
          · exact popped.quiet changed rfl
  | exit spawned => exact sound.quiet (exit_quiet s spawned) rfl
  | reportExit n status =>
      have changed : Quiet s (s.setChild n ((s.childOf n).onExit status)) :=
        .setChild s n _ (RpcChild.onExit_conversationKey _ _) (RpcChild.onExit_pgid _ _)
          fun alive => absurd alive (RpcChild.onExit_not_alive _ _)
      simp only [reportExit]
      split
      · exact (sound.quiet changed rfl).unregisterPgid n
      · exact sound.quiet changed rfl
  | restart => exact ⟨by simp, by simp, by simp, sound.known⟩

/-! ### The children that stand -/

/-- A child that is about to join has not registered. -/
theorem Accounted.join {s : GroupRegistry} (acc : s.Accounted) (sound : Sound s) (c : RpcChild)
    (startedAt : ℤ) : (s.join c startedAt).Accounted := by
  have joined :
      Accounted { s.setChild s.nextChild c with nextChild := s.nextChild + 1 } := by
    intro n key standing
    have old : n ≠ s.nextChild := Nat.ne_of_lt (sound.known n standing.1)
    have unchanged : (s.setChild s.nextChild c).childOf n = s.childOf n :=
      Function.update_of_ne old _ _
    simp only [Standing, unchanged] at standing
    simpa only [unchanged, setChild_file] using acc n key standing
  unfold GroupRegistry.join
  dsimp only
  split
  · exact (Quiet.lock _ _).accounted joined
  · exact joined

/-- The registration of one child: it is in the file now, and the entries
of the others are still there. -/
theorem Accounted.registered {s : GroupRegistry} (acc : s.Accounted) (file : RegistryFile)
    (n : ℕ) {key : String} (entry : ChildRegistryEntry)
    (known : (s.childOf n).conversationKey = some key)
    (own : ∃ e, file.entry key = some e ∧ (s.childOf n).pgid = some e.pgid)
    (others : ∀ m j, s.Standing m j → file.entry j = s.file.entry j) :
    ({ s with file := file }.completed (.register n key entry) none).Accounted := by
  rintro m j ⟨registered, swept, called, alive⟩
  rcases eq_or_ne m n with rfl | other
  · obtain rfl : j = key := Option.some.inj (called.symm.trans known)
    exact own
  · have standing : s.Standing m j := by
      refine ⟨?_, swept, called, alive⟩
      simpa [GroupRegistry.completed, Function.update_of_ne other] using registered
    obtain ⟨e, found, group⟩ := acc m j standing
    exact ⟨e, (others m j standing).trans found, group⟩

/-- A sweep leaves the entries it has not dealt with. -/
theorem Accounted.swept {s : GroupRegistry} (acc : s.Accounted) {registry next : ChildRegistry}
    {result : SweepResult} {probe : String → GroupProbe}
    (read : readChildRegistry s.path s.file = .ok registry)
    (swept : sweepChildRegistry probe registry = .ok (result, next)) :
    ({ s with file := .valid next }.completed .sweep (some result)).Accounted := by
  rintro n key ⟨registered, kept, called, alive⟩
  have registered : s.registered n = true := registered
  have called : (s.childOf n).conversationKey = some key := called
  simp only [GroupRegistry.completed, registered, called, Bool.true_and, Option.any_some,
    Bool.or_eq_false_iff, decide_eq_false_iff_not, not_or] at kept
  obtain ⟨e, found, group⟩ := acc n key ⟨registered, kept.1, called, alive⟩
  have present : registry.get key = some e :=
    (RegistryFile.entry_of_read read key).symm.trans found
  have denied : key ∈ result.denied := by
    rcases mem_of_sweepChildRegistry swept present with h | h | h
    · exact absurd h kept.2.1
    · exact absurd h kept.2.2
    · exact h
  refine ⟨e, ?_, group⟩
  show next.get key = some e
  rw [get_of_sweepChildRegistry swept, if_pos denied, present]

/-- A step from a state in which every child that stands is in the registry
leads to one exactly if it does not unregister a key under which a child
stands. -/
theorem accounted_step_iff {s t : GroupRegistry} {a : Action} (sound : Sound s)
    (acc : s.Accounted) (taken : step s a = some t) : t.Accounted ↔ s.KeyVacated a := by
  have both {p : Prop} (kept : t.Accounted) (vacated : p) : t.Accounted ↔ p :=
    ⟨fun _ => vacated, fun _ => kept⟩
  cases step_cases taken with
  | start c startedAt => exact both (acc.join sound c startedAt) trivial
  | sweep => exact both ((Quiet.lock s _).accounted acc) trivial
  | readFailed error lock => exact both ((Quiet.lock s _).accounted acc) trivial
  | readRewriting lock read decision => exact both ((Quiet.lock s _).accounted acc) trivial
  | rewriteFailed error lock => exact both ((Quiet.lock s _).accounted acc) trivial
  | settle result lock =>
      exact both (((Quiet.lock s _).trans (resume_quiet _ _ _ _)).accounted acc) trivial
  | exit spawned => exact both ((exit_quiet s spawned).accounted acc) trivial
  | reportExit n status => exact both ((reportExit_quiet s n status).accounted acc) trivial
  | restart => exact both acc trivial
  | @readDone job rest io probe registry result lock read decision =>
      refine both ?_ trivial
      obtain ⟨operation, stage⟩ := job
      cases operation with
      | unregister n key => exact acc
      | sweep =>
          obtain ⟨_, _, impossible⟩ := Fallible.map_eq_ok.mp decision
          simp at impossible
      | register n key entry =>
          obtain ⟨written, registering, same⟩ := Fallible.map_eq_ok.mp decision
          obtain ⟨rfl, _⟩ : written = none ∧ none = result := by simpa using same
          obtain ⟨existing, present, own⟩ := pgid_of_registerChild registering
          obtain ⟨_, called, group⟩ :=
            sound.speaks _ (lock ▸ List.mem_cons_self) n key entry rfl
          refine acc.registered s.file n entry called ⟨existing, ?_, group.trans ?_⟩
            fun _ _ _ => rfl
          · exact (RegistryFile.entry_of_read read key).trans present
          · rw [own]
  | @rewritten job rest next result lock stage =>
      obtain ⟨operation, _⟩ := job
      obtain ⟨registry, probe, read, decision⟩ :=
        sound.prepared _ (by simp [lock]) next result stage
      have found := RegistryFile.entry_of_read read
      have vacated_iff : s.KeyVacated (.rewrite (.ok ())) ↔
          ∀ n key, operation = .unregister n key → ∀ m, ¬ s.Standing m key := by
        simp [KeyVacated, lock]
      cases operation with
      | sweep =>
          refine both ?_ (vacated_iff.mpr (by simp))
          obtain ⟨⟨r, n⟩, swept, same⟩ := Fallible.map_eq_ok.mp decision
          obtain ⟨rfl, rfl⟩ : n = next ∧ some r = result := by simpa using same
          exact acc.swept read swept
      | register n key entry =>
          refine both ?_ (vacated_iff.mpr (by simp))
          obtain ⟨written, registering, same⟩ := Fallible.map_eq_ok.mp decision
          obtain ⟨rfl, _⟩ : written = some next ∧ none = result := by simpa using same
          obtain ⟨_, called, group⟩ :=
            sound.speaks _ (lock ▸ List.mem_cons_self) n key entry rfl
          refine acc.registered (.valid next) n entry called ⟨entry, ?_, group⟩
            fun m j standing => ?_
          · exact (get_of_registerChild registering key).2.trans (if_pos rfl)
          · -- Nobody stands under the key, which was free.
            obtain ⟨vacant, other⟩ := get_of_registerChild registering j
            have held : j ≠ key := by
              rintro rfl
              obtain ⟨e, present, _⟩ := acc m j standing
              simp [found, vacant] at present
            rw [found j]
            exact other.trans (if_neg (Ne.symm held))
      | unregister n key =>
          obtain ⟨removed, _⟩ : unregisterChild key registry = some next ∧ none = result := by
            simpa [RegistryOperation.decision] using decision
          have remaining := get_of_unregisterChild removed
          rw [vacated_iff]
          constructor
          · rintro kept _ _ ⟨⟩ m standing
            obtain ⟨e, present, _⟩ := kept m key standing
            have gone : next.get key = none := (remaining key).trans (if_pos rfl)
            exact absurd (gone.symm.trans present) (by simp)
          · intro vacated m j standing
            obtain ⟨e, present, group⟩ := acc m j standing
            have other : key ≠ j := fun same => vacated n key rfl m (same ▸ standing)
            refine ⟨e, ?_, group⟩
            show next.get j = some e
            rw [remaining j, if_neg other, ← found j, present]

/-- The runs throughout which the registry accounts for every child that
stands are those that unregister a key only when no child stands under
it. -/
theorem accounted_iff (path : String) (file : RegistryFile) (actions : List Action) :
    machine.Throughout Accounted (initial path file) actions ↔
      machine.EachStep KeyVacated (initial path file) actions :=
  Transition.Machine.throughout_iff_eachStep (.initial path file)
    (fun _ _ standing => absurd standing.1 (by simp [initial]))
    (fun _ _ _ sound taken => sound.step taken)
    fun _ _ _ sound acc taken => accounted_step_iff sound acc taken

/-- A second child is started under the key of a running one. Its
registration is refused, it is killed, and its exit is reported. -/
def refusedChild : List Action :=
  let key := some "4:httpa"
  [.start "omp" key (some 100) 0, .read (.ok ()) fun _ => .gone, .rewrite (.ok ()),
    .settle .delivered,
    .start "omp" key (some 200) 0, .read (.ok ()) fun _ => .gone, .settle .delivered,
    .exit 1, .reportExit 1 ⟨none, some "SIGKILL"⟩,
    .read (.ok ()) fun _ => .gone, .rewrite (.ok ())]

/-- The exit of the child that was refused takes the running one out of the
registry. -/
theorem refusedChild_unregisters_the_running_one :
    ∃ s, machine.Reachable Transition.Always s ∧ s.Standing 0 "4:httpa" ∧
      s.file.entry "4:httpa" = none ∧ ¬ s.Accounted := by
  have run : (machine.exec Transition.Always (initial "/state/children.json" .absent)
      refusedChild).map (fun s => (s.registered 0 && !s.swept 0, (s.childOf 0).conversationKey,
        (s.childOf 0).process.map Process.status, s.file.entry "4:httpa")) =
      some (true, some "4:httpa", some .running, none) := by decide +kernel
  obtain ⟨s, run, facts⟩ := Option.map_eq_some_iff.mp run
  simp only [Prod.mk.injEq, Option.map_eq_some_iff, Bool.and_eq_true,
    Bool.not_eq_true'] at facts
  obtain ⟨⟨registered, swept⟩, called, alive, gone⟩ := facts
  have standing : s.Standing 0 "4:httpa" := ⟨registered, swept, called, alive⟩
  refine ⟨s, .of_exec ⟨_, _, rfl⟩ run, standing, gone, fun acc => ?_⟩
  obtain ⟨e, present, _⟩ := acc 0 "4:httpa" standing
  exact absurd (gone.symm.trans present) (by simp)

end GroupRegistry

end OmpBundler.Core
