import OmpBundler.Core.PoolEnrolment

/-!
Which runs keep the registrations of a conversation in succession.

The calls are carried out one after another, so what stands in the file is
decided by the calls that have settled (`Filed`): an entry is held by the
child whose registration is the last to have taken effect, and never by one
whose unregistration has. A successor whose registration comes after the
unregistration of its predecessor (`Enrolled`) therefore does not find the
entry of it.
-/

namespace OmpBundler.Core

open Library

namespace RegisteredPool

/-! ### What only queues calls -/

/-- The second state differs in its children and in calls that wait behind
those of the first. -/
structure Queues (s t : RegisteredPool) : Prop where
  path : t.path = s.path
  file : t.file = s.file
  past : t.past = s.past
  holder : t.holder = s.holder
  refused : t.refused = s.refused
  lock : ∃ extra : List LockedCall, t.lock = s.lock ++ extra ∧ ∀ job ∈ extra, job.stage = .queued

namespace Queues

variable {s t u : RegisteredPool}

theorem refl (s : RegisteredPool) : Queues s s := ⟨rfl, rfl, rfl, rfl, rfl, [], by simp, by simp⟩

theorem trans (first : Queues s t) (second : Queues t u) : Queues s u := by
  obtain ⟨extra, lock, queued⟩ := first.lock
  obtain ⟨extra', lock', queued'⟩ := second.lock
  refine ⟨second.path.trans first.path, second.file.trans first.file, second.past.trans first.past,
    second.holder.trans first.holder, second.refused.trans first.refused, extra ++ extra', ?_, ?_⟩
  · rw [lock', lock, List.append_assoc]
  · intro job mem
    rcases List.mem_append.mp mem with mem | mem
    · exact queued job mem
    · exact queued' job mem

theorem children (s : RegisteredPool) (children : PooledChildren)
    (succeeded : List (ChildId × ChildId)) :
    Queues s { s with children := children, succeeded := succeeded } :=
  ⟨rfl, rfl, rfl, rfl, rfl, [], by simp, by simp⟩

theorem withRegistryLock (s : RegisteredPool) (call : RegistryCall) :
    Queues s (s.withRegistryLock call) :=
  ⟨rfl, rfl, rfl, rfl, rfl, [⟨call, .queued⟩], rfl, by simp⟩

theorem unregisterPgid (s : RegisteredPool) (c : ChildId) : Queues s (s.unregisterPgid c) := by
  unfold RegisteredPool.unregisterPgid
  split
  · exact withRegistryLock s _
  · exact refl s

theorem registerPgid (s : RegisteredPool) (k : ChildId) (startedAt : ℤ) :
    Queues s (s.registerPgid k startedAt) := by
  unfold RegisteredPool.registerPgid
  split
  · exact withRegistryLock s _
  · exact refl s

theorem foldl_spawnOne (s : RegisteredPool) (spawn : ChildId → SpawnReply) (l : List ChildId) :
    Queues s (l.foldl (spawnOne spawn) s) := by
  induction l generalizing s with
  | nil => exact refl s
  | cons k l ih =>
      refine trans ?_ (ih _)
      unfold spawnOne
      split
      · exact refl s
      · exact trans (children s _ s.succeeded) (registerPgid _ k _)

theorem childStep {a : PooledChildren.Action} {spawn : ChildId → SpawnReply}
    (taken : s.childStep a spawn = some t) : Queues s t := by
  unfold RegisteredPool.childStep at taken
  split at taken
  case isFalse => simp at taken
  case isTrue =>
      obtain ⟨p, _, rfl⟩ := Option.map_eq_some_iff.mp taken
      have spawned : Queues s ((s.children.newcomers p).foldl (spawnOne spawn) (s.follow p)) :=
        trans (children s p _) (foldl_spawnOne _ spawn _)
      cases a with
      | reportExit c status =>
          refine trans spawned ?_
          show Queues _ (RegisteredPool.unregisterOnExit _ c)
          unfold RegisteredPool.unregisterOnExit
          split
          · exact unregisterPgid _ c
          · exact refl _
      | _ => exact spawned

theorem resume (s : RegisteredPool) (result : Except String Unit) (kill : KillReply)
    (call : RegistryCall) : Queues s (s.resume result kill call) := by
  cases call with
  | unregister c key => exact children s _ s.succeeded
  | register k key entry =>
      simp only [RegisteredPool.resume]
      split
      · exact trans (children s _ s.succeeded) (unregisterPgid _ k)
      · exact children s _ s.succeeded

end Queues

/-! ### What stands in the file -/

/-- How the file, the lock and the calls that have settled fit together. -/
structure Filed (s : RegisteredPool) : Prop where
  /-- Only the first call of the lock has started. -/
  serialized : ∀ job ∈ s.lock.tail, job.stage = .queued
  prepared : ∀ job ∈ s.lock.head?, ∀ next, job.stage = .rewriting next →
    ∃ registry, readChildRegistry s.path s.file = .ok registry ∧
      job.call.decide registry = .ok (some next)
  /-- The entry under a key is that of its holder. -/
  held : ∀ key c, s.holder key = some c → ∃ entry entry',
    (.register c key entry ∈ s.past ∨ ∃ job ∈ s.lock.head?, job.call = .register c key entry) ∧
      s.file.entry key = some entry' ∧ entry'.pgid = entry.pgid
  cleared : ∀ c key, .unregister c key ∈ s.past → s.holder key ≠ some c
  clearing : ∀ job ∈ s.lock.head?, ∀ result, job.stage = .settled result →
    ∀ c key, job.call = .unregister c key → s.holder key ≠ some c
  accepted : s.refused = []

theorem Filed.queues {s t : RegisteredPool} (h : Filed s) (queues : Queues s t) : Filed t := by
  obtain ⟨extra, lock, queued⟩ := queues.lock
  have head (job : LockedCall) (mem : job ∈ t.lock.head?) :
      job ∈ s.lock.head? ∨ s.lock = [] ∧ job.stage = .queued := by
    cases front : s.lock with
    | cons first rest =>
        rw [lock, front] at mem
        exact .inl mem
    | nil =>
        refine .inr ⟨rfl, queued job ?_⟩
        rw [lock, front, List.nil_append] at mem
        exact List.mem_of_mem_head? mem
  refine ⟨?_, ?_, ?_, ?_, ?_, ?_⟩
  · intro job mem
    cases front : s.lock with
    | cons first rest =>
        rw [lock, front, List.cons_append, List.tail_cons] at mem
        rcases List.mem_append.mp mem with mem | mem
        · exact h.serialized job (by rwa [front])
        · exact queued job mem
    | nil =>
        rw [lock, front, List.nil_append] at mem
        exact queued job (List.mem_of_mem_tail mem)
  · rw [queues.path, queues.file]
    intro job mem next stage
    rcases head job mem with mem | ⟨_, waiting⟩
    · exact h.prepared job mem next stage
    · simp [waiting] at stage
  · rw [queues.holder, queues.file, queues.past]
    intro key c holds
    obtain ⟨entry, entry', done, rest⟩ := h.held key c holds
    refine ⟨entry, entry', done.imp_right ?_, rest⟩
    rintro ⟨job, mem, called⟩
    cases front : s.lock with
    | nil => simp [front] at mem
    | cons first others => exact ⟨job, by rw [lock, front]; rwa [front] at mem, called⟩
  · rw [queues.past, queues.holder]
    exact h.cleared
  · rw [queues.holder]
    intro job mem result stage
    rcases head job mem with mem | ⟨_, waiting⟩
    · exact h.clearing job mem result stage
    · simp [waiting] at stage
  · rw [queues.refused]
    exact h.accepted

/-- The key of a call. -/
def keyOf : RegistryCall → String
  | .register _ key _ | .unregister _ key => key

/-- What a call that takes effect makes of the file. -/
structure Effect (call : RegistryCall) (file file' : RegistryFile) : Prop where
  others : ∀ key, key ≠ keyOf call → file'.entry key = file.entry key
  entered : ∀ k key entry, call = .register k key entry →
    ∃ entry', file'.entry key = some entry' ∧ entry'.pgid = entry.pgid

section Effects

variable {call : RegistryCall} {path : String} {file : RegistryFile} {registry next : ChildRegistry}

theorem effect_of_none (read : readChildRegistry path file = .ok registry)
    (decided : call.decide registry = .ok none) : Effect call file file := by
  refine ⟨fun _ _ => rfl, ?_⟩
  rintro k key entry rfl
  obtain ⟨existing, present, same⟩ := pgid_of_registerChild decided
  exact ⟨existing, (RegistryFile.entry_of_read read key).trans present, same⟩

theorem effect_of_some (read : readChildRegistry path file = .ok registry)
    (decided : call.decide registry = .ok (some next)) : Effect call file (.valid next) := by
  cases call with
  | register k key entry =>
      refine ⟨fun key' other => ?_, ?_⟩
      · rw [RegistryFile.entry_of_read read]
        exact ((get_of_registerChild decided key').2).trans (if_neg fun same => other same.symm)
      · rintro _ _ _ ⟨⟩
        exact ⟨entry, ((get_of_registerChild decided key).2).trans (if_pos rfl), rfl⟩
  | unregister c key =>
      have removed : unregisterChild key registry = some next := Except.ok.inj decided
      refine ⟨fun key' other => ?_, by simp⟩
      rw [RegistryFile.entry_of_read read]
      exact (get_of_unregisterChild removed key').trans (if_neg fun same => other same.symm)

end Effects

section LockSteps

variable {s t : RegisteredPool} {job : LockedCall} {rest : List LockedCall}

/-- The call of the running job is not among those that have settled. -/
theorem Enrolled.not_unregistered {exiting : Option ChildId} (h : Enrolled s exiting)
    {k : ChildId} {key key' : String} {entry : ChildRegistryEntry}
    (waits : .register k key entry ∈ s.lock.map LockedCall.call) : .unregister k key' ∉ s.calls := by
  intro queued
  obtain ⟨e, known, registering⟩ := h.pending k key entry waits
  obtain ⟨e', known', idle⟩ := h.unregisters k key' queued
  obtain rfl := Option.some.inj (known.symm.trans known')
  simp [registering] at idle

theorem Filed.completed (h : Filed s) (enrolled : Enrolled s none) (lock : s.lock = job :: rest)
    {file : RegistryFile} (effect : Effect job.call s.file file) :
    Filed ({ s with file := file, lock := ⟨job.call, .settled (.ok ())⟩ :: rest }.completed job.call) := by
  have serialized : ∀ j ∈ rest, j.stage = .queued := by
    have all := h.serialized
    rwa [lock] at all
  have waits : job.call ∈ s.lock.map LockedCall.call := by
    rw [lock]
    exact List.mem_cons_self
  -- What another key held before, it still holds.
  have kept {key : String} {c : ChildId} (other : key ≠ keyOf job.call)
      (holds : s.holder key = some c) : ∃ entry entry', .register c key entry ∈ s.past ∧
        file.entry key = some entry' ∧ entry'.pgid = entry.pgid := by
    obtain ⟨entry, entry', done, present, same⟩ := h.held key c holds
    refine ⟨entry, entry', done.resolve_right ?_, (effect.others key other).trans present, same⟩
    rintro ⟨first, mem, called⟩
    rw [lock, List.head?_cons] at mem
    obtain rfl := Option.some.inj mem
    exact other (by rw [called, keyOf])
  cases called : job.call with
  | register k key entry =>
      rw [called] at waits effect kept
      refine ⟨serialized, ?_, ?_, ?_, ?_, h.accepted⟩
      · rintro _ ⟨⟩ next stage
        simp at stage
      · intro key' c holds
        by_cases same : key' = key
        · subst same
          obtain rfl : k = c := by simpa [RegisteredPool.completed] using holds
          obtain ⟨entry', present, group⟩ := effect.entered k key' entry rfl
          exact ⟨entry, entry', .inr ⟨_, rfl, rfl⟩, present, group⟩
        · obtain ⟨entry₁, entry₂, done, present⟩ := kept same
            (by simpa [RegisteredPool.completed, Function.update_of_ne same] using holds)
          exact ⟨entry₁, entry₂, .inl done, present⟩
      · intro c key' settled holds
        by_cases same : key' = key
        · subst same
          obtain rfl : k = c := by simpa [RegisteredPool.completed] using holds
          exact enrolled.not_unregistered waits (List.mem_append_left _ settled)
        · exact h.cleared c key' settled
            (by simpa [RegisteredPool.completed, Function.update_of_ne same] using holds)
      · rintro _ ⟨⟩ result _ c key' other
        simp at other
  | unregister d key =>
      rw [called] at kept
      have gone (c : ChildId) (key' : String) (holds : Function.update s.holder key none key' = some c) :
          key' ≠ key ∧ s.holder key' = some c := by
        by_cases same : key' = key
        · simp [same] at holds
        · exact ⟨same, by rwa [Function.update_of_ne same] at holds⟩
      refine ⟨serialized, ?_, ?_, ?_, ?_, h.accepted⟩
      · rintro _ ⟨⟩ next stage
        simp at stage
      · intro key' c holds
        obtain ⟨other, holds⟩ := gone c key' holds
        obtain ⟨entry₁, entry₂, done, present⟩ := kept other holds
        exact ⟨entry₁, entry₂, .inl done, present⟩
      · intro c key' settled holds
        exact h.cleared c key' settled (gone c key' holds).2
      · rintro _ ⟨⟩ result _ c key' same holds
        obtain ⟨_, rfl⟩ := RegistryCall.unregister.inj same
        exact (gone c key holds).1 rfl

/-- The running call comes to a stage that changes nothing else. -/
theorem Filed.stage (h : Filed s) (lock : s.lock = job :: rest) {stage : CallStage}
    (prepared : ∀ next, stage = .rewriting next → ∃ registry,
      readChildRegistry s.path s.file = .ok registry ∧ job.call.decide registry = .ok (some next))
    (clearing : ∀ result, stage = .settled result → ∀ c key, job.call = .unregister c key →
      s.holder key ≠ some c) :
    Filed { s with lock := ⟨job.call, stage⟩ :: rest } := by
  refine ⟨?_, ?_, ?_, h.cleared, ?_, h.accepted⟩
  · have all := h.serialized
    rwa [lock] at all
  · rintro _ ⟨⟩
    exact prepared
  · intro key c holds
    obtain ⟨entry, entry', done, present⟩ := h.held key c holds
    refine ⟨entry, entry', done.imp_right ?_, present⟩
    rintro ⟨first, mem, called⟩
    rw [lock, List.head?_cons] at mem
    obtain rfl := Option.some.inj mem
    exact ⟨_, rfl, called⟩
  · rintro _ ⟨⟩
    exact clearing

/-- A registration that finds the entry of its predecessor comes after the
unregistration of it, and that has removed the entry. -/
theorem Filed.refuse (h : Filed s) (enrolled : Enrolled s none) (lock : s.lock = job :: rest) :
    (s.refuse job.call).refused = s.refused := by
  cases called : job.call with
  | unregister c key => rfl
  | register k key entry =>
      show s.refused ++ _ = s.refused
      rw [List.append_right_eq_self, List.map_eq_nil_iff, List.filter_eq_nil_iff]
      intro c mem
      rw [decide_eq_true_eq]
      intro succeeds
      have holds : s.holder key = some c := by simpa using mem
      obtain ⟨distinct, _⟩ := enrolled.predecessors c k succeeds
      obtain ⟨entry', _, done, _⟩ := h.held key c holds
      have past : .register c key entry' ∈ s.past := by
        refine done.resolve_right ?_
        rintro ⟨first, first_mem, same⟩
        rw [lock, List.head?_cons] at first_mem
        obtain rfl := Option.some.inj first_mem
        rw [called] at same
        exact distinct (RegistryCall.register.inj same).1.symm
      have split : s.calls = s.past ++ .register k key entry :: rest.map LockedCall.call := by
        rw [calls, lock, List.map_cons, called]
      exact h.cleared c key (enrolled.ordered c k succeeds _ _ _ _ entry' split past) holds

theorem Filed.refused (h : Filed s) (enrolled : Enrolled s none) (lock : s.lock = job :: rest)
    (error : String) (decided : ∃ registry, job.call.decide registry = .error error) :
    Filed ({ s with lock := ⟨job.call, .settled (.error error)⟩ :: rest }.refuse job.call) := by
  have none := h.refuse enrolled lock
  cases called : job.call with
  | unregister c key =>
      obtain ⟨registry, decided⟩ := decided
      simp [called, RegistryCall.decide] at decided
  | register k key entry =>
      rw [called] at none
      have settled : Filed { s with lock := ⟨job.call, .settled (.error error)⟩ :: rest } :=
        h.stage lock nofun fun _ _ c key' same => by simp [called] at same
      rw [called] at settled
      exact ⟨settled.serialized, settled.prepared, settled.held, settled.cleared, settled.clearing,
        none.trans h.accepted⟩

theorem Filed.read (h : Filed s) (enrolled : Enrolled s none) {io : Except String Unit}
    (first : s.ExitsFirst (.read io)) (lock : s.lock = job :: rest)
    (taken : s.read job rest io = some t) : Filed t := by
  have succeeds (c : ChildId) (key : String) (called : job.call = .unregister c key) : io = .ok () :=
    first job (by rw [lock]; rfl) c key called
  unfold RegisteredPool.read at taken
  split at taken
  case h_2 => simp at taken
  case h_1 =>
      split at taken
      case h_1 error =>
          obtain rfl := Option.some.inj taken
          refine h.stage lock (by simp) fun _ _ c key called => ?_
          simpa using succeeds c key called
      case h_2 error unreadable =>
          obtain rfl := Option.some.inj taken
          refine h.stage lock (by simp) fun _ _ c key called holds => ?_
          obtain ⟨_, entry', _, present, _⟩ := h.held key c holds
          cases file : s.file with
          | valid registry =>
              rw [file] at unreadable
              simp [readChildRegistry] at unreadable
          | _ => simp [file, RegistryFile.entry] at present
      case h_3 registry readable =>
          split at taken
          case h_1 error decided =>
              obtain rfl := Option.some.inj taken
              exact h.refused enrolled lock error ⟨registry, decided⟩
          case h_2 decided =>
              obtain rfl := Option.some.inj taken
              exact h.completed enrolled lock (effect_of_none readable decided)
          case h_3 next decided =>
              obtain rfl := Option.some.inj taken
              refine h.stage lock (fun next' same => ?_) (by simp)
              obtain rfl := CallStage.rewriting.inj same
              exact ⟨registry, readable, decided⟩

theorem Filed.rewrite (h : Filed s) (enrolled : Enrolled s none) {io : Except String Unit}
    (first : s.ExitsFirst (.rewrite io)) (lock : s.lock = job :: rest)
    (taken : s.rewrite job rest io = some t) : Filed t := by
  unfold RegisteredPool.rewrite at taken
  split at taken
  case h_1 next _ stage =>
      obtain rfl := Option.some.inj taken
      obtain ⟨registry, readable, decided⟩ := h.prepared job (by rw [lock]; rfl) next stage
      exact h.completed enrolled lock (effect_of_some readable decided)
  case h_2 next error _ =>
      obtain rfl := Option.some.inj taken
      refine h.stage lock nofun fun _ _ c key called => ?_
      simpa using first job (by rw [lock]; rfl) c key called
  case h_3 => simp at taken

theorem Filed.settle (h : Filed s) {kill : KillReply} (lock : s.lock = job :: rest)
    (taken : s.settle job rest kill = some t) : Filed t := by
  unfold RegisteredPool.settle at taken
  split at taken
  case h_2 => simp at taken
  case h_1 result stage =>
      obtain rfl := Option.some.inj taken
      refine Filed.queues ?_ (Queues.resume _ result kill job.call)
      have serialized : ∀ j ∈ rest, j.stage = .queued := by
        have all := h.serialized
        rwa [lock] at all
      have waiting (j : LockedCall) (mem : j ∈ rest.head?) : j.stage = .queued :=
        serialized j (List.mem_of_mem_head? mem)
      refine ⟨fun j mem => serialized j (List.mem_of_mem_tail mem), ?_, ?_, ?_, ?_, h.accepted⟩
      · intro j mem next stage'
        simp [waiting j mem] at stage'
      · intro key c holds
        obtain ⟨entry, entry', done, present⟩ := h.held key c holds
        refine ⟨entry, entry', .inl ?_, present⟩
        rcases done with past | ⟨first, mem, called⟩
        · exact List.mem_append_left _ past
        · rw [lock, List.head?_cons] at mem
          obtain rfl := Option.some.inj mem
          exact List.mem_append_right _ (List.mem_singleton.mpr called.symm)
      · intro c key mem
        rcases List.mem_append.mp mem with mem | mem
        · exact h.cleared c key mem
        · exact h.clearing job (by rw [lock]; rfl) result stage c key (List.mem_singleton.mp mem).symm
      · intro j mem result stage'
        simp [waiting j mem] at stage'

/-- The stage of the running call does not matter to what is queued. -/
theorem Enrolled.read (h : Enrolled s none) {io : Except String Unit} (lock : s.lock = job :: rest)
    (taken : s.read job rest io = some t) : Enrolled t none := by
  have same (stage : CallStage) : (⟨job.call, stage⟩ :: rest).map LockedCall.call =
      s.lock.map LockedCall.call := by rw [lock, List.map_cons, List.map_cons]
  have stage (stage : CallStage) : Enrolled { s with lock := ⟨job.call, stage⟩ :: rest } none :=
    h.congr (fun _ => rfl) (same stage) rfl rfl
  unfold RegisteredPool.read at taken
  split at taken
  case h_2 => simp at taken
  case h_1 =>
      split at taken
      case h_1 | h_2 => exact Option.some.inj taken ▸ stage _
      case h_3 =>
          split at taken
          case h_1 error _ =>
              obtain rfl := Option.some.inj taken
              refine (stage (.settled (.error error))).congr ?_ ?_ ?_ ?_ <;> cases job.call <;> simp [RegisteredPool.refuse]
          case h_2 =>
              obtain rfl := Option.some.inj taken
              refine (stage (.settled (.ok ()))).congr ?_ ?_ ?_ ?_ <;> cases job.call <;> simp [RegisteredPool.completed]
          case h_3 => exact Option.some.inj taken ▸ stage _

theorem Enrolled.rewrite (h : Enrolled s none) {io : Except String Unit} (lock : s.lock = job :: rest)
    (taken : s.rewrite job rest io = some t) : Enrolled t none := by
  have same (stage : CallStage) : (⟨job.call, stage⟩ :: rest).map LockedCall.call =
      s.lock.map LockedCall.call := by rw [lock, List.map_cons, List.map_cons]
  unfold RegisteredPool.rewrite at taken
  split at taken
  case h_1 next _ _ =>
      obtain rfl := Option.some.inj taken
      refine Enrolled.congr h ?_ ?_ ?_ ?_ <;> cases called : job.call <;>
        simp [RegisteredPool.completed, lock, called]
  case h_2 error _ =>
      obtain rfl := Option.some.inj taken
      exact h.congr (fun _ => rfl) (same _) rfl rfl
  case h_3 => simp at taken

end LockSteps

/-! ### Runs -/

/-- What holds in every state of a run in which exits come first. -/
theorem step_kept {s t : RegisteredPool} {a : Action} (enrolled : Enrolled s none) (filed : Filed s)
    (first : s.ExitsFirst a) (taken : step s a = some t) : Enrolled t none ∧ Filed t := by
  cases a with
  | child action spawn =>
      exact ⟨enrolled.childStep taken first, filed.queues (Queues.childStep taken)⟩
  | ready c =>
      obtain rfl := Option.some.inj taken
      have same := PooledChildren.enrolmentOf_update (s := s.children) (c := c)
        fun r _ => r.enrolment_onReady
      exact ⟨enrolled.congr same rfl rfl rfl, filed.queues (.children s _ _)⟩
  | readyTimeout c kill =>
      obtain rfl := Option.some.inj taken
      have same := PooledChildren.enrolmentOf_update (s := s.children) (c := c)
        fun r _ => r.enrolment_readyTimeout kill
      exact ⟨enrolled.congr same rfl rfl rfl, filed.queues (.children s _ _)⟩
  | read io =>
      simp only [step] at taken
      split at taken
      case h_2 => simp at taken
      case h_1 job rest lock => exact ⟨enrolled.read lock taken, filed.read enrolled first lock taken⟩
  | rewrite io =>
      simp only [step] at taken
      split at taken
      case h_2 => simp at taken
      case h_1 job rest lock =>
          exact ⟨enrolled.rewrite lock taken, filed.rewrite enrolled first lock taken⟩
  | settle kill =>
      simp only [step] at taken
      split at taken
      case h_2 => simp at taken
      case h_1 job rest lock => exact ⟨enrolled.settle lock taken, filed.settle lock taken⟩

/-- In a run in which exits come first, the registrations of a conversation
are in succession. -/
theorem inSuccession_of_exitsFirst (s : RegisteredPool) (reach : machine.Reachable ExitsFirst s) :
    s.InSuccession := by
  have both : Enrolled s none ∧ Filed s := by
    refine reach.invariant (I := fun s => Enrolled s none ∧ Filed s) ?_ fun s a t both first taken =>
      step_kept both.1 both.2 first taken
    rintro _ ⟨maxChildren, path, file, _, rfl⟩
    constructor
    · constructor <;> simp [initial, calls, PooledChildren.enrolmentOf, PooledChildren.initial]
    · constructor <;> simp [initial]
  exact ⟨both.1.ordered, both.2.accepted⟩

/-! ### A child that exits under its caller -/

/-- The action of a pool whose processes get the groups 100, 101 and so on. -/
def poolCalls (a : PoolManager.Action) : Action := .child (.pool (.pool a)) fun k => ⟨"omp", some (100 + k), 0⟩

def childCalls (a : PooledChildren.Action) : Action := .child a fun k => ⟨"omp", some (100 + k), 0⟩

/-- A conversation leases a child. -/
def leaseChild : List Action :=
  let a : Conversation := ⟨"http", "a"⟩
  [poolCalls (.acquire a none), .read (.ok ()), .rewrite (.ok ()), .settle .delivered, .ready 0,
    poolCalls (.spawned 0 .done), poolCalls (.attached 0 .done), poolCalls (.finished 0),
    poolCalls (.resume 0 (.acquireNew ⟨a, 0⟩))]

/-- A second caller of the conversation waits when the child exits: its
registration is queued by the exit event, before the unregistration. -/
def exitBeforeWaiter : List Action :=
  leaseChild ++ [poolCalls (.acquire ⟨"http", "a"⟩ none), childCalls (.exit 0),
    childCalls (.reportExit 0 ⟨some 1, none⟩), .read (.ok ())]

theorem successor_refused : ¬ ∀ s, machine.Reachable Transition.Always s → s.InSuccession := by
  intro literal
  have run : (machine.exec Transition.Always (initial 1 "children.json" .absent)
      exitBeforeWaiter).map refused = some [(0, 1)] := by decide +kernel
  obtain ⟨s, run, refused⟩ := Option.map_eq_some_iff.mp run
  have accepted := (literal s (.of_exec ⟨1, _, _, Nat.one_pos, rfl⟩ run)).accepted
  simp [refused] at accepted

instance (s : RegisteredPool) (a : Action) : Decidable (s.ExitsFirst a) :=
  match a with
  | .child action _ => inferInstanceAs (Decidable (∀ t ∈ PooledChildren.step s.children action,
      ∀ k ∈ s.children.newcomers t, ∀ c ∈ t.predecessors k, s.children.Reported c))
  | .read (.ok ()) | .rewrite (.ok ()) => isTrue fun _ _ _ _ _ => rfl
  | .read (.error _) | .rewrite (.error _) =>
      decidable_of_iff (∀ job ∈ s.lock.head?, registrant job.call ≠ none) <| by
        simp only [ExitsFirst]
        refine forall₂_congr fun job _ => ?_
        cases job.call <;> simp [registrant]
  | .ready _ | .readyTimeout .. | .settle _ => isTrue trivial

/-- The child exits before the second caller comes. -/
def exitBeforeCall : List Action :=
  leaseChild ++ [childCalls (.exit 0), childCalls (.reportExit 0 ⟨some 1, none⟩),
    poolCalls (.acquire ⟨"http", "a"⟩ none), .read (.ok ()), .rewrite (.ok ()), .settle .delivered,
    .read (.ok ()), .rewrite (.ok ()), .settle .delivered]

theorem successor_registered : ∃ s : RegisteredPool,
    s.succeeded = [(0, 1)] ∧ s.holder "4:httpa" = some 1 ∧ s.InSuccession := by
  have run : (machine.exec ExitsFirst (initial 1 "children.json" .absent) exitBeforeCall).map
      (fun s => (s.succeeded, s.holder "4:httpa")) = some ([(0, 1)], some 1) := by decide +kernel
  obtain ⟨s, run, facts⟩ := Option.map_eq_some_iff.mp run
  obtain ⟨succeeds, holds⟩ := Prod.mk.inj facts
  exact ⟨s, succeeds, holds, inSuccession_of_exitsFirst s (.of_exec ⟨1, _, _, Nat.one_pos, rfl⟩ run)⟩

end RegisteredPool

end OmpBundler.Core
