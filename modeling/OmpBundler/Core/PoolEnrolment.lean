import OmpBundler.Core.ChildEnrolment

/-!
What is queued for the children of the pool.

An invariant (`Enrolled`) says which calls have been made for a child of
each standing: above all, that the exit of a child which has registered is
followed by its unregistration. While an exit is being handled it holds of
all children but the one that exits, for the creations that the exit makes
room for come before its own unregistration.
-/

namespace OmpBundler.Core

open Library

namespace RegisteredPool

/-! ### What is queued for whom -/

/-- The child that a call registers. -/
def registrant : RegistryCall → Option ChildId
  | .register k _ _ => some k
  | .unregister .. => none

section Order

variable {α : Type} {l before after : List α} {x y : α}

/-- Where an element stands after one has been appended. -/
theorem split_concat (split : l ++ [x] = before ++ y :: after) :
    (l = before ∧ x = y ∧ after = []) ∨ ∃ front, l = before ++ y :: front := by
  rcases List.eq_nil_or_concat after with rfl | ⟨front, last, rfl⟩
  · obtain ⟨same, last⟩ := List.append_inj' split rfl
    exact .inl ⟨same, (List.cons.inj last).1, rfl⟩
  · refine .inr ⟨front, ?_⟩
    rw [List.concat_eq_append, ← List.cons_append, ← List.append_assoc] at split
    exact (List.append_inj' split rfl).1

end Order

/-- How the calls and the standings of the children fit together; `exiting`
is a child whose exit is being handled. -/
structure Enrolled (s : RegisteredPool) (exiting : Option ChildId) : Prop where
  registers : ∀ k key entry, .register k key entry ∈ s.calls →
    ∃ e, s.children.enrolmentOf k = some e ∧ e.key = some key
  once : (s.calls.filterMap registrant).Nodup
  /-- A registration that has not settled is that of a child which waits for
  it. -/
  pending : ∀ k key entry, .register k key entry ∈ s.lock.map LockedCall.call →
    ∃ e, s.children.enrolmentOf k = some e ∧ e.registering = true
  unregisters : ∀ c key, .unregister c key ∈ s.calls →
    ∃ e, s.children.enrolmentOf c = some e ∧ e.registering = false
  during : ∀ c e, s.children.enrolmentOf c = some e → e.reported = true → e.registering = true →
    e.exitDuringRegister = true
  /-- The exit of a child that has registered is followed by its
  unregistration. -/
  withdrawn : ∀ c e key, s.children.enrolmentOf c = some e → some c ≠ exiting → e.key = some key →
    e.reported = true → e.registering = false → e.failed = false → .unregister c key ∈ s.calls
  predecessors : ∀ c k, (c, k) ∈ s.succeeded → c ≠ k ∧ some c ≠ exiting ∧
    ∃ e, s.children.enrolmentOf c = some e ∧ e.reported = true ∧ e.registering = false ∧
      e.failed = false
  ordered : ∀ c k, (c, k) ∈ s.succeeded → ∀ before after key entry entry',
    s.calls = before ++ .register k key entry :: after → .register c key entry' ∈ before →
      .unregister c key ∈ before

namespace Enrolled

variable {s t : RegisteredPool} {exiting : Option ChildId}

/-- A state that differs in nothing that counts. -/
theorem congr (h : Enrolled s exiting)
    (same : ∀ c, t.children.enrolmentOf c = s.children.enrolmentOf c)
    (lock : t.lock.map LockedCall.call = s.lock.map LockedCall.call) (past : t.past = s.past)
    (succeeded : t.succeeded = s.succeeded) : Enrolled t exiting := by
  have calls : t.calls = s.calls := by rw [RegisteredPool.calls, RegisteredPool.calls, past, lock]
  constructor
  · rw [calls]
    simpa only [same] using h.registers
  · rw [calls]
    exact h.once
  · rw [lock]
    simpa only [same] using h.pending
  · rw [calls]
    simpa only [same] using h.unregisters
  · simpa only [same] using h.during
  · rw [calls]
    simpa only [same] using h.withdrawn
  · rw [succeeded]
    simpa only [same] using h.predecessors
  · rw [succeeded, calls]
    exact h.ordered

theorem calls_withRegistryLock (s : RegisteredPool) (call : RegistryCall) :
    (s.withRegistryLock call).calls = s.calls ++ [call] := by
  simp [calls]

/-- The unregistration of a child that is not registering is queued. -/
theorem unregister (h : Enrolled s exiting) {c : ChildId} {e : Enrolment} {key : String}
    (known : s.children.enrolmentOf c = some e) (idle : e.registering = false) :
    Enrolled (s.withRegistryLock (.unregister c key)) exiting := by
  have calls := calls_withRegistryLock s (.unregister c key)
  have lock : (s.withRegistryLock (.unregister c key)).lock.map LockedCall.call =
      s.lock.map LockedCall.call ++ [.unregister c key] := by simp
  constructor
  · rw [calls]
    intro k key' entry mem
    rw [List.mem_append, List.mem_singleton] at mem
    exact h.registers k key' entry (mem.resolve_right (by simp))
  · rw [calls, List.filterMap_append]
    show (s.calls.filterMap registrant ++ []).Nodup
    rw [List.append_nil]
    exact h.once
  · rw [lock]
    intro k key' entry mem
    rw [List.mem_append, List.mem_singleton] at mem
    exact h.pending k key' entry (mem.resolve_right (by simp))
  · rw [calls]
    intro d key' mem
    rw [List.mem_append, List.mem_singleton] at mem
    rcases mem with mem | same
    · exact h.unregisters d key' mem
    · obtain ⟨rfl, _⟩ := RegistryCall.unregister.inj same
      exact ⟨e, known, idle⟩
  · exact h.during
  · rw [calls]
    exact fun d e key known other keyed reported idle started =>
      List.mem_append_left _ (h.withdrawn d e key known other keyed reported idle started)
  · exact h.predecessors
  · rw [calls]
    intro d k succeeds before after key' entry entry' split mem
    rcases split_concat split with ⟨_, same, _⟩ | ⟨front, earlier⟩
    · simp at same
    · exact h.ordered d k succeeds before front key' entry entry' earlier mem

/-- A child that has been spawned, without its registration. -/
theorem spawned (h : Enrolled s exiting) {k : ChildId} {e : Enrolment} {children : PooledChildren}
    (fresh : s.children.enrolmentOf k = none) (known : children.enrolmentOf k = some e)
    (unreported : e.reported = false)
    (others : ∀ d, d ≠ k → children.enrolmentOf d = s.children.enrolmentOf d) :
    Enrolled { s with children := children } exiting := by
  have kept {d : ChildId} {e' : Enrolment} (before : s.children.enrolmentOf d = some e') :
      children.enrolmentOf d = some e' := by
    rw [others d ?_, before]
    rintro rfl
    rw [fresh] at before
    simp at before
  have back {d : ChildId} {e' : Enrolment} (after : children.enrolmentOf d = some e')
      (reported : e'.reported = true) : s.children.enrolmentOf d = some e' := by
    rw [← others d ?_, after]
    rintro rfl
    rw [known] at after
    obtain rfl := Option.some.inj after
    simp [unreported] at reported
  constructor
  · intro d key entry mem
    obtain ⟨e', before, keyed⟩ := h.registers d key entry mem
    exact ⟨e', kept before, keyed⟩
  · exact h.once
  · intro d key entry mem
    obtain ⟨e', before, registering⟩ := h.pending d key entry mem
    exact ⟨e', kept before, registering⟩
  · intro d key mem
    obtain ⟨e', before, idle⟩ := h.unregisters d key mem
    exact ⟨e', kept before, idle⟩
  · exact fun d e' after reported => h.during d e' (back after reported) reported
  · exact fun d e' key after other keyed reported =>
      h.withdrawn d e' key (back after reported) other keyed reported
  · intro c k' succeeds
    obtain ⟨distinct, other, e', before, rest⟩ := h.predecessors c k' succeeds
    exact ⟨distinct, other, e', kept before, rest⟩
  · exact h.ordered

/-- The registration of a child that has been spawned is queued. What is due
for its predecessors has been queued before. -/
theorem register (h : Enrolled s exiting) {k : ChildId} {e : Enrolment} {key : String}
    {entry : ChildRegistryEntry} (fresh : ∀ key entry, .register k key entry ∉ s.calls)
    (known : s.children.enrolmentOf k = some e) (keyed : e.key = some key)
    (registering : e.registering = true) :
    Enrolled (s.withRegistryLock (.register k key entry)) exiting := by
  have calls := calls_withRegistryLock s (.register k key entry)
  have lock : (s.withRegistryLock (.register k key entry)).lock.map LockedCall.call =
      s.lock.map LockedCall.call ++ [.register k key entry] := by simp
  constructor
  · rw [calls]
    intro d key' entry' mem
    rw [List.mem_append, List.mem_singleton] at mem
    rcases mem with mem | same
    · exact h.registers d key' entry' mem
    · obtain ⟨rfl, rfl, _⟩ := RegistryCall.register.inj same
      exact ⟨e, known, keyed⟩
  · rw [calls, List.filterMap_append]
    show (s.calls.filterMap registrant ++ [k]).Nodup
    refine List.nodup_append.mpr ⟨h.once, List.nodup_singleton k, ?_⟩
    intro d mem _ same
    obtain rfl := List.mem_singleton.mp same
    rintro rfl
    obtain ⟨call, call_mem, registers⟩ := List.mem_filterMap.mp mem
    cases call with
    | unregister => simp [registrant] at registers
    | register d key' entry' =>
        obtain rfl := Option.some.inj registers
        exact fresh key' entry' call_mem
  · rw [lock]
    intro d key' entry' mem
    rw [List.mem_append, List.mem_singleton] at mem
    rcases mem with mem | same
    · exact h.pending d key' entry' mem
    · obtain ⟨rfl, _, _⟩ := RegistryCall.register.inj same
      exact ⟨e, known, registering⟩
  · rw [calls]
    intro d key' mem
    rw [List.mem_append, List.mem_singleton] at mem
    exact h.unregisters d key' (mem.resolve_right (by simp))
  · exact h.during
  · rw [calls]
    exact fun d e' key' known other keyed reported idle started =>
      List.mem_append_left _ (h.withdrawn d e' key' known other keyed reported idle started)
  · exact h.predecessors
  · rw [calls]
    intro c k' succeeds before after key' entry₁ entry₂ split mem
    rcases split_concat split with ⟨rfl, same, _⟩ | ⟨front, earlier⟩
    · obtain ⟨_, other, e', known', reported, idle, started⟩ := h.predecessors c k' succeeds
      obtain ⟨e₂, known₂, keyed₂⟩ := h.registers c key' entry₂ mem
      obtain rfl := Option.some.inj (known'.symm.trans known₂)
      exact h.withdrawn c e' key' known' other keyed₂ reported idle started
    · exact h.ordered c k' succeeds before front key' entry₁ entry₂ earlier mem

/-- The factory of a creation. -/
theorem spawnOne (h : Enrolled s exiting) (spawn : ChildId → SpawnReply) (k : ChildId) :
    Enrolled (RegisteredPool.spawnOne spawn s k) exiting := by
  unfold RegisteredPool.spawnOne
  split
  case h_1 => exact h
  case h_2 t taken =>
      obtain ⟨fresh, others, r, known, enrolment⟩ := PooledChildren.enrolmentOf_spawn taken
      have known' : t.enrolmentOf k = some r.enrolment := by simp [PooledChildren.enrolmentOf, known]
      have spawned : Enrolled { s with children := t } exiting :=
        h.spawned fresh known' (by rw [enrolment]) others
      simp only [registerPgid, known, Option.bind_some]
      split
      case h_2 => exact spawned
      case h_1 key entry configured =>
          have keyed := RpcChild.registryKey_of_entry configured
          refine spawned.register ?_ known' (by rw [enrolment, keyed]) (by rw [enrolment, keyed]; rfl)
          intro key' entry' mem
          obtain ⟨e, before, _⟩ := h.registers k key' entry' mem
          rw [fresh] at before
          simp at before

theorem foldl_spawnOne (h : Enrolled s exiting) (spawn : ChildId → SpawnReply) (l : List ChildId) :
    Enrolled (l.foldl (RegisteredPool.spawnOne spawn) s) exiting := by
  induction l generalizing s with
  | nil => exact h
  | cons k l ih => exact ih (h.spawnOne spawn k)

/-- An exit is reported: its unregistration is still to come. -/
theorem exits (h : Enrolled s none) {c : ChildId} {e : Enrolment} {children : PooledChildren}
    (before : s.children.enrolmentOf c = some e) (unreported : e.reported = false)
    (after : children.enrolmentOf c = some { e with
      exitDuringRegister := e.exitDuringRegister || e.registering, reported := true })
    (others : ∀ d, d ≠ c → children.enrolmentOf d = s.children.enrolmentOf d) :
    Enrolled { s with children := children } (some c) := by
  have moved {d : ChildId} {e' : Enrolment} (known : s.children.enrolmentOf d = some e') :
      ∃ e'', children.enrolmentOf d = some e'' ∧ e''.key = e'.key ∧
        e''.registering = e'.registering := by
    by_cases here : d = c
    · subst here
      obtain rfl := Option.some.inj (before.symm.trans known)
      exact ⟨_, after, rfl, rfl⟩
    · exact ⟨e', by rw [others d here, known], rfl, rfl⟩
  constructor
  · intro d key entry mem
    obtain ⟨e', known, keyed⟩ := h.registers d key entry mem
    obtain ⟨e'', known', same, _⟩ := moved known
    exact ⟨e'', known', same.trans keyed⟩
  · exact h.once
  · intro d key entry mem
    obtain ⟨e', known, registering⟩ := h.pending d key entry mem
    obtain ⟨e'', known', _, same⟩ := moved known
    exact ⟨e'', known', same.trans registering⟩
  · intro d key mem
    obtain ⟨e', known, idle⟩ := h.unregisters d key mem
    obtain ⟨e'', known', _, same⟩ := moved known
    exact ⟨e'', known', same.trans idle⟩
  · intro d e' known reported registering
    by_cases here : d = c
    · subst here
      obtain rfl := Option.some.inj (after.symm.trans known)
      simp only at registering
      simp [registering]
    · exact h.during d e' (others d here ▸ known) reported registering
  · intro d e' key known other
    have here : d ≠ c := fun same => other (by rw [same])
    exact h.withdrawn d e' key (others d here ▸ known) nofun
  · intro d k succeeds
    obtain ⟨distinct, _, e', known, reported, rest⟩ := h.predecessors d k succeeds
    have here : d ≠ c := by
      rintro rfl
      obtain rfl := Option.some.inj (before.symm.trans known)
      simp [unreported] at reported
    exact ⟨distinct, by simpa using here, e', by rw [others d here, known], reported, rest⟩
  · exact h.ordered

/-- Its unregistration has been queued, or is left to `start`. -/
theorem exited (h : Enrolled s exiting) {c : ChildId} (exits : exiting = some c)
    (queued : ∀ e key, s.children.enrolmentOf c = some e → e.key = some key → e.reported = true →
      e.registering = false → e.failed = false → .unregister c key ∈ s.calls) : Enrolled s none where
  registers := h.registers
  once := h.once
  pending := h.pending
  unregisters := h.unregisters
  during := h.during
  withdrawn d e key known _ keyed reported idle started := by
    by_cases here : d = c
    · subst here
      exact queued e key known keyed reported idle started
    · exact h.withdrawn d e key known (by simpa [exits] using here) keyed reported idle started
  predecessors d k succeeds := by
    obtain ⟨distinct, _, rest⟩ := h.predecessors d k succeeds
    exact ⟨distinct, nofun, rest⟩
  ordered := h.ordered

/-- New creations, with their predecessors. -/
theorem succeed (h : Enrolled s exiting) {pairs : List (ChildId × ChildId)}
    (predecessors : ∀ c k, (c, k) ∈ pairs → c ≠ k ∧ some c ≠ exiting ∧
      ∃ e, s.children.enrolmentOf c = some e ∧ e.reported = true ∧ e.registering = false ∧
        e.failed = false)
    (fresh : ∀ c k, (c, k) ∈ pairs → s.children.enrolmentOf k = none) :
    Enrolled { s with succeeded := s.succeeded ++ pairs } exiting where
  registers := h.registers
  once := h.once
  pending := h.pending
  unregisters := h.unregisters
  during := h.during
  withdrawn := h.withdrawn
  predecessors c k succeeds := by
    rcases List.mem_append.mp succeeds with old | new
    · exact h.predecessors c k old
    · exact predecessors c k new
  ordered c k succeeds before after key entry entry' split mem := by
    rcases List.mem_append.mp succeeds with old | new
    · exact h.ordered c k old before after key entry entry' split mem
    · have queued : .register k key entry ∈ s.calls := by
        rw [show s.calls = _ from split]
        exact List.mem_append_right _ List.mem_cons_self
      obtain ⟨e, known, _⟩ := h.registers k key entry queued
      rw [fresh c k new] at known
      simp at known

/-- The end of the exit handler. -/
theorem unregisterOnExit {c : ChildId} (h : Enrolled s (some c)) :
    Enrolled (s.unregisterOnExit c) none := by
  cases known : s.children.rpc c with
  | none =>
      have same : s.unregisterOnExit c = s := by simp [RegisteredPool.unregisterOnExit, known]
      rw [same]
      refine h.exited rfl fun e key there => ?_
      simp [PooledChildren.enrolmentOf, known] at there
  | some r =>
      have there : s.children.enrolmentOf c = some r.enrolment := by
        simp [PooledChildren.enrolmentOf, known]
      cases registering : r.registering with
      | true =>
          have same : s.unregisterOnExit c = s := by
            simp [RegisteredPool.unregisterOnExit, known, RpcChild.unregistersOnExit, registering]
          rw [same]
          refine h.exited rfl fun e key there' _ _ idle _ => ?_
          obtain rfl := Option.some.inj (there.symm.trans there')
          rw [show r.enrolment.registering = r.registering from rfl, registering] at idle
          simp at idle
      | false =>
          have runs : s.unregisterOnExit c = s.unregisterPgid c := by
            simp [RegisteredPool.unregisterOnExit, known, RpcChild.unregistersOnExit, registering]
          rw [runs, unregisterPgid, known, Option.bind_some]
          cases keyed : r.registryKey with
          | none =>
              refine h.exited rfl fun e key there' keyed' _ _ _ => ?_
              obtain rfl := Option.some.inj (there.symm.trans there')
              rw [show r.enrolment.key = r.registryKey from rfl, keyed] at keyed'
              simp at keyed'
          | some key =>
              refine (h.unregister there registering).exited rfl fun e key' there' keyed' _ _ _ => ?_
              obtain rfl := Option.some.inj (there.symm.trans there')
              rw [show r.enrolment.key = r.registryKey from rfl, keyed] at keyed'
              obtain rfl := Option.some.inj keyed'
              rw [calls_withRegistryLock]
              exact List.mem_append_right _ (List.mem_singleton_self _)

end Enrolled

/-- The child whose exit an action reports. -/
def exiting : PooledChildren.Action → Option ChildId
  | .reportExit c _ => some c
  | _ => none

section ChildSteps

variable {s : RegisteredPool} {t : PooledChildren} {a : PooledChildren.Action}

theorem reported_iff {p : PooledChildren} {c : ChildId} :
    p.Reported c ↔ ∃ e, p.enrolmentOf c = some e ∧ e.reported = true := by
  cases known : p.rpc c <;>
    simp [PooledChildren.Reported, PooledChildren.enrolmentOf, known, RpcChild.enrolment]

/-- A predecessor is another child, whose registration has succeeded. -/
theorem of_mem_predecessors {c k : ChildId} (mem : c ∈ t.predecessors k) :
    c ≠ k ∧ ∃ e, t.enrolmentOf c = some e ∧ e.registering = false ∧ e.failed = false := by
  simp only [PooledChildren.predecessors, List.mem_filter, decide_eq_true_eq] at mem
  obtain ⟨_, distinct, _, _, started⟩ := mem
  refine ⟨distinct, ?_⟩
  cases known : t.rpc c with
  | none => simp [known] at started
  | some r =>
      simp only [known, Option.any_some, Bool.and_eq_true, Bool.not_eq_true'] at started
      exact ⟨r.enrolment, by simp [PooledChildren.enrolmentOf, known], started.1, started.2⟩

theorem Enrolled.follow (h : Enrolled s none) (taken : PooledChildren.step s.children a = some t)
    (noSpawn : ∀ k binary pgid, a ≠ .spawn k binary pgid)
    (first : ∀ k ∈ s.children.newcomers t, ∀ c ∈ t.predecessors k, s.children.Reported c) :
    Enrolled (s.follow t) (exiting a) := by
  have fresh (k : ChildId) (mem : k ∈ s.children.newcomers t) : t.enrolmentOf k = none := by
    simp only [PooledChildren.newcomers, List.mem_filter, Option.isNone_iff_eq_none] at mem
    rw [PooledChildren.enrolmentOf, mem.2, Option.map_none]
  obtain ⟨base, reported⟩ : Enrolled { s with children := t } (exiting a) ∧
      ∀ c, s.children.Reported c → some c ≠ exiting a ∧ t.enrolmentOf c = s.children.enrolmentOf c := by
    rcases PooledChildren.enrolmentOf_step taken noSpawn with
      ⟨quiet, same⟩ | ⟨c, status, e, rfl, before, unreported, after, others⟩
    · have none : exiting a = none := by
        cases a with
        | reportExit c status => exact absurd rfl (quiet c status)
        | _ => rfl
      rw [none]
      exact ⟨h.congr same rfl rfl rfl, fun c _ => ⟨Option.some_ne_none c, same c⟩⟩
    · refine ⟨h.exits before unreported after others, fun d reported => ?_⟩
      have other : d ≠ c := by
        rintro rfl
        obtain ⟨e', known, reported⟩ := reported_iff.mp reported
        obtain rfl := Option.some.inj (before.symm.trans known)
        simp [unreported] at reported
      exact ⟨by simpa [exiting] using other, others d other⟩
  refine base.succeed (fun c k mem => ?_) (fun c k mem => ?_)
  · obtain ⟨k', new, pair⟩ := List.mem_flatMap.mp mem
    obtain ⟨c', predecessor, same⟩ := List.mem_map.mp pair
    obtain ⟨rfl, rfl⟩ := Prod.mk.inj same
    obtain ⟨distinct, e, known, idle, started⟩ := of_mem_predecessors predecessor
    have told := first k' new c' predecessor
    obtain ⟨other, same⟩ := reported c' told
    obtain ⟨e', known', reported⟩ := reported_iff.mp told
    obtain rfl := Option.some.inj (known.symm.trans (same.trans known'))
    exact ⟨distinct, other, e, known, reported, idle, started⟩
  · obtain ⟨k', new, pair⟩ := List.mem_flatMap.mp mem
    obtain ⟨_, _, same⟩ := List.mem_map.mp pair
    obtain ⟨_, rfl⟩ := Prod.mk.inj same
    exact fresh k' new

theorem Enrolled.childStep (h : Enrolled s none) {spawn : ChildId → SpawnReply} {t : RegisteredPool}
    (taken : s.childStep a spawn = some t) (first : s.ExitsFirst (.child a spawn)) :
    Enrolled t none := by
  unfold RegisteredPool.childStep at taken
  split at taken
  case isFalse => simp at taken
  case isTrue admitted =>
      obtain ⟨p, moved, rfl⟩ := Option.map_eq_some_iff.mp taken
      have noSpawn : ∀ k binary pgid, a ≠ .spawn k binary pgid := by
        rintro k binary pgid rfl
        simp [admits] at admitted
      have spawned := (h.follow moved noSpawn (first p moved)).foldl_spawnOne spawn
        (s.children.newcomers p)
      cases a with
      | reportExit c status => exact spawned.unregisterOnExit
      | _ => exact spawned

end ChildSteps

section LockSteps

variable {s t : RegisteredPool} {job : LockedCall} {rest : List LockedCall}

theorem Enrolled.pop {exiting : Option ChildId} (h : Enrolled s exiting) (lock : s.lock = job :: rest) :
    Enrolled { s with lock := rest, past := s.past ++ [job.call] } exiting := by
  have calls : ({ s with lock := rest, past := s.past ++ [job.call] } : RegisteredPool).calls =
      s.calls := by simp [RegisteredPool.calls, lock]
  refine ⟨?_, ?_, ?_, ?_, h.during, ?_, h.predecessors, ?_⟩
  · rw [calls]
    exact h.registers
  · rw [calls]
    exact h.once
  · intro k key entry mem
    exact h.pending k key entry (by rw [lock]; exact List.mem_cons_of_mem _ mem)
  · rw [calls]
    exact h.unregisters
  · rw [calls]
    exact h.withdrawn
  · rw [calls]
    exact h.ordered

/-- The registration of a child has settled. -/
theorem Enrolled.registered (h : Enrolled s none) {k : ChildId} {r : RpcChild}
    (known : s.children.rpc k = some r) (registering : r.registering = true)
    (alone : ∀ key entry, .register k key entry ∉ s.lock.map LockedCall.call)
    (result : Except String Unit) (kill : KillReply) :
    Enrolled { s with children := s.children.update k fun r => r.registered result kill } (some k) := by
  have before : s.children.enrolmentOf k = some r.enrolment := by
    simp [PooledChildren.enrolmentOf, known]
  have after : (s.children.update k fun r => r.registered result kill).enrolmentOf k =
      some (r.registered result kill).enrolment := by simp [PooledChildren.enrolmentOf, known]
  have others (d : ChildId) (other : d ≠ k) :
      (s.children.update k fun r => r.registered result kill).enrolmentOf d =
        s.children.enrolmentOf d := by
    simp only [PooledChildren.enrolmentOf, PooledChildren.update_rpc, Function.update_of_ne other]
  have settled : (r.registered result kill).enrolment.registering = false := by
    cases result with
    | ok => rw [r.enrolment_registered]
    | error => rw [r.enrolment_registered_error]
  have keyed : (r.registered result kill).enrolment.key = r.enrolment.key := by
    cases result with
    | ok => rw [r.enrolment_registered]
    | error => rw [r.enrolment_registered_error]
  constructor
  · intro d key entry mem
    obtain ⟨e, there, keyed'⟩ := h.registers d key entry mem
    by_cases here : d = k
    · subst here
      obtain rfl := Option.some.inj (before.symm.trans there)
      exact ⟨_, after, keyed.trans keyed'⟩
    · exact ⟨e, by rw [others d here, there], keyed'⟩
  · exact h.once
  · intro d key entry mem
    obtain ⟨e, there, registering⟩ := h.pending d key entry mem
    have here : d ≠ k := by
      rintro rfl
      exact alone key entry mem
    exact ⟨e, by rw [others d here, there], registering⟩
  · intro d key mem
    obtain ⟨e, there, idle⟩ := h.unregisters d key mem
    by_cases here : d = k
    · subst here
      exact ⟨_, after, settled⟩
    · exact ⟨e, by rw [others d here, there], idle⟩
  · intro d e there reported registering'
    have here : d ≠ k := by
      rintro rfl
      obtain rfl := Option.some.inj (after.symm.trans there)
      simp [settled] at registering'
    exact h.during d e (others d here ▸ there) reported registering'
  · intro d e key there other
    have here : d ≠ k := fun same => other (by rw [same])
    exact h.withdrawn d e key (others d here ▸ there) (Option.some_ne_none d)
  · intro c k' succeeds
    obtain ⟨distinct, _, e, there, reported, idle, started⟩ := h.predecessors c k' succeeds
    have here : c ≠ k := by
      rintro rfl
      obtain rfl := Option.some.inj (before.symm.trans there)
      rw [show r.enrolment.registering = r.registering from rfl, registering] at idle
      simp at idle
    exact ⟨distinct, by simpa using here, e, by rw [others c here, there], reported, idle, started⟩
  · exact h.ordered

/-- `start` runs on after its registration: if the process has exited
meanwhile, it queues the unregistration. -/
theorem Enrolled.resume_register (h : Enrolled s none) {k : ChildId} {key : String}
    {entry : ChildRegistryEntry} {r : RpcChild} (known : s.children.rpc k = some r)
    (registering : r.registering = true)
    (alone : ∀ key entry, .register k key entry ∉ s.lock.map LockedCall.call)
    (result : Except String Unit) (kill : KillReply) :
    Enrolled (s.resume result kill (.register k key entry)) none := by
  have settled := h.registered known registering alone result kill
  have there : (s.children.update k fun r => r.registered result kill).rpc k =
      some (r.registered result kill) := by simp [known]
  have enrolled : (s.children.update k fun r => r.registered result kill).enrolmentOf k =
      some (r.registered result kill).enrolment := by simp [PooledChildren.enrolmentOf, known]
  simp only [RegisteredPool.resume, there, Option.any_some, decide_eq_true_eq]
  split
  case isFalse waiting =>
      refine settled.exited rfl fun e key' there' _ reported _ started => absurd ?_ waiting
      obtain rfl := Option.some.inj (enrolled.symm.trans there')
      cases result with
      | error error => simp [r.enrolment_registered_error] at started
      | ok =>
          rw [r.enrolment_registered] at reported
          have during := h.during k r.enrolment (by simp [PooledChildren.enrolmentOf, known]) reported
            registering
          have during : r.exitDuringRegister = true := during
          simp [RpcChild.registered, during]
  case isTrue unregistering =>
      have idle : (r.registered result kill).enrolment.registering = false := by
        cases result with
        | ok => rw [r.enrolment_registered]
        | error => rw [r.enrolment_registered_error]
      simp only [unregisterPgid, there, Option.bind_some]
      cases keyed : (r.registered result kill).registryKey with
      | none =>
          refine settled.exited rfl fun e key' there' keyed' _ _ _ => ?_
          obtain rfl := Option.some.inj (enrolled.symm.trans there')
          rw [show (r.registered result kill).enrolment.key = _ from keyed] at keyed'
          simp at keyed'
      | some key =>
          refine (settled.unregister enrolled idle).exited rfl fun e key' there' keyed' _ _ _ => ?_
          obtain rfl := Option.some.inj (enrolled.symm.trans there')
          rw [show (r.registered result kill).enrolment.key = _ from keyed] at keyed'
          obtain rfl := Option.some.inj keyed'
          rw [Enrolled.calls_withRegistryLock]
          exact List.mem_append_right _ (List.mem_singleton_self _)

theorem Enrolled.settle (h : Enrolled s none) {kill : KillReply} (lock : s.lock = job :: rest)
    (taken : s.settle job rest kill = some t) : Enrolled t none := by
  unfold RegisteredPool.settle at taken
  split at taken
  case h_2 => simp at taken
  case h_1 result _ =>
      obtain rfl := Option.some.inj taken
      have popped := h.pop lock
      cases called : job.call with
      | unregister c key =>
          rw [called] at popped
          refine popped.congr ?_ rfl rfl rfl
          exact PooledChildren.enrolmentOf_update fun r _ => r.enrolment_unregistered
      | register k key entry =>
          have waits : .register k key entry ∈ s.lock.map LockedCall.call := by
            rw [lock, List.map_cons, called]
            exact List.mem_cons_self
          obtain ⟨e, known, registering⟩ := h.pending k key entry waits
          obtain ⟨r, spawned, rfl⟩ := Option.map_eq_some_iff.mp known
          rw [called] at popped
          refine popped.resume_register spawned registering ?_ result kill
          intro key' entry' mem
          have once := h.once
          rw [RegisteredPool.calls, lock, List.map_cons, called, List.filterMap_append] at once
          have own := (List.nodup_cons.mp (List.nodup_append.mp once).2.1).1
          exact own (List.mem_filterMap.mpr ⟨_, mem, rfl⟩)

end LockSteps

end RegisteredPool

end OmpBundler.Core
