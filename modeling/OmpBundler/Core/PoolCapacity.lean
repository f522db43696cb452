import OmpBundler.Core.PoolAccounting

/-!
How many slots the pool occupies.

`acquire` tests the capacity before it evicts and not again when the
eviction has returned; the entry of a new child is counted twice between
its insertion and the `finally` callback of its creation; and an idle sweep
that fails puts the entry back while its slot still counts as closing. At
these three points, and nowhere else, the bound can be broken:
`withinBound_iff` says that the runs in which the bound holds throughout are
exactly those that find a free slot there.
-/

namespace OmpBundler.Core.PoolManager

open Library

/-- The slots in use do not exceed the bound. -/
def WithinBound (s : PoolManager) : Prop := s.occupiedSlots ≤ s.maxChildren

/-- A slot is free wherever the code takes one without a test: for the
child whose entry is inserted or put back by an idle sweep, unless its key
is in the map already, and for the creation that `acquire` starts after an
eviction, unless one is in flight already. -/
def FreeSlot (s : PoolManager) : Action → Prop
  | .attached k .done =>
      ∀ cr, s.creationOf k = some cr → s.entries.get cr.conversation.id = none →
        s.occupiedSlots < s.maxChildren
  | .advance (.evict .idle id _ (.tornDown (.closeFailed _))) =>
      s.entries.get id = none → s.occupiedSlots < s.maxChildren
  | .advance (.decided (.acquire w _) .ok) =>
      s.closed = false → s.inflight.get w.conversation.id = none →
        s.occupiedSlots < s.maxChildren
  | _ => True

variable {s t : PoolManager}

/-- Nothing but a new slot can break the bound. -/
theorem WithinBound.of_le (h : WithinBound s) (slots : t.occupiedSlots ≤ s.occupiedSlots)
    (bound : t.maxChildren = s.maxChildren) : WithinBound t := by
  unfold WithinBound at *
  omega

/-! ### The updates -/

@[simp] theorem occupiedSlots_setEntry (s : PoolManager) (c : ChildId)
    (f : PoolEntry → PoolEntry) : (s.setEntry c f).occupiedSlots = s.occupiedSlots := rfl

@[simp] theorem occupiedSlots_touchLru (s : PoolManager) (id : String) :
    (s.touchLru id).occupiedSlots = s.occupiedSlots := by
  simp [occupiedSlots]

@[simp] theorem occupiedSlots_grant (s : PoolManager) (w : Waiter) (c : ChildId) :
    (s.grant w c).occupiedSlots = s.occupiedSlots := by
  simp [grant, occupiedSlots]

theorem occupiedSlots_startCreation (s : PoolManager) (conversation : Conversation)
    (parent : Option String) (rest : Continuation) :
    (s.startCreation conversation parent rest).occupiedSlots = s.occupiedSlots + 1 := by
  simp only [occupiedSlots, startCreation_entries, startCreation_pendingCreations,
    startCreation_closing]
  omega

theorem occupiedSlots_beginEvict (s : PoolManager) (purpose : Purpose) {id : String}
    {c : ChildId} (present : s.entries.get id = some c) :
    (s.beginEvict purpose id c).occupiedSlots = s.occupiedSlots := by
  have size := OrderedMap.size_delete s.entries id
  simp only [present, Option.isSome_some, if_true] at size
  simp only [occupiedSlots, beginEvict, suspend_entries, suspend_pendingCreations,
    suspend_closing, setEntry_pendingCreations]
  omega

theorem occupiedSlots_insertEntry (s : PoolManager) (k : ChildId)
    (conversation : Conversation) :
    (s.insertEntry k conversation).occupiedSlots =
      s.occupiedSlots + if (s.entries.get conversation.id).isSome then 0 else 1 := by
  simp only [occupiedSlots, insertEntry, setPhase_entries, setPhase_pendingCreations,
    setPhase_closing, setEntry_pendingCreations, setEntry_closing, OrderedMap.size_set]
  omega

theorem WithinBound.move (h : WithinBound s) (move : Move s t) : WithinBound t := by
  cases move with
  | queue | suspend | await => exact h
  | grant w c => exact h.of_le (by simp) rfl
  | create conversation parent rest absent alone free =>
      have slots := occupiedSlots_startCreation s conversation parent rest
      simp only [createEntry, alone]
      unfold WithinBound
      simp only [slots, startCreation_maxChildren]
      omega
  | evict purpose id c present =>
      exact h.of_le (Nat.le_of_eq (occupiedSlots_beginEvict s purpose present)) rfl

theorem WithinBound.moves (h : WithinBound s) (moves : Moves s t) : WithinBound t :=
  moves.preserve h fun _ _ h move => h.move move

theorem WithinBound.drainWaiters (h : WithinBound s) : WithinBound s.drainWaiters :=
  h.moves (drainWaiters_moves s)

/-! ### The steps -/

theorem WithinBound.release (h : WithinBound s) (l : ℕ) (lease : Lease) :
    WithinBound (s.release l lease) := by
  unfold PoolManager.release releaseEntry
  split
  · exact h
  dsimp only
  split
  · exact h
  split
  · exact h
  split
  · exact h
  refine WithinBound.drainWaiters (h.of_le ?_ rfl)
  simp only [occupiedSlots_setEntry, occupiedSlots_touchLru]
  exact Nat.le_refl _

theorem WithinBound.resume (h : WithinBound s) (k : ChildId) (rest : Continuation) :
    WithinBound (s.resume k rest) := by
  rcases resume_cases s k rest with moves | ⟨-, moves⟩
  · exact h.moves moves
  · exact (h.of_le (Nat.le_of_eq (occupiedSlots_grant s _ k)) rfl).moves moves

theorem WithinBound.evictReturned (h : WithinBound s) (purpose : Purpose) (id : String)
    (c : ChildId) (outcome : EvictOutcome) :
    WithinBound (s.evictReturned purpose id c outcome) := by
  cases purpose with
  | capacity caller rest closeError =>
      cases outcome with
      | ok => exact h
      | closeFailed error => exact h.move (evictNext_move s caller (some error) rest)
  | idle =>
      refine WithinBound.drainWaiters (h.of_le ?_ rfl)
      simp only [occupiedSlots]
      omega
  | retire =>
      cases outcome with
      | ok => exact h.moves (drainWaiters_moves s)
      | closeFailed error => exact h

/-- Where the code evicts for capacity or retires a child, the slot of an
entry that is put back is given up in the same breath. -/
theorem WithinBound.evicted (h : WithinBound s) (closing : 0 < s.closing) {purpose : Purpose}
    (awake : purpose ≠ .idle) (id : String) (c : ChildId) (result : TeardownResult) :
    WithinBound (s.evicted purpose id c result) := by
  refine h.of_le ?_ (by cases result <;> rfl)
  cases result with
  | closeFailed error =>
      have size := OrderedMap.size_set s.entries id c
      simp only [occupiedSlots, PoolManager.evicted, awake, if_false, suspend_entries,
        suspend_pendingCreations, suspend_closing, restore, setEntry_pendingCreations,
        setEntry_closing, size]
      split <;> omega
  | childClosed | releaseFailed error =>
      simp only [occupiedSlots, PoolManager.evicted, awake, if_false, suspend_entries,
        suspend_pendingCreations, suspend_closing]
      omega

theorem occupiedSlots_evicted_idle (s : PoolManager) (id : String) (c : ChildId)
    (error : String) :
    (s.evicted .idle id c (.closeFailed error)).occupiedSlots =
      s.occupiedSlots + if (s.entries.get id).isSome then 0 else 1 := by
  simp only [occupiedSlots, PoolManager.evicted, if_true, suspend_entries,
    suspend_pendingCreations, suspend_closing, restore, setEntry_pendingCreations,
    setEntry_closing, OrderedMap.size_set]
  omega

theorem WithinBound.forgetExitedChild (h : WithinBound s) (conversation : Conversation)
    (c : ChildId) : WithinBound (s.forgetExitedChild conversation c) := by
  unfold PoolManager.forgetExitedChild
  split
  case isTrue =>
      refine WithinBound.drainWaiters (h.of_le ?_ rfl)
      have size := OrderedMap.size_delete s.entries conversation.id
      simp only [occupiedSlots, setEntry_pendingCreations, setEntry_closing]
      omega
  case isFalse => exact h

theorem WithinBound.retireChild (h : WithinBound s) (conversation : Conversation)
    (c : ChildId) : WithinBound (s.retireChild conversation c) := by
  unfold PoolManager.retireChild
  split
  case isTrue found => exact h.of_le (Nat.le_of_eq (occupiedSlots_beginEvict _ _ found.1)) rfl
  case isFalse => exact h

/-- Inserting the entry of a child takes a slot unless the key has one. -/
theorem withinBound_insertEntry_iff (h : WithinBound s) {k : ChildId} {cr : Creation}
    (known : s.creationOf k = some cr) :
    WithinBound (s.insertEntry k cr.conversation) ↔ FreeSlot s (.attached k .done) := by
  have slots := occupiedSlots_insertEntry s k cr.conversation
  unfold WithinBound at *
  rw [slots]
  show _ ≤ s.maxChildren ↔ _
  simp only [FreeSlot, known, Option.some.injEq, forall_eq']
  cases present : s.entries.get cr.conversation.id with
  | none =>
      simp only [Option.isSome_none, Bool.false_eq_true, if_false, true_implies]
      omega
  | some c => simpa using h

/-- Putting an entry back takes a slot when an idle sweep does it, unless the
key has one. -/
theorem withinBound_evicted_iff (h : WithinBound s) (closing : 0 < s.closing)
    (purpose : Purpose) (id : String) (c : ChildId) (result : TeardownResult) :
    WithinBound (s.evicted purpose id c result) ↔
      FreeSlot s (.advance (.evict purpose id c (.tornDown result))) := by
  cases purpose with
  | capacity caller rest closeError | retire =>
      exact ⟨fun _ => trivial, fun _ => h.evicted closing (by simp) id c result⟩
  | idle =>
      cases result with
      | childClosed | releaseFailed error => exact ⟨fun _ => trivial, fun _ => h⟩
      | closeFailed error =>
          have slots := occupiedSlots_evicted_idle s id c error
          unfold WithinBound at *
          rw [slots]
          show _ ≤ s.maxChildren ↔ _
          simp only [FreeSlot]
          cases present : s.entries.get id with
          | none =>
              simp only [Option.isSome_none, Bool.false_eq_true, if_false, true_implies]
              omega
          | some d => simpa using h

/-- The creation that `acquire` starts after its eviction takes a slot unless
it shares one in flight. -/
theorem withinBound_acquireEvicted_iff (h : WithinBound s) (w : Waiter)
    (parent : Option String) (outcome : EvictForCapacityOutcome) :
    WithinBound (s.acquireEvicted w parent outcome) ↔
      FreeSlot s (.advance (.decided (.acquire w parent) outcome)) := by
  cases outcome with
  | allInUse | closeFailed error => exact ⟨fun _ => trivial, fun _ => h⟩
  | ok =>
      simp only [acquireEvicted, FreeSlot]
      cases closed : s.closed with
      | true =>
          simp only [if_true, Bool.true_eq_false, false_implies, iff_true]
          exact h
      | false =>
          simp only [Bool.false_eq_true, if_false, true_implies, createEntry]
          cases inflight : s.inflight.get w.conversation.id with
          | some k =>
              simp only [reduceCtorEq, false_implies, iff_true]
              exact h
          | none =>
              have slots := occupiedSlots_startCreation s w.conversation parent (.acquireNew w)
              unfold WithinBound at *
              rw [slots]
              show _ ≤ s.maxChildren ↔ _
              simp only [true_implies]
              omega

/-- A step from a state within the bound stays within it exactly if it
finds a free slot where it takes one without a test. -/
theorem withinBound_step_iff (acc : Accounted s) (h : WithinBound s) {a : Action}
    (taken : step s a = some t) : WithinBound t ↔ FreeSlot s a := by
  have both {p : Prop} (kept : WithinBound t) (free : p) : WithinBound t ↔ p :=
    ⟨fun _ => free, fun _ => kept⟩
  cases step_cases taken with
  | acquire conversation parent =>
      exact both (h.moves (acquire_moves s conversation parent)) trivial
  | release known => exact both (h.release _ _) trivial
  | spawned | spawnFailed | attachFailed | aborted | abortFailed => exact both h trivial
  | attached known phase => exact withinBound_insertEntry_iff h known
  | finished known phase | finishedFailing known phase =>
      refine both (h.of_le ?_ rfl) trivial
      simp only [occupiedSlots, finishCreation, setPhase_entries, setPhase_pendingCreations,
        setPhase_closing]
      omega
  | resumed mem known phase => exact both (WithinBound.resume (by exact h) _ _) trivial
  | resumedRejected mem known phase =>
      exact both (WithinBound.moves (by exact h) (resumeRejected_moves _ _ _)) trivial
  | @tornDown purpose id c result mem => cases result <;> exact both h trivial
  | @evicted purpose id c result mem =>
      have closing : 0 < s.closing := by
        rw [acc.closing]
        exact List.countP_pos_iff.mpr ⟨_, mem, rfl⟩
      have bound : WithinBound { s with
          tasks := s.tasks.erase (.evict purpose id c (.tornDown result)) } := h
      exact withinBound_evicted_iff bound closing purpose id c result
  | @returned purpose id c outcome mem =>
      cases purpose <;> exact both (WithinBound.evictReturned (by exact h) _ _ _ _) trivial
  | @acquireEvicted w parent outcome mem =>
      have bound : WithinBound { s with
          tasks := s.tasks.erase (.decided (.acquire w parent) outcome) } := h
      exact withinBound_acquireEvicted_iff bound w parent outcome
  | drainEvicted mem =>
      exact both (WithinBound.moves (by exact h) (tryEvictForDrain_moves _ _)) trivial
  | drainTail mem => exact both (WithinBound.drainWaiters (by exact h)) trivial
  | idleTimer armed =>
      exact both (WithinBound.moves (by exact h) (sweepIdle_moves s _)) trivial
  | retireChild conversation c => exact both (h.retireChild conversation c) trivial
  | exit known alive => exact both (WithinBound.forgetExitedChild (by exact h) _ _) trivial

/-- The runs of a new pool throughout which the bound holds are those that
find a free slot wherever the code takes one without a test. -/
theorem withinBound_iff (maxChildren : ℕ) (actions : List Action) :
    machine.Throughout WithinBound (initial maxChildren) actions ↔
      machine.EachStep FreeSlot (initial maxChildren) actions :=
  Transition.Machine.throughout_iff_eachStep (accounted_initial maxChildren)
    (Nat.zero_le maxChildren) (fun _ _ _ acc taken => acc.step taken)
    fun _ _ _ acc bound taken => withinBound_step_iff acc bound taken

/-- A caller that has evicted for capacity resumes after another one has
taken the slot it freed. -/
def overfill : List Action :=
  let a : Conversation := ⟨"http", "a"⟩
  let b : Conversation := ⟨"http", "b"⟩
  let c : Conversation := ⟨"http", "c"⟩
  let eviction : Purpose := .capacity (.acquire ⟨b, 1⟩ none) [] none
  [.acquire a none, .spawned 0 .done, .attached 0 .done, .finished 0,
    .resume 0 (.acquireNew ⟨a, 0⟩), .release 0,
    .acquire b none, .tornDown eviction a.id 0 .childClosed,
    .advance (.evict eviction a.id 0 (.tornDown .childClosed)),
    .advance (.evict eviction a.id 0 (.returned .ok)),
    .acquire c none, .advance (.decided (.acquire ⟨b, 1⟩ none) .ok),
    .spawned 1 .done, .attached 1 .done, .finished 1,
    .spawned 2 .done, .attached 2 .done, .finished 2]

/-- A pool for one child comes to hold two. -/
theorem overfill_exceeds_bound :
    ∃ s, machine.Reachable Transition.Always s ∧ s.maxChildren = 1 ∧ s.entries.size = 2 ∧
      ¬ WithinBound s := by
  have run : (machine.exec Transition.Always (initial 1) overfill).map
      (fun s => (s.maxChildren, s.entries.size)) = some (1, 2) := by decide +kernel
  obtain ⟨s, run, facts⟩ := Option.map_eq_some_iff.mp run
  simp only [Prod.mk.injEq] at facts
  obtain ⟨bound, size⟩ := facts
  refine ⟨s, .of_exec ⟨1, Nat.one_pos, rfl⟩ run, bound, size, ?_⟩
  unfold WithinBound occupiedSlots
  omega

end OmpBundler.Core.PoolManager
