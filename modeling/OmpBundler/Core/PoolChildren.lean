import OmpBundler.Core.PoolSteps

/-!
Who marks a child.

What has become of a child is recorded in a few places only: when the
factory hands it over, when a teardown or a failed creation that has waited
for it to close goes on, and when its exit is reported. The rest of the
pool's code leaves the marks as they are.
-/

namespace OmpBundler.Core

namespace PoolManager

variable {s t : PoolManager}

theorem createEntry_childOf (s : PoolManager) (conversation : Conversation)
    (parent : Option String) (rest : Continuation) :
    (s.createEntry conversation parent rest).childOf = s.childOf := by
  unfold createEntry
  split <;> rfl

theorem Move.childOf (move : Move s t) : t.childOf = s.childOf := by
  cases move with
  | create conversation parent rest => exact createEntry_childOf s conversation parent rest
  | queue | suspend | await | grant | evict => rfl

theorem Moves.childOf (moves : Moves s t) : t.childOf = s.childOf := by
  induction moves with
  | refl => rfl
  | tail _ move ih => exact move.childOf.trans ih

theorem release_childOf (s : PoolManager) (l : ℕ) (lease : Lease) :
    (s.release l lease).childOf = s.childOf := by
  unfold PoolManager.release releaseEntry
  split
  · rfl
  split
  · rfl
  split
  · rfl
  split
  · rfl
  · exact (drainWaiters_moves _).childOf

theorem resume_childOf (s : PoolManager) (k : ChildId) (rest : Continuation) :
    (s.resume k rest).childOf = s.childOf := by
  rcases resume_cases s k rest with moves | ⟨-, moves⟩
  · exact moves.childOf
  · exact moves.childOf

theorem acquireEvicted_childOf (s : PoolManager) (w : Waiter) (parent : Option String)
    (outcome : EvictForCapacityOutcome) :
    (s.acquireEvicted w parent outcome).childOf = s.childOf := by
  rcases acquireEvicted_cases s w parent outcome with move | ⟨-, created⟩
  · exact move.childOf
  · rw [created, createEntry_childOf]

theorem evictReturned_childOf (s : PoolManager) (purpose : Purpose) (id : String)
    (c : ChildId) (outcome : EvictOutcome) :
    (s.evictReturned purpose id c outcome).childOf = s.childOf := by
  cases purpose with
  | capacity caller rest closeError =>
      cases outcome with
      | ok => rfl
      | closeFailed error => exact (evictNext_move s caller _ rest).childOf
  | idle => exact (drainWaiters_moves _).childOf
  | retire =>
      cases outcome with
      | ok => exact (drainWaiters_moves s).childOf
      | closeFailed error => rfl

theorem retireChild_childOf (s : PoolManager) (conversation : Conversation) (c : ChildId) :
    (s.retireChild conversation c).childOf = s.childOf := by
  unfold PoolManager.retireChild
  split <;> rfl

theorem forgetExitedChild_childOf (s : PoolManager) (conversation : Conversation)
    (c : ChildId) : (s.forgetExitedChild conversation c).childOf = s.childOf := by
  unfold PoolManager.forgetExitedChild
  split
  · exact (drainWaiters_moves _).childOf
  · rfl

/-- A child is marked as closed by the teardown or the failed creation that
has waited for it. -/
theorem closed_of_step {a : Action} (taken : step s a = some t) {c : ChildId}
    (closed : t.childOf c = .closed) :
    s.childOf c = .closed ∨
      (∃ purpose id result, a = .tornDown purpose id c result ∧ result.outcome = .ok) ∨
      a = .aborted c .done := by
  have kept (same : t.childOf = s.childOf) : s.childOf c = .closed := same ▸ closed
  cases step_cases taken with
  | acquire conversation parent => exact .inl (kept (acquire_moves s _ _).childOf)
  | release => exact .inl (kept (release_childOf s _ _))
  | @spawned k cr known phase =>
      by_cases here : c = k
      · simp [here] at closed
      · exact .inl (by simpa [Function.update_of_ne here] using closed)
  | spawnFailed | attached | attachFailed | abortFailed | finished | finishedFailing =>
      exact .inl closed
  | @aborted k =>
      by_cases here : c = k
      · exact .inr (.inr (here ▸ rfl))
      · exact .inl (by simpa [Function.update_of_ne here] using closed)
  | resumed => exact .inl (kept (resume_childOf _ _ _))
  | resumedRejected => exact .inl (kept (resumeRejected_moves _ _ _).childOf)
  | @tornDown purpose id d result =>
      by_cases here : c = d
      · subst here
        cases result with
        | closeFailed error => exact .inl closed
        | childClosed | releaseFailed error => exact .inr (.inl ⟨purpose, id, _, rfl, rfl⟩)
      · cases result with
        | closeFailed error => exact .inl closed
        | childClosed | releaseFailed error =>
            exact .inl (by simpa [settleTeardown, Function.update_of_ne here] using closed)
  | @evicted purpose id d result =>
      cases result with
      | closeFailed error | childClosed | releaseFailed error => exact .inl closed
  | returned => exact .inl (kept (evictReturned_childOf _ _ _ _ _))
  | acquireEvicted => exact .inl (kept (acquireEvicted_childOf _ _ _ _))
  | drainEvicted => exact .inl (kept (tryEvictForDrain_moves _ _).childOf)
  | drainTail => exact .inl (kept (drainWaiters_moves _).childOf)
  | idleTimer => exact .inl (kept (sweepIdle_moves s _).childOf)
  | retireChild conversation d => exact .inl (kept (retireChild_childOf s _ _))
  | @exit d =>
      rw [forgetExitedChild_childOf] at closed
      by_cases here : c = d
      · simp [here] at closed
      · exact .inl (by simpa [Function.update_of_ne here] using closed)

end PoolManager

end OmpBundler.Core
