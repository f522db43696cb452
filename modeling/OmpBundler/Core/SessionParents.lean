import OmpBundler.Core.PoolWaiting
import OmpBundler.Core.SessionPool

/-!
Which parent a new session is forked from.

The parent that a caller of `acquire` names travels with the call as long
as the call runs: into the eviction that makes room for it and into the
creation that it starts. A caller that stands in the wait queue is served by
`drainWaiters`, which starts the creation in its place and names no parent.
`forked_iff` says that this is the only way in which a session misses its
parent: a run forks every session as it should exactly if no session is
created for a queued caller whose parent has a session.
-/

namespace OmpBundler.Core

open Library

/-- The session is forked from the session of the parent that its caller has
named, if that parent had one. -/
def NewSession.Forked (n : NewSession) (asked : List (Option String)) : Prop :=
  ∃ w parent, n.caller = some w ∧ w.conversation = n.conversation ∧
    asked[w.call]? = some parent ∧
    ∀ sessionFile, n.registry.parentSessionFile n.conversation.adapterId parent =
      some sessionFile → n.parentSessionFile = some sessionFile

/-- What a creation knows of the call that has started it. -/
def Continuation.Started (asked : List (Option String)) (cr : Creation) : Continuation → Prop
  | .acquireNew w =>
      w.conversation = cr.conversation ∧ asked[w.call]? = some cr.parentConversationKey
  | .drainNew w =>
      w.conversation = cr.conversation ∧ w.call < asked.length ∧
        cr.parentConversationKey = none
  | .acquireInflight _ | .drainInflight _ => False

namespace PoolManager

variable {s t : PoolManager} {asked : List (Option String)}

/-- The calls of `acquire` under way are among those made, and each carries
the parent it has named until it waits in the queue. -/
structure Parented (asked : List (Option String)) (s : PoolManager) : Prop where
  calls : asked.length = s.nextCall
  waiting : ∀ w ∈ s.waiters, w.call < asked.length
  continuing : ∀ x ∈ s.continuations, x.1 < s.nextChild ∧ x.2.caller.call < asked.length
  asking : ∀ x ∈ s.tasks, ∀ w parent, x.caller = some (.acquire w parent) →
    asked[w.call]? = some parent
  shared : ∀ id k, s.inflight.get id = some k → k < s.nextChild
  creating : ∀ k cr, s.creationOf k = some cr → k < s.nextChild ∧
    (cr.phase = .spawning → ∃ rest, s.creator k = some rest ∧ rest.Started asked cr)

theorem parented_initial (maxChildren : ℕ) : Parented [] (initial maxChildren) where
  calls := rfl
  waiting _ mem := by simp [initial] at mem
  continuing _ mem := by simp [initial] at mem
  asking _ mem := by simp [initial] at mem
  shared _ _ there := by simp [initial] at there
  creating _ _ known := by simp [initial] at known

/-! ### The updates -/

/-- Another caller that waits for a creation does not change who has started
it. -/
theorem creator_append {k : ChildId} {rest : Continuation} (started : s.creator k = some rest)
    (more : List (ChildId × Continuation)) (same : t.continuations = s.continuations ++ more) :
    t.creator k = some rest := by
  obtain ⟨x, found, rfl⟩ := Option.map_eq_some_iff.mp started
  simp [creator, same, List.find?_append, found]

/-- A caller of another creation that runs on changes nothing either. -/
theorem creator_erase {k j : ChildId} (ne : j ≠ k) (rest : Continuation) :
    ({ s with continuations := s.continuations.erase (j, rest) } : PoolManager).creator k =
      s.creator k := by
  have find (l : List (ChildId × Continuation)) :
      (l.erase (j, rest)).find? (fun x => x.1 = k) = l.find? fun x => x.1 = k := by
    induction l with
    | nil => rfl
    | cons y l ih =>
        by_cases here : y = (j, rest)
        · subst here
          simp [ne]
        · rw [List.erase_cons_tail (by simpa using here), List.find?_cons, List.find?_cons, ih]
  simp only [creator, find]

/-- A new wait queue, of callers that are known. -/
theorem Parented.queue (h : Parented asked s) (waiters : List Waiter)
    (waiting : ∀ w ∈ waiters, w.call < asked.length)
    (settled : List (ℕ × Except PoolError ℕ)) (drainEviction : Bool) :
    Parented asked { s with waiters, settled, drainEviction } :=
  ⟨h.calls, waiting, h.continuing, h.asking, h.shared, h.creating⟩

theorem Parented.reject (h : Parented asked s) (w : Waiter) (error : PoolError) :
    Parented asked (s.reject w error) :=
  ⟨h.calls, h.waiting, h.continuing, h.asking, h.shared, h.creating⟩

theorem Parented.setEntry (h : Parented asked s) (c : ChildId) (f : PoolEntry → PoolEntry) :
    Parented asked (s.setEntry c f) :=
  ⟨h.calls, h.waiting, h.continuing, h.asking, h.shared, h.creating⟩

theorem Parented.grant (h : Parented asked s) (w : Waiter) (c : ChildId) :
    Parented asked (s.grant w c) :=
  ⟨h.calls, h.waiting, h.continuing, h.asking, h.shared, h.creating⟩

theorem Parented.enqueueWaiter (h : Parented asked s) {w : Waiter}
    (known : w.call < asked.length) : Parented asked (s.enqueueWaiter w) := by
  refine ⟨h.calls, fun v mem => ?_, h.continuing, h.asking, h.shared, h.creating⟩
  rcases List.mem_append.mp mem with old | new
  · exact h.waiting v old
  · exact List.mem_singleton.mp new ▸ known

theorem Parented.suspend (h : Parented asked s) {x : Task}
    (mine : ∀ w parent, x.caller = some (.acquire w parent) → asked[w.call]? = some parent) :
    Parented asked (s.suspend x) := by
  refine ⟨h.calls, h.waiting, h.continuing, fun y mem => ?_, h.shared, h.creating⟩
  rcases List.mem_append.mp mem with old | new
  · exact h.asking y old
  · exact List.mem_singleton.mp new ▸ mine

theorem Parented.beginEvict (h : Parented asked s) {purpose : Purpose} {id : String}
    {c : ChildId} (mine : ∀ w parent, (Task.evict purpose id c .closing).caller =
      some (.acquire w parent) → asked[w.call]? = some parent) :
    Parented asked (s.beginEvict purpose id c) := by
  refine ⟨h.calls, h.waiting, h.continuing, fun y mem => ?_, h.shared, h.creating⟩
  rcases List.mem_append.mp mem with old | new
  · exact h.asking y old
  · exact List.mem_singleton.mp new ▸ mine

theorem Parented.evicting (h : Parented asked s) {caller : EvictCaller}
    (evicting : Evicting s caller t)
    (mine : ∀ w parent, caller = .acquire w parent → asked[w.call]? = some parent) :
    Parented asked t := by
  cases evicting with
  | decided outcome => exact h.suspend fun w parent same => mine w parent (Option.some.inj same)
  | begun rest closeError id c =>
      exact h.beginEvict fun w parent same => mine w parent (Option.some.inj same)

theorem Parented.await (h : Parented asked s) {k : ChildId} (known : k < s.nextChild)
    {rest : Continuation} (caller : rest.caller.call < asked.length) :
    Parented asked (s.await k rest) := by
  refine ⟨h.calls, h.waiting, fun x mem => ?_, h.asking, h.shared, fun j cr creation => ?_⟩
  · rcases List.mem_append.mp mem with old | new
    · exact h.continuing x old
    · exact List.mem_singleton.mp new ▸ ⟨known, caller⟩
  · obtain ⟨lt, started⟩ := h.creating j cr creation
    refine ⟨lt, fun spawning => ?_⟩
    obtain ⟨rest', first, starts⟩ := started spawning
    exact ⟨rest', creator_append first _ rfl, starts⟩

/-- The creation that a caller starts is the first thing anyone waits for
under its number. -/
theorem Parented.startCreation (h : Parented asked s) {conversation : Conversation}
    {parent : Option String} {rest : Continuation} (caller : rest.caller.call < asked.length)
    (starts : rest.Started asked ⟨conversation, parent, .spawning⟩) :
    Parented asked (s.startCreation conversation parent rest) := by
  refine ⟨h.calls, h.waiting, fun x mem => ?_, h.asking, fun id k there => ?_,
    fun j cr creation => ?_⟩
  · rcases List.mem_append.mp mem with old | new
    · exact ⟨Nat.lt_succ_of_lt (h.continuing x old).1, (h.continuing x old).2⟩
    · exact List.mem_singleton.mp new ▸ ⟨Nat.lt_succ_self _, caller⟩
  · simp only [startCreation_inflight, OrderedMap.get_set] at there
    split at there
    · obtain rfl := Option.some.inj there
      exact Nat.lt_succ_self _
    · exact Nat.lt_succ_of_lt (h.shared id k there)
  · simp only [startCreation_creationOf] at creation
    by_cases new : j = s.nextChild
    · subst new
      rw [Function.update_self] at creation
      obtain rfl := Option.some.inj creation
      have unknown : s.continuations.find? (fun x => x.1 = s.nextChild) = none := by
        refine List.find?_eq_none.mpr fun x mem same => ?_
        have lt := (h.continuing x mem).1
        rw [decide_eq_true_eq] at same
        exact absurd (same ▸ lt) (Nat.lt_irrefl _)
      refine ⟨Nat.lt_succ_self _, fun _ => ⟨rest, ?_, starts⟩⟩
      simp [creator, List.find?_append, unknown]
    · rw [Function.update_of_ne new] at creation
      obtain ⟨lt, started⟩ := h.creating j cr creation
      refine ⟨Nat.lt_succ_of_lt lt, fun spawning => ?_⟩
      obtain ⟨rest', first, starts'⟩ := started spawning
      exact ⟨rest', creator_append first _ rfl, starts'⟩

theorem Parented.createEntry (h : Parented asked s) {conversation : Conversation}
    {parent : Option String} {rest : Continuation} (caller : rest.caller.call < asked.length)
    (starts : rest.Started asked ⟨conversation, parent, .spawning⟩) :
    Parented asked (s.createEntry conversation parent rest) := by
  unfold PoolManager.createEntry
  split
  case h_1 k there => exact h.await (h.shared _ k there) caller
  case h_2 => exact h.startCreation caller starts

/-- Serving the queue starts creations without a parent. -/
theorem Parented.drain (queue : List Waiter) (s : PoolManager) (h : Parented asked s)
    (known : ∀ w ∈ queue, w.call < asked.length) : Parented asked (s.drain queue) := by
  induction queue generalizing s with
  | nil => exact h.queue [] (by simp) s.settled s.drainEviction
  | cons w rest ih =>
      have mine : w.call < asked.length := known w (by simp)
      have others : ∀ v ∈ rest, v.call < asked.length := fun v mem => known v (by simp [mem])
      have requeue (flag : Bool) := h.queue (w :: rest) known s.settled flag
      have shorter := h.queue rest others s.settled s.drainEviction
      unfold PoolManager.drain
      split
      case h_1 c present =>
          split
          · exact ih _ (h.reject _ _) others
          split
          · exact ih _ ((h.setEntry _ _).grant _ _) others
          · exact requeue s.drainEviction
      case h_2 =>
          split
          case h_1 k there => exact shorter.await (h.shared _ k there) mine
          case h_2 =>
              split
              case isTrue =>
                  split
                  · exact requeue s.drainEviction
                  split
                  · exact requeue s.drainEviction
                  · exact (requeue true).evicting (evictIdleForCapacity_cases _ _) (by simp)
              case isFalse => exact shorter.createEntry mine ⟨rfl, mine, rfl⟩

theorem Parented.drainWaiters (h : Parented asked s) : Parented asked s.drainWaiters :=
  h.drain s.waiters s h.waiting

/-- A new call of `acquire`, with the parent it names. -/
theorem Parented.called (h : Parented asked s) (parent : Option String) :
    Parented (asked ++ [parent]) { s with nextCall := s.nextCall + 1 } := by
  have longer {n : ℕ} (lt : n < asked.length) : n < (asked ++ [parent]).length := by
    simp only [List.length_append, List.length_singleton]
    omega
  have keeps {n : ℕ} {p : Option String} (there : asked[n]? = some p) :
      (asked ++ [parent])[n]? = some p := by
    obtain ⟨lt, -⟩ := List.getElem?_eq_some_iff.mp there
    rw [List.getElem?_append_left lt, there]
  refine ⟨by simp [h.calls], fun w mem => longer (h.waiting w mem), fun x mem =>
    ⟨(h.continuing x mem).1, longer (h.continuing x mem).2⟩,
    fun x mem w p same => keeps (h.asking x mem w p same), h.shared, fun k cr known => ?_⟩
  obtain ⟨lt, started⟩ := h.creating k cr known
  refine ⟨lt, fun spawning => ?_⟩
  obtain ⟨rest, first, starts⟩ := started spawning
  refine ⟨rest, first, ?_⟩
  cases rest with
  | acquireNew w => exact ⟨starts.1, keeps starts.2⟩
  | drainNew w => exact ⟨starts.1, longer starts.2.1, starts.2.2⟩
  | acquireInflight w | drainInflight w => exact starts

theorem Parented.acquire (h : Parented asked s) (conversation : Conversation)
    (parent : Option String) : Parented (asked ++ [parent]) (s.acquire conversation parent) := by
  have called := h.called parent
  have named : (asked ++ [parent])[s.nextCall]? = some parent := by
    rw [← h.calls]
    simp
  have known : s.nextCall < (asked ++ [parent]).length := by simp [h.calls]
  unfold PoolManager.acquire
  dsimp only
  split
  · exact called.reject _ _
  split
  · exact called.reject _ _
  split
  · exact called.reject _ _
  split
  case h_1 c _ =>
      split
      · exact called.reject _ _
      split
      · exact (called.setEntry _ _).grant _ _
      · exact called.enqueueWaiter known
  case h_2 =>
      split
      case h_1 k there => exact called.await (h.shared _ k there) known
      case h_2 =>
          split
          · refine called.evicting (evictIdleForCapacity_cases _ _) fun w p same => ?_
            obtain ⟨rfl, rfl⟩ := EvictCaller.acquire.inj same
            exact named
          · exact called.createEntry known ⟨rfl, named⟩

theorem Parented.acquireEvicted (h : Parented asked s) {w : Waiter} {parent : Option String}
    (named : asked[w.call]? = some parent) (outcome : EvictForCapacityOutcome) :
    Parented asked (s.acquireEvicted w parent outcome) := by
  have known : w.call < asked.length := (List.getElem?_eq_some_iff.mp named).1
  cases outcome with
  | ok =>
      simp only [PoolManager.acquireEvicted]
      split
      · exact h.reject _ _
      · exact h.createEntry known ⟨rfl, named⟩
  | closeFailed error => exact h.reject _ _
  | allInUse => exact h.enqueueWaiter known

theorem Parented.release (h : Parented asked s) (l : ℕ) (lease : Lease) :
    Parented asked (s.release l lease) := by
  have marked (f : ℕ → Option Lease) : Parented asked { s with leaseOf := f } :=
    ⟨h.calls, h.waiting, h.continuing, h.asking, h.shared, h.creating⟩
  unfold PoolManager.release releaseEntry
  split
  · exact h
  dsimp only
  split
  · exact marked _
  split
  · exact marked _
  split
  · exact marked _
  · refine Parented.drainWaiters ?_
    exact ⟨h.calls, h.waiting, h.continuing, h.asking, h.shared, h.creating⟩

/-- A creation that has left its first phase may lose the callers that wait
for it. -/
theorem Parented.eraseContinuation (h : Parented asked s) {k : ChildId} {cr : Creation}
    (known : s.creationOf k = some cr) (past : cr.phase ≠ .spawning) (rest : Continuation) :
    Parented asked { s with continuations := s.continuations.erase (k, rest) } := by
  refine ⟨h.calls, h.waiting, fun x mem => h.continuing x (List.mem_of_mem_erase mem), h.asking,
    h.shared, fun j cr' known' => ?_⟩
  obtain ⟨lt, started⟩ := h.creating j cr' known'
  refine ⟨lt, fun spawning => ?_⟩
  have ne : k ≠ j := by
    rintro rfl
    exact past (Option.some.inj (known.symm.trans known') ▸ spawning)
  rw [creator_erase ne]
  exact started spawning

theorem Parented.resume (h : Parented asked s) {k : ChildId} {rest : Continuation}
    (known : rest.caller.call < asked.length) : Parented asked (s.resume k rest) := by
  cases rest with
  | acquireNew w =>
      simp only [PoolManager.resume]
      split
      · exact h.reject _ _
      · exact h.grant _ _
  | acquireInflight w =>
      simp only [PoolManager.resume]
      split
      · exact h.reject _ _
      split
      · exact h.grant _ _
      · exact h.enqueueWaiter known
  | drainNew w =>
      simp only [PoolManager.resume]
      split
      · exact h.reject _ _
      · exact (h.grant _ _).drainWaiters
  | drainInflight w =>
      simp only [PoolManager.resume]
      split
      · exact h.reject _ _
      split
      · exact (h.grant _ _).drainWaiters
      · refine Parented.drainWaiters (h.queue (w :: s.waiters) (fun v mem => ?_) _ _)
        rcases List.mem_cons.mp mem with rfl | old
        · exact known
        · exact h.waiting v old

theorem Parented.resumeRejected (h : Parented asked s) (error : PoolError)
    (rest : Continuation) : Parented asked (s.resumeRejected error rest) := by
  cases rest with
  | acquireNew w | acquireInflight w => exact h.reject _ _
  | drainNew w | drainInflight w => exact (h.reject _ _).drainWaiters

/-- A creation moves past its first phase. -/
theorem Parented.setPhase (h : Parented asked s) (k : ChildId) {phase : CreationPhase}
    (past : phase ≠ .spawning) : Parented asked (s.setPhase k phase) := by
  refine ⟨h.calls, h.waiting, h.continuing, h.asking, h.shared, fun j cr known => ?_⟩
  simp only [setPhase_creationOf] at known
  by_cases here : j = k
  · subst here
    rw [Function.update_self] at known
    obtain ⟨cr', known', rfl⟩ := Option.map_eq_some_iff.mp known
    exact ⟨(h.creating j cr' known').1, fun spawning => absurd spawning past⟩
  · rw [Function.update_of_ne here] at known
    exact h.creating j cr known

theorem Parented.eraseTask (h : Parented asked s) (x : Task) :
    Parented asked { s with tasks := s.tasks.erase x } :=
  ⟨h.calls, h.waiting, h.continuing, fun y mem => h.asking y (List.mem_of_mem_erase mem),
    h.shared, h.creating⟩

/-- The task of an eviction that moves on has the same caller. -/
theorem Parented.replaceTask (h : Parented asked s) {x y : Task} (mem : x ∈ s.tasks)
    (same : y.caller = x.caller) :
    Parented asked ({ s with tasks := s.tasks.erase x }.suspend y) :=
  (h.eraseTask x).suspend fun w parent caller => h.asking x mem w parent (same ▸ caller)

theorem Parented.evictReturned (h : Parented asked s) {purpose : Purpose} {id : String}
    {c : ChildId} {outcome : EvictOutcome}
    (mine : ∀ w parent, (Task.evict purpose id c .closing).caller =
      some (.acquire w parent) → asked[w.call]? = some parent) :
    Parented asked (s.evictReturned purpose id c outcome) := by
  cases purpose with
  | capacity caller rest closeError =>
      have mine (w : Waiter) (parent : Option String) (same : caller = .acquire w parent) :=
        mine w parent (congrArg some same)
      cases outcome with
      | ok => exact h.suspend fun w parent same => mine w parent (Option.some.inj same)
      | closeFailed error => exact h.evicting (evictNext_cases _ _ _ _) mine
  | idle =>
      refine Parented.drainWaiters ?_
      exact ⟨h.calls, h.waiting, h.continuing, h.asking, h.shared, h.creating⟩
  | retire =>
      cases outcome with
      | ok => exact h.drainWaiters
      | closeFailed error =>
          exact ⟨h.calls, fun w mem => h.waiting w (List.mem_of_mem_filter mem), h.continuing,
            h.asking, h.shared, h.creating⟩

theorem Parented.retireChild (h : Parented asked s) (conversation : Conversation)
    (c : ChildId) : Parented asked (s.retireChild conversation c) := by
  unfold PoolManager.retireChild
  split
  · exact (h.setEntry _ _).beginEvict (by simp [Task.caller])
  · exact h

theorem Parented.setChild (h : Parented asked s) (c : ChildId) (status : ChildStatus) :
    Parented asked (s.setChild c status) :=
  ⟨h.calls, h.waiting, h.continuing, h.asking, h.shared, h.creating⟩

theorem Parented.finishCreation (h : Parented asked s) (k : ChildId)
    (conversation : Conversation) {phase : CreationPhase} (past : phase ≠ .spawning) :
    Parented asked (s.finishCreation k conversation phase) := by
  refine Parented.setPhase ?_ k past
  refine ⟨h.calls, h.waiting, h.continuing, h.asking, fun id j there => ?_, h.creating⟩
  simp only [OrderedMap.get_delete] at there
  split at there
  · simp at there
  · exact h.shared id j there

/-- Every step but a new call of `acquire`. -/
theorem Parented.step (h : Parented asked s) {a : Action} (taken : step s a = some t)
    (old : ∀ conversation parent, a ≠ .acquire conversation parent) : Parented asked t := by
  cases step_cases taken with
  | acquire conversation parent => exact absurd rfl (old conversation parent)
  | release known => exact h.release _ _
  | spawned => exact (h.setChild _ _).setPhase _ (by simp)
  | attached =>
      refine Parented.setPhase ?_ _ (by simp)
      exact ⟨h.calls, h.waiting, h.continuing, h.asking, h.shared, h.creating⟩
  | spawnFailed | attachFailed | abortFailed => exact h.setPhase _ (by simp)
  | aborted => exact (h.setChild _ _).setPhase _ (by simp)
  | finished | finishedFailing => exact h.finishCreation _ _ (by simp)
  | resumed mem known phase =>
      exact (h.eraseContinuation known (by simp [phase]) _).resume (h.continuing _ mem).2
  | resumedRejected mem known phase =>
      exact (h.eraseContinuation known (by simp [phase]) _).resumeRejected _ _
  | @tornDown purpose id c result mem =>
      have moved := h.replaceTask (y := .evict purpose id c (.tornDown result)) mem
        (by cases purpose <;> rfl)
      cases result with
      | closeFailed error => exact moved
      | childClosed | releaseFailed error =>
          exact ⟨moved.calls, moved.waiting, moved.continuing, moved.asking, moved.shared,
            moved.creating⟩
  | @evicted purpose id c result mem =>
      have moved := h.replaceTask (y := .evict purpose id c (.returned result.outcome)) mem
        (by cases purpose <;> rfl)
      cases result <;>
        exact ⟨moved.calls, moved.waiting, moved.continuing, moved.asking, moved.shared,
          moved.creating⟩
  | @returned purpose id c outcome mem =>
      refine (h.eraseTask _).evictReturned fun w parent same => h.asking _ mem w parent ?_
      rw [← same]
      cases purpose <;> rfl
  | acquireEvicted mem => exact (h.eraseTask _).acquireEvicted (h.asking _ mem _ _ rfl) _
  | @drainEvicted outcome mem =>
      have erased := h.eraseTask (.decided .drain outcome)
      cases outcome with
      | ok | allInUse => exact erased.suspend (by simp [Task.caller])
      | closeFailed error =>
          exact (erased.queue [] (by simp) _ s.drainEviction).suspend (by simp [Task.caller])
  | drainTail mem =>
      have erased := h.eraseTask .drainTail
      exact (erased.queue s.waiters h.waiting s.settled false).drainWaiters
  | idleTimer armed =>
      unfold sweepIdle
      dsimp only
      split
      · exact h.setEntry _ _
      split
      · exact (h.setEntry _ _).beginEvict (by simp [Task.caller])
      · exact h.setEntry _ _
  | retireChild conversation c => exact h.retireChild _ _
  | exit known alive =>
      unfold PoolManager.forgetExitedChild
      split
      · refine Parented.drainWaiters ?_
        exact ⟨h.calls, h.waiting, h.continuing, h.asking, h.shared, h.creating⟩
      · exact h.setChild _ _

end PoolManager

namespace SessionPool

open PoolManager

variable {s t : SessionPool}

/-- Every session that the pool has created is forked from its parent. -/
def Forked (s : SessionPool) : Prop := ∀ n ∈ s.sessions, n.Forked s.asked

/-- No session is created for a caller that had to queue and whose parent
has a session. -/
def Unqueued (s : SessionPool) : Action → Prop
  | .spawned k .done => ∀ cr w parent, s.pool.creationOf k = some cr →
      s.registry.getRaw cr.conversation = none → s.registry.inflight cr.conversation = none →
      s.pool.creator k = some (.drainNew w) → s.asked[w.call]? = some parent →
      s.registry.parentSessionFile cr.conversation.adapterId parent = none
  | _ => True

/-- The steps of the pool that are no new call. -/
theorem parented_manager {asked : List (Option String)} (h : Parented asked s.pool)
    {a : ClosablePool.Action} {manager : ClosablePool} (moved : s.manager.step a = some manager)
    (old : ∀ conversation parent, a ≠ .pool (.acquire conversation parent)) :
    Parented asked manager.pool := by
  cases ClosablePool.step_cases moved with
  | pool went =>
      exact h.step went fun conversation parent same => old conversation parent (same ▸ rfl)
  | close opened =>
      exact ⟨h.calls, fun w mem => absurd mem (by simp), h.continuing, h.asking, h.shared,
        h.creating⟩
  | closeAgain | closeSettled => exact h
  | creationsSettled =>
      exact ⟨h.calls, h.waiting, h.continuing, h.asking, fun id k there => by simp at there,
        h.creating⟩
  | evictionsSettled =>
      exact ⟨h.calls, h.waiting, h.continuing, h.asking, h.shared, h.creating⟩
  | tornDown result phase mem =>
      cases result <;>
        exact ⟨h.calls, h.waiting, h.continuing, h.asking, h.shared, h.creating⟩

theorem pool_getOrCreate (s : SessionPool) (k : ChildId) (conversation : Conversation)
    (parent : Option String) : (s.getOrCreate k conversation parent).manager = s.manager ∧
      (s.getOrCreate k conversation parent).asked = s.asked := by
  unfold getOrCreate
  split
  · exact ⟨rfl, rfl⟩
  split
  · exact ⟨rfl, rfl⟩
  · exact ⟨rfl, rfl⟩

/-- The pool's part of every step, and the record of the calls. -/
theorem parented_step (h : Parented s.asked s.pool) {a : Action} (taken : step s a = some t) :
    Parented t.asked t.pool := by
  cases step_cases taken with
  | @acquire conversation parent manager moved =>
      cases ClosablePool.step_cases moved with
      | pool went =>
          obtain rfl := Option.some.inj went
          exact h.acquire conversation parent
  | @spawned k cr manager known moved =>
      obtain ⟨same, asked⟩ := pool_getOrCreate { s with manager } k cr.conversation
        cr.parentConversationKey
      show Parented _ (SessionPool.manager _).pool
      rw [same, asked]
      exact parented_manager h moved (by simp)
  | sessionCreated answer known waits =>
      unfold finishCreate
      split
      · exact h
      · split <;> exact h
  | unlisted => exact h
  | attached known came claimed moved =>
      unfold claim at claimed
      split at claimed
      · simp at claimed
      · obtain rfl := Except.ok.inj claimed
        exact parented_manager h moved (by simp)
  | spawnFailed moved | attachFailed moved => exact parented_manager h moved (by simp)
  | @childClosed purpose id c answer manager moved =>
      rw [(teardown_asked s _ answer).1]
      exact parented_manager h moved (by simp)
  | closeTornDown answer moved =>
      rw [(teardown_asked s _ answer).1]
      exact parented_manager h moved (by simp)
  | exit known there moved =>
      rw [(releaseOwnership_asked s _).1]
      exact parented_manager h moved (by simp)
  | exitElsewhere known elsewhere moved => exact parented_manager h moved (by simp)
  | reset conversation =>
      unfold SessionPool.retireConversation
      split
      · exact h
      split
      · exact h
      · exact h.retireChild _ _
  | forget due => exact h
  | retired moved => exact parented_manager h moved (by simp)
  | plain isPlain moved =>
      refine parented_manager h moved fun conversation parent same => ?_
      simp [same, SessionPool.isPlain] at isPlain

/-- A later call of `acquire` does not change what the earlier ones have
named. -/
theorem forked_append {n : NewSession} {asked : List (Option String)} (h : n.Forked asked)
    (parent : Option String) : n.Forked (asked ++ [parent]) := by
  obtain ⟨w, named, caller, same, there, forked⟩ := h
  refine ⟨w, named, caller, same, ?_, forked⟩
  rw [List.getElem?_append_left (List.getElem?_eq_some_iff.mp there).1, there]

theorem sessions_finishCreate (s : SessionPool) (k : ChildId) (conversation : Conversation)
    (answer : Except String String) :
    (s.finishCreate k conversation answer).asked = s.asked ∧
      (s.finishCreate k conversation answer).sessions = s.sessions := by
  unfold finishCreate
  split
  · exact ⟨rfl, rfl⟩
  · split <;> exact ⟨rfl, rfl⟩

theorem sessions_claim {k : ChildId} {conversation : Conversation}
    (claimed : s.claim k conversation = .ok t) : t.asked = s.asked ∧ t.sessions = s.sessions := by
  unfold claim at claimed
  split at claimed
  · simp at claimed
  · obtain rfl := Except.ok.inj claimed
    exact ⟨rfl, rfl⟩

theorem sessions_retireConversation (s : SessionPool) (conversation : Conversation) :
    (s.retireConversation conversation).asked = s.asked ∧
      (s.retireConversation conversation).sessions = s.sessions := by
  unfold SessionPool.retireConversation
  split
  · exact ⟨rfl, rfl⟩
  · split <;> exact ⟨rfl, rfl⟩

theorem Forked.congr (h : Forked s) (same : t.asked = s.asked ∧ t.sessions = s.sessions) :
    Forked t := by
  unfold Forked
  rw [same.1, same.2]
  exact h

/-- The child of a creation opens a session as it should exactly if it is not
a queued caller's whose parent has one. -/
theorem forked_getOrCreate_iff (h : Forked s) (par : Parented s.asked s.pool) {k : ChildId}
    {cr : Creation} (known : s.pool.creationOf k = some cr) (phase : cr.phase = .spawning)
    {manager : ClosablePool}
    (callers : manager.pool.continuations = s.pool.continuations) :
    Forked ({ s with manager }.getOrCreate k cr.conversation cr.parentConversationKey) ↔
      Unqueued s (.spawned k .done) := by
  have creator : manager.pool.creator k = s.pool.creator k := by
    unfold PoolManager.creator
    rw [callers]
  obtain ⟨rest, first, started⟩ := (par.creating k cr known).2 phase
  unfold getOrCreate
  split
  case h_1 existing there =>
      refine iff_of_true h fun cr' w parent known' absent => ?_
      obtain rfl := Option.some.inj (known.symm.trans known')
      exact absurd (absent.symm.trans there) (by simp)
  split
  case h_1 other there =>
      refine iff_of_true h fun cr' w parent known' _ alone => ?_
      obtain rfl := Option.some.inj (known.symm.trans known')
      exact absurd (alone.symm.trans there) (by simp)
  case h_2 absent _ alone =>
      -- A new session: what it is forked from is what the creation carries.
      have new : Forked { s.attach k (.creating (s.registry.parentSessionFile
            cr.conversation.adapterId cr.parentConversationKey)) with
            manager
            registry := s.registry.list cr.conversation k
            sessions := s.sessions ++ [⟨(s.pool.creator k).map (·.caller), cr.conversation,
              s.registry.parentSessionFile cr.conversation.adapterId cr.parentConversationKey,
              s.registry⟩] } ↔
          NewSession.Forked ⟨some rest.caller, cr.conversation,
              s.registry.parentSessionFile cr.conversation.adapterId cr.parentConversationKey,
              s.registry⟩ s.asked := by
        constructor
        · intro forked
          have mine := forked _ (List.mem_append_right _ (List.mem_singleton.mpr rfl))
          rw [first] at mine
          exact mine
        · intro forked n mem
          rcases List.mem_append.mp mem with old | new
          · exact h n old
          · obtain rfl := List.mem_singleton.mp new
            rw [first]
            exact forked
      show Forked { s.attach k _ with manager, registry := _, sessions := s.sessions ++
        [⟨(manager.pool.creator k).map (·.caller), _, _, s.registry⟩] } ↔ _
      rw [creator]
      refine new.trans ?_
      cases rest with
      | acquireNew w =>
          refine iff_of_true ⟨w, _, rfl, started.1, started.2, fun _ there => there⟩ ?_
          intro cr' w' parent _ _ _ queued
          exact absurd (first.symm.trans queued) (by simp)
      | acquireInflight w | drainInflight w => exact started.elim
      | drainNew w =>
          obtain ⟨conversation, called, none⟩ := started
          constructor
          · rintro ⟨w', parent', same, -, named', forked⟩ cr' w'' parent known' - - queued named
            obtain rfl := Option.some.inj (known.symm.trans known')
            obtain rfl : w = w' := Option.some.inj same
            obtain rfl : w = w'' :=
              Continuation.drainNew.inj (Option.some.inj (first.symm.trans queued))
            obtain rfl := Option.some.inj (named.symm.trans named')
            by_contra some
            obtain ⟨sessionFile, there⟩ := Option.ne_none_iff_exists'.mp some
            have forked := forked sessionFile there
            rw [none] at forked
            simp [SessionRegistry.parentSessionFile] at forked
          · intro unqueued
            refine ⟨w, s.asked[w.call], rfl, conversation, List.getElem?_eq_getElem called, ?_⟩
            intro sessionFile there
            have none := unqueued cr w _ known absent alone first
              (List.getElem?_eq_getElem called)
            exact absurd (none.symm.trans there) (by simp)

/-- A step forks what it creates exactly if it meets `Unqueued`. -/
theorem forked_step_iff (h : Forked s) (par : Parented s.asked s.pool) {a : Action}
    (taken : step s a = some t) : Forked t ↔ Unqueued s a := by
  have both (forked : Forked t) (met : Unqueued s a) : Forked t ↔ Unqueued s a :=
    iff_of_true forked met
  cases step_cases taken with
  | acquire moved => exact both (fun n mem => forked_append (h n mem) _) trivial
  | @spawned k cr manager known moved =>
      cases ClosablePool.step_cases moved with
      | pool went =>
          cases PoolManager.step_cases went with
          | @spawned _ cr' known' phase =>
              obtain rfl := Option.some.inj (known.symm.trans known')
              exact forked_getOrCreate_iff h par known phase rfl
  | spawnFailed moved | unlisted | attachFailed moved => exact both h trivial
  | exitElsewhere known elsewhere moved => exact both h trivial
  | forget due | retired moved | plain isPlain moved => exact both h trivial
  | sessionCreated answer known waits =>
      exact both (h.congr (sessions_finishCreate s _ _ answer)) trivial
  | attached known came claimed moved =>
      have forked := h.congr (sessions_claim claimed)
      exact both forked trivial
  | childClosed answer moved | closeTornDown answer moved =>
      exact both (h.congr (teardown_asked s _ answer)) trivial
  | exit known there moved =>
      exact both (h.congr (releaseOwnership_asked s _)) trivial
  | reset conversation => exact both (h.congr (sessions_retireConversation s _)) trivial

/-- The runs of a new pool, over any registry, throughout which every session
is forked from its parent are those in which no session is created for a
caller that had to queue and whose parent has a session. -/
theorem forked_iff (maxChildren : ℕ) (rows : Conversation → Option SessionRecord)
    (actions : List Action) :
    machine.Throughout Forked (initial maxChildren rows) actions ↔
      machine.EachStep Unqueued (initial maxChildren rows) actions := by
  refine Transition.Machine.throughout_iff_eachStep (I := fun s => Parented s.asked s.pool)
    ?_ ?_ ?_ ?_
  · exact parented_initial maxChildren
  · exact fun _ mem => by simp [initial] at mem
  · exact fun _ _ _ par taken => parented_step par taken
  · exact fun _ _ _ par forked taken => forked_step_iff forked par taken

/-- A pool of one child. Its only child is in use when the thread of a
conversation is to be opened, so the call for the thread queues. -/
def queuedThread : List Action :=
  let p : Conversation := ⟨"http", "p"⟩
  let t : Conversation := ⟨"http", "t"⟩
  let evict : Purpose := .capacity .drain [] none
  let pool (a : PoolManager.Action) : Action := .plain (.pool a)
  [.acquire p none, .spawned 0 .done, .attached 0 .done, pool (.finished 0),
    pool (.resume 0 (.acquireNew ⟨p, 0⟩)),
    .acquire t (some "p"), pool (.advance (.decided (.acquire ⟨t, 1⟩ (some "p")) .allInUse)),
    pool (.release 0), .childClosed evict p.id 0 .done,
    pool (.advance (.evict evict p.id 0 (.tornDown .childClosed))),
    pool (.advance (.evict evict p.id 0 (.returned .ok))),
    pool (.advance (.decided .drain .ok)), pool (.advance .drainTail), .spawned 1 .done]

/-- The session of the parent of a thread. -/
def parentRow (conversation : Conversation) : Option SessionRecord :=
  if conversation = ⟨"http", "p"⟩ then some ⟨"p.jsonl", none⟩ else none

/-- The thread that had to queue opens with an empty session. -/
theorem queuedThread_is_not_forked :
    ¬ ∀ s, machine.Reachable Transition.Always s → Forked s := by
  intro all
  have run : (machine.exec Transition.Always (initial 1 parentRow) queuedThread).map (fun s =>
      (s.asked, s.sessions.map fun n =>
        (n.caller, [n.parentSessionFile, n.registry.parentSessionFile "http" (some "p")]))) =
      some ([none, some "p"],
        [(some ⟨⟨"http", "t"⟩, 1⟩, [none, some "p.jsonl"])]) := by
    decide +kernel
  obtain ⟨s, run, facts⟩ := Option.map_eq_some_iff.mp run
  obtain ⟨asked, sessions⟩ := Prod.mk.inj facts
  obtain ⟨n, only, facts⟩ := List.map_eq_singleton_iff.mp sessions
  simp only [Prod.mk.injEq, List.cons.injEq, and_true] at facts
  obtain ⟨caller, parentSessionFile, registered⟩ := facts
  have reach : machine.Reachable Transition.Always s := by
    refine .of_exec ⟨1, parentRow, by decide, fun c row there o => ?_, rfl⟩ run
    unfold parentRow at there
    split at there
    · obtain rfl := Option.some.inj there
      simp
    · simp at there
  obtain ⟨w, parent, same, conversation, named, forked⟩ := all s reach n (by simp [only])
  obtain rfl := Option.some.inj (caller.symm.trans same)
  rw [asked] at named
  obtain rfl : some "p" = parent := Option.some.inj named
  rw [← conversation] at forked
  exact absurd (parentSessionFile.symm.trans (forked _ registered)) (by simp)

end SessionPool

end OmpBundler.Core
