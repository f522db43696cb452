import OmpBundler.Core.PoolShutdown
import OmpBundler.Core.PoolWaiting

/-!
Nobody is stranded.

Every call of `acquire` is, until it settles, in the wait queue or with an
operation that will go on (`Kept`). Closing the pool waits for these
operations, and no caller joins the queue of a closed pool in time, so when
`close` has settled every call has. Together with `Watched` this gives the
result for runs whose steps are `Timely`. Two runs that are not show how a
caller is stranded, and how one is served.
-/

namespace OmpBundler.Core

open Library

/-- The call of `acquire` that a suspended operation serves. -/
def Task.call (x : Task) : Option ℕ :=
  match x.caller with
  | some (.acquire w _) => some w.call
  | _ => none

namespace PoolManager

/-- The call has settled, or somebody still has it. -/
def Tracked (s : PoolManager) (n : ℕ) : Prop :=
  (∃ outcome, (n, outcome) ∈ s.settled) ∨ (∃ w ∈ s.waiters, w.call = n) ∨
    (∃ x ∈ s.continuations, x.2.caller.call = n) ∨ ∃ x ∈ s.tasks, x.call = some n

/-- Every call so far is tracked, but for those of these callers. -/
def KeptBut (s : PoolManager) (callers : List Waiter) : Prop :=
  ∀ n < s.nextCall, s.Tracked n ∨ ∃ w ∈ callers, w.call = n

/-- Every call so far is tracked. -/
def Kept (s : PoolManager) : Prop := ∀ n < s.nextCall, s.Tracked n

variable {s t : PoolManager} {w : Waiter} {callers : List Waiter}

theorem Kept.but (h : Kept s) : KeptBut s [] := fun n lt => .inl (h n lt)

theorem KeptBut.kept (h : KeptBut s []) : Kept s := fun n lt => by simpa using h n lt

theorem KeptBut.frame (h : KeptBut s callers) {callers' : List Waiter}
    (tracked : ∀ n, s.Tracked n → t.Tracked n ∨ ∃ w ∈ callers', w.call = n)
    (owed : ∀ v ∈ callers, t.Tracked v.call ∨ v ∈ callers')
    (calls : t.nextCall = s.nextCall) : KeptBut t callers' := by
  intro n lt
  rcases h n (calls ▸ lt) with there | ⟨v, mem, rfl⟩
  · exact tracked n there
  · exact (owed v mem).imp_right fun mem => ⟨v, mem, rfl⟩

/-! ### Whoever has a call passes it on -/

theorem KeptBut.reject (h : KeptBut s (w :: callers)) (error : PoolError) :
    KeptBut (s.reject w error) callers := by
  refine h.frame (fun n there => .inl ?_) (fun v mem => ?_) rfl
  · rcases there with ⟨outcome, mem⟩ | rest
    · exact .inl ⟨outcome, List.mem_append_left _ mem⟩
    · exact .inr rest
  · rcases List.mem_cons.mp mem with rfl | mem
    · exact .inl (.inl ⟨_, List.mem_append_right _ (List.mem_singleton.mpr rfl)⟩)
    · exact .inr mem

theorem KeptBut.grant (h : KeptBut s (w :: callers)) (c : ChildId) :
    KeptBut (s.grant w c) callers := by
  refine h.frame (fun n there => .inl ?_) (fun v mem => ?_) rfl
  · rcases there with ⟨outcome, mem⟩ | rest
    · exact .inl ⟨outcome, List.mem_append_left _ mem⟩
    · exact .inr rest
  · rcases List.mem_cons.mp mem with rfl | mem
    · exact .inl (.inl ⟨_, List.mem_append_right _ (List.mem_singleton.mpr rfl)⟩)
    · exact .inr mem

theorem KeptBut.enqueueWaiter (h : KeptBut s [w]) : Kept (s.enqueueWaiter w) := by
  refine KeptBut.kept (h.frame (fun n there => .inl ?_) (fun v mem => ?_) rfl)
  · exact there.imp_right (.imp_left fun ⟨v, mem, same⟩ => ⟨v, List.mem_append_left _ mem, same⟩)
  · obtain rfl := List.mem_singleton.mp mem
    exact .inl (.inr (.inl ⟨v, List.mem_append_right _ (List.mem_singleton.mpr rfl), rfl⟩))

theorem KeptBut.await (h : KeptBut s [w]) (k : ChildId) {rest : Continuation}
    (mine : rest.caller = w) : Kept (s.await k rest) := by
  refine KeptBut.kept (h.frame (fun n there => .inl ?_) (fun v mem => ?_) rfl)
  · exact there.imp_right (.imp_right (.imp_left fun ⟨v, mem, same⟩ =>
      ⟨v, List.mem_append_left _ mem, same⟩))
  · obtain rfl := List.mem_singleton.mp mem
    exact .inl (.inr (.inr (.inl
      ⟨(k, rest), List.mem_append_right _ (List.mem_singleton.mpr rfl), congrArg _ mine⟩)))

theorem KeptBut.createEntry (h : KeptBut s [w]) (conversation : Conversation)
    (parent : Option String) {rest : Continuation} (mine : rest.caller = w) :
    Kept (s.createEntry conversation parent rest) := by
  unfold PoolManager.createEntry
  split
  · exact h.await _ mine
  · exact h.await s.nextChild mine

theorem KeptBut.suspend (h : KeptBut s callers) {x : Task}
    (owed : ∀ v ∈ callers, x.call = some v.call) : Kept (s.suspend x) := by
  refine KeptBut.kept (h.frame (fun n there => .inl ?_) (fun v mem => .inl ?_) rfl)
  · exact there.imp_right (.imp_right (.imp_right fun ⟨y, mem, same⟩ =>
      ⟨y, List.mem_append_left _ mem, same⟩))
  · exact .inr (.inr (.inr ⟨x, List.mem_append_right _ (List.mem_singleton.mpr rfl), owed v mem⟩))

theorem KeptBut.evicting (h : KeptBut s callers) {caller : EvictCaller}
    (evicting : Evicting s caller t)
    (owed : ∀ v ∈ callers, ∃ parent, caller = .acquire v parent) : Kept t := by
  have mine {x : Task} (same : x.caller = some caller) (v : Waiter) (mem : v ∈ callers) :
      x.call = some v.call := by
    obtain ⟨parent, rfl⟩ := owed v mem
    simp [Task.call, same]
  cases evicting with
  | decided outcome => exact h.suspend (mine rfl)
  | begun rest closeError id c =>
      have moved := h.suspend (x := .evict (.capacity caller rest closeError) id c .closing)
        (mine rfl)
      exact fun n lt => moved n lt

/-- Serving the queue loses no caller of it. -/
theorem Kept.drain (queue : List Waiter) (s : PoolManager)
    (h : KeptBut { s with waiters := [] } queue) : Kept (s.drain queue) := by
  have requeue {s : PoolManager} {waiters : List Waiter} (flag : Bool)
      (h : KeptBut { s with waiters := [] } waiters) :
      Kept { s with waiters := waiters, drainEviction := flag } := by
    refine KeptBut.kept (h.frame (fun n there => .inl ?_) (fun v mem => .inl ?_) rfl)
    · exact there.imp_right (.imp_left fun ⟨v, mem, _⟩ => absurd mem (by simp))
    · exact .inr (.inl ⟨v, mem, rfl⟩)
  have requeueBut {s : PoolManager} {w : Waiter} {waiters : List Waiter}
      (h : KeptBut { s with waiters := [] } (w :: waiters)) :
      KeptBut { s with waiters := waiters } [w] := by
    refine h.frame (fun n there => .inl ?_) (fun v mem => ?_) rfl
    · exact there.imp_right (.imp_left fun ⟨v, mem, _⟩ => absurd mem (by simp))
    · rcases List.mem_cons.mp mem with rfl | mem
      · exact .inr (by simp)
      · exact .inl (.inr (.inl ⟨v, mem, rfl⟩))
  induction queue generalizing s with
  | nil => exact h.kept
  | cons w rest ih =>
      unfold PoolManager.drain
      split
      case h_1 c present =>
          split
          · exact ih _ (h.reject _)
          split
          · exact ih _ (h.grant c)
          · exact requeue s.drainEviction h
      case h_2 =>
          split
          · exact (requeueBut h).await _ rfl
          split
          case isTrue =>
              split
              · exact requeue s.drainEviction h
              split
              · exact requeue s.drainEviction h
              · exact (requeue true h).but.evicting
                  (evictIdleForCapacity_cases _ _) (by simp)
          case isFalse => exact (requeueBut h).createEntry _ _ rfl

theorem Kept.drainWaiters (h : Kept s) : Kept s.drainWaiters := by
  refine Kept.drain s.waiters s fun n lt => ?_
  rcases h n lt with settled | ⟨v, mem, same⟩ | rest
  · exact .inl (.inl settled)
  · exact .inr ⟨v, mem, same⟩
  · exact .inl (.inr (.inr rest))

/-! ### The steps -/

theorem Kept.eraseTask (h : Kept s) (x : Task) (callers : List Waiter)
    (owed : ∀ n, x.call = some n → ∃ w ∈ callers, w.call = n) :
    KeptBut { s with tasks := s.tasks.erase x } callers := by
  refine h.but.frame (fun n there => ?_) (by simp) rfl
  rcases there with settled | waits | awaits | ⟨y, mem, same⟩
  · exact .inl (.inl settled)
  · exact .inl (.inr (.inl waits))
  · exact .inl (.inr (.inr (.inl awaits)))
  · by_cases here : y = x
    · exact .inr (owed n (here ▸ same))
    · exact .inl (.inr (.inr (.inr ⟨y, (List.mem_erase_of_ne here).mpr mem, same⟩)))

theorem Kept.eraseContinuation (h : Kept s) (k : ChildId) (rest : Continuation) :
    KeptBut { s with continuations := s.continuations.erase (k, rest) } [rest.caller] := by
  refine h.but.frame (fun n there => ?_) (by simp) rfl
  rcases there with settled | waits | ⟨x, mem, same⟩ | tasks
  · exact .inl (.inl settled)
  · exact .inl (.inr (.inl waits))
  · by_cases here : x = (k, rest)
    · rw [here] at same
      exact .inr ⟨rest.caller, by simp, same⟩
    · exact .inl (.inr (.inr (.inl ⟨x, (List.mem_erase_of_ne here).mpr mem, same⟩)))
  · exact .inl (.inr (.inr (.inr tasks)))

/-- A suspended operation moves on and serves the same call. -/
theorem Kept.replaceTask (h : Kept s) {x y : Task} (call : y.call = x.call) :
    Kept ({ s with tasks := s.tasks.erase x }.suspend y) := by
  intro n lt
  rcases h.eraseTask x (x.call.toList.map fun n => ⟨⟨"", ""⟩, n⟩)
    (fun n same => by simp [same]) n lt with there | ⟨w, mem, same⟩
  · refine there.imp_right (.imp_right (.imp_right ?_))
    rintro ⟨z, mem, same⟩
    exact ⟨z, List.mem_append_left _ mem, same⟩
  · refine .inr (.inr (.inr ⟨y, List.mem_append_right _ (List.mem_singleton.mpr rfl), ?_⟩))
    rw [call]
    cases serves : x.call with
    | none => simp [serves] at mem
    | some m =>
        simp only [serves, Option.toList_some, List.map_cons, List.map_nil,
          List.mem_singleton] at mem
        subst mem
        exact congrArg some same

theorem Kept.acquire (h : Kept s) (conversation : Conversation) (parent : Option String) :
    Kept (s.acquire conversation parent) := by
  have called : KeptBut { s with nextCall := s.nextCall + 1 } [⟨conversation, s.nextCall⟩] := by
    intro n lt
    have lt : n < s.nextCall + 1 := lt
    by_cases old : n < s.nextCall
    · exact .inl (h n old)
    · refine .inr ⟨⟨conversation, s.nextCall⟩, by simp, ?_⟩
      show s.nextCall = n
      omega
  unfold PoolManager.acquire
  dsimp only
  split
  · exact (called.reject _).kept
  split
  · exact (called.reject _).kept
  split
  · exact (called.reject _).kept
  split
  case h_1 c _ =>
      split
      · exact (called.reject _).kept
      split
      · exact (called.grant c).kept
      · exact called.enqueueWaiter
  case h_2 =>
      split
      · exact called.await _ rfl
      split
      · refine called.evicting (evictIdleForCapacity_cases _ _) fun v mem => ?_
        exact ⟨parent, by rw [List.mem_singleton.mp mem]⟩
      · exact called.createEntry _ _ rfl

theorem Kept.release (h : Kept s) (l : ℕ) (lease : Lease) : Kept (s.release l lease) := by
  unfold PoolManager.release releaseEntry
  split
  · exact h
  dsimp only
  split
  · exact h
  split
  · exact h
  split
  · exact h
  · exact Kept.drainWaiters (by exact h)

theorem KeptBut.resume {k : ChildId} {rest : Continuation} (h : KeptBut s [rest.caller]) :
    Kept (s.resume k rest) := by
  cases rest with
  | acquireNew w =>
      simp only [PoolManager.resume]
      split
      · exact (h.reject _).kept
      · exact (h.grant k).kept
  | acquireInflight w =>
      simp only [PoolManager.resume]
      split
      · exact (h.reject _).kept
      split
      · exact (h.grant k).kept
      · exact h.enqueueWaiter
  | drainNew w =>
      simp only [PoolManager.resume]
      split
      · exact (h.reject _).kept
      · exact (h.grant k).kept.drainWaiters
  | drainInflight w =>
      simp only [PoolManager.resume]
      split
      · exact (h.reject _).kept
      split
      · exact (h.grant k).kept.drainWaiters
      · refine Kept.drainWaiters fun n lt => ?_
        rcases h n lt with there | ⟨v, mem, same⟩
        · refine there.imp_right (.imp_left ?_)
          rintro ⟨v, mem, same⟩
          exact ⟨v, .tail _ mem, same⟩
        · obtain rfl := List.mem_singleton.mp mem
          exact .inr (.inl ⟨v, .head _, same⟩)

theorem KeptBut.resumeRejected {error : PoolError} {rest : Continuation}
    (h : KeptBut s [rest.caller]) : Kept (s.resumeRejected error rest) := by
  cases rest with
  | acquireNew w | acquireInflight w => exact (h.reject error).kept
  | drainNew w | drainInflight w => exact (h.reject error).kept.drainWaiters

theorem Kept.rejectWaitersFor (h : Kept s) (id : String) (error : PoolError) :
    Kept (s.rejectWaitersFor id error) := by
  intro n lt
  rcases h n lt with ⟨outcome, mem⟩ | ⟨w, mem, same⟩ | rest
  · exact .inl ⟨outcome, List.mem_append_left _ mem⟩
  · by_cases here : w.conversation.id = id
    · refine .inl ⟨.error error, List.mem_append_right _ ?_⟩
      exact List.mem_map.mpr ⟨w, by simp [mem, here], by rw [same]⟩
    · exact .inr (.inl ⟨w, by simp [PoolManager.rejectWaitersFor, mem, here], same⟩)
  · exact .inr (.inr rest)

theorem call_evict (purpose : Purpose) (id : String) (c : ChildId) (step step' : EvictStep) :
    (Task.evict purpose id c step').call = (Task.evict purpose id c step).call := by
  cases purpose <;> rfl

theorem Kept.evictReturned (h : Kept s) (purpose : Purpose) (id : String) (c : ChildId)
    (outcome : EvictOutcome) : Kept ({ s with
      tasks := s.tasks.erase (.evict purpose id c (.returned outcome)) }.evictReturned purpose
        id c outcome) := by
  cases purpose with
  | idle => exact Kept.drainWaiters (by exact (h.eraseTask _ [] (by simp [Task.call, Task.caller])).kept)
  | retire =>
      have erased : Kept _ := (h.eraseTask (.evict .retire id c (.returned outcome)) []
        (by simp [Task.call, Task.caller])).kept
      cases outcome with
      | ok => exact erased.drainWaiters
      | closeFailed error => exact Kept.rejectWaitersFor (by exact erased) id (.closeFailed error)
  | capacity caller rest closeError =>
      cases outcome with
      | ok => exact h.replaceTask rfl
      | closeFailed error =>
          have evicting := evictNext_cases { s with
            tasks := s.tasks.erase (.evict (.capacity caller rest closeError) id c
              (.returned (.closeFailed error))) } caller (some error) rest
          cases caller with
          | drain =>
              exact (h.eraseTask _ [] (by simp [Task.call, Task.caller])).evicting
                evicting (by simp)
          | acquire w parent =>
              refine (h.eraseTask _ [w] fun n same => ?_).evicting evicting
                fun v mem => ⟨parent, by rw [List.mem_singleton.mp mem]⟩
              exact ⟨w, by simp, Option.some.inj same⟩

theorem KeptBut.acquireEvicted (h : KeptBut s [w]) (parent : Option String)
    (outcome : EvictForCapacityOutcome) : Kept (s.acquireEvicted w parent outcome) := by
  cases outcome with
  | allInUse => exact h.enqueueWaiter
  | closeFailed error => exact (h.reject _).kept
  | ok =>
      simp only [PoolManager.acquireEvicted]
      split
      · exact (h.reject _).kept
      · exact h.createEntry _ _ rfl

theorem Kept.tryEvictForDrain (h : Kept s) (outcome : EvictForCapacityOutcome) :
    Kept (s.tryEvictForDrain outcome) := by
  have rejected (error : PoolError) : Kept { s with
      waiters := []
      settled := s.settled ++ s.waiters.map fun w : Waiter => (w.call, Except.error error) } := by
    intro n lt
    rcases h n lt with ⟨outcome, mem⟩ | ⟨w, mem, same⟩ | rest
    · exact .inl ⟨outcome, List.mem_append_left _ mem⟩
    · exact .inl ⟨.error error, List.mem_append_right _ (List.mem_map.mpr ⟨w, mem, by rw [same]⟩)⟩
    · exact .inr (.inr rest)
  cases outcome with
  | ok | allInUse => exact h.but.suspend (by simp)
  | closeFailed error => exact (rejected (.closeFailed error)).but.suspend (by simp)

/-- No step loses a call. -/
theorem Kept.step (h : Kept s) {a : Action} (taken : step s a = some t) : Kept t := by
  cases step_cases taken with
  | acquire conversation parent => exact h.acquire conversation parent
  | release known => exact h.release _ _
  | spawned | spawnFailed | attached | attachFailed | aborted | abortFailed => exact h
  | finished | finishedFailing => exact h
  | resumed mem known phase => exact (h.eraseContinuation _ _).resume
  | resumedRejected mem known phase => exact (h.eraseContinuation _ _).resumeRejected
  | @tornDown purpose id c result mem =>
      have moved := h.replaceTask (call_evict purpose id c .closing (.tornDown result))
      cases result <;> exact moved
  | @evicted purpose id c result mem =>
      have moved := h.replaceTask
        (call_evict purpose id c (.tornDown result) (.returned result.outcome))
      cases result <;> exact moved
  | returned mem => exact h.evictReturned _ _ _ _
  | @acquireEvicted w parent outcome mem =>
      refine (h.eraseTask _ [w] fun n same => ?_).acquireEvicted parent outcome
      exact ⟨w, by simp, Option.some.inj same⟩
  | drainEvicted mem =>
      exact Kept.tryEvictForDrain (h.eraseTask _ [] (by simp [Task.call, Task.caller])).kept _
  | drainTail mem =>
      exact Kept.drainWaiters (by
        exact (h.eraseTask .drainTail [] (by simp [Task.call, Task.caller])).kept)
  | @idleTimer c armed =>
      have begun (id : String) (current : ChildId) := h.but.suspend
        (x := .evict .idle id current .closing) (by simp)
      unfold sweepIdle
      dsimp only
      split
      · exact h
      split
      · exact begun _ _
      · exact h
  | retireChild conversation c =>
      have begun := h.but.suspend
        (x := .evict .retire conversation.id c .closing) (by simp)
      unfold PoolManager.retireChild
      split
      · exact begun
      · exact h
  | exit known alive =>
      unfold PoolManager.forgetExitedChild
      split
      · exact Kept.drainWaiters (by exact h)
      · exact h

/-! ### The closed pool winds down -/

/-- What a step of a closed pool with an empty wait queue does: it takes no
caller in and starts nothing. -/
structure Winds (s t : PoolManager) : Prop where
  closed : t.closed = s.closed
  waiters : t.waiters = []
  continuations : ∀ x ∈ t.continuations, x ∈ s.continuations
  known : ∀ k, (s.creationOf k).isSome → (t.creationOf k).isSome
  active : ∀ k cr, t.creationOf k = some cr → cr.phase.active = true →
    ∃ cr', s.creationOf k = some cr' ∧ cr'.phase.active = true
  emptied : s.tasks = [] → (∀ k cr, s.creationOf k = some cr → cr.phase.active = false) →
    (∀ id, s.entries.get id = none) → t.tasks = [] ∧ ∀ id, t.entries.get id = none

theorem drainWaiters_nil (none : s.waiters = []) : s.drainWaiters = s := by
  unfold PoolManager.drainWaiters
  rw [none]
  cases s
  simp_all [drain]

/-- Updates of creations, continuations and the map are named; the rest is
of no account. -/
theorem Winds.of_eq (closed : t.closed = s.closed) (waiters : t.waiters = [])
    (continuations : ∀ x ∈ t.continuations, x ∈ s.continuations)
    (creations : t.creationOf = s.creationOf)
    (emptied : s.tasks = [] → (∀ id, s.entries.get id = none) →
      t.tasks = [] ∧ ∀ id, t.entries.get id = none) : Winds s t where
  closed := closed
  waiters := waiters
  continuations := continuations
  known k := by rw [creations]; exact fun there => there
  active k cr := by rw [creations]; exact fun known active => ⟨cr, known, active⟩
  emptied tasks _ entries := emptied tasks entries

theorem Winds.setPhase (none : s.waiters = []) {k : ChildId} {cr : Creation}
    (known : s.creationOf k = some cr) (phase : CreationPhase)
    (before : cr.phase.active = true) : Winds s (s.setPhase k phase) where
  closed := rfl
  waiters := none
  continuations _ mem := mem
  known c there := by
    by_cases here : c = k
    · subst here
      simp [known]
    · simpa [here] using there
  active c cr' known' active := by
    by_cases here : c = k
    · exact ⟨cr, here ▸ known, before⟩
    · exact ⟨cr', by simpa [here] using known', active⟩
  emptied tasks _ entries := ⟨tasks, entries⟩

/-- Updates of the promises of callers, the entry objects and the leases. -/
theorem Winds.quiet (closed : t.closed = s.closed) (waiters : t.waiters = [])
    (rest : t.continuations = s.continuations ∧ t.creationOf = s.creationOf ∧
      t.tasks = s.tasks ∧ ∀ id, t.entries.get id = s.entries.get id) : Winds s t :=
  .of_eq closed waiters (rest.1 ▸ fun _ mem => mem) rest.2.1
    fun tasks entries => ⟨rest.2.2.1.trans tasks, fun id => (rest.2.2.2 id).trans (entries id)⟩

theorem winds_acquire (closed : s.closed = true) (none : s.waiters = [])
    (conversation : Conversation) (parent : Option String) :
    Winds s (s.acquire conversation parent) := by
  unfold PoolManager.acquire
  dsimp only
  split
  · exact .quiet rfl none ⟨rfl, rfl, rfl, fun _ => rfl⟩
  split
  · exact .quiet rfl none ⟨rfl, rfl, rfl, fun _ => rfl⟩
  exact .quiet rfl none ⟨rfl, rfl, rfl, fun _ => rfl⟩

theorem winds_release (closed : s.closed = true) (none : s.waiters = []) (l : ℕ)
    (lease : Lease) : Winds s (s.release l lease) := by
  unfold PoolManager.release releaseEntry
  split
  · exact .quiet rfl none ⟨rfl, rfl, rfl, fun _ => rfl⟩
  exact .quiet rfl none ⟨rfl, rfl, rfl, fun _ => rfl⟩

theorem winds_resume (closed : s.closed = true) (none : s.waiters = []) (k : ChildId)
    (rest : Continuation) :
    Winds s ({ s with continuations := s.continuations.erase (k, rest) }.resume k rest) := by
  have rejected (w : Waiter) : Winds s
      ({ s with continuations := s.continuations.erase (k, rest) }.reject w .closed) :=
    .of_eq rfl none (fun _ mem => List.mem_of_mem_erase mem) rfl
      fun tasks entries => ⟨tasks, entries⟩
  cases rest with
  | acquireNew w | acquireInflight w | drainNew w | drainInflight w =>
      simp only [PoolManager.resume]
      rw [if_pos closed]
      exact rejected w

theorem winds_resumeRejected (none : s.waiters = []) (k : ChildId)
    (rest : Continuation) (error : PoolError) :
    Winds s
      ({ s with continuations := s.continuations.erase (k, rest) }.resumeRejected error rest) := by
  have rejected (w : Waiter) : Winds s
      ({ s with continuations := s.continuations.erase (k, rest) }.reject w error) :=
    .of_eq rfl none (fun _ mem => List.mem_of_mem_erase mem) rfl
      fun tasks entries => ⟨tasks, entries⟩
  cases rest with
  | acquireNew w | acquireInflight w => exact rejected w
  | drainNew w | drainInflight w =>
      simp only [PoolManager.resumeRejected]
      rw [drainWaiters_nil (by exact none)]
      exact rejected w

theorem winds_evicting (none : s.waiters = []) {x : Task} (mem : x ∈ s.tasks)
    {caller : EvictCaller} (evicting : Evicting { s with tasks := s.tasks.erase x } caller t) :
    Winds s t := by
  cases evicting with
  | decided outcome | begun rest closeError id c =>
      exact .of_eq rfl none (fun _ mem => mem) rfl fun tasks => by simp [tasks] at mem

theorem winds_evictReturned (none : s.waiters = []) {purpose : Purpose} {id : String}
    {c : ChildId} {outcome : EvictOutcome}
    (mem : .evict purpose id c (.returned outcome) ∈ s.tasks) :
    Winds s ({ s with
      tasks := s.tasks.erase (.evict purpose id c (.returned outcome)) }.evictReturned purpose
        id c outcome) := by
  have gone {u : PoolManager} (closed : u.closed = s.closed) (waiters : u.waiters = [])
      (continuations : u.continuations = s.continuations)
      (creations : u.creationOf = s.creationOf) : Winds s u :=
    .of_eq closed waiters (continuations ▸ fun _ mem => mem) creations
      fun tasks => by simp [tasks] at mem
  cases purpose with
  | capacity caller rest closeError =>
      cases outcome with
      | ok => exact gone rfl none rfl rfl
      | closeFailed error => exact winds_evicting none mem (evictNext_cases _ caller _ rest)
  | idle =>
      simp only [PoolManager.evictReturned]
      rw [drainWaiters_nil (by exact none)]
      exact gone rfl none rfl rfl
  | retire =>
      cases outcome with
      | ok =>
          simp only [PoolManager.evictReturned]
          rw [drainWaiters_nil (by exact none)]
          exact gone rfl none rfl rfl
      | closeFailed error =>
          exact gone rfl (by simp [PoolManager.evictReturned, rejectWaitersFor, none]) rfl rfl

theorem winds_acquireEvicted (closed : s.closed = true) (none : s.waiters = []) {w : Waiter}
    {parent : Option String} {outcome : EvictForCapacityOutcome}
    (timely : s.Timely (.advance (.decided (.acquire w parent) outcome)))
    (mem : .decided (.acquire w parent) outcome ∈ s.tasks) :
    Winds s ({ s with
      tasks := s.tasks.erase (.decided (.acquire w parent) outcome) }.acquireEvicted w parent
        outcome) := by
  have rejected (error : PoolError) : Winds s ({ s with
      tasks := s.tasks.erase (.decided (.acquire w parent) outcome) }.reject w error) :=
    .of_eq rfl none (fun _ mem => mem) rfl fun tasks => by simp [tasks] at mem
  cases outcome with
  | ok =>
      simp only [PoolManager.acquireEvicted]
      rw [if_pos closed]
      exact rejected .closed
  | closeFailed error => exact rejected _
  | allInUse => simp [timely.1] at closed

theorem winds_of_step {a : Action} (closed : s.closed = true) (none : s.waiters = [])
    (timely : s.Timely a) (taken : step s a = some t) : Winds s t := by
  have gone {u : PoolManager} {x : Task} (mem : x ∈ s.tasks) (closed : u.closed = s.closed)
      (waiters : u.waiters = []) (continuations : u.continuations = s.continuations)
      (creations : u.creationOf = s.creationOf) : Winds s u :=
    .of_eq closed waiters (continuations ▸ fun _ mem => mem) creations
      fun tasks => by simp [tasks] at mem
  cases step_cases taken with
  | acquire conversation parent => exact winds_acquire closed none conversation parent
  | release known => exact winds_release closed none _ _
  | @spawned k cr known phase =>
      have moved := Winds.setPhase none known .attaching (by simp [phase, CreationPhase.active])
      exact ⟨moved.closed, moved.waiters, moved.continuations, moved.known, moved.active,
        moved.emptied⟩
  | @aborted k cr error known phase =>
      have moved := Winds.setPhase none known (.failing (.createFailed error))
        (by simp [phase, CreationPhase.active])
      exact ⟨moved.closed, moved.waiters, moved.continuations, moved.known, moved.active,
        moved.emptied⟩
  | spawnFailed known phase | attachFailed known phase | abortFailed known phase =>
      exact Winds.setPhase none known _ (by simp [phase, CreationPhase.active])
  | @attached k cr known phase =>
      have moved := Winds.setPhase none known .inserted (by simp [phase, CreationPhase.active])
      refine ⟨moved.closed, moved.waiters, moved.continuations, moved.known, moved.active,
        fun _ settled => ?_⟩
      exact absurd (settled k cr known) (by simp [phase, CreationPhase.active])
  | finished known phase =>
      have moved := Winds.setPhase none known .resolved (by simp [phase, CreationPhase.active])
      exact ⟨moved.closed, moved.waiters, moved.continuations, moved.known, moved.active,
        moved.emptied⟩
  | @finishedFailing k cr error known phase =>
      have moved := Winds.setPhase none known (.rejected error)
        (by simp [phase, CreationPhase.active])
      exact ⟨moved.closed, moved.waiters, moved.continuations, moved.known, moved.active,
        moved.emptied⟩
  | resumed mem known phase => exact winds_resume closed none _ _
  | resumedRejected mem known phase => exact winds_resumeRejected none _ _ _
  | @tornDown purpose id c result mem =>
      cases result <;> exact gone mem rfl none rfl rfl
  | @evicted purpose id c result mem =>
      cases result <;> exact gone mem rfl none rfl rfl
  | returned mem => exact winds_evictReturned none mem
  | acquireEvicted mem => exact winds_acquireEvicted closed none timely mem
  | @drainEvicted outcome mem =>
      cases outcome with
      | ok | allInUse => exact gone mem rfl none rfl rfl
      | closeFailed error => exact gone mem rfl rfl rfl rfl
  | drainTail mem =>
      rw [drainWaiters_nil (by exact none)]
      exact gone mem rfl none rfl rfl
  | @idleTimer c armed =>
      unfold sweepIdle
      dsimp only
      split
      · exact .quiet rfl none ⟨rfl, rfl, rfl, fun _ => rfl⟩
      case h_2 current present =>
          split
          · refine .of_eq rfl none (fun _ mem => mem) rfl fun _ entries => ?_
            exact absurd (present.symm.trans (entries _)) (by simp)
          · exact .quiet rfl none ⟨rfl, rfl, rfl, fun _ => rfl⟩
  | retireChild conversation c =>
      unfold PoolManager.retireChild
      split
      case isTrue found =>
          refine .of_eq rfl none (fun _ mem => mem) rfl fun _ entries => ?_
          exact absurd (found.1.symm.trans (entries _)) (by simp)
      case isFalse => exact .quiet rfl none ⟨rfl, rfl, rfl, fun _ => rfl⟩
  | exit known alive =>
      unfold PoolManager.forgetExitedChild
      split
      case isTrue found =>
          rw [drainWaiters_nil (by exact none)]
          refine .of_eq rfl none (fun _ mem => mem) rfl fun _ entries => ?_
          exact absurd (found.symm.trans (entries _)) (by simp)
      case isFalse => exact .quiet rfl none ⟨rfl, rfl, rfl, fun _ => rfl⟩

end PoolManager

namespace ClosablePool

open PoolManager

variable {s t : ClosablePool}

/-- Nobody is stranded: when nothing is under way the head of the wait
queue is blocked for a real reason, and once `close` has settled every call
of `acquire` has settled too. -/
structure StrandsNobody (s : ClosablePool) : Prop where
  head : s.pool.Idle → ∀ w ∈ s.pool.waiters.head?, s.pool.Blocked w
  settled : s.phase = .settled → ∀ n < s.pool.nextCall, ∃ outcome, (n, outcome) ∈ s.pool.settled

/-- What the steps of the pool have to find. -/
def Timely (s : ClosablePool) : Action → Prop
  | .pool a => s.pool.Timely a
  | _ => True

instance (s : ClosablePool) (a : Action) : Decidable (s.Timely a) := by
  unfold Timely
  split <;> infer_instance

/-- The pool before `close` is called. -/
structure Open (s : ClosablePool) : Prop where
  phase : s.phase = .notCalled
  accounted : Accounted s.pool
  placed : Placed s.pool
  held : Holding s.pool
  awaited : Awaited s.pool
  watched : Watched s.pool

/-- Whether the creations that were in flight when `close` was called have
settled. -/
def ClosePhase.pastCreations : ClosePhase → Bool
  | .awaitingEvictions | .tearingDown _ | .settled => true
  | .notCalled | .awaitingCreations _ => false

/-- Whether the evictions that were under way have settled as well. -/
def ClosePhase.pastEvictions : ClosePhase → Bool
  | .tearingDown _ | .settled => true
  | .notCalled | .awaitingCreations _ | .awaitingEvictions => false

/-- The pool after `close` has been called: each phase has waited for what
it was to wait for. -/
structure Closing (s : ClosablePool) : Prop where
  phase : s.phase ≠ .notCalled
  closed : s.pool.closed = true
  waiters : s.pool.waiters = []
  known : ∀ x ∈ s.pool.continuations, (s.pool.creationOf x.1).isSome
  inflight : ∀ l, s.phase = .awaitingCreations l → ∀ k cr, s.pool.creationOf k = some cr →
    cr.phase.active = true → k ∈ l
  created : ClosePhase.pastCreations s.phase = true → s.pool.continuations = [] ∧
    ∀ k cr, s.pool.creationOf k = some cr → cr.phase.active = false
  evicted : ClosePhase.pastEvictions s.phase = true → s.pool.tasks = [] ∧
    ∀ id, s.pool.entries.get id = none

theorem Open.step (h : Open s) {a : PoolManager.Action} {p : PoolManager}
    (timely : s.pool.Timely a) (taken : s.pool.step a = some p) :
    Open { s with pool := p } where
  phase := h.phase
  accounted := h.accounted.step taken
  placed := h.placed.step h.accounted taken
  held := h.held.step h.accounted h.placed (timely.retired h.held.opened) taken
  awaited := h.awaited.step h.accounted taken
  watched := h.watched.step h.held.opened h.accounted h.awaited timely taken

/-- Calling `close` starts to wait for all creations in flight. -/
theorem Open.close (h : Open s) :
    Closing ⟨s.pool.beginClose, .awaitingCreations s.pool.inflight.values⟩ where
  phase := by simp
  closed := rfl
  waiters := rfl
  known := h.awaited.known
  inflight l same k cr known active := by
    obtain rfl := ClosePhase.awaitingCreations.inj same
    have there := h.accounted.active k cr known active
    exact List.mem_map.mpr ⟨(_, k), s.pool.inflight.mem_entries.mpr there, rfl⟩
  created past := by simp [ClosePhase.pastCreations] at past
  evicted past := by simp [ClosePhase.pastEvictions] at past

theorem Closing.step (h : Closing s) {a : PoolManager.Action} {p : PoolManager}
    (timely : s.pool.Timely a) (taken : s.pool.step a = some p) :
    Closing { s with pool := p } := by
  have winds := winds_of_step h.closed h.waiters timely taken
  have settled (none : ∀ k cr, s.pool.creationOf k = some cr → cr.phase.active = false) (k : ChildId)
      (cr : Creation) (known : p.creationOf k = some cr) : cr.phase.active = false := by
    by_contra active
    obtain ⟨cr', known', active'⟩ := winds.active k cr known (by simpa using active)
    simp [none k cr' known'] at active'
  constructor
  case phase => exact h.phase
  case closed => exact winds.closed.trans h.closed
  case waiters => exact winds.waiters
  case known => exact fun x mem => winds.known x.1 (h.known x (winds.continuations x mem))
  case inflight =>
      intro l phase k cr known active
      obtain ⟨cr', known', active'⟩ := winds.active k cr known active
      exact h.inflight l phase k cr' known' active'
  case created =>
      intro past
      obtain ⟨none, inactive⟩ := h.created past
      refine ⟨List.eq_nil_iff_forall_not_mem.mpr fun x mem => ?_, settled inactive⟩
      simpa [none] using winds.continuations x mem
  case evicted =>
      intro past
      have before : ClosePhase.pastCreations s.phase = true := by
        have past : ClosePhase.pastEvictions s.phase = true := past
        cases phase : s.phase <;> simp [phase, ClosePhase.pastEvictions] at past ⊢ <;> rfl
      obtain ⟨tasks, entries⟩ := h.evicted past
      exact winds.emptied tasks (h.created before).2 entries

/-- When the creations have settled and nothing is ready to run, nobody
waits for a creation any more. -/
theorem Closing.creationsSettled (h : Closing s) {l : List ChildId}
    (phase : s.phase = .awaitingCreations l) (done : s.pool.ready = false)
    (settled : ∀ k ∈ l, ∃ cr, s.pool.creationOf k = some cr ∧ cr.phase.isSettled) :
    Closing ⟨s.pool.clearInflight, .awaitingEvictions⟩ := by
  have active_iff (phase : CreationPhase) : phase.active = !phase.isSettled := by
    cases phase <;> rfl
  have inactive (k : ChildId) (cr : Creation) (known : s.pool.creationOf k = some cr) :
      cr.phase.active = false := by
    by_contra active
    obtain ⟨cr', known', settled⟩ := settled k (h.inflight l phase k cr known (by simpa using active))
    obtain rfl := Option.some.inj (known.symm.trans known')
    simp [active_iff, settled] at active
  simp only [ready, Bool.or_eq_false_iff, List.any_eq_false] at done
  constructor
  case phase => simp
  case closed => exact h.closed
  case waiters => exact h.waiters
  case known => exact h.known
  case inflight => simp
  case created =>
      intro _
      refine ⟨List.eq_nil_iff_forall_not_mem.mpr fun x mem => ?_, inactive⟩
      obtain ⟨cr, known⟩ := Option.isSome_iff_exists.mp (h.known x mem)
      have busy := done.1.2 x mem
      have idle := inactive x.1 cr known
      simp [known, active_iff] at busy idle
      simp [busy] at idle
  case evicted => simp [ClosePhase.pastEvictions]

theorem Closing.evictionsSettled (h : Closing s) (phase : s.phase = .awaitingEvictions)
    (none : s.pool.tasks = []) (children : List ChildId) :
    Closing ⟨s.pool.clearEntries, .tearingDown children⟩ where
  phase := by simp
  closed := h.closed
  waiters := h.waiters
  known := h.known
  inflight := by simp
  created _ := h.created (by rw [phase]; rfl)
  evicted _ := ⟨none, fun _ => rfl⟩

theorem Closing.tornDown (h : Closing s) {children : List ChildId} (c : ChildId)
    (result : TeardownResult) (phase : s.phase = .tearingDown children) :
    Closing ⟨s.pool.closeTornDown c result, .tearingDown (children.erase c)⟩ := by
  have created := h.created (by rw [phase]; rfl)
  have evicted := h.evicted (by rw [phase]; rfl)
  cases result <;>
    exact ⟨by simp, h.closed, h.waiters, h.known, by simp, fun _ => created, fun _ => evicted⟩

theorem Closing.closeSettled (h : Closing s) (phase : s.phase = .tearingDown []) :
    Closing { s with phase := .settled } where
  phase := by simp
  closed := h.closed
  waiters := h.waiters
  known := h.known
  inflight := by simp
  created _ := h.created (by rw [phase]; rfl)
  evicted _ := h.evicted (by rw [phase]; rfl)

theorem kept_step (h : Kept s.pool) {a : Action} (taken : step s a = some t) : Kept t.pool := by
  cases step_cases taken with
  | pool moved => exact h.step moved
  | closeAgain | creationsSettled | evictionsSettled | closeSettled => exact h
  | close opened =>
      intro n lt
      rcases h n lt with ⟨outcome, mem⟩ | ⟨w, mem, same⟩ | rest
      · exact .inl ⟨outcome, List.mem_append_left _ mem⟩
      · exact .inl ⟨.error .closed,
          List.mem_append_right _ (List.mem_map.mpr ⟨w, mem, by rw [same]⟩)⟩
      · exact .inr (.inr rest)
  | tornDown result => cases result <;> exact h

/-- In a run of which every step is timely, nobody is stranded in any state
that it reaches. -/
theorem strandsNobody (reach : machine.Reachable Timely s) : s.StrandsNobody := by
  have inv : Kept s.pool ∧ (Open s ∨ Closing s) := by
    refine reach.invariant (I := fun s => Kept s.pool ∧ (Open s ∨ Closing s)) ?_ ?_
    · rintro s ⟨maxChildren, -, rfl⟩
      refine ⟨fun n lt => absurd lt (by simp [initial, PoolManager.initial]), .inl ?_⟩
      exact ⟨rfl, accounted_initial _, placed_initial _, holding_initial _, awaited_initial _,
        watched_initial _⟩
    · rintro s a t ⟨kept, inv⟩ timely taken
      refine ⟨kept_step kept taken, ?_⟩
      cases step_cases taken with
      | pool moved => exact inv.imp (·.step timely moved) (·.step timely moved)
      | close opened =>
          rcases inv with h | h
          · exact .inr h.close
          · exact absurd opened h.phase
      | closeAgain called => exact inv
      | creationsSettled phase done settled =>
          rcases inv with h | h
          · simp [h.phase] at phase
          · exact .inr (h.creationsSettled phase done settled)
      | evictionsSettled phase done none =>
          rcases inv with h | h
          · simp [h.phase] at phase
          · exact .inr (h.evictionsSettled phase none _)
      | tornDown result phase mem =>
          rcases inv with h | h
          · simp [h.phase] at phase
          · exact .inr (h.tornDown _ result phase)
      | closeSettled phase done =>
          rcases inv with h | h
          · simp [h.phase] at phase
          · exact .inr (h.closeSettled phase)
  obtain ⟨kept, h | h⟩ := inv
  · refine ⟨fun idle w head => h.watched.blocked h.accounted h.held idle head, fun settled => ?_⟩
    simp [h.phase] at settled
  · refine ⟨fun _ w head => ?_, fun settled n lt => ?_⟩
    · simp [h.waiters] at head
    · have continuations := (h.created (by rw [settled]; rfl)).1
      have tasks := (h.evicted (by rw [settled]; rfl)).1
      simpa [Tracked, h.waiters, continuations, tasks] using kept n lt

/-- A conversation has the only child, and a call for another one finds the
pool full. -/
def fullPool : List Action :=
  let a : Conversation := ⟨"http", "a"⟩
  let b : Conversation := ⟨"http", "b"⟩
  [.pool (.acquire a none), .pool (.spawned 0 .done), .pool (.attached 0 .done),
    .pool (.finished 0), .pool (.resume 0 (.acquireNew ⟨a, 0⟩)), .pool (.acquire b none)]

/-- The second call joins the queue, is served when the first lease is
released, and then the pool is closed. -/
def waitingCall : List Action :=
  let a : Conversation := ⟨"http", "a"⟩
  let b : Conversation := ⟨"http", "b"⟩
  let eviction (step : EvictStep) : Task := .evict (.capacity .drain [] none) a.id 0 step
  fullPool ++
  [.pool (.advance (.decided (.acquire ⟨b, 1⟩ none) .allInUse)), .pool (.release 0),
    .pool (.tornDown (.capacity .drain [] none) a.id 0 .childClosed),
    .pool (.advance (eviction (.tornDown .childClosed))),
    .pool (.advance (eviction (.returned .ok))), .pool (.advance (.decided .drain .ok)),
    .pool (.advance .drainTail), .pool (.spawned 1 .done), .pool (.attached 1 .done),
    .pool (.finished 1), .pool (.resume 1 (.drainNew ⟨b, 1⟩)), .close, .creationsSettled,
    .evictionsSettled, .tornDown 1 .childClosed, .closeSettled]

/-- Both calls have a lease by the time `close` has settled. -/
theorem waitingCall_is_served :
    ∃ s, machine.exec Timely (initial 1) waitingCall = some s ∧ s.phase = .settled ∧
      s.pool.settled = [(0, .ok 0), (1, .ok 1)] ∧ s.StrandsNobody := by
  have run : (machine.exec Timely (initial 1) waitingCall).map
      (fun s => (s.phase, s.pool.settled)) = some (.settled, [(0, .ok 0), (1, .ok 1)]) := by
    decide +kernel
  obtain ⟨s, run, facts⟩ := Option.map_eq_some_iff.mp run
  simp only [Prod.mk.injEq] at facts
  exact ⟨s, run, facts.1, facts.2, strandsNobody (.of_exec ⟨1, by decide, rfl⟩ run)⟩

/-- The pool is closed before the second call has joined the queue. -/
def overtakenCall : List Action :=
  let b : Conversation := ⟨"http", "b"⟩
  fullPool ++
  [.close, .pool (.advance (.decided (.acquire ⟨b, 1⟩ none) .allInUse)), .creationsSettled,
    .evictionsSettled, .tornDown 0 .childClosed, .closeSettled]

/-- The call joins the queue of the closed pool and never settles. -/
theorem overtakenCall_is_stranded :
    ∃ s, machine.Reachable Transition.Always s ∧ s.phase = .settled ∧ s.pool.nextCall = 2 ∧
      s.pool.settled = [(0, .ok 0)] ∧ ¬ s.StrandsNobody := by
  have run : (machine.exec Transition.Always (initial 1) overtakenCall).map
      (fun s => (s.phase, s.pool.nextCall, s.pool.settled)) =
      some (.settled, 2, [(0, .ok 0)]) := by
    decide +kernel
  obtain ⟨s, run, facts⟩ := Option.map_eq_some_iff.mp run
  simp only [Prod.mk.injEq] at facts
  obtain ⟨phase, calls, settled⟩ := facts
  refine ⟨s, .of_exec ⟨1, by decide, rfl⟩ run, phase, calls, settled, fun nobody => ?_⟩
  obtain ⟨outcome, mem⟩ := nobody.settled phase 1 (by omega)
  simp [settled] at mem

end ClosablePool

end OmpBundler.Core
