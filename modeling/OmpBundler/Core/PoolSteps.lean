import Mathlib.Data.List.Count
import Mathlib.Logic.Relation
import OmpBundler.Core.PoolManager

/-!
What the pool's shared code can do to its state.

Serving the wait queue, evicting for capacity and the checked part of
`acquire` are long pieces of code, but each is a sequence of a few kinds of
update, every one of which is guarded by a test made in the same breath.
`Move` lists these updates with their guards; `drain_moves` and its
companions say that the code is made of them. An invariant of the pool is
then checked once for each kind of move, not once for each operation.

`Stepped` does the same for a step as a whole: one constructor for each
way it can go, carrying what the step has checked.
-/

namespace OmpBundler.Core

open Library Relation

/-- Whether a suspended eviction still counts its child as closing. -/
def Task.holdsSlot : Task → Bool
  | .evict _ _ _ .closing => true
  | .evict _ _ _ (.tornDown _) => true
  | .evict purpose _ _ (.returned _) => purpose = .idle
  | _ => false

/-- Whether a suspended eviction has its child out of the map and may put
it back. -/
def Task.tearsDown (id : String) (c : ChildId) : Task → Bool
  | .evict _ i d .closing => i = id ∧ d = c
  | .evict _ i d (.tornDown _) => i = id ∧ d = c
  | _ => false

/-- The caller that a continuation serves. -/
def Continuation.caller : Continuation → Waiter
  | .acquireNew w | .acquireInflight w | .drainNew w | .drainInflight w => w

/-- Whether a continuation looks at `inUse` before it leases the child. -/
def Continuation.checksInUse : Continuation → Bool
  | .acquireNew _ | .drainNew _ => false
  | .acquireInflight _ | .drainInflight _ => true

namespace PoolManager

/-- One guarded update. -/
inductive Move (s : PoolManager) : PoolManager → Prop
  /-- The wait queue, the promises of callers and the flag of the queue's
  own eviction. -/
  | queue (waiters : List Waiter) (settled : List (ℕ × Except PoolError ℕ))
      (drainEviction : Bool) (nextCall : ℕ) :
      Move s { s with waiters, settled, drainEviction, nextCall }
  /-- A suspended operation that holds no child. -/
  | suspend (t : Task) (noSlot : t.holdsSlot = false) : Move s (s.suspend t)
  /-- A caller waits for a creation that is in flight. -/
  | await (id : String) (k : ChildId) (rest : Continuation)
      (inflight : s.inflight.get id = some k) : Move s (s.await k rest)
  /-- An idle child is leased. -/
  | grant (w : Waiter) (c : ChildId) (present : s.entries.get w.conversation.id = some c)
      (sound : (s.entryOf c).retiring = false) (idle : (s.entryOf c).inUse = false) :
      Move s ((s.setEntry c fun e => { e with idleTimer := false }).grant w c)
  /-- A creation takes a free slot. -/
  | create (conversation : Conversation) (parent : Option String) (rest : Continuation)
      (absent : s.entries.get conversation.id = none)
      (alone : s.inflight.get conversation.id = none)
      (free : s.occupiedSlots < s.maxChildren) :
      Move s (s.createEntry conversation parent rest)
  /-- An idle child leaves the map. -/
  | evict (purpose : Purpose) (id : String) (c : ChildId)
      (present : s.entries.get id = some c) (idle : (s.entryOf c).inUse = false) :
      Move s (s.beginEvict purpose id c)

/-- Any number of guarded updates. -/
abbrev Moves : PoolManager → PoolManager → Prop := ReflTransGen Move

/-- What each kind of move preserves, a sequence of moves preserves. -/
theorem Moves.preserve {I : PoolManager → Prop} {s t : PoolManager} (moves : Moves s t)
    (start : I s) (one : ∀ s t, I s → Move s t → I t) : I t := by
  induction moves with
  | refl => exact start
  | tail _ move ih => exact one _ _ ih move

/-! ### The shared code is made of moves -/

theorem reject_move (s : PoolManager) (w : Waiter) (error : PoolError) :
    Move s (s.reject w error) :=
  .queue s.waiters _ s.drainEviction s.nextCall

theorem enqueueWaiter_move (s : PoolManager) (w : Waiter) : Move s (s.enqueueWaiter w) :=
  .queue _ s.settled s.drainEviction s.nextCall

theorem rejectWaitersFor_move (s : PoolManager) (id : String) (error : PoolError) :
    Move s (s.rejectWaitersFor id error) :=
  .queue _ _ s.drainEviction s.nextCall

theorem evictNext_move (s : PoolManager) (caller : EvictCaller) (closeError : Option String)
    (candidates : List (String × ChildId)) :
    Move s (s.evictNext caller closeError candidates) := by
  induction candidates with
  | nil =>
      unfold evictNext
      split
      · exact .suspend _ rfl
      · split <;> exact .suspend _ rfl
  | cons candidate rest ih =>
      obtain ⟨id, c⟩ := candidate
      unfold evictNext
      split
      case isTrue h => exact .evict _ id c h.1 h.2
      case isFalse => exact ih

theorem evictIdleForCapacity_move (s : PoolManager) (caller : EvictCaller) :
    Move s (s.evictIdleForCapacity caller) := by
  unfold evictIdleForCapacity
  split
  · exact .suspend _ rfl
  · exact evictNext_move s caller none _

theorem drain_moves (s : PoolManager) (queue : List Waiter) : Moves s (s.drain queue) := by
  induction queue generalizing s with
  | nil => exact .single (.queue [] s.settled s.drainEviction s.nextCall)
  | cons w rest ih =>
      have requeue (waiters : List Waiter) (flag : Bool) :
          Move s { s with waiters := waiters, drainEviction := flag } :=
        .queue waiters s.settled flag s.nextCall
      unfold drain
      split
      case h_1 c present =>
          split
          case isTrue => exact .head (reject_move s w _) (ih _)
          case isFalse sound =>
              split
              case isTrue idle =>
                  exact .head (.grant w c present (by simpa using sound) idle) (ih _)
              case isFalse => exact .single (requeue (w :: rest) s.drainEviction)
      case h_2 absent =>
          split
          case h_1 k inflight =>
              exact .head (requeue rest s.drainEviction)
                (.single (.await w.conversation.id k _ inflight))
          case h_2 alone =>
              split
              case isTrue =>
                  split
                  · exact .single (requeue (w :: rest) s.drainEviction)
                  split
                  · exact .single (requeue (w :: rest) s.drainEviction)
                  exact .head (requeue (w :: rest) true)
                    (.single (evictIdleForCapacity_move _ _))
              case isFalse free =>
                  refine .head (requeue rest s.drainEviction) (.single ?_)
                  exact .create w.conversation none _ absent alone (Nat.lt_of_not_le free)

theorem drainWaiters_moves (s : PoolManager) : Moves s s.drainWaiters :=
  drain_moves s s.waiters

theorem acquire_moves (s : PoolManager) (conversation : Conversation)
    (parent : Option String) : Moves s (s.acquire conversation parent) := by
  unfold acquire
  refine .head (.queue s.waiters s.settled s.drainEviction (s.nextCall + 1)) ?_
  dsimp only
  split
  · exact .single (reject_move _ _ _)
  split
  · exact .single (reject_move _ _ _)
  split
  · exact .single (reject_move _ _ _)
  split
  case h_1 c present =>
      split
      case isTrue => exact .single (reject_move _ _ _)
      case isFalse sound =>
          split
          case isTrue idle =>
              exact .single (.grant _ c present (by simpa using sound) idle)
          case isFalse => exact .single (enqueueWaiter_move _ _)
  case h_2 absent =>
      split
      case h_1 k inflight => exact .single (.await conversation.id k _ inflight)
      case h_2 alone =>
          split
          case isTrue => exact .single (evictIdleForCapacity_move _ _)
          case isFalse free =>
              exact .single (.create conversation _ _ absent alone (Nat.lt_of_not_le free))

/-- What a caller does that waited for a creation: moves, or an unchecked
grant followed by moves. -/
theorem resume_cases (s : PoolManager) (k : ChildId) (rest : Continuation) :
    Moves s (s.resume k rest) ∨
      ((s.closed = false ∧ (rest.checksInUse = true → (s.entryOf k).inUse = false)) ∧
        Moves (s.grant rest.caller k) (s.resume k rest)) := by
  cases rest with
  | acquireNew w =>
      simp only [PoolManager.resume]
      split
      case isTrue => exact .inl (.single (reject_move s w _))
      case isFalse opened =>
          exact .inr ⟨⟨by simpa using opened, by simp [Continuation.checksInUse]⟩, .refl⟩
  | acquireInflight w =>
      simp only [PoolManager.resume]
      split
      case isTrue => exact .inl (.single (reject_move s w _))
      case isFalse opened =>
          split
          case isTrue idle => exact .inr ⟨⟨by simpa using opened, fun _ => idle⟩, .refl⟩
          case isFalse => exact .inl (.single (enqueueWaiter_move s w))
  | drainNew w =>
      simp only [PoolManager.resume]
      split
      case isTrue => exact .inl (.single (reject_move s w _))
      case isFalse opened =>
          exact .inr ⟨⟨by simpa using opened, by simp [Continuation.checksInUse]⟩,
            drainWaiters_moves _⟩
  | drainInflight w =>
      simp only [PoolManager.resume]
      split
      case isTrue => exact .inl (.single (reject_move s w _))
      case isFalse opened =>
          split
          case isTrue idle =>
              exact .inr ⟨⟨by simpa using opened, fun _ => idle⟩, drainWaiters_moves _⟩
          case isFalse =>
              exact .inl (.head (.queue (w :: s.waiters) s.settled s.drainEviction s.nextCall)
                (drainWaiters_moves _))

theorem resumeRejected_moves (s : PoolManager) (error : PoolError) (rest : Continuation) :
    Moves s (s.resumeRejected error rest) := by
  cases rest with
  | acquireNew w | acquireInflight w => exact .single (reject_move s w error)
  | drainNew w | drainInflight w =>
      exact .head (reject_move s w error) (drainWaiters_moves _)

theorem tryEvictForDrain_moves (s : PoolManager) (outcome : EvictForCapacityOutcome) :
    Moves s (s.tryEvictForDrain outcome) := by
  cases outcome with
  | ok | allInUse => exact .single (.suspend _ rfl)
  | closeFailed error =>
      exact .head (.queue [] _ s.drainEviction s.nextCall) (.single (.suspend _ rfl))

/-- What `acquire` does after its eviction: a move, or an unchecked creation. -/
theorem acquireEvicted_cases (s : PoolManager) (w : Waiter) (parent : Option String)
    (outcome : EvictForCapacityOutcome) :
    Move s (s.acquireEvicted w parent outcome) ∨
      (outcome = .ok ∧ s.acquireEvicted w parent outcome =
        s.createEntry w.conversation parent (.acquireNew w)) := by
  cases outcome with
  | ok =>
      simp only [PoolManager.acquireEvicted]
      split
      · exact .inl (reject_move s w _)
      · exact .inr ⟨trivial, rfl⟩
  | allInUse => exact .inl (enqueueWaiter_move s w)
  | closeFailed error => exact .inl (reject_move s w _)

theorem sweepIdle_moves (s : PoolManager) (c : ChildId) :
    Moves (s.setEntry c fun e => { e with idleTimer := false }) (s.sweepIdle c) := by
  unfold sweepIdle
  dsimp only
  split
  · exact .refl
  case h_2 current present =>
      split
      case isTrue idle => exact .single (.evict _ _ _ present idle)
      case isFalse => exact .refl

/-! ### What a step can do -/

/-- One constructor for each way a step can go, with what the step has
checked. -/
inductive Stepped (s : PoolManager) : Action → PoolManager → Prop
  | acquire (conversation : Conversation) (parent : Option String) :
      Stepped s (.acquire conversation parent) (s.acquire conversation parent)
  | release {l : ℕ} {lease : Lease} (known : s.leaseOf l = some lease) :
      Stepped s (.release l) (s.release l lease)
  | spawned {k : ChildId} {cr : Creation} (known : s.creationOf k = some cr)
      (phase : cr.phase = .spawning) :
      Stepped s (.spawned k .done) ((s.setChild k .live).setPhase k .attaching)
  | spawnFailed {k : ChildId} {cr : Creation} {error : String}
      (known : s.creationOf k = some cr) (phase : cr.phase = .spawning) :
      Stepped s (.spawned k (.failed error)) (s.setPhase k (.failing (.createFailed error)))
  | attached {k : ChildId} {cr : Creation} (known : s.creationOf k = some cr)
      (phase : cr.phase = .attaching) :
      Stepped s (.attached k .done) (s.insertEntry k cr.conversation)
  | attachFailed {k : ChildId} {cr : Creation} {error : String}
      (known : s.creationOf k = some cr) (phase : cr.phase = .attaching) :
      Stepped s (.attached k (.failed error)) (s.setPhase k (.aborting error))
  | aborted {k : ChildId} {cr : Creation} {error : String}
      (known : s.creationOf k = some cr) (phase : cr.phase = .aborting error) :
      Stepped s (.aborted k .done)
        ((s.setChild k .closed).setPhase k (.failing (.createFailed error)))
  | abortFailed {k : ChildId} {cr : Creation} {error error' : String}
      (known : s.creationOf k = some cr) (phase : cr.phase = .aborting error) :
      Stepped s (.aborted k (.failed error')) (s.setPhase k (.failing (.closeFailed error')))
  | finished {k : ChildId} {cr : Creation} (known : s.creationOf k = some cr)
      (phase : cr.phase = .inserted) :
      Stepped s (.finished k) (s.finishCreation k cr.conversation .resolved)
  | finishedFailing {k : ChildId} {cr : Creation} {error : PoolError}
      (known : s.creationOf k = some cr) (phase : cr.phase = .failing error) :
      Stepped s (.finished k) (s.finishCreation k cr.conversation (.rejected error))
  | resumed {k : ChildId} {rest : Continuation} {cr : Creation}
      (mem : (k, rest) ∈ s.continuations) (known : s.creationOf k = some cr)
      (phase : cr.phase = .resolved) :
      Stepped s (.resume k rest)
        ({ s with continuations := s.continuations.erase (k, rest) }.resume k rest)
  | resumedRejected {k : ChildId} {rest : Continuation} {cr : Creation} {error : PoolError}
      (mem : (k, rest) ∈ s.continuations) (known : s.creationOf k = some cr)
      (phase : cr.phase = .rejected error) :
      Stepped s (.resume k rest)
        ({ s with continuations := s.continuations.erase (k, rest) }.resumeRejected error rest)
  | tornDown {purpose : Purpose} {id : String} {c : ChildId} {result : TeardownResult}
      (mem : .evict purpose id c .closing ∈ s.tasks) :
      Stepped s (.tornDown purpose id c result) (s.settleTeardown purpose id c result)
  | evicted {purpose : Purpose} {id : String} {c : ChildId} {result : TeardownResult}
      (mem : .evict purpose id c (.tornDown result) ∈ s.tasks) :
      Stepped s (.advance (.evict purpose id c (.tornDown result)))
        ({ s with tasks := s.tasks.erase (.evict purpose id c (.tornDown result)) }.evicted
          purpose id c result)
  | returned {purpose : Purpose} {id : String} {c : ChildId} {outcome : EvictOutcome}
      (mem : .evict purpose id c (.returned outcome) ∈ s.tasks) :
      Stepped s (.advance (.evict purpose id c (.returned outcome)))
        ({ s with tasks := s.tasks.erase (.evict purpose id c (.returned outcome))
          }.evictReturned purpose id c outcome)
  | acquireEvicted {w : Waiter} {parent : Option String} {outcome : EvictForCapacityOutcome}
      (mem : .decided (.acquire w parent) outcome ∈ s.tasks) :
      Stepped s (.advance (.decided (.acquire w parent) outcome))
        ({ s with tasks := s.tasks.erase (.decided (.acquire w parent) outcome)
          }.acquireEvicted w parent outcome)
  | drainEvicted {outcome : EvictForCapacityOutcome} (mem : .decided .drain outcome ∈ s.tasks) :
      Stepped s (.advance (.decided .drain outcome))
        ({ s with tasks := s.tasks.erase (.decided .drain outcome) }.tryEvictForDrain outcome)
  | drainTail (mem : .drainTail ∈ s.tasks) :
      Stepped s (.advance .drainTail)
        { s with tasks := s.tasks.erase .drainTail, drainEviction := false }.drainWaiters
  | idleTimer {c : ChildId} (armed : (s.entryOf c).idleTimer = true) :
      Stepped s (.idleTimer c) (s.sweepIdle c)
  | retireChild (conversation : Conversation) (c : ChildId) :
      Stepped s (.retireChild conversation c) (s.retireChild conversation c)
  | exit {c : ChildId} {cr : Creation} (known : s.creationOf c = some cr) (alive : s.Live c) :
      Stepped s (.exit c) ((s.setChild c .exited).forgetExitedChild cr.conversation c)

theorem step_cases {s t : PoolManager} {a : Action} (taken : step s a = some t) :
    Stepped s a t := by
  cases a with
  | acquire conversation parent =>
      obtain rfl := Option.some.inj taken
      exact .acquire conversation parent
  | release l =>
      obtain ⟨lease, known, rfl⟩ := Option.map_eq_some_iff.mp taken
      exact .release known
  | spawned k reply =>
      simp only [step, Option.bind_eq_bind, Option.bind_eq_some_iff] at taken
      obtain ⟨cr, known, taken⟩ := taken
      split at taken
      case isFalse => simp at taken
      case isTrue phase =>
          cases reply with
          | done => exact Option.some.inj taken ▸ .spawned known phase
          | failed error => exact Option.some.inj taken ▸ .spawnFailed known phase
  | attached k reply =>
      simp only [step, Option.bind_eq_bind, Option.bind_eq_some_iff] at taken
      obtain ⟨cr, known, taken⟩ := taken
      split at taken
      case isFalse => simp at taken
      case isTrue phase =>
          cases reply with
          | done => exact Option.some.inj taken ▸ .attached known phase
          | failed error => exact Option.some.inj taken ▸ .attachFailed known phase
  | aborted k reply =>
      simp only [step, Option.bind_eq_bind, Option.bind_eq_some_iff] at taken
      obtain ⟨cr, known, taken⟩ := taken
      split at taken
      case h_1 error phase => exact Option.some.inj taken ▸ .aborted known phase
      case h_2 error phase => exact Option.some.inj taken ▸ .abortFailed known phase
      case h_3 => simp at taken
  | finished k =>
      simp only [step, Option.bind_eq_bind, Option.bind_eq_some_iff] at taken
      obtain ⟨cr, known, taken⟩ := taken
      split at taken
      case h_1 phase => exact Option.some.inj taken ▸ .finished known phase
      case h_2 error phase => exact Option.some.inj taken ▸ .finishedFailing known phase
      case h_3 => simp at taken
  | resume k rest =>
      simp only [step] at taken
      split at taken
      case isFalse => simp at taken
      case isTrue mem =>
          simp only [Option.bind_eq_bind, Option.bind_eq_some_iff] at taken
          obtain ⟨cr, known, taken⟩ := taken
          split at taken
          case h_1 phase => exact Option.some.inj taken ▸ .resumed mem known phase
          case h_2 error phase => exact Option.some.inj taken ▸ .resumedRejected mem known phase
          case h_3 => simp at taken
  | tornDown purpose id c result =>
      simp only [step] at taken
      split at taken
      case isFalse => simp at taken
      case isTrue mem => exact Option.some.inj taken ▸ .tornDown mem
  | advance x =>
      simp only [step] at taken
      split at taken
      case isFalse => simp at taken
      case isTrue mem =>
          cases x with
          | evict purpose id c step =>
              cases step with
              | closing => simp [advance] at taken
              | tornDown result => exact Option.some.inj taken ▸ .evicted mem
              | returned outcome => exact Option.some.inj taken ▸ .returned mem
          | decided caller outcome =>
              cases caller with
              | acquire w parent => exact Option.some.inj taken ▸ .acquireEvicted mem
              | drain => exact Option.some.inj taken ▸ .drainEvicted mem
          | drainTail => exact Option.some.inj taken ▸ .drainTail mem
  | idleTimer c =>
      simp only [step] at taken
      split at taken
      case isFalse => simp at taken
      case isTrue armed => exact Option.some.inj taken ▸ .idleTimer armed
  | retireChild conversation c =>
      obtain rfl := Option.some.inj taken
      exact .retireChild conversation c
  | exit c =>
      simp only [step, Option.bind_eq_bind, Option.bind_eq_some_iff] at taken
      obtain ⟨cr, known, taken⟩ := taken
      split at taken
      case isFalse => simp at taken
      case isTrue alive => exact Option.some.inj taken ▸ .exit known alive

end PoolManager

end OmpBundler.Core
