import Mathlib.Logic.Function.Basic
import Mathlib.Tactic.Simps.Basic
import OmpBundler.Library.OrderedMap
import OmpBundler.Library.Transition
import OmpBundler.Core.AdapterRegistry

/-!
The bounded pool of child processes.

The state is the pool's fields together with everything that is suspended
at an `await`: the creations in progress, the callers waiting for one, and
the evictions whose child is being closed. An action is the code that runs
from one `await` to the next, so a list of actions is one interleaving of
the pool's operations.

A child is named by the number of the creation that spawned it, and that
number is its ownership token as well. What the pool asks of its
environment (the factory, the session registry, closing a child) is
answered by the action itself, so every pattern of failures is covered.
Log lines, `lastUsedAt` and the registry's last-active times are not
modelled: nothing in the pool reads them.
-/

namespace OmpBundler.Core

open Library

/-- Children, creations and ownership tokens are numbered together. -/
abbrev ChildId := ℕ

/-- The errors an `acquire` can reject with. -/
inductive PoolError where
  | adapterIdRequired
  | conversationKeyRequired
  | closed
  | retiring (conversation : Conversation)
  | closeFailed (error : String)
  | createFailed (error : String)
  deriving DecidableEq, Repr

/-- The text of an error; those of the environment come as they are. -/
def PoolError.message : PoolError → String
  | .adapterIdRequired => "adapterId is required"
  | .conversationKeyRequired => "conversationKey is required"
  | .closed => "PoolManager is closed"
  | .retiring c =>
      "child for adapter=\"" ++ c.adapterId ++ "\" key=\"" ++ c.conversationKey
        ++ "\" is retiring"
  | .closeFailed error => error
  | .createFailed error => error

/-- What an asynchronous call of the environment comes back with. -/
inductive Reply where
  | done
  | failed (error : String)
  deriving DecidableEq, Repr

/-- A live, in-memory child tracked by the pool, keyed by conversation. -/
structure PoolEntry where
  conversation : Conversation
  /-- True while a lease is held. -/
  inUse : Bool
  /-- Known-bad child awaiting confirmed exit; never lease it again. -/
  retiring : Bool
  /-- Whether the idle-timeout sweep is scheduled. -/
  idleTimer : Bool
  deriving DecidableEq, Repr

/-- A caller of `acquire`, identified by the number of its call; it stands
in the wait queue as it is. -/
structure Waiter where
  conversation : Conversation
  call : ℕ
  deriving DecidableEq, Repr

/-- A lease that has been handed out. -/
structure Lease where
  child : ChildId
  conversation : Conversation
  released : Bool
  deriving DecidableEq, Repr

/-- Stage-aware result of tearing down an entry. -/
inductive TeardownResult where
  | childClosed
  | closeFailed (error : String)
  | releaseFailed (error : String)
  deriving DecidableEq, Repr

/-- Outcome of a single eviction. The source has a third one, for an entry
that another operation removed first; both of its callers make that test
themselves in the same breath, so it does not arise. -/
inductive EvictOutcome where
  | ok
  | closeFailed (error : String)
  deriving DecidableEq, Repr

/-- What an eviction reports of a teardown: a child that is dead is evicted,
whether or not its ownership could be released. -/
def TeardownResult.outcome : TeardownResult → EvictOutcome
  | .closeFailed error => .closeFailed error
  | _ => .ok

/-- Outcome of an eviction for capacity. -/
inductive EvictForCapacityOutcome where
  | ok
  | allInUse
  | closeFailed (error : String)
  deriving DecidableEq, Repr

/-- Where `doCreate` stands. -/
inductive CreationPhase where
  /-- Waiting for the factory. -/
  | spawning
  /-- Waiting for the session registry, with a live child in hand. -/
  | attaching
  /-- Waiting for the child to close after the registry failed. -/
  | aborting (error : String)
  /-- The entry is in the map, the `finally` callback has not run. -/
  | inserted
  /-- `doCreate` has thrown, the `finally` callback has not run. -/
  | failing (error : PoolError)
  /-- The promise that `createEntry` returned is resolved. -/
  | resolved
  /-- The promise that `createEntry` returned is rejected. -/
  | rejected (error : PoolError)
  deriving DecidableEq, Repr

/-- A call of `doCreate`. -/
structure Creation where
  conversation : Conversation
  parentConversationKey : Option String
  phase : CreationPhase
  deriving DecidableEq, Repr

/-- The code that waits for a creation's promise. -/
inductive Continuation where
  /-- `acquire`, after its own `createEntry`. -/
  | acquireNew (caller : Waiter)
  /-- `acquire`, after a creation that was in flight already. -/
  | acquireInflight (caller : Waiter)
  /-- `drainWaiters`, after its own `createEntry`. -/
  | drainNew (waiter : Waiter)
  /-- `drainWaiters`, after a creation that was in flight already. -/
  | drainInflight (waiter : Waiter)
  deriving DecidableEq, Repr

/-- Who asked for an eviction for capacity. -/
inductive EvictCaller where
  | acquire (caller : Waiter) (parentConversationKey : Option String)
  | drain
  deriving DecidableEq, Repr

/-- Why an entry is being evicted. -/
inductive Purpose where
  /-- One candidate of `evictIdleForCapacity`, with the candidates after it
  and the last close error before it. -/
  | capacity (caller : EvictCaller) (rest : List (String × ChildId))
      (closeError : Option String)
  | idle
  | retire
  deriving DecidableEq, Repr

/-- Where an eviction stands. -/
inductive EvictStep where
  /-- `teardownEntry` waits for the child to close. -/
  | closing
  /-- `teardownEntry` has returned to the eviction. -/
  | tornDown (result : TeardownResult)
  /-- The eviction has returned to its caller. -/
  | returned (outcome : EvictOutcome)
  deriving DecidableEq, Repr

/-- A suspended operation other than a creation. -/
inductive Task where
  | evict (purpose : Purpose) (id : String) (child : ChildId) (step : EvictStep)
  /-- `evictIdleForCapacity` has returned to its caller. -/
  | decided (caller : EvictCaller) (outcome : EvictForCapacityOutcome)
  /-- `tryEvictForDrain` has returned, its `finally` callback has not run. -/
  | drainTail
  deriving DecidableEq, Repr

/-- What has become of a child process. -/
inductive ChildStatus where
  | absent
  | live
  | closed
  | exited
  deriving DecidableEq, Repr

/-- The pool manager and the operations suspended in it. -/
structure PoolManager where
  maxChildren : ℕ
  /-- Live children by conversation id, least recently used first. -/
  entries : OrderedMap String ChildId
  /-- In-flight creations by conversation id. -/
  inflight : OrderedMap String ChildId
  /-- Callers blocked at capacity, first come first. -/
  waiters : List Waiter
  closed : Bool
  /-- Creations that hold a slot and are not in `entries` yet. -/
  pendingCreations : ℕ
  /-- Children in the process of closing. -/
  closing : ℕ
  /-- Whether a capacity eviction for the wait queue is under way. -/
  drainEviction : Bool
  entryOf : ChildId → PoolEntry
  creationOf : ChildId → Option Creation
  childOf : ChildId → ChildStatus
  leaseOf : ℕ → Option Lease
  continuations : List (ChildId × Continuation)
  tasks : List Task
  /-- How each finished call of `acquire` ended: a lease or an error. -/
  settled : List (ℕ × Except PoolError ℕ)
  nextChild : ℕ
  nextLease : ℕ
  nextCall : ℕ

namespace PoolManager

/-- A new pool. -/
def initial (maxChildren : ℕ) : PoolManager where
  maxChildren := maxChildren
  entries := .empty
  inflight := .empty
  waiters := []
  closed := false
  pendingCreations := 0
  closing := 0
  drainEviction := false
  entryOf _ := ⟨⟨"", ""⟩, false, false, false⟩
  creationOf _ := none
  childOf _ := .absent
  leaseOf _ := none
  continuations := []
  tasks := []
  settled := []
  nextChild := 0
  nextLease := 0
  nextCall := 0

/-! ### Updates -/

/-- Change the fields of an entry object. -/
@[simps]
def setEntry (s : PoolManager) (c : ChildId) (f : PoolEntry → PoolEntry) : PoolManager :=
  { s with entryOf := Function.update s.entryOf c (f (s.entryOf c)) }

/-- Move a creation to another phase. -/
@[simps]
def setPhase (s : PoolManager) (k : ChildId) (phase : CreationPhase) : PoolManager :=
  { s with
    creationOf := Function.update s.creationOf k
      ((s.creationOf k).map fun cr => { cr with phase := phase }) }

/-- Record what has become of a child process. -/
@[simps]
def setChild (s : PoolManager) (c : ChildId) (status : ChildStatus) : PoolManager :=
  { s with childOf := Function.update s.childOf c status }

/-- Reject the promise of a caller. -/
@[simps]
def reject (s : PoolManager) (w : Waiter) (error : PoolError) : PoolManager :=
  { s with settled := s.settled ++ [(w.call, .error error)] }

/-- Suspend an operation. -/
@[simps]
def suspend (s : PoolManager) (t : Task) : PoolManager :=
  { s with tasks := s.tasks ++ [t] }

/-- Wait for a creation's promise. -/
@[simps]
def await (s : PoolManager) (k : ChildId) (rest : Continuation) : PoolManager :=
  { s with continuations := s.continuations ++ [(k, rest)] }

/-- Move an entry to the most-recently-used end of the map. -/
@[simps]
def touchLru (s : PoolManager) (id : String) : PoolManager :=
  { s with entries := s.entries.touch id }

/-! ### Leases and the wait queue -/

/-- Total slots occupied: live entries plus pending creations plus children
in the process of closing. -/
def occupiedSlots (s : PoolManager) : ℕ :=
  s.entries.size + s.pendingCreations + s.closing

/-- Hand a lease on the entry `c` to a caller. -/
@[simps]
def makeLease (s : PoolManager) (w : Waiter) (c : ChildId) : PoolManager :=
  { s with
    leaseOf := Function.update s.leaseOf s.nextLease
      (some ⟨c, (s.entryOf c).conversation, false⟩)
    nextLease := s.nextLease + 1
    settled := s.settled ++ [(w.call, .ok s.nextLease)] }

/-- Mark the entry `c` in use and lease it: the lines that every branch
which grants a lease ends with. -/
def grant (s : PoolManager) (w : Waiter) (c : ChildId) : PoolManager :=
  ((s.setEntry c fun e => { e with inUse := true }).touchLru w.conversation.id).makeLease w c

def enqueueWaiter (s : PoolManager) (w : Waiter) : PoolManager :=
  { s with waiters := s.waiters ++ [w] }

/-- Reject the queued callers of one conversation, the last one first. -/
def rejectWaitersFor (s : PoolManager) (id : String) (error : PoolError) : PoolManager :=
  { s with
    waiters := s.waiters.filter fun w => w.conversation.id ≠ id
    settled := s.settled ++
      ((s.waiters.filter fun w => w.conversation.id = id).reverse.map fun w =>
        (w.call, .error error)) }

/-- The part of `createEntry` that starts a creation of its own: the number
of the creation is the number of the child it will spawn. -/
@[simps]
def startCreation (s : PoolManager) (conversation : Conversation)
    (parentConversationKey : Option String) (rest : Continuation) : PoolManager :=
  { s with
    pendingCreations := s.pendingCreations + 1
    creationOf := Function.update s.creationOf s.nextChild
      (some ⟨conversation, parentConversationKey, .spawning⟩)
    inflight := s.inflight.set conversation.id s.nextChild
    nextChild := s.nextChild + 1
    continuations := s.continuations ++ [(s.nextChild, rest)] }

/-- Create the entry of a conversation, or share the creation in flight;
`rest` is the code after the `await`. -/
def createEntry (s : PoolManager) (conversation : Conversation)
    (parentConversationKey : Option String) (rest : Continuation) : PoolManager :=
  match s.inflight.get conversation.id with
  | some k => s.await k rest
  | none => s.startCreation conversation parentConversationKey rest

/-! ### Eviction -/

/-- The first lines of `evictEntrySync` and `evictEntryAsync`: take the
entry out of the map, count it as closing and start its teardown. -/
def beginEvict (s : PoolManager) (purpose : Purpose) (id : String) (c : ChildId) :
    PoolManager :=
  { s.setEntry c fun e => { e with idleTimer := false } with
    entries := s.entries.delete id
    closing := s.closing + 1 }.suspend (.evict purpose id c .closing)

/-- The loop of `evictIdleForCapacity` over the candidates it has left. -/
def evictNext (s : PoolManager) (caller : EvictCaller) (closeError : Option String) :
    List (String × ChildId) → PoolManager
  | [] =>
      match closeError with
      | some error => s.suspend (.decided caller (.closeFailed error))
      | none =>
          if s.occupiedSlots < s.maxChildren then s.suspend (.decided caller .ok)
          else s.suspend (.decided caller .allInUse)
  | (id, c) :: rest =>
      -- A concurrent acquirer may have leased the candidate since the snapshot.
      if s.entries.get id = some c ∧ (s.entryOf c).inUse = false then
        s.beginEvict (.capacity caller rest closeError) id c
      else evictNext s caller closeError rest

/-- Evict idle children to make room, in least-recently-used order. -/
def evictIdleForCapacity (s : PoolManager) (caller : EvictCaller) : PoolManager :=
  match s.entries.entries.filter fun e => !(s.entryOf e.2).inUse with
  | [] => s.suspend (.decided caller .allInUse)
  | idle => s.evictNext caller none idle

/-- The loop of `drainWaiters` over the queue it finds. -/
def drain (s : PoolManager) : List Waiter → PoolManager
  | [] => { s with waiters := [] }
  | w :: rest =>
      match s.entries.get w.conversation.id with
      | some c =>
          if (s.entryOf c).retiring then drain (s.reject w (.retiring w.conversation)) rest
          else if (s.entryOf c).inUse = false then
            drain ((s.setEntry c fun e => { e with idleTimer := false }).grant w c) rest
          else { s with waiters := w :: rest }
      | none =>
          match s.inflight.get w.conversation.id with
          | some k => { s with waiters := rest }.await k (.drainInflight w)
          | none =>
              if s.maxChildren ≤ s.occupiedSlots then
                if s.entries.values.all fun c => (s.entryOf c).inUse then
                  { s with waiters := w :: rest }
                else if s.drainEviction then { s with waiters := w :: rest }
                else
                  { s with waiters := w :: rest, drainEviction := true }.evictIdleForCapacity
                    .drain
              else { s with waiters := rest }.createEntry w.conversation none (.drainNew w)

/-- Serve the wait queue from its head for as long as that is possible. -/
def drainWaiters (s : PoolManager) : PoolManager := s.drain s.waiters

/-! ### Operations -/

/-- `acquire` up to its first `await`. -/
def acquire (s : PoolManager) (conversation : Conversation)
    (parentConversationKey : Option String) : PoolManager :=
  let w : Waiter := ⟨conversation, s.nextCall⟩
  let s := { s with nextCall := s.nextCall + 1 }
  if conversation.adapterId = "" then s.reject w .adapterIdRequired
  else if conversation.conversationKey = "" then s.reject w .conversationKeyRequired
  else if s.closed then s.reject w .closed
  else
    match s.entries.get conversation.id with
    | some c =>
        if (s.entryOf c).retiring then s.reject w (.retiring conversation)
        else if (s.entryOf c).inUse = false then
          (s.setEntry c fun e => { e with idleTimer := false }).grant w c
        else s.enqueueWaiter w
    | none =>
        match s.inflight.get conversation.id with
        | some k => s.await k (.acquireInflight w)
        | none =>
            if s.maxChildren ≤ s.occupiedSlots then
              s.evictIdleForCapacity (.acquire w parentConversationKey)
            else s.createEntry conversation parentConversationKey (.acquireNew w)

/-- `acquire` after its eviction for capacity. -/
def acquireEvicted (s : PoolManager) (w : Waiter) (parentConversationKey : Option String) :
    EvictForCapacityOutcome → PoolManager
  | .ok =>
      if s.closed then s.reject w .closed
      else s.createEntry w.conversation parentConversationKey (.acquireNew w)
  | .closeFailed error => s.reject w (.closeFailed error)
  | .allInUse => s.enqueueWaiter w

/-- `tryEvictForDrain` after its eviction for capacity. -/
def tryEvictForDrain (s : PoolManager) : EvictForCapacityOutcome → PoolManager
  | .closeFailed error =>
      { s with
        waiters := []
        settled := s.settled ++ s.waiters.map fun w : Waiter =>
          (w.call, Except.error (PoolError.closeFailed error)) }.suspend .drainTail
  | _ => s.suspend .drainTail

/-- The code after the promise of the creation `k` is resolved. -/
def resume (s : PoolManager) (k : ChildId) : Continuation → PoolManager
  | .acquireNew w => if s.closed then s.reject w .closed else s.grant w k
  | .acquireInflight w =>
      if s.closed then s.reject w .closed
      else if (s.entryOf k).inUse = false then s.grant w k
      else s.enqueueWaiter w
  | .drainNew w =>
      if s.closed then s.reject w .closed else (s.grant w k).drainWaiters
  | .drainInflight w =>
      if s.closed then s.reject w .closed
      else if (s.entryOf k).inUse = false then (s.grant w k).drainWaiters
      else { s with waiters := w :: s.waiters }.drainWaiters

/-- The code after the promise of a creation is rejected. -/
def resumeRejected (s : PoolManager) (error : PoolError) : Continuation → PoolManager
  | .acquireNew w => s.reject w error
  | .acquireInflight w => s.reject w error
  | .drainNew w => (s.reject w error).drainWaiters
  | .drainInflight w => (s.reject w error).drainWaiters

/-- Give the entry of a conversation back to the pool. -/
def releaseEntry (s : PoolManager) (id : String) : PoolManager :=
  if s.closed then s
  else
    match s.entries.get id with
    | none => s
    | some c =>
        if (s.entryOf c).retiring then s
        else
          ((s.touchLru id).setEntry c fun e =>
            { e with inUse := false, idleTimer := true }).drainWaiters

/-- Release a lease; a second release does nothing. -/
def release (s : PoolManager) (l : ℕ) (lease : Lease) : PoolManager :=
  if lease.released then s
  else
    { s with leaseOf := Function.update s.leaseOf l (some { lease with released := true })
    }.releaseEntry lease.conversation.id

/-- Insert the entry of a creation whose child is attached and owned. -/
def insertEntry (s : PoolManager) (k : ChildId) (conversation : Conversation) : PoolManager :=
  { s.setEntry k fun _ => ⟨conversation, false, false, false⟩ with
    entries := s.entries.set conversation.id k }.setPhase k .inserted

/-- The `finally` callback of `createEntry`. -/
def finishCreation (s : PoolManager) (k : ChildId) (conversation : Conversation)
    (phase : CreationPhase) : PoolManager :=
  { s with
    inflight := s.inflight.delete conversation.id
    pendingCreations := s.pendingCreations - 1 }.setPhase k phase

/-- Put an entry whose child did not close back as an idle one. -/
def restore (s : PoolManager) (id : String) (c : ChildId) : PoolManager :=
  { s.setEntry c fun e => { e with inUse := false, idleTimer := false } with
    entries := s.entries.set id c }

/-- Whoever waits for a teardown is told its result; unless the close failed,
the child is dead. -/
def settleTeardown (s : PoolManager) (purpose : Purpose) (id : String) (c : ChildId)
    (result : TeardownResult) : PoolManager :=
  let s := { s with tasks := s.tasks.erase (.evict purpose id c .closing) }
  let s :=
    match result with
    | .closeFailed _ => s
    | _ => s.setChild c .closed
  s.suspend (.evict purpose id c (.tornDown result))

/-- The code after `teardownEntry`, up to the return to the caller. The idle
sweep decrements `closing` in a later callback than it restores the entry in;
the other two do both at once. -/
def evicted (s : PoolManager) (purpose : Purpose) (id : String) (c : ChildId)
    (result : TeardownResult) : PoolManager :=
  let s :=
    match result with
    | .closeFailed _ => s.restore id c
    | _ => s
  { s with closing := if purpose = Purpose.idle then s.closing else s.closing - 1 }.suspend
    (.evict purpose id c (.returned result.outcome))

/-- The code of whoever asked for an eviction, after it has returned. -/
def evictReturned (s : PoolManager) (purpose : Purpose) (id : String) (c : ChildId)
    (outcome : EvictOutcome) : PoolManager :=
  match purpose, outcome with
  | .capacity caller _ _, .ok => s.suspend (.decided caller .ok)
  | .capacity caller rest _, .closeFailed error => s.evictNext caller (some error) rest
  | .idle, _ => { s with closing := s.closing - 1 }.drainWaiters
  | .retire, .ok => s.drainWaiters
  | .retire, .closeFailed error =>
      (s.setEntry c fun e => { e with inUse := true }).rejectWaitersFor id (.closeFailed error)

/-- Let a suspended operation whose `await` is over run on. -/
def advance (s : PoolManager) : Task → Option PoolManager
  | .evict _ _ _ .closing => none
  | .evict purpose id c (.tornDown result) => some (s.evicted purpose id c result)
  | .evict purpose id c (.returned outcome) => some (s.evictReturned purpose id c outcome)
  | .decided (.acquire w parentConversationKey) outcome =>
      some (s.acquireEvicted w parentConversationKey outcome)
  | .decided .drain outcome => some (s.tryEvictForDrain outcome)
  | .drainTail => some { s with drainEviction := false }.drainWaiters

/-- The callback of the timer that `armIdleTimer` set for the entry `c`. -/
def sweepIdle (s : PoolManager) (c : ChildId) : PoolManager :=
  let id := (s.entryOf c).conversation.id
  let s := s.setEntry c fun e => { e with idleTimer := false }
  match s.entries.get id with
  | none => s
  | some current =>
      if (s.entryOf current).inUse = false then s.beginEvict .idle id current else s

/-- Remove and close a known-bad child before its lease is released. -/
def retireChild (s : PoolManager) (conversation : Conversation) (c : ChildId) : PoolManager :=
  if s.entries.get conversation.id = some c ∧ (s.entryOf c).retiring = false then
    (s.setEntry c fun e => { e with retiring := true, inUse := false }).beginEvict .retire
      conversation.id c
  else s

/-- Remove a child that exited outside normal pool teardown. -/
def forgetExitedChild (s : PoolManager) (conversation : Conversation) (c : ChildId) :
    PoolManager :=
  if s.entries.get conversation.id = some c then
    { s.setEntry c fun e => { e with idleTimer := false } with
      entries := s.entries.delete conversation.id }.drainWaiters
  else s

/-! ### The machine -/

/-- One uninterrupted piece of code, with the answer it starts from. -/
inductive Action where
  | acquire (conversation : Conversation) (parentConversationKey : Option String)
  | release (lease : ℕ)
  /-- The factory answers the creation. -/
  | spawned (creation : ChildId) (reply : Reply)
  /-- The session registry answers the creation. -/
  | attached (creation : ChildId) (reply : Reply)
  /-- The child of a failed creation has closed, or has failed to. -/
  | aborted (creation : ChildId) (reply : Reply)
  /-- The `finally` callback of the creation. -/
  | finished (creation : ChildId)
  /-- A caller that waits for the creation runs on. -/
  | resume (creation : ChildId) (rest : Continuation)
  /-- The teardown of an eviction settles. -/
  | tornDown (purpose : Purpose) (id : String) (child : ChildId) (result : TeardownResult)
  | advance (task : Task)
  | idleTimer (child : ChildId)
  | retireChild (conversation : Conversation) (child : ChildId)
  /-- The process of a child exits, and the pool is told. -/
  | exit (child : ChildId)
  deriving DecidableEq, Repr

/-- Whether a child process is running. -/
def Live (s : PoolManager) (c : ChildId) : Prop := s.childOf c = .live

instance (s : PoolManager) (c : ChildId) : Decidable (s.Live c) :=
  inferInstanceAs (Decidable (_ = _))

/-- What an action does; `none` when nothing waits for it. -/
def step (s : PoolManager) : Action → Option PoolManager
  | .acquire conversation parentConversationKey =>
      some (s.acquire conversation parentConversationKey)
  | .release l => (s.leaseOf l).map fun lease => s.release l lease
  | .spawned k reply => do
      let cr ← s.creationOf k
      if cr.phase = .spawning then
        match reply with
        | .done => some ((s.setChild k .live).setPhase k .attaching)
        | .failed error => some (s.setPhase k (.failing (.createFailed error)))
      else none
  | .attached k reply => do
      let cr ← s.creationOf k
      if cr.phase = .attaching then
        match reply with
        | .done => some (s.insertEntry k cr.conversation)
        | .failed error => some (s.setPhase k (.aborting error))
      else none
  | .aborted k reply => do
      let cr ← s.creationOf k
      match cr.phase, reply with
      | .aborting error, .done =>
          some ((s.setChild k .closed).setPhase k (.failing (.createFailed error)))
      | .aborting _, .failed error => some (s.setPhase k (.failing (.closeFailed error)))
      | _, _ => none
  | .finished k => do
      let cr ← s.creationOf k
      match cr.phase with
      | .inserted => some (s.finishCreation k cr.conversation .resolved)
      | .failing error => some (s.finishCreation k cr.conversation (.rejected error))
      | _ => none
  | .resume k rest =>
      if (k, rest) ∈ s.continuations then do
        let cr ← s.creationOf k
        let s := { s with continuations := s.continuations.erase (k, rest) }
        match cr.phase with
        | .resolved => some (s.resume k rest)
        | .rejected error => some (s.resumeRejected error rest)
        | _ => none
      else none
  | .tornDown purpose id c result =>
      if .evict purpose id c .closing ∈ s.tasks then
        some (s.settleTeardown purpose id c result)
      else none
  | .advance task =>
      if task ∈ s.tasks then { s with tasks := s.tasks.erase task }.advance task else none
  | .idleTimer c => if (s.entryOf c).idleTimer then some (s.sweepIdle c) else none
  | .retireChild conversation c => some (s.retireChild conversation c)
  | .exit c => do
      let cr ← s.creationOf c
      if s.Live c then some ((s.setChild c .exited).forgetExitedChild cr.conversation c)
      else none

/-- The pool as a machine: it may be built for any positive bound. -/
def machine : Transition.Machine PoolManager Action where
  init s := ∃ maxChildren, 0 < maxChildren ∧ s = initial maxChildren
  step := step

end PoolManager

end OmpBundler.Core
