import OmpBundler.Core.PoolManager

/-!
Closing the pool.

`close` marks the pool as closed, rejects the callers that wait, and then
waits in turn for the creations in flight, for the evictions under way and
for the teardown of every entry that is left. Meanwhile the pool's other
operations go on.

Each `await` of `close` is on promises that others have awaited before it,
so the callbacks of these run first: `close` goes on only when no other
piece of code is ready to run (`ready`). The errors that `close` collects
are not modelled.
-/

namespace OmpBundler.Core

open Library

/-- Where `closeImpl` stands. -/
inductive ClosePhase where
  | notCalled
  /-- Waiting for the creations that were in flight. -/
  | awaitingCreations (inflight : List ChildId)
  | awaitingEvictions
  /-- Waiting for these children to be torn down. -/
  | tearingDown (children : List ChildId)
  | settled
  deriving DecidableEq, Repr

/-- Whether the promise of the creation has settled. -/
def CreationPhase.isSettled : CreationPhase → Bool
  | .resolved | .rejected _ => true
  | _ => false

/-- Whether only the `finally` callback of the creation is left to run. -/
def CreationPhase.isFinishing : CreationPhase → Bool
  | .inserted | .failing _ => true
  | _ => false

namespace PoolManager

/-- Whether a suspended operation waits for nothing but its turn. -/
def taskReady : Task → Bool
  | .evict _ _ _ .closing => false
  | _ => true

/-- Whether some code of the pool is ready to run: the callback of a
settled creation, a caller that waits for one, or an eviction whose child
has been torn down. -/
def ready (s : PoolManager) : Bool :=
  s.tasks.any taskReady ||
  (s.continuations.any fun c => (s.creationOf c.1).any fun cr => cr.phase.isSettled) ||
  (List.range s.nextChild).any fun k => (s.creationOf k).any fun cr => cr.phase.isFinishing

/-- `closeImpl` up to its first `await`. -/
@[simps]
def beginClose (s : PoolManager) : PoolManager :=
  { s with
    closed := true
    waiters := []
    settled := s.settled ++ s.waiters.map fun w : Waiter => (w.call, Except.error .closed)
    entryOf := fun c =>
      if c ∈ s.entries.values then { s.entryOf c with idleTimer := false } else s.entryOf c }

/-- Forget the creations in flight. -/
@[simps]
def clearInflight (s : PoolManager) : PoolManager :=
  { s with inflight := .empty, pendingCreations := 0 }

/-- Empty the map: its children are being torn down. -/
@[simps]
def clearEntries (s : PoolManager) : PoolManager := { s with entries := .empty }

/-- A teardown that `close` has asked for settles; unless the close failed,
the child is dead. -/
def closeTornDown (s : PoolManager) (c : ChildId) : TeardownResult → PoolManager
  | .closeFailed _ => s
  | _ => s.setChild c .closed

end PoolManager

/-- The pool with its `close`. -/
structure ClosablePool where
  pool : PoolManager
  phase : ClosePhase

namespace ClosablePool

/-- A new pool. -/
def initial (maxChildren : ℕ) : ClosablePool := ⟨.initial maxChildren, .notCalled⟩

/-- One uninterrupted piece of code. -/
inductive Action where
  | pool (action : PoolManager.Action)
  /-- `close` is called; later calls share the promise of the first. -/
  | close
  | creationsSettled
  | evictionsSettled
  | tornDown (child : ChildId) (result : TeardownResult)
  | closeSettled
  deriving DecidableEq, Repr

/-- What an action does; `none` when nothing waits for it. -/
def step (s : ClosablePool) : Action → Option ClosablePool
  | .pool a => (s.pool.step a).map fun p => { s with pool := p }
  | .close =>
      match s.phase with
      | .notCalled => some ⟨s.pool.beginClose, .awaitingCreations s.pool.inflight.values⟩
      | _ => some s
  | .creationsSettled =>
      match s.phase with
      | .awaitingCreations inflight =>
          if s.pool.ready = false ∧
              inflight.all fun k => (s.pool.creationOf k).any fun cr => cr.phase.isSettled then
            some ⟨s.pool.clearInflight, .awaitingEvictions⟩
          else none
      | _ => none
  | .evictionsSettled =>
      match s.phase with
      | .awaitingEvictions =>
          if s.pool.ready = false ∧ s.pool.tasks = [] then
            some ⟨s.pool.clearEntries, .tearingDown s.pool.entries.values⟩
          else none
      | _ => none
  | .tornDown c result =>
      match s.phase with
      | .tearingDown children =>
          if c ∈ children then
            some ⟨s.pool.closeTornDown c result, .tearingDown (children.erase c)⟩
          else none
      | _ => none
  | .closeSettled =>
      match s.phase with
      | .tearingDown [] => if s.pool.ready = false then some { s with phase := .settled } else none
      | _ => none

/-- The pool as a machine: it may be built for any positive bound. -/
def machine : Transition.Machine ClosablePool Action where
  init s := ∃ maxChildren, 0 < maxChildren ∧ s = initial maxChildren
  step := step

/-- One constructor for each way a step can go, with what the step has
checked. -/
inductive Stepped (s : ClosablePool) : Action → ClosablePool → Prop
  | pool {a : PoolManager.Action} {p : PoolManager} (moved : s.pool.step a = some p) :
      Stepped s (.pool a) { s with pool := p }
  | close (opened : s.phase = .notCalled) :
      Stepped s .close ⟨s.pool.beginClose, .awaitingCreations s.pool.inflight.values⟩
  | closeAgain (called : s.phase ≠ .notCalled) : Stepped s .close s
  | creationsSettled {inflight : List ChildId} (phase : s.phase = .awaitingCreations inflight)
      (done : s.pool.ready = false)
      (settled : ∀ k ∈ inflight, ∃ cr, s.pool.creationOf k = some cr ∧ cr.phase.isSettled) :
      Stepped s .creationsSettled ⟨s.pool.clearInflight, .awaitingEvictions⟩
  | evictionsSettled (phase : s.phase = .awaitingEvictions) (done : s.pool.ready = false)
      (none : s.pool.tasks = []) :
      Stepped s .evictionsSettled ⟨s.pool.clearEntries, .tearingDown s.pool.entries.values⟩
  | tornDown {children : List ChildId} {c : ChildId} (result : TeardownResult)
      (phase : s.phase = .tearingDown children) (mem : c ∈ children) :
      Stepped s (.tornDown c result)
        ⟨s.pool.closeTornDown c result, .tearingDown (children.erase c)⟩
  | closeSettled (phase : s.phase = .tearingDown []) (done : s.pool.ready = false) :
      Stepped s .closeSettled { s with phase := .settled }

theorem step_cases {s t : ClosablePool} {a : Action} (taken : step s a = some t) :
    Stepped s a t := by
  cases a with
  | pool a =>
      obtain ⟨p, moved, rfl⟩ := Option.map_eq_some_iff.mp taken
      exact .pool moved
  | close =>
      simp only [step] at taken
      split at taken
      case h_1 opened => exact Option.some.inj taken ▸ .close opened
      case h_2 called => exact Option.some.inj taken ▸ .closeAgain called
  | creationsSettled =>
      simp only [step] at taken
      split at taken
      case h_2 => simp at taken
      case h_1 inflight phase =>
          split at taken
          case isFalse => simp at taken
          case isTrue done =>
              obtain rfl := Option.some.inj taken
              simp only [List.all_eq_true, Option.any_eq_true] at done
              exact .creationsSettled phase done.1 done.2
  | evictionsSettled =>
      simp only [step] at taken
      split at taken
      case h_2 => simp at taken
      case h_1 phase =>
          split at taken
          case isFalse => simp at taken
          case isTrue done => exact Option.some.inj taken ▸ .evictionsSettled phase done.1 done.2
  | tornDown c result =>
      simp only [step] at taken
      split at taken
      case h_2 => simp at taken
      case h_1 children phase =>
          split at taken
          case isFalse => simp at taken
          case isTrue mem => exact Option.some.inj taken ▸ .tornDown result phase mem
  | closeSettled =>
      simp only [step] at taken
      split at taken
      case h_2 => simp at taken
      case h_1 phase =>
          split at taken
          case isFalse => simp at taken
          case isTrue done => exact Option.some.inj taken ▸ .closeSettled phase done

end ClosablePool

end OmpBundler.Core
