import OmpBundler.Core.PoolChildren
import OmpBundler.Core.PoolShutdown
import OmpBundler.Core.RpcChild

/-!
The pool and the processes behind its children.

The pool asks a child to close and goes by the answer: when the promise of
`close` resolves, it releases the ownership of the session and frees the
slot. A child is closed by others too. A command that is not acknowledged
in time closes it, and from then on `closed` is set, so that the close the
pool asks for resolves at once, while the process may still be running out
its grace period.

A step of the pool is followed by the `close` calls of the teardowns it has
begun. The teardown goes on when the promise of its own call has resolved;
a close that fails does not occur, since `RpcChild.close` never throws.
`confirmed_iff` says which runs keep what the pool relies on.
-/

namespace OmpBundler.Core

open Library

/-- Whether a teardown, or a creation that has failed, waits for the child
to close. -/
def ClosablePool.waitsForClose (s : ClosablePool) (c : ChildId) : Bool :=
  (s.pool.tasks.any fun
    | .evict _ _ d .closing => d = c
    | _ => false) ||
  (match s.pool.creationOf c with
  | some ⟨_, _, .aborting _⟩ => true
  | _ => false) ||
  match s.phase with
  | .tearingDown children => c ∈ children
  | _ => false

/-- A child is marked as closed by whoever has waited for it. -/
theorem ClosablePool.closed_of_step {s t : ClosablePool} {a : ClosablePool.Action}
    (taken : ClosablePool.step s a = some t) {c : ChildId}
    (closed : t.pool.childOf c = .closed) :
    s.pool.childOf c = .closed ∨
      (∃ purpose id result, a = .pool (.tornDown purpose id c result) ∧ result.outcome = .ok) ∨
      a = .pool (.aborted c .done) ∨ ∃ result, a = .tornDown c result ∧ result.outcome = .ok := by
  cases step_cases taken with
  | pool moved =>
      rcases PoolManager.closed_of_step moved closed with before | torn | rfl
      · exact .inl before
      · obtain ⟨purpose, id, result, rfl, ok⟩ := torn
        exact .inr (.inl ⟨purpose, id, result, rfl, ok⟩)
      · exact .inr (.inr (.inl rfl))
  | close | closeAgain | creationsSettled | evictionsSettled | closeSettled => exact .inl closed
  | @tornDown children d result =>
      cases result with
      | closeFailed error => exact .inl closed
      | childClosed | releaseFailed error =>
          by_cases here : c = d
          · subst here
            exact .inr (.inr (.inr ⟨_, rfl, rfl⟩))
          · refine .inl ?_
            simpa [PoolManager.closeTornDown, Function.update_of_ne here] using closed

/-- The pool with its children. -/
structure PooledChildren where
  pool : ClosablePool
  /-- The child that a creation's factory has made. -/
  rpc : ChildId → Option RpcChild
  /-- Which of the calls of `close` the pool waits for. -/
  awaits : ChildId → ℕ
  /-- The processes that were spawned while an earlier one of the same
  conversation, which the pool had begun to tear down, was still running:
  the earlier child and the new one. -/
  beside : List (ChildId × ChildId)

namespace PooledChildren

/-- A new pool has no children. -/
def initial (maxChildren : ℕ) : PooledChildren where
  pool := .initial maxChildren
  rpc _ := none
  awaits _ := 0
  beside := []

/-- The process of the child is still running. -/
def Running (s : PooledChildren) (c : ChildId) : Prop :=
  ∃ r, s.rpc c = some r ∧ r.Running

instance (s : PooledChildren) (c : ChildId) : Decidable (s.Running c) :=
  match h : s.rpc c with
  | none => isFalse (by simp [Running, h])
  | some r => decidable_of_iff r.Running (by simp [Running, h])

/-! ### Steps -/

/-- Change the object of a child. -/
@[simps]
def update (s : PooledChildren) (c : ChildId) (f : RpcChild → RpcChild) : PooledChildren :=
  { s with rpc := Function.update s.rpc c ((s.rpc c).map f) }

/-- Whether the pool has begun to wait for the child between two of its
states. -/
def begun (s t : ClosablePool) (c : ChildId) : Bool := t.waitsForClose c && !s.waitsForClose c

/-- The pool goes on to `t`; the teardowns it has begun call `close`. -/
@[simps]
def follow (s : PooledChildren) (t : ClosablePool) : PooledChildren :=
  { s with
    pool := t
    rpc := fun c => if begun s.pool t c then (s.rpc c).map RpcChild.close else s.rpc c
    awaits := fun c =>
      if begun s.pool t c then ((s.rpc c).map fun r => r.closes.length).getD 0
      else s.awaits c }

/-- The close that the pool has asked for has resolved. -/
def closeResolved (s : PooledChildren) (c : ChildId) : Bool :=
  ((s.rpc c).bind fun r => r.closes[s.awaits c]?) = some .resolved

/-- Which answers the children can give to the pool: the factory has spawned
the process it hands over, and whoever waits for a close goes on when it has
resolved. -/
def admits (s : PooledChildren) : ClosablePool.Action → Bool
  | .pool (.spawned k .done) => (s.rpc k).isSome
  | .pool (.aborted k .done) => s.closeResolved k
  | .pool (.aborted _ (.failed _)) => false
  | .pool (.tornDown _ _ c result) => result.outcome = .ok ∧ s.closeResolved c
  | .tornDown c result => result.outcome = .ok ∧ s.closeResolved c
  | .pool (.exit _) => false
  | _ => true

/-- The pool has begun to tear the child down, or is done with it. -/
def Dismissed (s : PooledChildren) (c : ChildId) : Prop :=
  s.pool.waitsForClose c ∨ s.pool.pool.childOf c = .closed

instance (s : PooledChildren) (c : ChildId) : Decidable (s.Dismissed c) :=
  inferInstanceAs (Decidable (_ ∨ _))

/-- The children of the creation's conversation that are dismissed and
still run. -/
def lingering (s : PooledChildren) (cr : Creation) : List ChildId :=
  (List.range s.pool.pool.nextChild).filter fun c =>
    ((s.pool.pool.creationOf c).map Creation.conversation = some cr.conversation) ∧
      s.Dismissed c ∧ s.Running c

/-- The factory of a creation spawns its process. -/
def spawn (s : PooledChildren) (k : ChildId) (binary : String) (pgid : Option ℤ) :
    Option PooledChildren :=
  match s.pool.pool.creationOf k, s.rpc k with
  | some cr, none =>
      if cr.phase = .spawning then
        match (RpcChild.new binary (some cr.conversation.id)).start ⟨pgid, .running, false⟩ with
        | .ok r =>
            some { s with
              rpc := Function.update s.rpc k (some r)
              beside := s.beside ++ (s.lingering cr).map fun c => (c, k) }
        | .error _ => none
      else none
  | _, _ => none

/-- One uninterrupted piece of code, or a move of the environment. -/
inductive Action where
  | pool (action : ClosablePool.Action)
  | spawn (child : ChildId) (binary : String) (pgid : Option ℤ)
  /-- The process of a child exits. -/
  | exit (child : ChildId)
  /-- The exit event of a child: the pool is told first. -/
  | reportExit (child : ChildId) (status : ExitStatus)
  | send (child : ChildId) (frame : CommandFrame) (write : Except String Unit)
  | response (child : ChildId) (response : RpcResponseFrame)
  /-- The command with this id is not acknowledged in time. -/
  | ackTimeout (child : ChildId) (id : String)
  /-- Somebody calls `close`. -/
  | close (child : ChildId)
  /-- The grace period of the close that is waiting is over. -/
  | graceTimeout (child : ChildId) (kill : KillReply)
  /-- A `start` that fails kills its process. -/
  | startFailed (child : ChildId) (kill : KillReply)
  /-- The process reports an error. -/
  | error (child : ChildId) (error : String)

/-- What an action does; `none` when nothing waits for it. -/
def step (s : PooledChildren) : Action → Option PooledChildren
  | .pool a =>
      if s.admits a then (ClosablePool.step s.pool a).map s.follow else none
  | .spawn k binary pgid => s.spawn k binary pgid
  | .exit c =>
      match (s.rpc c).bind RpcChild.process with
      | some p =>
          if p.status = .running then
            some (s.update c fun r => { r with process := some { p with status := .exited } })
          else none
      | none => none
  | .reportExit c status =>
      match (s.rpc c).bind RpcChild.process with
      | some p =>
          if p.status = .exited then
            let told := ((ClosablePool.step s.pool (.pool (.exit c))).map s.follow).getD s
            some (told.update c fun r => r.onExit status)
          else none
      | none => none
  | .send c frame write => some (s.update c fun r => r.send frame write)
  | .response c response => some (s.update c fun r => r.processResponse response)
  | .ackTimeout c id =>
      if ((s.rpc c).bind fun r => r.pendingResponses.get id).isSome then
        some (s.update c fun r => r.ackTimeout id)
      else none
  | .close c => some (s.update c RpcChild.close)
  | .graceTimeout c kill =>
      if (s.rpc c).any fun r => .waiting ∈ r.closes then
        some (s.update c fun r => r.graceTimeout kill)
      else none
  | .startFailed c kill => some (s.update c fun r => r.hardKill kill)
  | .error c error => some (s.update c fun r => r.onError error)

/-- The pool with its children as a machine. -/
def machine : Transition.Machine PooledChildren Action where
  init s := ∃ maxChildren, 0 < maxChildren ∧ s = initial maxChildren
  step := step

/-! ### What is to hold -/

/-- A promise of `close` has resolved, and a slot has been freed, only for a
process that has exited or been killed; and no process was spawned beside
one that it replaces. -/
structure Confirmed (s : PooledChildren) : Prop where
  promises : ∀ c r, s.rpc c = some r → r.Honest
  freed : ∀ c, s.pool.pool.childOf c = .closed → ¬ s.Running c
  replaced : s.beside = []

/-- The action calls `close` on the child. -/
def Closes (s : PooledChildren) (c : ChildId) : Action → Prop
  | .pool a => ∃ t, ClosablePool.step s.pool a = some t ∧ begun s.pool t c
  | .reportExit d _ => ∃ t, ClosablePool.step s.pool (.pool (.exit d)) = some t ∧ begun s.pool t c
  | .ackTimeout d _ => d = c
  | .close d => d = c
  | _ => False

/-- What the code does not test: a child whose process runs is not closed
already when `close` is called, the signal at the end of the grace period
reaches the process, and no child of the conversation that is being torn
down runs when the process of another one is spawned. -/
structure Unhurried (s : PooledChildren) (a : Action) : Prop where
  first : ∀ c r, s.Closes c a → s.rpc c = some r → ¬ (r.closed = true ∧ r.Running)
  killed : ∀ c kill, a = .graceTimeout c kill → kill = .delivered ∨ ¬ s.Running c
  alone : ∀ k binary pgid cr, a = .spawn k binary pgid → s.pool.pool.creationOf k = some cr →
    s.lingering cr = []

/-- A child that the pool is done with has an object. -/
def Sound (s : PooledChildren) : Prop :=
  ∀ c, s.pool.pool.childOf c = .closed → (s.rpc c).isSome

/-! ### The updates -/

section Updates

variable {s t : PooledChildren}

theorem isSome_follow (s : PooledChildren) (p : ClosablePool) (c : ChildId) :
    ((s.follow p).rpc c).isSome = (s.rpc c).isSome := by
  simp only [follow_rpc]
  split <;> simp

theorem isSome_update (s : PooledChildren) (d : ChildId) (f : RpcChild → RpcChild)
    (c : ChildId) : ((s.update d f).rpc c).isSome = (s.rpc c).isSome := by
  by_cases here : c = d
  · subst here
    simp
  · simp [Function.update_of_ne here]

theorem running_follow (s : PooledChildren) (p : ClosablePool) (c : ChildId) :
    (s.follow p).Running c ↔ s.Running c := by
  unfold Running
  simp only [follow_rpc]
  split <;> simp

/-- An update of one object that starts no process. -/
theorem running_of_update {d : ChildId} {f : RpcChild → RpcChild}
    (stops : ∀ r, s.rpc d = some r → (f r).Running → r.Running) {c : ChildId}
    (running : (s.update d f).Running c) : s.Running c := by
  obtain ⟨r, known, now⟩ := running
  by_cases here : c = d
  · subst here
    simp only [update_rpc, Function.update_self, Option.map_eq_some_iff] at known
    obtain ⟨r', known, rfl⟩ := known
    exact ⟨r', known, stops r' known now⟩
  · exact ⟨r, by simpa [Function.update_of_ne here] using known, now⟩

theorem Sound.update (sound : s.Sound) (c : ChildId) (f : RpcChild → RpcChild) :
    (s.update c f).Sound := fun d closed => by
  rw [isSome_update]
  exact sound d closed

/-- The promises after an update of one object are kept exactly if its own
is. -/
theorem promises_update_iff (promises : ∀ c r, s.rpc c = some r → r.Honest) (d : ChildId)
    (f : RpcChild → RpcChild) :
    (∀ c r, (s.update d f).rpc c = some r → r.Honest) ↔
      ∀ r, s.rpc d = some r → (f r).Honest := by
  constructor
  · intro all r known
    exact all d (f r) (by simp [known])
  · intro own c r known
    by_cases here : c = d
    · subst here
      simp only [update_rpc, Function.update_self, Option.map_eq_some_iff] at known
      obtain ⟨r', known, rfl⟩ := known
      exact own r' known
    · exact promises c r (by simpa [Function.update_of_ne here] using known)

/-- The last update of an object whose process has exited breaks no promise. -/
theorem promises_update_stopped {d : ChildId} {f : RpcChild → RpcChild}
    (before : ∀ r, s.rpc d = some r → ¬ r.Running) (after : ∀ r, (f r).Honest) :
    (∀ c r, (s.update d f).rpc c = some r → r.Honest) ↔ ∀ c r, s.rpc c = some r → r.Honest := by
  constructor
  · intro all c r known
    by_cases here : c = d
    · exact fun _ => before r (here ▸ known)
    · exact all c r (by simpa [Function.update_of_ne here] using known)
  · exact fun all => (promises_update_iff all d f).mpr fun r _ => after r

/-- The promises after a step of the pool are kept exactly if no teardown
that it begins finds a close under way. -/
theorem promises_follow_iff (promises : ∀ c r, s.rpc c = some r → r.Honest) (p : ClosablePool) :
    (∀ c r, (s.follow p).rpc c = some r → r.Honest) ↔
      ∀ c r, begun s.pool p c → s.rpc c = some r → ¬ (r.closed = true ∧ r.Running) := by
  constructor
  · intro all c r began known
    have closed := all c r.close (by simp [began, known])
    exact (RpcChild.Honest.close_iff (promises c r known)).mp closed
  · intro first c r known
    simp only [follow_rpc] at known
    split at known
    case isFalse => exact promises c r known
    case isTrue began =>
        obtain ⟨r', found, rfl⟩ := Option.map_eq_some_iff.mp known
        exact (RpcChild.Honest.close_iff (promises c r' found)).mpr (first c r' began found)

theorem isSome_of_closeResolved {c : ChildId} (resolved : s.closeResolved c = true) :
    (s.rpc c).isSome := by
  cases known : s.rpc c with
  | none => simp [closeResolved, known] at resolved
  | some => rfl

/-- The pool goes on, by an answer that the children can give. -/
theorem Sound.follow (sound : s.Sound) {a : ClosablePool.Action} {p : ClosablePool}
    (taken : ClosablePool.step s.pool a = some p)
    (admitted : s.admits a = true ∨ ∃ d, a = .pool (.exit d)) : (s.follow p).Sound := by
  intro c closed
  rw [isSome_follow]
  rcases ClosablePool.closed_of_step taken closed with before | torn | rfl | torn
  · exact sound c before
  · obtain ⟨purpose, id, result, rfl, _⟩ := torn
    have admitted : result.outcome = .ok ∧ s.closeResolved c = true := by
      simpa [admits] using admitted
    exact isSome_of_closeResolved admitted.2
  · exact isSome_of_closeResolved (by simpa [admits] using admitted)
  · obtain ⟨result, rfl, _⟩ := torn
    have admitted : result.outcome = .ok ∧ s.closeResolved c = true := by
      simpa [admits] using admitted
    exact isSome_of_closeResolved admitted.2

end Updates

/-! ### The steps -/

theorem spawn_eq_some {s t : PooledChildren} {k : ChildId} {binary : String} {pgid : Option ℤ}
    (taken : s.spawn k binary pgid = some t) :
    ∃ cr r, s.pool.pool.creationOf k = some cr ∧ s.rpc k = none ∧ r.closes = [] ∧
      t = { s with
        rpc := Function.update s.rpc k (some r)
        beside := s.beside ++ (s.lingering cr).map fun c => (c, k) } := by
  unfold PooledChildren.spawn at taken
  split at taken
  case h_2 => simp at taken
  case h_1 cr known unspawned =>
      split at taken
      case isFalse => simp at taken
      case isTrue =>
          split at taken
          case h_2 => simp at taken
          case h_1 r started =>
              refine ⟨cr, r, known, unspawned, ?_, (Option.some.inj taken).symm⟩
              simp only [RpcChild.start, RpcChild.new] at started
              obtain rfl := Except.ok.inj started
              rfl

theorem Sound.step {s t : PooledChildren} {a : Action} (sound : s.Sound)
    (taken : step s a = some t) : t.Sound := by
  cases a with
  | pool a =>
      simp only [PooledChildren.step] at taken
      split at taken
      case isFalse => simp at taken
      case isTrue admitted =>
          obtain ⟨p, moved, rfl⟩ := Option.map_eq_some_iff.mp taken
          exact sound.follow moved (.inl admitted)
  | spawn k binary pgid =>
      obtain ⟨cr, r, _, _, _, rfl⟩ := spawn_eq_some taken
      have more (c : ChildId) (there : (s.rpc c).isSome) :
          (Function.update s.rpc k (some r) c).isSome := by
        by_cases here : c = k
        · simp [here]
        · simpa [Function.update_of_ne here] using there
      exact fun c closed => more c (sound c closed)
  | reportExit c status =>
      simp only [PooledChildren.step] at taken
      split at taken
      case h_2 => simp at taken
      case h_1 =>
          split at taken
          case isFalse => simp at taken
          case isTrue =>
              obtain rfl := Option.some.inj taken
              refine Sound.update ?_ c _
              cases told : ClosablePool.step s.pool (.pool (.exit c)) with
              | none => exact sound
              | some p => exact sound.follow told (.inr ⟨c, rfl⟩)
  | exit c =>
      simp only [PooledChildren.step] at taken
      split at taken
      case h_2 => simp at taken
      case h_1 =>
          split at taken
          case isFalse => simp at taken
          case isTrue => exact Option.some.inj taken ▸ sound.update c _
  | ackTimeout c id | graceTimeout c kill =>
      simp only [PooledChildren.step] at taken
      split at taken
      case isFalse => simp at taken
      case isTrue => exact Option.some.inj taken ▸ sound.update c _
  | send c | response c | close c | startFailed c | error c =>
      exact Option.some.inj taken ▸ sound.update c _

/-- A close that has resolved is that of a process which does not run. -/
theorem Confirmed.not_running {s : PooledChildren} (conf : s.Confirmed) {c : ChildId}
    (resolved : s.closeResolved c = true) : ¬ s.Running c := by
  rintro ⟨r, known, running⟩
  simp only [closeResolved, known, Option.bind_some, decide_eq_true_eq] at resolved
  exact conf.promises c r known (List.mem_of_getElem? resolved) running

/-- A slot that the pool's step has freed is that of a process which does
not run. -/
theorem Confirmed.freed_of_step {s : PooledChildren} (conf : s.Confirmed)
    {a : ClosablePool.Action} {p : ClosablePool} (moved : ClosablePool.step s.pool a = some p)
    (admitted : s.admits a = true ∨ ∃ d, a = .pool (.exit d)) {c : ChildId}
    (closed : p.pool.childOf c = .closed) : ¬ s.Running c := by
  rcases ClosablePool.closed_of_step moved closed with before | torn | rfl | torn
  · exact conf.freed c before
  · obtain ⟨purpose, id, result, rfl, _⟩ := torn
    have admitted : result.outcome = .ok ∧ s.closeResolved c = true := by
      simpa [admits] using admitted
    exact conf.not_running admitted.2
  · exact conf.not_running (by simpa [admits] using admitted)
  · obtain ⟨result, rfl, _⟩ := torn
    have admitted : result.outcome = .ok ∧ s.closeResolved c = true := by
      simpa [admits] using admitted
    exact conf.not_running admitted.2

/-- An update of one object that starts no process keeps everything but, it
may be, the promise of the object itself. -/
theorem Confirmed.update_iff {s : PooledChildren} (conf : s.Confirmed) {c : ChildId}
    {f : RpcChild → RpcChild} (stops : ∀ r, s.rpc c = some r → (f r).Running → r.Running) :
    (s.update c f).Confirmed ↔ ∀ r, s.rpc c = some r → (f r).Honest := by
  rw [← promises_update_iff conf.promises c f]
  refine ⟨fun kept => kept.promises, fun promises => ⟨promises, fun d closed running => ?_,
    conf.replaced⟩⟩
  exact conf.freed d closed (running_of_update stops running)

/-- Of an action that spawns nothing and ends no grace period, it is only
asked which closes it calls. -/
theorem unhurried_iff {s : PooledChildren} {a : Action}
    (noGrace : ∀ c kill, a ≠ .graceTimeout c kill)
    (noSpawn : ∀ k binary pgid, a ≠ .spawn k binary pgid) :
    s.Unhurried a ↔
      ∀ c r, s.Closes c a → s.rpc c = some r → ¬ (r.closed = true ∧ r.Running) :=
  ⟨fun h => h.first, fun first => ⟨first, fun c kill same => absurd same (noGrace c kill),
    fun k binary pgid _ same => absurd same (noSpawn k binary pgid)⟩⟩

section Steps

variable {s t : PooledChildren}

/-- An action that calls no `close`, spawns nothing and ends no grace period
is unhurried. -/
theorem unhurried_of_calm {a : Action} (calls : ∀ c, s.Closes c a = False)
    (noGrace : ∀ c kill, a ≠ .graceTimeout c kill)
    (noSpawn : ∀ k binary pgid, a ≠ .spawn k binary pgid) : s.Unhurried a :=
  (unhurried_iff noGrace noSpawn).mpr fun c _ called => ((calls c).mp called).elim

/-- An update of one object by such an action. -/
theorem Confirmed.calm_iff (conf : s.Confirmed) {a : Action} {c : ChildId}
    {f : RpcChild → RpcChild} (stops : ∀ r, s.rpc c = some r → (f r).Running → r.Running)
    (honest : ∀ r, r.Honest → (f r).Honest) (calls : ∀ d, s.Closes d a = False)
    (noGrace : ∀ c kill, a ≠ .graceTimeout c kill)
    (noSpawn : ∀ k binary pgid, a ≠ .spawn k binary pgid) :
    (s.update c f).Confirmed ↔ s.Unhurried a :=
  ⟨fun _ => unhurried_of_calm calls noGrace noSpawn,
    fun _ => (conf.update_iff stops).mpr fun r known => honest r (conf.promises c r known)⟩

theorem confirmed_pool_iff {a : ClosablePool.Action} (conf : s.Confirmed)
    (taken : step s (.pool a) = some t) : t.Confirmed ↔ s.Unhurried (.pool a) := by
  simp only [PooledChildren.step] at taken
  split at taken
  case isFalse => simp at taken
  case isTrue admitted =>
      obtain ⟨p, moved, rfl⟩ := Option.map_eq_some_iff.mp taken
      rw [unhurried_iff (by simp) (by simp)]
      have calls (c : ChildId) : s.Closes c (.pool a) ↔ begun s.pool p c := by
        simp [Closes, moved]
      simp only [calls]
      rw [← promises_follow_iff conf.promises p]
      refine ⟨fun kept => kept.promises, fun promises => ⟨promises, fun c closed => ?_,
        conf.replaced⟩⟩
      rw [running_follow]
      exact conf.freed_of_step moved (.inl admitted) closed

theorem confirmed_reportExit_iff {c : ChildId} {status : ExitStatus} (conf : s.Confirmed)
    (taken : step s (.reportExit c status) = some t) : t.Confirmed ↔ s.Unhurried (.reportExit c status) := by
  simp only [PooledChildren.step] at taken
  split at taken
  case h_2 => simp at taken
  case h_1 q spawned =>
      split at taken
      case isFalse => simp at taken
      case isTrue exited =>
          obtain rfl := Option.some.inj taken
          rw [unhurried_iff (by simp) (by simp)]
          have stopped (r : RpcChild) (known : s.rpc c = some r) : ¬ r.Running := by
            rintro ⟨q', spawned', running, _⟩
            obtain rfl : q' = q := by simpa [known, spawned'] using spawned
            simp [exited] at running
          cases told : ClosablePool.step s.pool (.pool (.exit c)) with
          | none =>
              refine ⟨fun _ d r calls => ?_, fun _ => ?_⟩
              · simp [Closes, told] at calls
              · exact (conf.update_iff fun r _ running =>
                  absurd running (RpcChild.onExit_not_running r status)).mpr
                    fun r _ => RpcChild.onExit_honest status
          | some p =>
              have calls (d : ChildId) : s.Closes d (.reportExit c status) ↔
                  begun s.pool p d := by simp [Closes, told]
              have still (r : RpcChild) (known : (s.follow p).rpc c = some r) :
                  ¬ r.Running := by
                intro running
                obtain ⟨r', known', now⟩ := (running_follow s p c).mp ⟨r, known, running⟩
                exact stopped r' known' now
              simp only [calls]
              rw [← promises_follow_iff conf.promises p,
                ← promises_update_stopped still fun _ => RpcChild.onExit_honest status]
              refine ⟨fun kept => kept.promises, fun promises => ⟨promises,
                fun d closed running => ?_, conf.replaced⟩⟩
              have before := running_of_update (fun r _ running =>
                absurd running (RpcChild.onExit_not_running r status)) running
              exact conf.freed_of_step told (.inr ⟨c, rfl⟩) closed
                ((running_follow s p d).mp before)

theorem confirmed_spawn_iff {k : ChildId} {binary : String} {pgid : Option ℤ} (sound : s.Sound) (conf : s.Confirmed)
    (taken : step s (.spawn k binary pgid) = some t) : t.Confirmed ↔ s.Unhurried (.spawn k binary pgid) := by
  obtain ⟨cr, r, known, unspawned, fresh, rfl⟩ := spawn_eq_some taken
  constructor
  · intro kept
    have none_beside := kept.replaced
    refine ⟨fun _ _ calls => absurd calls id, nofun, ?_⟩
    rintro _ _ _ cr' ⟨⟩ known'
    obtain rfl := Option.some.inj (known.symm.trans known')
    have both := List.append_eq_nil_iff.mp none_beside
    exact List.map_eq_nil_iff.mp both.2
  · intro unhurried
    refine ⟨fun c r' there => ?_, fun c closed => ?_, ?_⟩
    · by_cases here : c = k
      · subst here
        obtain rfl : r = r' := by simpa using there
        intro resolved
        simp [fresh] at resolved
      · exact conf.promises c r' (by simpa [Function.update_of_ne here] using there)
    · have other : c ≠ k := by
        rintro rfl
        have there := sound c closed
        simp [unspawned] at there
      rintro ⟨r', there, running⟩
      exact conf.freed c closed
        ⟨r', by simpa [Function.update_of_ne other] using there, running⟩
    · have quiet := unhurried.alone k binary pgid cr rfl known
      show s.beside ++ (s.lingering cr).map (fun c => (c, k)) = []
      simp [conf.replaced, quiet]

theorem confirmed_graceTimeout_iff {c : ChildId} {kill : KillReply} (conf : s.Confirmed)
    (taken : step s (.graceTimeout c kill) = some t) : t.Confirmed ↔ s.Unhurried (.graceTimeout c kill) := by
  simp only [PooledChildren.step] at taken
  split at taken
  case isFalse => simp at taken
  case isTrue armed =>
      obtain rfl := Option.some.inj taken
      obtain ⟨r, known, waiting⟩ : ∃ r, s.rpc c = some r ∧ .waiting ∈ r.closes := by
        simpa [Option.any_eq_true] using armed
      have stops (r : RpcChild) (_ : s.rpc c = some r)
          (running : (r.graceTimeout kill).Running) : r.Running :=
        RpcChild.running_of_hardKill running
      rw [conf.update_iff stops]
      have own : s.Running c ↔ r.Running := by simp [Running, known]
      have honest := RpcChild.graceTimeout_honest_iff kill waiting
      constructor
      · intro kept
        refine ⟨fun _ _ calls => absurd calls id, ?_, nofun⟩
        rintro _ _ ⟨⟩
        rw [own]
        exact honest.mp (kept r known)
      · intro unhurried r' known'
        obtain rfl := Option.some.inj (known.symm.trans known')
        refine honest.mpr ?_
        rw [← own]
        exact unhurried.killed c kill rfl

theorem confirmed_exit_iff {c : ChildId} (conf : s.Confirmed)
    (taken : step s (.exit c) = some t) : t.Confirmed ↔ s.Unhurried (.exit c) := by
  simp only [PooledChildren.step] at taken
  split at taken
  case h_2 => simp at taken
  case h_1 q spawned =>
      split at taken
      case isFalse => simp at taken
      case isTrue =>
          obtain rfl := Option.some.inj taken
          have stopped (r : RpcChild) :
              ¬ { r with process := some { q with status := .exited } }.Running := by
            simp [RpcChild.Running, Process.Running]
          exact conf.calm_iff (fun r _ running => absurd running (stopped r))
            (fun r _ _ => stopped r) (fun _ => rfl) (by simp) (by simp)

theorem confirmed_ackTimeout_iff {c : ChildId} {id : String} (conf : s.Confirmed)
    (taken : step s (.ackTimeout c id) = some t) : t.Confirmed ↔ s.Unhurried (.ackTimeout c id) := by
  simp only [PooledChildren.step] at taken
  split at taken
  case isFalse => simp at taken
  case isTrue armed =>
      obtain rfl := Option.some.inj taken
      have stops (r : RpcChild) (_ : s.rpc c = some r)
          (running : (r.ackTimeout id).Running) : r.Running := by
        simpa only [RpcChild.Running, RpcChild.ackTimeout_process] using running
      rw [conf.update_iff stops, unhurried_iff (by simp) (by simp)]
      have own (r : RpcChild) (known : s.rpc c = some r) :
          (r.ackTimeout id).Honest ↔ ¬ (r.closed = true ∧ r.Running) :=
        (conf.promises c r known).ackTimeout_iff (by simpa [known] using armed)
      constructor
      · rintro kept _ r rfl known
        exact (own r known).mp (kept r known)
      · exact fun first r known => (own r known).mpr (first c r rfl known)

theorem confirmed_close_iff {c : ChildId} (conf : s.Confirmed)
    (taken : step s (.close c) = some t) : t.Confirmed ↔ s.Unhurried (.close c) := by
  obtain rfl := Option.some.inj taken
  rw [conf.update_iff fun r _ running => (r.close_running).mp running,
    unhurried_iff (by simp) (by simp)]
  constructor
  · rintro kept _ r rfl known
    exact (conf.promises _ r known).close_iff.mp (kept r known)
  · exact fun first r known => (conf.promises c r known).close_iff.mpr (first c r rfl known)

/-- A step from a state in which every close, every slot and every spawn is
confirmed leads to one exactly if the step is unhurried. -/
theorem confirmed_step_iff {a : Action} (sound : s.Sound) (conf : s.Confirmed)
    (taken : step s a = some t) : t.Confirmed ↔ s.Unhurried a := by
  cases a with
  | pool => exact confirmed_pool_iff conf taken
  | spawn => exact confirmed_spawn_iff sound conf taken
  | exit => exact confirmed_exit_iff conf taken
  | reportExit => exact confirmed_reportExit_iff conf taken
  | send c frame write =>
      have same (r : RpcChild) := RpcChild.send_frame (c := r) frame write
      exact Option.some.inj taken ▸ conf.calm_iff
        (fun r _ running => by simpa only [RpcChild.Running, (same r).2] using running)
        (fun r honest => honest.of_same (same r)) (fun _ => rfl) (by simp) (by simp)
  | response c response =>
      have same (r : RpcChild) := RpcChild.processResponse_frame (c := r) response
      exact Option.some.inj taken ▸ conf.calm_iff
        (fun r _ running => by simpa only [RpcChild.Running, (same r).2] using running)
        (fun r honest => honest.of_same (same r)) (fun _ => rfl) (by simp) (by simp)
  | ackTimeout => exact confirmed_ackTimeout_iff conf taken
  | close => exact confirmed_close_iff conf taken
  | graceTimeout => exact confirmed_graceTimeout_iff conf taken
  | startFailed c kill =>
      exact Option.some.inj taken ▸ conf.calm_iff
        (fun r _ running => RpcChild.running_of_hardKill running)
        (fun r honest => honest.frame rfl RpcChild.running_of_hardKill) (fun _ => rfl)
        (by simp) (by simp)
  | error c error =>
      exact Option.some.inj taken ▸ conf.calm_iff (fun r _ running => running)
        (fun r honest => honest.of_same ⟨rfl, rfl⟩) (fun _ => rfl) (by simp) (by simp)

end Steps

theorem sound_initial (maxChildren : ℕ) : (initial maxChildren).Sound := by
  intro c closed
  simp [initial, ClosablePool.initial, PoolManager.initial] at closed

theorem confirmed_initial (maxChildren : ℕ) : (initial maxChildren).Confirmed where
  promises _ _ known := by simp [initial] at known
  freed _ closed := by simp [initial, ClosablePool.initial, PoolManager.initial] at closed
  replaced := rfl

/-- The runs in which every resolved close, every freed slot and every
replacement is that of a process which has exited or been killed are those
whose steps are all unhurried. -/
theorem confirmed_iff (maxChildren : ℕ) (actions : List Action) :
    machine.Throughout Confirmed (initial maxChildren) actions ↔
      machine.EachStep Unhurried (initial maxChildren) actions :=
  Transition.Machine.throughout_iff_eachStep (sound_initial maxChildren)
    (confirmed_initial maxChildren) (fun _ _ _ sound taken => sound.step taken)
    fun _ _ _ sound conf taken => confirmed_step_iff sound conf taken

/-- The prompt of a leased child is not acknowledged in time, the child is
retired within the grace period, and the conversation gets another one. -/
def timedOutPrompt : List Action :=
  let a : Conversation := ⟨"http", "a"⟩
  [.pool (.pool (.acquire a none)), .spawn 0 "omp" (some 100), .pool (.pool (.spawned 0 .done)),
    .pool (.pool (.attached 0 .done)), .pool (.pool (.finished 0)),
    .pool (.pool (.resume 0 (.acquireNew ⟨a, 0⟩))),
    .send 0 ⟨none, some "prompt", "hello"⟩ (.ok ()), .ackTimeout 0 "1",
    .pool (.pool (.retireChild a 0)), .pool (.pool (.tornDown .retire a.id 0 .childClosed)),
    .pool (.pool (.advance (.evict .retire a.id 0 (.tornDown .childClosed)))),
    .pool (.pool (.advance (.evict .retire a.id 0 (.returned .ok)))),
    .pool (.pool (.acquire a none)), .spawn 1 "omp" (some 200)]

/-- The slot of a running child is freed, and another one is spawned beside
it. -/
theorem timedOutPrompt_frees_a_running_child :
    ∃ s, machine.Reachable Transition.Always s ∧ s.pool.pool.childOf 0 = .closed ∧ s.Running 0 ∧
      s.beside = [(0, 1)] ∧ ¬ s.Confirmed := by
  have run : (machine.exec Transition.Always (initial 1) timedOutPrompt).map
      (fun s => (s.pool.pool.childOf 0, decide (s.Running 0), s.beside)) =
      some (.closed, true, [(0, 1)]) := by decide +kernel
  obtain ⟨s, run, facts⟩ := Option.map_eq_some_iff.mp run
  simp only [Prod.mk.injEq, decide_eq_true_eq] at facts
  obtain ⟨freed, running, beside⟩ := facts
  exact ⟨s, .of_exec ⟨1, Nat.one_pos, rfl⟩ run, freed, running, beside,
    fun conf => conf.freed 0 freed running⟩

end PooledChildren

end OmpBundler.Core
