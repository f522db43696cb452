import OmpBundler.Core.PoolRegistration

/-!
How a child stands with the registry.

All that the registry needs to know of a child is its key, how far its
registration is, and whether its exit has been reported: its enrolment.
Most methods of the child leave that as it is, and so do the steps of the
pool; a registration that settles and an exit that is reported change it,
each for one child.
-/

namespace OmpBundler.Core

open Library

/-- What the registry needs to know of a child. -/
structure Enrolment where
  key : Option String
  registering : Bool
  failed : Bool
  exitDuringRegister : Bool
  reported : Bool
  deriving DecidableEq

namespace RpcChild

/-- How the child stands with the registry. -/
def enrolment (r : RpcChild) : Enrolment where
  key := r.registryKey
  registering := r.registering
  failed := r.failed
  exitDuringRegister := r.exitDuringRegister
  reported := r.reported

section Frame

variable (r : RpcChild)

theorem registryKey_congr {r s : RpcChild} (key : s.conversationKey = r.conversationKey)
    (binary : s.binary = r.binary) (pgid : s.pgid = r.pgid) : s.registryKey = r.registryKey := by
  rw [registryKey, registryKey, registryEntry, registryEntry, key, binary, pgid]

theorem reported_hardKill (reply : KillReply) : (r.hardKill reply).reported = r.reported := by
  cases p : r.process <;> simp [reported, p]

@[simp] theorem enrolment_hardKill (reply : KillReply) :
    (r.hardKill reply).enrolment = r.enrolment := by
  have key := registryKey_congr (r := r) (s := r.hardKill reply) rfl rfl (r.hardKill_pgid reply)
  simp only [enrolment, key, reported_hardKill]
  rfl

@[simp] theorem enrolment_close : r.close.enrolment = r.enrolment := by
  unfold close
  split
  · rfl
  · dsimp only
    split <;> rfl

@[simp] theorem enrolment_ackTimeout (id : String) : (r.ackTimeout id).enrolment = r.enrolment := by
  unfold ackTimeout
  split
  · rfl
  · exact enrolment_close _

@[simp] theorem enrolment_graceTimeout (kill : KillReply) :
    (r.graceTimeout kill).enrolment = r.enrolment :=
  r.enrolment_hardKill kill

@[simp] theorem enrolment_send (frame : CommandFrame) (write : Except String Unit) :
    (r.send frame write).enrolment = r.enrolment := by
  unfold send
  dsimp only
  split
  · rfl
  split
  · rfl
  split <;> split <;> rfl

@[simp] theorem enrolment_processResponse (response : RpcResponseFrame) :
    (r.processResponse response).enrolment = r.enrolment := by
  unfold processResponse
  split
  · rfl
  split <;> rfl

@[simp] theorem enrolment_onError (error : String) : (r.onError error).enrolment = r.enrolment := rfl

@[simp] theorem enrolment_onReady : r.onReady.enrolment = r.enrolment := by
  unfold onReady
  split <;> rfl

@[simp] theorem enrolment_readyTimeout (kill : KillReply) :
    (r.readyTimeout kill).enrolment = r.enrolment := by
  unfold readyTimeout
  split
  · exact r.enrolment_hardKill kill
  · rfl

/-- The process exits, and nobody has been told. -/
theorem enrolment_exit {p : Process} (spawned : r.process = some p) (running : p.status = .running) :
    { r with process := some { p with status := .exited } }.enrolment = r.enrolment := by
  have key := registryKey_congr (r := r)
    (s := { r with process := some { p with status := .exited } }) rfl rfl (by simp [pgid, spawned])
  simp only [enrolment, key]
  simp [reported, spawned, running, failed]

/-- `start` after an unregistration. -/
@[simp] theorem enrolment_unregistered : r.unregistered.enrolment = r.enrolment := by
  unfold unregistered
  split
  case isTrue phase => simp [enrolment, failed, phase, registryKey, registryEntry, reported, pgid]
  case isFalse => rfl

/-- `start` after a registration that has succeeded. -/
theorem enrolment_registered (kill : KillReply) :
    (r.registered (.ok ()) kill).enrolment = { r.enrolment with registering := false, failed := false } := by
  cases during : r.exitDuringRegister <;>
    simp [registered, enrolment, failed, during, registryKey, registryEntry, reported, pgid]

/-- `start` after one that has failed. -/
theorem enrolment_registered_error (error : String) (kill : KillReply) :
    (r.registered (.error error) kill).enrolment =
      { r.enrolment with registering := false, failed := true } := by
  have same := r.enrolment_hardKill kill
  simp only [enrolment, Enrolment.mk.injEq] at same
  obtain ⟨key, _, _, _, reported⟩ := same
  simp only [registered, enrolment, failed, Enrolment.mk.injEq, true_and]
  exact ⟨key, rfl, reported⟩

/-- The exit is reported. -/
theorem enrolment_onExit (status : ExitStatus) {p : Process} (spawned : r.process = some p) :
    (r.onExit status).enrolment = { r.enrolment with
      exitDuringRegister := r.exitDuringRegister || r.registering, reported := true } := by
  cases closed : r.closed <;>
    simp [onExit, closed, enrolment, failed, registryKey, registryEntry, reported, pgid, spawned]

end Frame

end RpcChild

namespace PooledChildren

/-- How a child stands with the registry, if it has been spawned. -/
def enrolmentOf (s : PooledChildren) (c : ChildId) : Option Enrolment :=
  (s.rpc c).map RpcChild.enrolment

section Frame

variable {s t : PooledChildren}

theorem enrolmentOf_update {c : ChildId} {f : RpcChild → RpcChild}
    (same : ∀ r, s.rpc c = some r → (f r).enrolment = r.enrolment) (d : ChildId) :
    (s.update c f).enrolmentOf d = s.enrolmentOf d := by
  by_cases here : d = c
  · subst here
    cases known : s.rpc d with
    | none => simp [enrolmentOf, known]
    | some r => simp [enrolmentOf, known, same r known]
  · simp [enrolmentOf, Function.update_of_ne here]

theorem enrolmentOf_follow (p : ClosablePool) (d : ChildId) :
    (s.follow p).enrolmentOf d = s.enrolmentOf d := by
  simp only [enrolmentOf, follow_rpc]
  split
  · cases s.rpc d <;> simp
  · rfl

/-- What the pool does when it is told of an exit. -/
theorem told_same (s : PooledChildren) (a : ClosablePool.Action) (d : ChildId) :
    (((ClosablePool.step s.pool a).map s.follow).getD s).enrolmentOf d = s.enrolmentOf d ∧
      ((((ClosablePool.step s.pool a).map s.follow).getD s).rpc d).bind RpcChild.process =
        (s.rpc d).bind RpcChild.process := by
  cases ClosablePool.step s.pool a with
  | none => exact ⟨rfl, rfl⟩
  | some p =>
      refine ⟨enrolmentOf_follow p d, ?_⟩
      simp only [Option.map_some, Option.getD_some, follow_rpc]
      split
      · cases s.rpc d <;> simp
      · rfl

theorem enrolmentOf_reportExit {c : ChildId} {status : ExitStatus}
    (taken : step s (.reportExit c status) = some t) :
    ∃ e, s.enrolmentOf c = some e ∧ e.reported = false ∧
      t.enrolmentOf c = some { e with
        exitDuringRegister := e.exitDuringRegister || e.registering, reported := true } ∧
      ∀ d, d ≠ c → t.enrolmentOf d = s.enrolmentOf d := by
  simp only [PooledChildren.step] at taken
  split at taken
  case h_2 => simp at taken
  case h_1 p spawned =>
      split at taken
      case isFalse => simp at taken
      case isTrue exited =>
          obtain rfl := Option.some.inj taken
          have same := told_same s (.pool (.exit c))
          generalize ((ClosablePool.step s.pool (.pool (.exit c))).map s.follow).getD s = u at same
          obtain ⟨r, known, running⟩ := Option.bind_eq_some_iff.mp ((same c).2.trans spawned)
          have before : s.enrolmentOf c = some r.enrolment := by
            rw [← (same c).1, enrolmentOf, known, Option.map_some]
          refine ⟨r.enrolment, before, ?_, ?_, fun d other => ?_⟩
          · simp [RpcChild.enrolment, RpcChild.reported, running, exited]
          · have after := r.enrolment_onExit status running
            simp only [enrolmentOf, update_rpc, Function.update_self, known, Option.map_some, after]
            rfl
          · rw [← (same d).1]
            simp only [enrolmentOf, update_rpc, Function.update_of_ne other]

/-- An exit that is reported changes the standing of its child, and nothing
else does. -/
theorem enrolmentOf_step {a : Action} (taken : step s a = some t)
    (noSpawn : ∀ k binary pgid, a ≠ .spawn k binary pgid) :
    (∀ c status, a ≠ .reportExit c status) ∧ (∀ d, t.enrolmentOf d = s.enrolmentOf d) ∨
      ∃ c status e, a = .reportExit c status ∧ s.enrolmentOf c = some e ∧ e.reported = false ∧
        t.enrolmentOf c = some { e with
          exitDuringRegister := e.exitDuringRegister || e.registering, reported := true } ∧
        ∀ d, d ≠ c → t.enrolmentOf d = s.enrolmentOf d := by
  cases a with
  | pool a =>
      simp only [PooledChildren.step] at taken
      split at taken
      case isFalse => simp at taken
      case isTrue =>
          obtain ⟨p, _, rfl⟩ := Option.map_eq_some_iff.mp taken
          exact .inl ⟨by simp, enrolmentOf_follow p⟩
  | spawn k binary pgid => exact absurd rfl (noSpawn k binary pgid)
  | exit c =>
      refine .inl ⟨by simp, ?_⟩
      simp only [PooledChildren.step] at taken
      split at taken
      case h_2 => simp at taken
      case h_1 p spawned =>
          split at taken
          case isFalse => simp at taken
          case isTrue running =>
              obtain rfl := Option.some.inj taken
              refine enrolmentOf_update fun r known => ?_
              exact r.enrolment_exit (by simpa [known] using spawned) running
  | reportExit c status =>
      obtain ⟨e, before, unreported, after, others⟩ := enrolmentOf_reportExit taken
      exact .inr ⟨c, status, e, rfl, before, unreported, after, others⟩
  | send c frame write =>
      obtain rfl := Option.some.inj taken
      exact .inl ⟨by simp, enrolmentOf_update fun r _ => r.enrolment_send frame write⟩
  | response c response =>
      obtain rfl := Option.some.inj taken
      exact .inl ⟨by simp, enrolmentOf_update fun r _ => r.enrolment_processResponse response⟩
  | ackTimeout c id =>
      simp only [PooledChildren.step] at taken
      split at taken
      case isFalse => simp at taken
      case isTrue =>
          obtain rfl := Option.some.inj taken
          exact .inl ⟨by simp, enrolmentOf_update fun r _ => r.enrolment_ackTimeout id⟩
  | close c =>
      obtain rfl := Option.some.inj taken
      exact .inl ⟨by simp, enrolmentOf_update fun r _ => r.enrolment_close⟩
  | graceTimeout c kill =>
      simp only [PooledChildren.step] at taken
      split at taken
      case isFalse => simp at taken
      case isTrue =>
          obtain rfl := Option.some.inj taken
          exact .inl ⟨by simp, enrolmentOf_update fun r _ => r.enrolment_graceTimeout kill⟩
  | startFailed c kill =>
      obtain rfl := Option.some.inj taken
      exact .inl ⟨by simp, enrolmentOf_update fun r _ => r.enrolment_hardKill kill⟩
  | error c error =>
      obtain rfl := Option.some.inj taken
      exact .inl ⟨by simp, enrolmentOf_update fun r _ => r.enrolment_onError error⟩

/-- A process that has been spawned is registering, if it is configured to
register. -/
theorem enrolmentOf_spawn {k : ChildId} {binary : String} {pgid : Option ℤ}
    (taken : s.spawn k binary pgid = some t) :
    s.enrolmentOf k = none ∧ (∀ d, d ≠ k → t.enrolmentOf d = s.enrolmentOf d) ∧
      ∃ r, t.rpc k = some r ∧
        r.enrolment = ⟨r.registryKey, r.registryKey.isSome, false, false, false⟩ := by
  unfold PooledChildren.spawn at taken
  split at taken
  case h_2 => simp at taken
  case h_1 cr _ unspawned =>
      split at taken
      case isFalse => simp at taken
      case isTrue =>
          split at taken
          case h_2 => simp at taken
          case h_1 r started =>
              obtain rfl := Option.some.inj taken
              refine ⟨by simp [enrolmentOf, unspawned], fun d other => ?_, r, by simp, ?_⟩
              · simp only [enrolmentOf, Function.update_of_ne other]
              · simp only [RpcChild.start, RpcChild.new] at started
                obtain rfl := Except.ok.inj started
                rfl

end Frame

end PooledChildren

theorem RpcChild.registryKey_of_entry {r : RpcChild} {startedAt : ℤ} {key : String}
    {entry : ChildRegistryEntry} (configured : r.registryEntry startedAt = some (key, entry)) :
    r.registryKey = some key := by
  unfold registryEntry at configured
  split at configured
  case h_2 => simp at configured
  case h_1 k g known group =>
      split at configured
      case isTrue => simp at configured
      case isFalse filled =>
          simp only [Option.some.injEq, Prod.mk.injEq] at configured
          obtain ⟨rfl, _⟩ := configured
          simp [registryKey, registryEntry, known, group, filled]

end OmpBundler.Core
