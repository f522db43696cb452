import OmpBundler.Core.ChildTeardown

/-!
The children of the pool and the registry of their process groups.

The factory runs within the code of the pool that begins a creation: by the
time that code returns, the process has been spawned and its registration
queued. The exit handler tells the pool first and queues the unregistration
afterwards, so a creation that the exit makes room for comes in between.

The calls on the registry go through one promise chain and are carried out
one after another. `past` keeps those that are done, so that `calls` lists
all of them in the order in which they were made. What the pool knows of a
child and what the registry has done for it meet in `succeeded`: a child
with another one of the same conversation that the pool took for dead when
the child was created.
-/

namespace OmpBundler.Core

open Library

/-- A call of `registerChild` or `unregisterChild`, with the child it is
made for. -/
inductive RegistryCall where
  | register (child : ChildId) (key : String) (entry : ChildRegistryEntry)
  | unregister (child : ChildId) (key : String)
  deriving DecidableEq, Repr

/-- What a call makes of the registry it has read: the registry to write, if
any. -/
def RegistryCall.decide : RegistryCall → ChildRegistry → Except String (Option ChildRegistry)
  | .register _ key entry, registry => registerChild key entry registry
  | .unregister _ key, registry => .ok (unregisterChild key registry)

/-- Where a call stands. -/
inductive CallStage where
  /-- Behind the lock, or first in line and not started. -/
  | queued
  /-- It has read the file and is about to replace it. -/
  | rewriting (next : ChildRegistry)
  | settled (result : Except String Unit)

/-- A link of the promise chain. -/
structure LockedCall where
  call : RegistryCall
  stage : CallStage

/-- How the operating system answers a spawn. -/
structure SpawnReply where
  binary : String
  pgid : Option ℤ
  startedAt : ℤ

namespace RpcChild

/-- `start` has resolved with the ready frame. -/
def started (r : RpcChild) : Bool :=
  !r.registering && decide (r.handshake = .ready) &&
    match r.phase with
    | .registering | .handshaking => true
    | _ => false

/-- `start` has thrown. -/
def failed (r : RpcChild) : Bool :=
  match r.phase with
  | .threw _ => true
  | _ => false

/-- The supervisor has been told of the exit. -/
def reported (r : RpcChild) : Bool := r.process.any fun p => p.status = .reported

end RpcChild

namespace PooledChildren

/-- The exit of the child has been reported. -/
def Reported (s : PooledChildren) (c : ChildId) : Prop := (s.rpc c).any RpcChild.reported

instance (s : PooledChildren) (c : ChildId) : Decidable (s.Reported c) :=
  inferInstanceAs (Decidable (_ = _))

/-- The pool takes a child that it has had for dead. -/
def TakenForDead (s : PooledChildren) (c : ChildId) : Prop :=
  (s.pool.pool.childOf c = .closed ∨ s.pool.pool.childOf c = .exited) ∧
    (s.rpc c).any fun r => !r.registering && !r.failed

instance (s : PooledChildren) (c : ChildId) : Decidable (s.TakenForDead c) :=
  inferInstanceAs (Decidable (_ ∧ _))

/-- The key of the conversation of a creation. -/
def keyOf (s : PooledChildren) (k : ChildId) : Option String :=
  (s.pool.pool.creationOf k).map fun cr => cr.conversation.id

/-- The children of the same conversation that the pool takes for dead. -/
def predecessors (s : PooledChildren) (k : ChildId) : List ChildId :=
  (List.range s.pool.pool.nextChild).filter fun c =>
    c ≠ k ∧ s.keyOf c = s.keyOf k ∧ s.TakenForDead c

/-- The creations that a step has begun; their processes are still to be
spawned. -/
def newcomers (s t : PooledChildren) : List ChildId :=
  (List.range' s.pool.pool.nextChild (t.pool.pool.nextChild - s.pool.pool.nextChild)).filter
    fun k => (t.rpc k).isNone

end PooledChildren

/-- The pool with its children and their registry. -/
structure RegisteredPool where
  children : PooledChildren
  path : String
  file : RegistryFile
  /-- The promise chain of the path, the running call first. -/
  lock : List LockedCall
  /-- The calls that have settled. -/
  past : List RegistryCall
  /-- The child whose registration under the key is the last to have taken
  effect, if no unregistration has since. -/
  holder : String → Option ChildId
  /-- A predecessor and its successor. -/
  succeeded : List (ChildId × ChildId)
  /-- The predecessor because of whose entry a successor was refused, and the
  successor. -/
  refused : List (ChildId × ChildId)

namespace RegisteredPool

/-- A new pool, with the file as it is found. -/
def initial (maxChildren : ℕ) (path : String) (file : RegistryFile) : RegisteredPool where
  children := .initial maxChildren
  path := path
  file := file
  lock := []
  past := []
  holder _ := none
  succeeded := []
  refused := []

/-- The calls on the registry in the order in which they were made. -/
def calls (s : RegisteredPool) : List RegistryCall := s.past ++ s.lock.map LockedCall.call

/-! ### Steps -/

/-- Queue a call behind the lock. -/
@[simps]
def withRegistryLock (s : RegisteredPool) (call : RegistryCall) : RegisteredPool :=
  { s with lock := s.lock ++ [⟨call, .queued⟩] }

/-- Queue the unregistration of a child, if it is configured to register. -/
def unregisterPgid (s : RegisteredPool) (c : ChildId) : RegisteredPool :=
  match (s.children.rpc c).bind RpcChild.registryKey with
  | some key => s.withRegistryLock (.unregister c key)
  | none => s

/-- Queue the registration of a child, if it is configured to register. -/
def registerPgid (s : RegisteredPool) (k : ChildId) (startedAt : ℤ) : RegisteredPool :=
  match (s.children.rpc k).bind fun r => r.registryEntry startedAt with
  | some (key, entry) => s.withRegistryLock (.register k key entry)
  | none => s

/-- The factory of a creation, up to the `await` of `start`. -/
def spawnOne (spawn : ChildId → SpawnReply) (s : RegisteredPool) (k : ChildId) : RegisteredPool :=
  match s.children.spawn k (spawn k).binary (spawn k).pgid with
  | none => s
  | some t => { s with children := t }.registerPgid k (spawn k).startedAt

/-- The children go on to `t`; the creations that begin have predecessors. -/
@[simps]
def follow (s : RegisteredPool) (t : PooledChildren) : RegisteredPool :=
  { s with
    children := t
    succeeded := s.succeeded ++
      (s.children.newcomers t).flatMap fun k => (t.predecessors k).map fun c => (c, k) }

/-- The end of the exit handler. -/
def unregisterOnExit (s : RegisteredPool) (c : ChildId) : RegisteredPool :=
  if (s.children.rpc c).any RpcChild.unregistersOnExit then s.unregisterPgid c else s

/-- The pool is given a child by a `start` that has resolved, and spawns its
children by itself. -/
def admits (s : RegisteredPool) : PooledChildren.Action → Bool
  | .spawn .. => false
  | .pool (.pool (.spawned k .done)) => (s.children.rpc k).any RpcChild.started
  | _ => true

/-- The code of the pool and of its children, with the factories that it
calls. -/
def childStep (s : RegisteredPool) (action : PooledChildren.Action)
    (spawn : ChildId → SpawnReply) : Option RegisteredPool :=
  if s.admits action then
    (PooledChildren.step s.children action).map fun t =>
      let s' := (s.children.newcomers t).foldl (spawnOne spawn) (s.follow t)
      match action with
      | .reportExit c _ => s'.unregisterOnExit c
      | _ => s'
  else none

/-- A call has taken effect. -/
def completed (s : RegisteredPool) : RegistryCall → RegisteredPool
  | .register k key _ => { s with holder := Function.update s.holder key (some k) }
  | .unregister _ key => { s with holder := Function.update s.holder key none }

/-- A call is refused by the entry that it has found. -/
def refuse (s : RegisteredPool) : RegistryCall → RegisteredPool
  | .register k key _ =>
      { s with refused := s.refused ++
          ((s.holder key).toList.filter fun c => (c, k) ∈ s.succeeded).map fun c => (c, k) }
  | .unregister .. => s

/-- The running call reads the file. -/
def read (s : RegisteredPool) (job : LockedCall) (rest : List LockedCall)
    (io : Except String Unit) : Option RegisteredPool :=
  match job.stage with
  | .queued =>
      match io, readChildRegistry s.path s.file with
      | .error error, _ => some { s with lock := ⟨job.call, .settled (.error error)⟩ :: rest }
      | .ok _, .error error => some { s with lock := ⟨job.call, .settled (.error error)⟩ :: rest }
      | .ok _, .ok registry =>
          match job.call.decide registry with
          | .error error =>
              some ({ s with lock := ⟨job.call, .settled (.error error)⟩ :: rest }.refuse job.call)
          | .ok none => some ({ s with lock := ⟨job.call, .settled (.ok ())⟩ :: rest }.completed job.call)
          | .ok (some next) => some { s with lock := ⟨job.call, .rewriting next⟩ :: rest }
  | _ => none

/-- The running call replaces the file, or fails to. -/
def rewrite (s : RegisteredPool) (job : LockedCall) (rest : List LockedCall)
    (io : Except String Unit) : Option RegisteredPool :=
  match job.stage, io with
  | .rewriting next, .ok _ =>
      some ({ s with
        file := .valid next
        lock := ⟨job.call, .settled (.ok ())⟩ :: rest }.completed job.call)
  | .rewriting _, .error error =>
      some { s with lock := ⟨job.call, .settled (.error error)⟩ :: rest }
  | _, _ => none

/-- The caller runs on: `start` after its registration, or after the
unregistration of a process that has exited meanwhile. -/
def resume (s : RegisteredPool) (result : Except String Unit) (kill : KillReply) :
    RegistryCall → RegisteredPool
  | .register k _ _ =>
      let s := { s with children := s.children.update k fun r => r.registered result kill }
      if (s.children.rpc k).any fun r => r.phase = .unregistering then s.unregisterPgid k else s
  | .unregister c _ => { s with children := s.children.update c RpcChild.unregistered }

/-- The running call has settled, and the next one may start. -/
def settle (s : RegisteredPool) (job : LockedCall) (rest : List LockedCall) (kill : KillReply) :
    Option RegisteredPool :=
  match job.stage with
  | .settled result =>
      some ({ s with lock := rest, past := s.past ++ [job.call] }.resume result kill job.call)
  | _ => none

/-- One uninterrupted piece of code, or a move of the environment. -/
inductive Action where
  | child (action : PooledChildren.Action) (spawn : ChildId → SpawnReply)
  | ready (child : ChildId)
  | readyTimeout (child : ChildId) (kill : KillReply)
  | read (io : Except String Unit)
  | rewrite (io : Except String Unit)
  | settle (kill : KillReply)

/-- What an action does; `none` when nothing waits for it. -/
def step (s : RegisteredPool) : Action → Option RegisteredPool
  | .child action spawn => s.childStep action spawn
  | .ready c => some { s with children := s.children.update c RpcChild.onReady }
  | .readyTimeout c kill =>
      some { s with children := s.children.update c fun r => r.readyTimeout kill }
  | .read io =>
      match s.lock with
      | job :: rest => s.read job rest io
      | [] => none
  | .rewrite io =>
      match s.lock with
      | job :: rest => s.rewrite job rest io
      | [] => none
  | .settle kill =>
      match s.lock with
      | job :: rest => s.settle job rest kill
      | [] => none

/-- The pool with its registry as a machine: it may find any file. -/
def machine : Transition.Machine RegisteredPool Action where
  init s := ∃ maxChildren path file, 0 < maxChildren ∧ s = initial maxChildren path file
  step := step

/-! ### What is to hold -/

/-- The unregistration of a predecessor comes before the registration of its
successor, and no successor has been refused because of the entry of its
predecessor. -/
structure InSuccession (s : RegisteredPool) : Prop where
  ordered : ∀ c k, (c, k) ∈ s.succeeded → ∀ before after key entry entry',
    s.calls = before ++ .register k key entry :: after → .register c key entry' ∈ before →
      .unregister c key ∈ before
  accepted : s.refused = []

/-- What the code does not test: when a creation begins, the exits of the
dead children of its conversation have been reported before, and the file
operations of an unregistration succeed. -/
def ExitsFirst (s : RegisteredPool) : Action → Prop
  | .child action _ =>
      ∀ t ∈ PooledChildren.step s.children action, ∀ k ∈ s.children.newcomers t,
        ∀ c ∈ t.predecessors k, s.children.Reported c
  | .read io | .rewrite io =>
      ∀ job ∈ s.lock.head?, ∀ c key, job.call = .unregister c key → io = .ok ()
  | _ => True

end RegisteredPool

end OmpBundler.Core
