import OmpBundler.Core.RpcChild
import OmpBundler.Library.Transition

/-!
The children of a supervisor and the registry they share.

Every operation on the registry goes through one promise chain: it is
queued when it is called, and the head of the queue reads the file,
decides, and rewrites it before the next one starts. A registration is
queued by `start`, an unregistration by the exit handler; when the process
exits while its registration is in flight, `start` queues it afterwards.

Closing and killing a child are left out: they bring its exit nearer, and
a process may exit at any time here.
-/

namespace OmpBundler.Core

open Library

/-- A call of one of the operations on the registry. -/
inductive RegistryOperation where
  | register (child : ℕ) (key : String) (entry : ChildRegistryEntry)
  | unregister (child : ℕ) (key : String)
  | sweep
  deriving DecidableEq, Repr

/-- Where an operation stands. -/
inductive JobStage where
  /-- Behind the lock, or first in line and not started. -/
  | queued
  /-- It has read the file and is about to replace it. -/
  | rewriting (next : ChildRegistry) (result : Option SweepResult)
  | settled (result : Except String (Option SweepResult))

/-- A link of the promise chain. -/
structure RegistryJob where
  operation : RegistryOperation
  stage : JobStage

/-- What an operation makes of the registry it has read: the registry to
write, if any, and its result. -/
def RegistryOperation.decision (operation : RegistryOperation) (probe : String → GroupProbe)
    (registry : ChildRegistry) : Except String (Option ChildRegistry × Option SweepResult) :=
  match operation with
  | .register _ key entry => (registerChild key entry registry).map fun next => (next, none)
  | .unregister _ key => .ok (unregisterChild key registry, none)
  | .sweep => (sweepChildRegistry probe registry).map fun r => (some r.2, some r.1)

/-- The supervisor's children and the registry file. -/
structure GroupRegistry where
  path : String
  file : RegistryFile
  /-- The promise chain of the path, the running operation first. -/
  lock : List RegistryJob
  childOf : ℕ → RpcChild
  nextChild : ℕ
  /-- The children with smaller numbers belong to an earlier supervisor
  process: nobody handles their exits. -/
  firstChild : ℕ
  /-- Whether `start` has registered the process group of a child. -/
  registered : ℕ → Bool
  /-- Whether a sweep has dealt with the entry of a child. -/
  swept : ℕ → Bool

namespace GroupRegistry

/-- No child has been started yet; the file is as it is found. -/
def initial (path : String) (file : RegistryFile) : GroupRegistry where
  path := path
  file := file
  lock := []
  childOf _ := .new "" none
  nextChild := 0
  firstChild := 0
  registered _ := false
  swept _ := false

/-! ### Steps -/

/-- Change the object of a child. -/
@[simps]
def setChild (s : GroupRegistry) (n : ℕ) (c : RpcChild) : GroupRegistry :=
  { s with childOf := Function.update s.childOf n c }

/-- Queue an operation behind the lock. -/
@[simps]
def withRegistryLock (s : GroupRegistry) (operation : RegistryOperation) : GroupRegistry :=
  { s with lock := s.lock ++ [⟨operation, .queued⟩] }

/-- Queue the unregistration of a child, if it is configured to register. -/
def unregisterPgid (s : GroupRegistry) (n : ℕ) : GroupRegistry :=
  match (s.childOf n).registryKey with
  | some key => s.withRegistryLock (.unregister n key)
  | none => s

/-- Whether a process that still runs has this process group. -/
def groupInUse (s : GroupRegistry) (pgid : ℤ) : Bool :=
  (List.range s.nextChild).any fun n =>
    ((s.childOf n).process.any fun p => p.status = .running ∧ p.pgid = some pgid)

/-- A child whose process has been spawned joins the others, and its
registration is queued. -/
def join (s : GroupRegistry) (c : RpcChild) (startedAt : ℤ) : GroupRegistry :=
  let t := { s.setChild s.nextChild c with nextChild := s.nextChild + 1 }
  match c.registryEntry startedAt with
  | some (key, entry) => t.withRegistryLock (.register s.nextChild key entry)
  | none => t

/-- Start a new child. The operating system gives its process a group that
no running process has. -/
def start (s : GroupRegistry) (binary : String) (conversationKey : Option String)
    (pgid : Option ℤ) (startedAt : ℤ) : Option GroupRegistry :=
  if pgid.any s.groupInUse then none
  else
    match (RpcChild.new binary conversationKey).start ⟨pgid, .running, false⟩ with
    | .error _ => none
    | .ok c => some (s.join c startedAt)

/-- The file has been read, or could not be: decide. -/
def decided (s : GroupRegistry) (operation : RegistryOperation) (io : Except String Unit)
    (probe : String → GroupProbe) :
    Except String (Option ChildRegistry × Option SweepResult) :=
  match io, readChildRegistry s.path s.file with
  | .error error, _ => .error error
  | .ok _, .error error => .error error
  | .ok _, .ok registry => operation.decision probe registry

/-- An operation has taken effect: remember what it has done for whom. -/
def completed (s : GroupRegistry) : RegistryOperation → Option SweepResult → GroupRegistry
  | .register n _ _, _ => { s with registered := Function.update s.registered n true }
  | .unregister _ _, _ => s
  | .sweep, none => s
  | .sweep, some result =>
      { s with
        swept := fun n => s.swept n || (s.registered n &&
          (s.childOf n).conversationKey.any fun key =>
            decide (key ∈ result.reclaimed ∨ key ∈ result.stale)) }

/-- The running operation reads the file. -/
def read (s : GroupRegistry) (job : RegistryJob) (rest : List RegistryJob)
    (io : Except String Unit) (probe : String → GroupProbe) : Option GroupRegistry :=
  match job.stage with
  | .queued =>
      match s.decided job.operation io probe with
      | .error error => some { s with lock := ⟨job.operation, .settled (.error error)⟩ :: rest }
      | .ok (none, result) =>
          some ({ s with
            lock := ⟨job.operation, .settled (.ok result)⟩ :: rest }.completed job.operation
              result)
      | .ok (some next, result) =>
          some { s with lock := ⟨job.operation, .rewriting next result⟩ :: rest }
  | _ => none

/-- The running operation replaces the file, or fails to. -/
def rewrite (s : GroupRegistry) (job : RegistryJob) (rest : List RegistryJob)
    (io : Except String Unit) : Option GroupRegistry :=
  match job.stage, io with
  | .rewriting next result, .ok _ =>
      some ({ s with
        file := .valid next
        lock := ⟨job.operation, .settled (.ok result)⟩ :: rest }.completed job.operation result)
  | .rewriting _ _, .error error =>
      some { s with lock := ⟨job.operation, .settled (.error error)⟩ :: rest }
  | _, _ => none

/-- The caller of an operation runs on. -/
def resume (s : GroupRegistry) (operation : RegistryOperation)
    (result : Except String (Option SweepResult)) (kill : KillReply) : GroupRegistry :=
  match operation with
  | .register n _ _ =>
      let c := (s.childOf n).registered (result.map fun _ => ()) kill
      let s := s.setChild n c
      if c.phase = .unregistering then s.unregisterPgid n else s
  | .unregister n _ => s.setChild n (s.childOf n).unregistered
  | .sweep => s

/-- The running operation has settled: its caller runs on, and the next
operation may start. -/
def settle (s : GroupRegistry) (job : RegistryJob) (rest : List RegistryJob)
    (kill : KillReply) : Option GroupRegistry :=
  match job.stage with
  | .settled result => some ({ s with lock := rest }.resume job.operation result kill)
  | _ => none

/-- The supervisor is told that the process of a child has exited. -/
def reportExit (s : GroupRegistry) (n : ℕ) (status : ExitStatus) : GroupRegistry :=
  let c := s.childOf n
  let s := s.setChild n (c.onExit status)
  if c.unregistersOnExit then s.unregisterPgid n else s

/-- One uninterrupted piece of code, or a move of the environment. -/
inductive Action where
  | start (binary : String) (conversationKey : Option String) (pgid : Option ℤ)
      (startedAt : ℤ)
  | sweep
  | read (io : Except String Unit) (probe : String → GroupProbe)
  | rewrite (io : Except String Unit)
  | settle (kill : KillReply)
  /-- The process of a child exits. -/
  | exit (child : ℕ)
  /-- The exit event of a child. -/
  | reportExit (child : ℕ) (status : ExitStatus)
  /-- The supervisor process dies and another one takes over the registry. -/
  | restart

/-- What an action does; `none` when nothing waits for it. -/
def step (s : GroupRegistry) : Action → Option GroupRegistry
  | .start binary conversationKey pgid startedAt =>
      s.start binary conversationKey pgid startedAt
  | .sweep => some (s.withRegistryLock .sweep)
  | .read io probe =>
      match s.lock with
      | job :: rest => s.read job rest io probe
      | [] => none
  | .rewrite io =>
      match s.lock with
      | job :: rest => s.rewrite job rest io
      | [] => none
  | .settle kill =>
      match s.lock with
      | job :: rest => s.settle job rest kill
      | [] => none
  | .exit n =>
      match (s.childOf n).process with
      | some p =>
          if p.status = .running then
            some (s.setChild n { s.childOf n with process := some { p with status := .exited } })
          else none
      | none => none
  | .reportExit n status =>
      match (s.childOf n).process with
      | some p =>
          if p.status = .exited ∧ s.firstChild ≤ n then some (s.reportExit n status)
          else none
      | none => none
  | .restart => some { s with lock := [], firstChild := s.nextChild }

/-- The children and the registry as a machine: it may find any file. -/
def machine : Transition.Machine GroupRegistry Action where
  init s := ∃ path file, s = initial path file
  step := step

/-! ### What a step can do -/

theorem decided_eq_ok {s : GroupRegistry} {operation : RegistryOperation}
    {io : Except String Unit} {probe : String → GroupProbe}
    {outcome : Option ChildRegistry × Option SweepResult}
    (decided : s.decided operation io probe = .ok outcome) :
    ∃ registry, readChildRegistry s.path s.file = .ok registry ∧
      operation.decision probe registry = .ok outcome := by
  unfold GroupRegistry.decided at decided
  split at decided
  case h_1 | h_2 => simp at decided
  case h_3 registry read => exact ⟨registry, read, decided⟩

/-- One constructor for each way a step can go, with what the step has
checked. -/
inductive Stepped (s : GroupRegistry) : Action → GroupRegistry → Prop
  | start {binary : String} {conversationKey : Option String} {pgid : Option ℤ}
      (c : RpcChild) (startedAt : ℤ) :
      Stepped s (.start binary conversationKey pgid startedAt) (s.join c startedAt)
  | sweep : Stepped s .sweep (s.withRegistryLock .sweep)
  | readFailed {job : RegistryJob} {rest : List RegistryJob} {io : Except String Unit}
      {probe : String → GroupProbe} (error : String) (lock : s.lock = job :: rest) :
      Stepped s (.read io probe)
        { s with lock := ⟨job.operation, .settled (.error error)⟩ :: rest }
  | readDone {job : RegistryJob} {rest : List RegistryJob} {io : Except String Unit}
      {probe : String → GroupProbe} {registry : ChildRegistry} {result : Option SweepResult}
      (lock : s.lock = job :: rest) (read : readChildRegistry s.path s.file = .ok registry)
      (decision : job.operation.decision probe registry = .ok (none, result)) :
      Stepped s (.read io probe)
        ({ s with lock := ⟨job.operation, .settled (.ok result)⟩ :: rest }.completed
          job.operation result)
  | readRewriting {job : RegistryJob} {rest : List RegistryJob} {io : Except String Unit}
      {probe : String → GroupProbe} {registry next : ChildRegistry} {result : Option SweepResult}
      (lock : s.lock = job :: rest) (read : readChildRegistry s.path s.file = .ok registry)
      (decision : job.operation.decision probe registry = .ok (some next, result)) :
      Stepped s (.read io probe)
        { s with lock := ⟨job.operation, .rewriting next result⟩ :: rest }
  | rewritten {job : RegistryJob} {rest : List RegistryJob} {next : ChildRegistry}
      {result : Option SweepResult} (lock : s.lock = job :: rest)
      (stage : job.stage = .rewriting next result) :
      Stepped s (.rewrite (.ok ()))
        ({ s with
          file := .valid next
          lock := ⟨job.operation, .settled (.ok result)⟩ :: rest }.completed job.operation
            result)
  | rewriteFailed {job : RegistryJob} {rest : List RegistryJob} (error : String)
      (lock : s.lock = job :: rest) :
      Stepped s (.rewrite (.error error))
        { s with lock := ⟨job.operation, .settled (.error error)⟩ :: rest }
  | settle {job : RegistryJob} {rest : List RegistryJob} {kill : KillReply}
      (result : Except String (Option SweepResult)) (lock : s.lock = job :: rest) :
      Stepped s (.settle kill) ({ s with lock := rest }.resume job.operation result kill)
  | exit {n : ℕ} {p : Process} (spawned : (s.childOf n).process = some p) :
      Stepped s (.exit n)
        (s.setChild n { s.childOf n with process := some { p with status := .exited } })
  | reportExit (n : ℕ) (status : ExitStatus) :
      Stepped s (.reportExit n status) (s.reportExit n status)
  | restart : Stepped s .restart { s with lock := [], firstChild := s.nextChild }

theorem step_cases {s t : GroupRegistry} {a : Action} (taken : step s a = some t) :
    Stepped s a t := by
  cases a with
  | start binary conversationKey pgid startedAt =>
      simp only [step, GroupRegistry.start] at taken
      split at taken
      case isTrue => simp at taken
      case isFalse =>
          split at taken
          case h_1 => simp at taken
          case h_2 c _ => exact Option.some.inj taken ▸ .start c startedAt
  | sweep => exact Option.some.inj taken ▸ .sweep
  | read io probe =>
      simp only [step] at taken
      split at taken
      case h_2 => simp at taken
      case h_1 job rest lock =>
          simp only [GroupRegistry.read] at taken
          split at taken
          case h_2 => simp at taken
          case h_1 =>
              split at taken
              case h_1 error _ => exact Option.some.inj taken ▸ .readFailed error lock
              case h_2 result decided =>
                  obtain ⟨registry, read, decision⟩ := decided_eq_ok decided
                  exact Option.some.inj taken ▸ .readDone lock read decision
              case h_3 next result decided =>
                  obtain ⟨registry, read, decision⟩ := decided_eq_ok decided
                  exact Option.some.inj taken ▸ .readRewriting lock read decision
  | rewrite io =>
      simp only [step] at taken
      split at taken
      case h_2 => simp at taken
      case h_1 job rest lock =>
          simp only [GroupRegistry.rewrite] at taken
          split at taken
          case h_1 next result stage => exact Option.some.inj taken ▸ .rewritten lock stage
          case h_2 error _ => exact Option.some.inj taken ▸ .rewriteFailed error lock
          case h_3 => simp at taken
  | settle kill =>
      simp only [step] at taken
      split at taken
      case h_2 => simp at taken
      case h_1 job rest lock =>
          simp only [GroupRegistry.settle] at taken
          split at taken
          case h_1 result _ => exact Option.some.inj taken ▸ .settle result lock
          case h_2 => simp at taken
  | exit n =>
      simp only [step] at taken
      split at taken
      case h_2 => simp at taken
      case h_1 p spawned =>
          split at taken
          case isTrue => exact Option.some.inj taken ▸ .exit spawned
          case isFalse => simp at taken
  | reportExit n status =>
      simp only [step] at taken
      split at taken
      case h_2 => simp at taken
      case h_1 p spawned =>
          split at taken
          case isTrue => exact Option.some.inj taken ▸ .reportExit n status
          case isFalse => simp at taken
  | restart => exact Option.some.inj taken ▸ .restart

end GroupRegistry

end OmpBundler.Core
