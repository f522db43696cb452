import Mathlib.Tactic.Simps.Basic
import OmpBundler.Core.ChildReaper

/-!
The wrapper around one `omp --mode rpc` process.

An `RpcChild` is the object of the source together with the process that
it has spawned. A method is the code that runs without interruption: the
body of `start`, `send` and `close` up to their first `await`, and the
callbacks of the process and of the timers. What the operating system
answers is an argument of the callback.
-/

namespace OmpBundler.Core

open Library

/-- What has become of a process. -/
inductive ProcessStatus where
  | running
  | exited
  /-- It has exited, and the supervisor has been told. -/
  | reported
  deriving DecidableEq, Repr

/-- The process that `start` has spawned. -/
structure Process where
  /-- Its process group; there is none off Unix or when the spawn failed. -/
  pgid : Option ℤ
  status : ProcessStatus
  /-- It has been sent SIGKILL. -/
  killed : Bool
  deriving DecidableEq, Repr

/-- A command frame: its own `id` and `type`, if any, and the rest of it. -/
structure CommandFrame where
  id : Option String
  type : Option String
  payload : String
  deriving DecidableEq, Repr

/-- A response frame, correlated by `id`. -/
structure RpcResponseFrame where
  id : Option String
  command : String
  success : Bool
  data : Option String
  error : Option String
  code : Option String
  deriving DecidableEq, Repr

/-- A command whose response has not arrived: its timer is armed. -/
structure PendingResponse where
  command : String
  /-- The number of the `send` that waits for it. -/
  call : ℕ
  deriving DecidableEq, Repr

/-- The promise of the ready frame. -/
inductive Handshake where
  | waiting
  | ready
  | failed (error : String)
  deriving DecidableEq, Repr

/-- Where `start` stands. -/
inductive StartPhase where
  | notStarted
  /-- Waiting for the registration to be durable. -/
  | registering
  /-- The process has exited meanwhile: waiting for its unregistration. -/
  | unregistering
  /-- Waiting for the ready frame. -/
  | handshaking
  | threw (error : String)
  deriving DecidableEq, Repr

/-- The promise of one call of `close`. -/
inductive ClosePromise where
  /-- Waiting for the exit, with the grace timer armed. -/
  | waiting
  | resolved
  deriving DecidableEq, Repr

/-- How a process ended. -/
structure ExitStatus where
  code : Option ℤ
  signal : Option String
  deriving DecidableEq, Repr

/-- How the operating system answers a signal: it is delivered, the group
is gone, or the call throws. -/
inductive KillReply where
  | delivered
  | gone
  | failed
  deriving DecidableEq, Repr

/-- A wrapped child process. -/
structure RpcChild where
  binary : String
  /-- The key under which the process group is registered. -/
  conversationKey : Option String
  process : Option Process
  phase : StartPhase
  handshake : Handshake
  /-- Commands by the id they were sent with. -/
  pendingResponses : OrderedMap String PendingResponse
  nextId : ℕ
  closed : Bool
  /-- Whether a registration is in flight. -/
  registering : Bool
  exitDuringRegister : Bool
  /-- The calls of `send` so far. -/
  sends : ℕ
  /-- How the promises of `send` have been settled. -/
  settled : List (ℕ × Except String RpcResponseFrame)
  /-- The promises of `close`, in the order of the calls. -/
  closes : List ClosePromise

/-- The process is still running: it has neither exited nor been sent
SIGKILL. -/
def Process.Running (p : Process) : Prop := p.status = .running ∧ p.killed = false

instance (p : Process) : Decidable p.Running := inferInstanceAs (Decidable (_ ∧ _))

/-- The words of the exit in an error. -/
def ExitStatus.text (e : ExitStatus) : String :=
  "(code=" ++ (e.code.map toString).getD "null" ++ ", signal=" ++ e.signal.getD "null" ++ ")"

namespace RpcChild

/-- A child that has not been started. -/
def new (binary : String) (conversationKey : Option String) : RpcChild where
  binary := binary
  conversationKey := conversationKey
  process := none
  phase := .notStarted
  handshake := .waiting
  pendingResponses := .empty
  nextId := 1
  closed := false
  registering := false
  exitDuringRegister := false
  sends := 0
  settled := []
  closes := []

/-- The process has been spawned and is still running. -/
def Running (c : RpcChild) : Prop := ∃ p, c.process = some p ∧ p.Running

instance (c : RpcChild) : Decidable c.Running :=
  match h : c.process with
  | none => isFalse (by simp [Running, h])
  | some p => decidable_of_iff p.Running (by simp [Running, h])

/-- The process group of the child. -/
def pgid (c : RpcChild) : Option ℤ := c.process.bind Process.pgid

/-- The process has been spawned and has not exited. -/
def Alive (c : RpcChild) : Prop := ∃ p, c.process = some p ∧ p.status = .running

/-! ### Promises and signals -/

/-- Settle the promise of a `send`. -/
@[simps]
def settle (c : RpcChild) (call : ℕ) (result : Except String RpcResponseFrame) : RpcChild :=
  { c with settled := c.settled ++ [(call, result)] }

/-- Reject every pending response and clear its timer. -/
@[simps]
def rejectAllPending (c : RpcChild) (error : String) : RpcChild :=
  { c with
    settled := c.settled ++ c.pendingResponses.values.map fun p => (p.call, .error error)
    pendingResponses := .empty }

/-- Resolve the close that is waiting. -/
@[simps]
def resolveCloses (c : RpcChild) : RpcChild :=
  { c with closes := c.closes.map fun _ => .resolved }

/-- Send SIGKILL to the process group, or off Unix to the process; an error
is ignored by every caller. -/
@[simps]
def hardKill (c : RpcChild) (reply : KillReply) : RpcChild :=
  { c with
    process := c.process.map fun p => { p with killed := p.killed || decide (reply = .delivered) } }

/-! ### The registry -/

/-- The key and the entry that the child registers; none when no registry
or no process group is there. -/
def registryEntry (c : RpcChild) (startedAt : ℤ) : Option (String × ChildRegistryEntry) :=
  match c.conversationKey, c.pgid with
  | some key, some pgid =>
      if key = "" then none else some (key, ⟨pgid, pgid, startedAt, some c.binary⟩)
  | _, _ => none

/-- The key that the child unregisters. -/
def registryKey (c : RpcChild) : Option String := (c.registryEntry 0).map Prod.fst

/-! ### Lifecycle -/

/-- `start` up to its first `await`: spawn the process and queue its
registration, if there is a registry to enter it in. -/
def start (c : RpcChild) (process : Process) : Except String RpcChild :=
  if c.process ≠ none then .error "RpcChild already started"
  else if c.closed then .error "RpcChild is closed"
  else
    let c := { c with process := some process, phase := .registering }
    .ok { c with registering := c.registryKey.isSome }

/-- `start` after the registration has settled. A process that could not be
registered is killed, and its ready frame is no longer waited for. -/
def registered (c : RpcChild) (result : Except String Unit) (kill : KillReply) : RpcChild :=
  match result with
  | .error error => { c.hardKill kill with registering := false, phase := .threw error }
  | .ok _ =>
      { c with
        registering := false
        phase := if c.exitDuringRegister then .unregistering else .handshaking }

/-- `start` after the unregistration of a process that has exited meanwhile. -/
def unregistered (c : RpcChild) : RpcChild :=
  if c.phase = .unregistering then { c with phase := .handshaking } else c

/-- The ready frame arrives. -/
def onReady (c : RpcChild) : RpcChild :=
  if c.handshake = .waiting then { c with handshake := .ready } else c

/-- The ready frame does not arrive in time. -/
def readyTimeout (c : RpcChild) (kill : KillReply) : RpcChild :=
  if c.handshake = .waiting then
    { c.hardKill kill with
      handshake := .failed "omp rpc child timed out waiting for ready frame" }
  else c

/-- The process reports an error. -/
def onError (c : RpcChild) (error : String) : RpcChild :=
  { c.rejectAllPending error with
    handshake := if c.handshake = .waiting then .failed error else c.handshake }

/-- Whether the exit handler queues the unregistration itself: while a
registration is in flight, `start` does it later. -/
def unregistersOnExit (c : RpcChild) : Bool := !c.registering

/-- The exit of the process is reported. -/
def onExit (c : RpcChild) (status : ExitStatus) : RpcChild :=
  let c : RpcChild := { c with
    process := c.process.map fun p => { p with status := .reported }
    handshake :=
      if c.handshake = .waiting then .failed ("omp rpc child exited before ready " ++ status.text)
      else c.handshake
    exitDuringRegister := c.exitDuringRegister || c.registering }
  let c : RpcChild :=
    if c.closed then c
    else { c with closed := true }.rejectAllPending ("omp rpc child exited " ++ status.text)
  c.resolveCloses

/-- `close` up to its `await`. A child that is closed already, or was never
started, has nothing to wait for. -/
def close (c : RpcChild) : RpcChild :=
  if c.closed then { c with closes := c.closes ++ [.resolved] }
  else
    let c := { c with closed := true }
    match c.process with
    | none => { c with closes := c.closes ++ [.resolved] }
    | some p =>
        { c.rejectAllPending "RpcChild closed" with
          closes := c.closes ++ [if p.status = .reported then .resolved else .waiting] }

/-- The grace period of `close` is over. -/
def graceTimeout (c : RpcChild) (kill : KillReply) : RpcChild :=
  (c.hardKill kill).resolveCloses

/-! ### Sending -/

/-- Send a command; `write` is how the write to the process goes. -/
def send (c : RpcChild) (frame : CommandFrame) (write : Except String Unit) : RpcChild :=
  let call := c.sends
  let c := { c with sends := call + 1 }
  if c.process = none then c.settle call (.error "RpcChild not started")
  else if c.closed then c.settle call (.error "RpcChild is closed")
  else
    let id := frame.id.getD (toString c.nextId)
    let c := if frame.id = none then { c with nextId := c.nextId + 1 } else c
    match c.pendingResponses.get id, write with
    | some _, _ =>
        c.settle call (.error ("omp rpc command id \"" ++ id ++ "\" is already pending"))
    | none, .ok _ =>
        { c with
          pendingResponses := c.pendingResponses.set id ⟨frame.type.getD "unknown", call⟩ }
    | none, .error error => c.settle call (.error error)

/-- A response frame arrives; one that nobody waits for is passed on as an
event. -/
def processResponse (c : RpcChild) (response : RpcResponseFrame) : RpcChild :=
  match response.id with
  | none => c
  | some id =>
      match c.pendingResponses.get id with
      | none => c
      | some pending =>
          { c with pendingResponses := c.pendingResponses.delete id }.settle pending.call
            (.ok response)

/-- A command is not acknowledged in time: the child is closed. -/
def ackTimeout (c : RpcChild) (id : String) : RpcChild :=
  match c.pendingResponses.get id with
  | none => c
  | some pending =>
      ({ c with pendingResponses := c.pendingResponses.delete id }.settle pending.call
        (.error ("omp rpc command \"" ++ pending.command
          ++ "\" timed out waiting for acknowledgement"))).close

/-! ### What the methods leave as it is -/

section Frame

variable (c : RpcChild)

@[simp] theorem hardKill_pgid (reply : KillReply) : (c.hardKill reply).pgid = c.pgid := by
  cases p : c.process <;> simp [pgid, p]

@[simp] theorem hardKill_alive (reply : KillReply) : (c.hardKill reply).Alive ↔ c.Alive := by
  cases p : c.process <;> simp [Alive, p]

@[simp] theorem registered_conversationKey (result : Except String Unit) (kill : KillReply) :
    (c.registered result kill).conversationKey = c.conversationKey := by
  cases result <;> rfl

@[simp] theorem registered_pgid (result : Except String Unit) (kill : KillReply) :
    (c.registered result kill).pgid = c.pgid := by
  cases result with
  | error => exact c.hardKill_pgid kill
  | ok => rfl

@[simp] theorem registered_alive (result : Except String Unit) (kill : KillReply) :
    (c.registered result kill).Alive ↔ c.Alive := by
  cases result with
  | error => exact c.hardKill_alive kill
  | ok => rfl

@[simp] theorem unregistered_conversationKey :
    c.unregistered.conversationKey = c.conversationKey := by
  unfold unregistered
  split <;> rfl

@[simp] theorem unregistered_pgid : c.unregistered.pgid = c.pgid := by
  unfold unregistered
  split <;> rfl

@[simp] theorem unregistered_alive : c.unregistered.Alive ↔ c.Alive := by
  unfold unregistered
  split <;> rfl

@[simp] theorem onExit_conversationKey (status : ExitStatus) :
    (c.onExit status).conversationKey = c.conversationKey := by
  cases closed : c.closed <;> simp [onExit, closed]

@[simp] theorem onExit_process (status : ExitStatus) :
    (c.onExit status).process =
      c.process.map fun p => { p with status := .reported } := by
  cases closed : c.closed <;> simp [onExit, closed]

@[simp] theorem onExit_pgid (status : ExitStatus) : (c.onExit status).pgid = c.pgid := by
  cases p : c.process <;> simp [pgid, p]

theorem onExit_not_alive (status : ExitStatus) : ¬ (c.onExit status).Alive := by
  cases p : c.process <;> simp [Alive, p]

end Frame

/-! ### What a resolved close says -/

section Honest

variable {c : RpcChild}

/-- A close has resolved only if the process has exited or been killed. -/
def Honest (c : RpcChild) : Prop := .resolved ∈ c.closes → ¬ c.Running

@[simp] theorem close_process (c : RpcChild) : c.close.process = c.process := by
  unfold close
  split
  · rfl
  · dsimp only
    split <;> rfl

@[simp] theorem close_running (c : RpcChild) : c.close.Running ↔ c.Running := by
  simp [Running]

/-- A call of `close` resolves too early exactly if another one is under
way while the process runs. -/
theorem Honest.close_iff (honest : c.Honest) :
    c.close.Honest ↔ ¬ (c.closed = true ∧ c.Running) := by
  have kept : c.close.Honest ↔ (.resolved ∈ c.close.closes → ¬ c.Running) := by
    unfold Honest
    rw [close_running]
  rw [kept]
  unfold close
  split
  case isTrue closed => simp [closed]
  case isFalse opened =>
      dsimp only
      split
      case h_1 unstarted =>
          have idle : ¬ c.Running := by simp [Running, unstarted]
          simp [idle]
      case h_2 p spawned =>
          by_cases reported : p.status = .reported
          · have idle : ¬ c.Running := by simp [Running, spawned, Process.Running, reported]
            simp [idle]
          · have honest : .resolved ∈ c.closes → ¬ c.Running := honest
            simpa [reported, opened] using honest

@[simp] theorem ackTimeout_process (c : RpcChild) (id : String) :
    (c.ackTimeout id).process = c.process := by
  unfold ackTimeout
  split
  · rfl
  · exact close_process _

theorem Honest.frame {d : RpcChild} (honest : c.Honest) (closes : d.closes = c.closes)
    (running : d.Running → c.Running) : d.Honest := fun resolved now =>
  honest (closes ▸ resolved) (running now)

theorem onExit_not_running (c : RpcChild) (status : ExitStatus) :
    ¬ (c.onExit status).Running := by
  rintro ⟨p, spawned, now, _⟩
  exact onExit_not_alive c status ⟨p, spawned, now⟩

theorem onExit_honest (status : ExitStatus) : (c.onExit status).Honest := fun _ =>
  onExit_not_running c status

/-- A signal starts no process. -/
theorem running_of_hardKill {reply : KillReply} (running : (c.hardKill reply).Running) :
    c.Running := by
  obtain ⟨p, spawned, now, unkilled⟩ := running
  simp only [hardKill_process, Option.map_eq_some_iff] at spawned
  obtain ⟨q, before, rfl⟩ := spawned
  simp only [Bool.or_eq_false_iff] at unkilled
  exact ⟨q, before, now, unkilled.1⟩

theorem hardKill_running_iff {reply : KillReply} :
    (c.hardKill reply).Running ↔ c.Running ∧ reply ≠ .delivered := by
  constructor
  · intro running
    refine ⟨running_of_hardKill running, ?_⟩
    rintro rfl
    obtain ⟨p, spawned, _, unkilled⟩ := running
    simp only [hardKill_process, Option.map_eq_some_iff] at spawned
    obtain ⟨q, _, rfl⟩ := spawned
    simp at unkilled
  · rintro ⟨⟨p, spawned, now, unkilled⟩, undelivered⟩
    refine ⟨{ p with killed := p.killed || decide (reply = .delivered) }, ?_, now, ?_⟩
    · simp [spawned]
    · simp [unkilled, undelivered]

/-- The end of the grace period resolves too early exactly if the signal is
not delivered to a process that runs. -/
theorem graceTimeout_honest_iff (kill : KillReply) (waiting : .waiting ∈ c.closes) :
    (c.graceTimeout kill).Honest ↔ kill = .delivered ∨ ¬ c.Running := by
  have resolved : .resolved ∈ (c.graceTimeout kill).closes :=
    List.mem_map.mpr ⟨_, waiting, rfl⟩
  have running : (c.graceTimeout kill).Running ↔ (c.hardKill kill).Running := Iff.rfl
  unfold Honest
  rw [running, hardKill_running_iff]
  simp only [resolved, true_implies]
  tauto

theorem send_frame (frame : CommandFrame) (write : Except String Unit) :
    (c.send frame write).closes = c.closes ∧ (c.send frame write).process = c.process := by
  unfold send
  dsimp only
  split
  · exact ⟨rfl, rfl⟩
  split
  · exact ⟨rfl, rfl⟩
  split <;> split <;> exact ⟨rfl, rfl⟩

theorem processResponse_frame (response : RpcResponseFrame) :
    (c.processResponse response).closes = c.closes ∧
      (c.processResponse response).process = c.process := by
  unfold processResponse
  split
  · exact ⟨rfl, rfl⟩
  split <;> exact ⟨rfl, rfl⟩

theorem Honest.of_same {d : RpcChild} (honest : c.Honest)
    (same : d.closes = c.closes ∧ d.process = c.process) : d.Honest :=
  honest.frame same.1 (by simp [Running, same.2])

/-- A command that is not acknowledged resolves too early exactly if the
close it causes does. -/
theorem Honest.ackTimeout_iff (honest : c.Honest) {id : String}
    (pending : (c.pendingResponses.get id).isSome) :
    (c.ackTimeout id).Honest ↔ ¬ (c.closed = true ∧ c.Running) := by
  obtain ⟨p, found⟩ := Option.isSome_iff_exists.mp pending
  unfold ackTimeout
  rw [found]
  exact close_iff (honest.of_same ⟨rfl, rfl⟩)

end Honest

/-- What a child registers is its own group under its own key. -/
theorem registryEntry_eq_some {c : RpcChild} {startedAt : ℤ} {key : String}
    {entry : ChildRegistryEntry} (configured : c.registryEntry startedAt = some (key, entry)) :
    c.conversationKey = some key ∧ c.pgid = some entry.pgid := by
  unfold registryEntry at configured
  split at configured
  case h_1 k g known group =>
      split at configured
      case isTrue => simp at configured
      case isFalse =>
          simp only [Option.some.injEq, Prod.mk.injEq] at configured
          obtain ⟨rfl, rfl⟩ := configured
          exact ⟨known, group⟩
  case h_2 => simp at configured

end RpcChild

end OmpBundler.Core
