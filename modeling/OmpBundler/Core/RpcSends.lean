import Mathlib.Data.List.Induction
import OmpBundler.Core.RpcChild
import OmpBundler.Library.Transition

/-!
How the promises of `send` are settled.

A command waits in `pendingResponses` under its id, with an
acknowledgement timer armed, and leaves in one of five ways: its response
arrives, its timer fires, the child is closed, the process reports an
error, or the process exits. The timers are kept here beside the child,
each with the id under which it will look its command up; that the map and
the timers agree is a theorem, not a convention.

`log` records what has happened to the commands of the child. It is read by
no method: it is there to say, without speaking about the map, what each
promise is to be settled with (`Standing`).
-/

namespace OmpBundler.Core

open Library

/-- What the promise of a `send` is settled with. -/
abbrev SendResult := Except String RpcResponseFrame

/-- Something that happens to the commands of a child. -/
inductive Happening where
  /-- A `send`: its number, the id and the type of its command, and why it
  is rejected at once, if it is. -/
  | sent (call : ℕ) (id command : String) (refusal : Option String)
  | response (frame : RpcResponseFrame)
  /-- The acknowledgement timer of a command fires. -/
  | timedOut (call : ℕ)
  | closing
  /-- The process reports an error. -/
  | error (text : String)
  | exited (status : ExitStatus)
  deriving DecidableEq

/-- What the `call`-th command, which waits under `id`, is settled with
when this happens. -/
def Happening.verdict (call : ℕ) (id command : String) : Happening → Option SendResult
  | .sent .. => none
  | .response frame => if frame.id = some id then some (.ok frame) else none
  | .timedOut other =>
      if other = call then
        some (.error ("omp rpc command \"" ++ command ++ "\" timed out waiting for acknowledgement"))
      else none
  | .closing => some (.error "RpcChild closed")
  | .error text => some (.error text)
  | .exited status => some (.error ("omp rpc child exited " ++ status.text))

/-- Where one call of `send` stands. -/
inductive Standing where
  | notMade
  | waiting (id command : String)
  | settled (result : SendResult)
  deriving DecidableEq

namespace Standing

/-- Where the call stands after something has happened. -/
def after (call : ℕ) : Standing → Happening → Standing
  | .notMade, .sent c id command refusal =>
      if c = call then
        match refusal with
        | some text => .settled (.error text)
        | none => .waiting id command
      else .notMade
  | .notMade, _ => .notMade
  | .waiting id command, h =>
      match h.verdict call id command with
      | some result => .settled result
      | none => .waiting id command
  | .settled result, _ => .settled result

/-- How often the promise has been settled, and with what. -/
def results (call : ℕ) : Standing → List (ℕ × SendResult)
  | .settled result => [(call, result)]
  | _ => []

end Standing

/-- A child, with its acknowledgement timers and the history of its
commands. -/
structure RpcSends where
  child : RpcChild
  /-- The armed timers: the call that armed it and the id it will look up. -/
  timers : List (ℕ × String)
  log : List Happening

namespace RpcChild

variable (c : RpcChild)

/-- The id a command is sent under. -/
def idOf (frame : CommandFrame) : String := frame.id.getD (toString c.nextId)

/-- Why a `send` is rejected at once. -/
def refusal (frame : CommandFrame) (write : Except String Unit) : Option String :=
  if c.process = none then some "RpcChild not started"
  else if c.closed then some "RpcChild is closed"
  else if (c.pendingResponses.get (c.idOf frame)).isSome then
    some ("omp rpc command id \"" ++ c.idOf frame ++ "\" is already pending")
  else match write with
    | .error error => some error
    | .ok _ => none

/-- Giving a command a number of its own touches no command. -/
theorem numbered (frame : CommandFrame) :
    ∃ d : RpcChild, (if frame.id = none then
        { c with sends := c.sends + 1, nextId := c.nextId + 1 }
      else { c with sends := c.sends + 1 }) = d ∧ d.settled = c.settled ∧
      d.pendingResponses = c.pendingResponses ∧ d.sends = c.sends + 1 ∧ d.closed = c.closed := by
  split <;> exact ⟨_, rfl, rfl, rfl, rfl, rfl⟩

/-- A command that is rejected at once changes nothing but its own promise. -/
theorem send_refused {frame : CommandFrame} {write : Except String Unit} {text : String}
    (refused : c.refusal frame write = some text) :
    (c.send frame write).settled = c.settled ++ [(c.sends, .error text)] ∧
      (c.send frame write).pendingResponses = c.pendingResponses ∧
      (c.send frame write).sends = c.sends + 1 ∧ (c.send frame write).closed = c.closed := by
  obtain ⟨d, numbered, settled, pending, sends, closed⟩ := c.numbered frame
  have told (e : String) : (d.settle c.sends (.error e)).settled = c.settled ++ [(c.sends, .error e)] ∧
      (d.settle c.sends (.error e)).pendingResponses = c.pendingResponses ∧
      (d.settle c.sends (.error e)).sends = c.sends + 1 ∧
      (d.settle c.sends (.error e)).closed = c.closed := by
    simp [settled, pending, sends, closed]
  unfold refusal at refused
  unfold send
  dsimp only
  rw [numbered, pending]
  by_cases unspawned : c.process = none
  · obtain rfl : "RpcChild not started" = text := by simpa [unspawned] using refused
    simp [unspawned]
  by_cases shut : c.closed = true
  · obtain rfl : "RpcChild is closed" = text := by simpa [unspawned, shut] using refused
    simp [unspawned, shut]
  rw [if_neg unspawned, if_neg shut] at refused ⊢
  cases found : c.pendingResponses.get (c.idOf frame) with
  | some p =>
      simp only [found, Option.isSome_some, if_true] at refused
      obtain rfl := Option.some.inj refused
      simp only [idOf] at found
      rw [found]
      exact told _
  | none =>
      cases write with
      | ok => simp [found] at refused
      | error e =>
          obtain rfl : e = text := by simpa [found] using refused
          simp only [idOf] at found
          rw [found]
          exact told _

/-- A command that is sent waits under its id, which was free. -/
theorem send_accepted {frame : CommandFrame} {write : Except String Unit}
    (accepted : c.refusal frame write = none) :
    (c.send frame write).settled = c.settled ∧
      (c.send frame write).pendingResponses = c.pendingResponses.set (c.idOf frame)
        ⟨frame.type.getD "unknown", c.sends⟩ ∧
      (c.send frame write).sends = c.sends + 1 ∧ (c.send frame write).closed = false ∧
      c.process ≠ none ∧ c.pendingResponses.get (c.idOf frame) = none := by
  obtain ⟨d, numbered, settled, pending, sends, closed⟩ := c.numbered frame
  unfold refusal at accepted
  unfold send
  dsimp only
  rw [numbered, pending]
  by_cases unspawned : c.process = none
  · simp [unspawned] at accepted
  by_cases shut : c.closed = true
  · simp [unspawned, shut] at accepted
  rw [if_neg unspawned, if_neg shut] at accepted
  rw [if_neg unspawned, if_neg shut]
  cases found : c.pendingResponses.get (c.idOf frame) with
  | some p => simp [found] at accepted
  | none =>
      cases write with
      | error e => simp [found] at accepted
      | ok =>
          simp only [idOf] at found
          rw [found]
          exact ⟨settled, rfl, sends, by simpa [closed] using shut, unspawned, rfl⟩

/-- The handshake listens to the errors of the process. -/
def awaitsReady : Bool :=
  decide (c.handshake = .waiting) &&
    match c.phase with
    | .notStarted | .threw _ => false
    | _ => true

end RpcChild

namespace RpcSends

/-- Disarm the timers of the commands that are pending. -/
def clearTimers (s : RpcSends) : List (ℕ × String) :=
  s.timers.filter fun t => !s.child.pendingResponses.values.any fun p => p.call = t.1

/-- Where the `call`-th send stands, by the log. -/
def standing (s : RpcSends) (call : ℕ) : Standing := s.log.foldl (Standing.after call) .notMade

inductive Action where
  | start (process : Process)
  | registered (result : Except String Unit) (kill : KillReply)
  | unregistered
  | ready
  | readyTimeout (kill : KillReply)
  | send (frame : CommandFrame) (write : Except String Unit)
  | response (frame : RpcResponseFrame)
  | ackTimeout (call : ℕ) (id : String)
  | close
  | graceTimeout (kill : KillReply)
  /-- The process reports an error; `listened` says whether the consumer
  listens to the errors of the child. -/
  | error (listened : Bool) (text : String)
  | exit (status : ExitStatus)

/-- Change the child by a method that touches no command. -/
def withChild (s : RpcSends) (child : RpcChild) : RpcSends := { s with child }

def send (s : RpcSends) (frame : CommandFrame) (write : Except String Unit) : RpcSends where
  child := s.child.send frame write
  timers :=
    match s.child.refusal frame write with
    | some _ => s.timers
    | none => s.timers ++ [(s.child.sends, s.child.idOf frame)]
  log := s.log ++ [.sent s.child.sends (s.child.idOf frame) (frame.type.getD "unknown")
    (s.child.refusal frame write)]

def response (s : RpcSends) (frame : RpcResponseFrame) : RpcSends where
  child := s.child.processResponse frame
  timers :=
    match frame.id.bind s.child.pendingResponses.get with
    | some pending => s.timers.filter fun t => t.1 ≠ pending.call
    | none => s.timers
  log := s.log ++ [.response frame]

/-- Close the child: what is pending is rejected, unless nothing can be. -/
def close (s : RpcSends) : RpcSends where
  child := s.child.close
  timers := if s.child.closed ∨ s.child.process = none then s.timers else s.clearTimers
  log := s.log ++ [.closing]

/-- A timer fires. It looks up whatever is pending under its id, and closes
the child if there is something. -/
def ackTimeout (s : RpcSends) (call : ℕ) (id : String) : RpcSends :=
  let timers := s.timers.filter fun t => t.1 ≠ call
  match s.child.pendingResponses.get id with
  | none => { s with timers }
  | some pending =>
      let child := { s.child with pendingResponses := s.child.pendingResponses.delete id }
      { child := child.settle pending.call (.error ("omp rpc command \"" ++ pending.command
          ++ "\" timed out waiting for acknowledgement"))
        timers
        log := s.log ++ [.timedOut call] : RpcSends }.close

/-- The process reports an error. When nobody listens, announcing it throws
before anything is rejected. -/
def error (s : RpcSends) (listened : Bool) (text : String) : RpcSends :=
  if listened || s.child.awaitsReady then
    { child := s.child.onError text
      timers := s.clearTimers
      log := s.log ++ [.error text] }
  else s

def exit (s : RpcSends) (status : ExitStatus) : RpcSends where
  child := s.child.onExit status
  timers := if s.child.closed then s.timers else s.clearTimers
  log := s.log ++ [.exited status]

/-- What an action does. Frames, errors and the exit come from a process
that has been spawned, the exit once; a timer fires while it is armed. -/
def step (s : RpcSends) : Action → Option RpcSends
  | .start process =>
      match s.child.start process with
      | .ok child => some (s.withChild child)
      | .error _ => some s
  | .registered result kill => some (s.withChild (s.child.registered result kill))
  | .unregistered => some (s.withChild s.child.unregistered)
  | .ready => some (s.withChild s.child.onReady)
  | .readyTimeout kill => some (s.withChild (s.child.readyTimeout kill))
  | .send frame write => some (s.send frame write)
  | .response frame => if s.child.process = none then none else some (s.response frame)
  | .ackTimeout call id => if (call, id) ∈ s.timers then some (s.ackTimeout call id) else none
  | .close => some s.close
  | .graceTimeout kill => some (s.withChild (s.child.graceTimeout kill))
  | .error listened text =>
      if s.child.process = none then none else some (s.error listened text)
  | .exit status =>
      match s.child.process with
      | none => none
      | some p => if p.status = .reported then none else some (s.exit status)

/-- A new child. -/
def initial (binary : String) (conversationKey : Option String) : RpcSends where
  child := .new binary conversationKey
  timers := []
  log := []

def machine : Transition.Machine RpcSends Action where
  init s := ∃ binary conversationKey, s = initial binary conversationKey
  step := step

/-! ### The invariant -/

section Invariant

variable {s : RpcSends}

/-- The promises, the map and the timers are what the log says. -/
structure Sound (s : RpcSends) : Prop where
  settled : ∀ call,
    s.child.settled.filter (fun e => e.1 = call) = (s.standing call).results call
  made : ∀ call, s.standing call = .notMade ↔ s.child.sends ≤ call
  waiting : ∀ call id command, s.standing call = .waiting id command ↔
    s.child.pendingResponses.get id = some ⟨command, call⟩
  armed : ∀ call id, (call, id) ∈ s.timers ↔ ∃ command, s.standing call = .waiting id command
  /-- Nothing is pending once the child is closed or before it is started. -/
  idle : s.child.closed = true ∨ s.child.process = none →
    ∀ id, s.child.pendingResponses.get id = none

theorem standing_append (call : ℕ) (h : Happening) (child : RpcChild)
    (timers : List (ℕ × String)) :
    standing ⟨child, timers, s.log ++ [h]⟩ call = (s.standing call).after call h := by
  simp [standing]

theorem initial_sound (binary : String) (conversationKey : Option String) :
    (initial binary conversationKey).Sound where
  settled _ := rfl
  made call := by simp [initial, standing, RpcChild.new]
  waiting call id command := by simp [initial, standing, RpcChild.new]
  armed call id := by simp [initial, standing]
  idle _ _ := rfl

/-- A method that touches no command keeps the invariant. -/
theorem Sound.withChild (sound : s.Sound) {child : RpcChild}
    (pending : child.pendingResponses = s.child.pendingResponses)
    (settled : child.settled = s.child.settled) (sends : child.sends = s.child.sends)
    (closed : child.closed = s.child.closed)
    (process : child.process = none → s.child.process = none) : (s.withChild child).Sound where
  settled := by
    show ∀ call, child.settled.filter _ = _
    rw [settled]
    exact sound.settled
  made := by
    show ∀ call, _ ↔ child.sends ≤ call
    rw [sends]
    exact sound.made
  waiting := by
    show ∀ call id command, _ ↔ child.pendingResponses.get id = _
    rw [pending]
    exact sound.waiting
  armed := sound.armed
  idle := by
    intro idle
    show ∀ id, child.pendingResponses.get id = none
    rw [pending]
    exact sound.idle (idle.imp (closed ▸ ·) process)

/-- What decides nothing for the commands that wait leaves the promises as
they are. -/
theorem Sound.record (sound : s.Sound) {h : Happening}
    (undecided : ∀ call id command, s.standing call = .waiting id command →
      h.verdict call id command = none)
    (unsent : ∀ call id command refusal, h ≠ .sent call id command refusal) :
    ({ s with log := s.log ++ [h] } : RpcSends).Sound := by
  have same (call : ℕ) :
      standing { s with log := s.log ++ [h] } call = s.standing call := by
    rw [standing_append]
    cases there : s.standing call with
    | notMade =>
        cases h with
        | sent call id command refusal => exact absurd rfl (unsent call id command refusal)
        | _ => rfl
    | waiting id command => simp [Standing.after, undecided call id command there]
    | settled => rfl
  exact ⟨fun call => same call ▸ sound.settled call, fun call => same call ▸ sound.made call,
    fun call => same call ▸ sound.waiting call, fun call => same call ▸ sound.armed call,
    sound.idle⟩

/-- One command is settled: its promise, its entry and its timer go. -/
theorem Sound.settle (sound : s.Sound) (h : Happening) (result : SendResult) {call : ℕ}
    {id command : String} (there : s.standing call = .waiting id command)
    (decided : h.verdict call id command = some result)
    (only : ∀ other i c, other ≠ call → s.standing other = .waiting i c →
      h.verdict other i c = none)
    (unsent : ∀ call id command refusal, h ≠ .sent call id command refusal) :
    (RpcSends.mk ({ s.child with
        pendingResponses := s.child.pendingResponses.delete id }.settle call result)
      (s.timers.filter fun t => t.1 ≠ call) (s.log ++ [h])).Sound := by
  have own : (s.standing call).after call h = .settled result := by
    simp [there, Standing.after, decided]
  have others (other : ℕ) (ne : other ≠ call) :
      (s.standing other).after other h = s.standing other := by
    cases stands : s.standing other with
    | notMade =>
        cases h with
        | sent call id command refusal => exact absurd rfl (unsent call id command refusal)
        | _ => rfl
    | waiting i c => simp [Standing.after, only other i c ne stands]
    | settled => rfl
  have before := sound.settled call
  rw [there] at before
  refine ⟨fun other => ?_, fun other => ?_, fun other i c => ?_, fun other i => ?_, ?_⟩
  · rw [standing_append]
    by_cases same : other = call
    · subst same
      simp [own, Standing.results, before]
    · simp [others other same, sound.settled, Ne.symm same]
  · rw [standing_append]
    by_cases same : other = call
    · subst same
      have made := (sound.made other).not
      simp only [there, reduceCtorEq, not_false_iff, true_iff] at made
      simpa [own] using made
    · rw [others other same]
      exact sound.made other
  · rw [standing_append]
    by_cases same : other = call
    · subst same
      rw [own]
      simp only [reduceCtorEq, false_iff, RpcChild.settle_pendingResponses,
        OrderedMap.get_delete]
      intro found
      split at found
      case isTrue => simp at found
      case isFalse elsewhere =>
          have waits := (sound.waiting other i c).mpr found
          rw [there] at waits
          exact elsewhere (Standing.waiting.inj waits).1
    · rw [others other same, sound.waiting]
      have kept : s.child.pendingResponses.get i = some ⟨c, other⟩ → id ≠ i := by
        rintro found rfl
        have waits := (sound.waiting call id command).mp there
        rw [found] at waits
        exact same (congrArg PendingResponse.call (Option.some.inj waits))
      simp only [RpcChild.settle_pendingResponses, OrderedMap.get_delete]
      constructor
      · intro found
        simp [kept found, found]
      · intro found
        split at found
        case isTrue => simp at found
        case isFalse => exact found
  · rw [standing_append]
    by_cases same : other = call
    · subst same
      simp [own]
    · simp [others other same, sound.armed, same]
  · intro idle i
    have none_there := sound.idle idle i
    simp only [RpcChild.settle_pendingResponses, OrderedMap.get_delete, none_there, ite_self]

/-- A command that waits has one entry in the map, and no other call has
any. -/
theorem Sound.pending_of (sound : s.Sound) (call : ℕ) :
    s.child.pendingResponses.values.filter (fun p => p.call = call) =
      match s.standing call with
      | .waiting _ command => [⟨command, call⟩]
      | _ => [] := by
  have waits (e : String × PendingResponse) (mem : e ∈ s.child.pendingResponses.entries) :
      s.standing e.2.call = .waiting e.1 e.2.command :=
    (sound.waiting _ _ _).mpr ((OrderedMap.mem_entries _).mp mem)
  have none_pending (idle : ∀ id command, s.standing call ≠ .waiting id command) :
      s.child.pendingResponses.values.filter (fun p => p.call = call) = [] := by
    simp only [OrderedMap.values, List.filter_eq_nil_iff, List.mem_map, decide_eq_true_eq]
    rintro _ ⟨e, mem, rfl⟩ rfl
    exact idle _ _ (waits e mem)
  cases stands : s.standing call with
  | notMade => exact none_pending (by simp [stands])
  | settled result => exact none_pending (by simp [stands])
  | waiting id command =>
      have mem : (id, ⟨command, call⟩) ∈ s.child.pendingResponses.entries :=
        (OrderedMap.mem_entries _).mpr ((sound.waiting _ _ _).mp stands)
      have only (e : String × PendingResponse) (there : e ∈ s.child.pendingResponses.entries) :
          decide (e.2.call = call) = decide (e = (id, ⟨command, call⟩)) := by
        rw [decide_eq_decide]
        constructor
        · rintro same
          have waits := waits e there
          rw [same, stands, Standing.waiting.injEq] at waits
          obtain ⟨i, c, k⟩ := e
          simp only at waits same
          rw [waits.1, waits.2, same]
        · rintro rfl
          rfl
      have nodup : s.child.pendingResponses.entries.Nodup :=
        .of_map _ s.child.pendingResponses.nodup
      rw [OrderedMap.values, List.filter_map,
        List.filter_congr (q := fun e => decide (e = (id, ⟨command, call⟩))) only,
        List.filter_eq, List.count_eq_one_of_mem nodup mem]
      rfl

/-- What ends the waiting of every command settles each of them once, and
disarms every timer. -/
theorem Sound.reject (sound : s.Sound) {h : Happening} (text : String)
    (decided : ∀ call id command, h.verdict call id command = some (.error text))
    {child : RpcChild}
    (settled : child.settled = s.child.settled ++
      s.child.pendingResponses.values.map fun p => (p.call, .error text))
    (pending : child.pendingResponses = .empty) (sends : child.sends = s.child.sends) :
    (RpcSends.mk child s.clearTimers (s.log ++ [h])).Sound := by
  have sent (call : ℕ) (stands : s.standing call = .notMade) :
      (s.standing call).after call h = .notMade := by
    cases h with
    | sent c id command refusal => simp [Happening.verdict] at decided
    | _ => simp [stands, Standing.after]
  have waited (call : ℕ) (id command : String) (stands : s.standing call = .waiting id command) :
      (s.standing call).after call h = .settled (.error text) := by
    simp [stands, Standing.after, decided]
  have done (call : ℕ) (id command : String) :
      (s.standing call).after call h ≠ .waiting id command := by
    cases stands : s.standing call with
    | notMade => rw [← stands, sent call stands]; simp
    | waiting i c => rw [← stands, waited call i c stands]; simp
    | settled result => simp [Standing.after]
  refine ⟨fun call => ?_, fun call => ?_, fun call i c => ?_, fun call i => ?_, ?_⟩
  · rw [standing_append]
    show child.settled.filter _ = _
    have rejected : (s.child.pendingResponses.values.map
          fun p => ((p.call, .error text) : ℕ × SendResult)).filter (fun e => e.1 = call) =
        (s.child.pendingResponses.values.filter fun p => p.call = call).map
          fun p => (p.call, .error text) := by
      simp only [List.filter_map, Function.comp_def]
    rw [settled, List.filter_append, sound.settled, rejected, sound.pending_of]
    cases stands : s.standing call with
    | notMade => rw [← stands, sent call stands]; simp [stands, Standing.results]
    | waiting i c => rw [← stands, waited call i c stands]; simp [stands, Standing.results]
    | settled result => simp [Standing.after, Standing.results]
  · rw [standing_append]
    show _ ↔ child.sends ≤ call
    rw [sends, ← sound.made]
    cases stands : s.standing call with
    | notMade => rw [← stands, sent call stands]; simp [stands]
    | waiting i c => rw [← stands, waited call i c stands]; simp [stands]
    | settled result => simp [Standing.after]
  · rw [standing_append]
    simp [done, pending]
  · rw [standing_append]
    simp only [done, exists_false, iff_false]
    intro kept
    obtain ⟨mem, unpending⟩ := List.mem_filter.mp kept
    obtain ⟨command, waits⟩ := (sound.armed call i).mp mem
    have there : (⟨command, call⟩ : PendingResponse) ∈
        s.child.pendingResponses.values.filter fun p => p.call = call := by
      simp [sound.pending_of, waits]
    simp only [Bool.not_eq_true', List.any_eq_false, decide_eq_true_eq] at unpending
    exact unpending _ (List.mem_filter.mp there).1 rfl
  · intro _ i
    show child.pendingResponses.get i = none
    rw [pending]
    rfl

/-! ### One lemma for each method -/

theorem close_sound (sound : s.Sound) : s.close.Sound := by
  by_cases idle : s.child.closed = true ∨ s.child.process = none
  · have nothing := sound.idle idle
    have kept : s.child.close.pendingResponses = s.child.pendingResponses ∧
        s.child.close.settled = s.child.settled ∧ s.child.close.sends = s.child.sends := by
      unfold RpcChild.close
      split
      case isTrue => exact ⟨rfl, rfl, rfl⟩
      case isFalse opened =>
          have unspawned := idle.resolve_left opened
          simp [unspawned]
    have recorded : ({ s with log := s.log ++ [.closing] } : RpcSends).Sound := by
      refine sound.record (fun call id command waits => ?_) (by simp)
      have there := (sound.waiting _ _ _).mp waits
      simp [nothing] at there
    unfold RpcSends.close
    rw [if_pos idle]
    refine ⟨?_, ?_, ?_, recorded.armed, ?_⟩
    · rw [kept.2.1]
      exact recorded.settled
    · rw [kept.2.2]
      exact recorded.made
    · rw [kept.1]
      exact recorded.waiting
    · rw [kept.1]
      exact fun _ => nothing
  · have opened : s.child.closed = false := by simpa using fun h => idle (.inl h)
    obtain ⟨p, spawned⟩ := Option.ne_none_iff_exists'.mp fun h => idle (.inr h)
    unfold RpcSends.close
    rw [if_neg idle]
    refine sound.reject "RpcChild closed" (fun _ _ _ => rfl) ?_ ?_ ?_ <;>
      simp [RpcChild.close, opened, spawned]

theorem exit_sound (sound : s.Sound) (status : ExitStatus) : (s.exit status).Sound := by
  unfold RpcSends.exit
  cases closed : s.child.closed with
  | false =>
      refine sound.reject ("omp rpc child exited " ++ status.text) (fun _ _ _ => rfl)
        ?_ ?_ ?_ <;> simp [RpcChild.onExit, closed]
  | true =>
      have nothing := sound.idle (.inl closed)
      have recorded : ({ s with log := s.log ++ [.exited status] } : RpcSends).Sound := by
        refine sound.record (fun call id command waits => ?_) (by simp)
        have there := (sound.waiting _ _ _).mp waits
        simp [nothing] at there
      have kept : (RpcSends.withChild _ (s.child.onExit status)).Sound := recorded.withChild
        (by simp [RpcChild.onExit, closed]) (by simp [RpcChild.onExit, closed])
        (by simp [RpcChild.onExit, closed]) (by simp [RpcChild.onExit, closed]) (by simp)
      exact kept

theorem error_sound (sound : s.Sound) (listened : Bool) (text : String) :
    (s.error listened text).Sound := by
  unfold RpcSends.error
  split
  case isTrue =>
      exact sound.reject text (fun _ _ _ => rfl) rfl rfl rfl
  case isFalse => exact sound

theorem response_sound (sound : s.Sound) (frame : RpcResponseFrame) :
    (s.response frame).Sound := by
  unfold RpcSends.response RpcChild.processResponse
  cases known : frame.id.bind s.child.pendingResponses.get with
  | none =>
      have recorded : ({ s with log := s.log ++ [.response frame] } : RpcSends).Sound := by
        refine sound.record (fun call id command waits => ?_) (by simp)
        have there := (sound.waiting _ _ _).mp waits
        have other : frame.id ≠ some id := fun own => by simp [own, there] at known
        simp [Happening.verdict, other]
      cases own : frame.id with
      | none => exact recorded
      | some id =>
          have orphan : s.child.pendingResponses.get id = none := by simpa [own] using known
          simpa [orphan] using recorded
  | some pending =>
      obtain ⟨id, own, found⟩ := Option.bind_eq_some_iff.mp known
      have waits := (sound.waiting pending.call id pending.command).mpr found
      have settled := sound.settle (.response frame) (.ok frame) waits
        (by simp [Happening.verdict, own]) (fun other i c ne stands => by
          have elsewhere : id ≠ i := by
            rintro rfl
            have there := (sound.waiting _ _ _).mp stands
            rw [found] at there
            exact ne (congrArg PendingResponse.call (Option.some.inj there)).symm
          simp [Happening.verdict, own, elsewhere]) (by simp)
      simpa [own, found] using settled

theorem ackTimeout_sound (sound : s.Sound) {call : ℕ} {id : String}
    (armed : (call, id) ∈ s.timers) : (s.ackTimeout call id).Sound := by
  obtain ⟨command, waits⟩ := (sound.armed call id).mp armed
  have found := (sound.waiting _ _ _).mp waits
  have settled := sound.settle (.timedOut call) _ waits (by simp [Happening.verdict]; rfl)
    (fun other i c ne _ => by simp [Happening.verdict, Ne.symm ne]) (by simp)
  unfold RpcSends.ackTimeout
  rw [found]
  exact close_sound settled

theorem send_sound (sound : s.Sound) (frame : CommandFrame) (write : Except String Unit) :
    (s.send frame write).Sound := by
  have unmade : s.standing s.child.sends = .notMade := (sound.made _).mpr (Nat.le_refl _)
  have others (call : ℕ) (ne : call ≠ s.child.sends) (id command : String)
      (refusal : Option String) :
      (s.standing call).after call (.sent s.child.sends id command refusal) = s.standing call := by
    cases stands : s.standing call with
    | notMade => simp [Standing.after, Ne.symm ne]
    | waiting i c => simp [Standing.after, Happening.verdict]
    | settled => rfl
  have unspawned : (s.child.send frame write).process = s.child.process :=
    (RpcChild.send_frame frame write).2
  unfold RpcSends.send
  cases refusal : s.child.refusal frame write with
  | some text =>
      obtain ⟨settled, pending, sends, closed⟩ := s.child.send_refused refusal
      have own (id command : String) : (s.standing s.child.sends).after s.child.sends
          (.sent s.child.sends id command (some text)) = .settled (.error text) := by
        simp [unmade, Standing.after]
      have before := sound.settled s.child.sends
      rw [unmade] at before
      refine ⟨fun call => ?_, fun call => ?_, fun call i c => ?_, fun call i => ?_, ?_⟩
      · rw [standing_append, settled]
        by_cases same : call = s.child.sends
        · subst same
          simp [own, before, Standing.results]
        · simp [others call same, sound.settled, Ne.symm same]
      · rw [standing_append, sends]
        by_cases same : call = s.child.sends
        · subst same
          simp [own]
        · rw [others call same, sound.made]
          omega
      · rw [standing_append, pending, ← sound.waiting]
        by_cases same : call = s.child.sends
        · subst same
          rw [own, unmade]
          simp
        · rw [others call same]
      · rw [standing_append, sound.armed]
        by_cases same : call = s.child.sends
        · subst same
          simp only [own]
          simp [unmade]
        · rw [others call same]
      · rw [pending, closed, unspawned]
        exact sound.idle
  | none =>
      obtain ⟨settled, pending, sends, closed, spawned, free⟩ := s.child.send_accepted refusal
      have own (id command : String) : (s.standing s.child.sends).after s.child.sends
          (.sent s.child.sends id command none) = .waiting id command := by
        simp [unmade, Standing.after]
      refine ⟨fun call => ?_, fun call => ?_, fun call i c => ?_, fun call i => ?_, ?_⟩
      · rw [standing_append, settled, sound.settled]
        by_cases same : call = s.child.sends
        · subst same
          rw [own, unmade]
          rfl
        · rw [others call same]
      · rw [standing_append, sends]
        by_cases same : call = s.child.sends
        · subst same
          simp [own]
        · rw [others call same, sound.made]
          omega
      · rw [standing_append, pending, OrderedMap.get_set]
        by_cases same : call = s.child.sends
        · subst same
          rw [own]
          have unused : s.child.pendingResponses.get i ≠ some ⟨c, s.child.sends⟩ := fun found => by
            have waits := (sound.waiting _ _ _).mpr found
            simp [unmade] at waits
          by_cases here : s.child.idOf frame = i <;> simp [here, unused]
        · rw [others call same, sound.waiting]
          by_cases here : s.child.idOf frame = i
          · subst here
            simp [free, Ne.symm same]
          · simp [here]
      · rw [standing_append, List.mem_append, sound.armed]
        by_cases same : call = s.child.sends
        · subst same
          simp only [own]
          simp [unmade, eq_comm]
        · simp [others call same, same]
      · rw [closed, unspawned]
        simp [spawned]

theorem step_sound {a : Action} {t : RpcSends} (sound : s.Sound) (taken : s.step a = some t) :
    t.Sound := by
  cases a with
  | start process =>
      simp only [step] at taken
      split at taken
      case h_2 => exact Option.some.inj taken ▸ sound
      case h_1 child started =>
          obtain rfl := Option.some.inj taken
          unfold RpcChild.start at started
          split at started
          case isTrue => simp at started
          case isFalse fresh =>
          split at started
          case isTrue => simp at started
          case isFalse =>
              obtain rfl := Except.ok.inj started
              exact sound.withChild rfl rfl rfl rfl (by simp)
  | registered result kill =>
      obtain rfl := Option.some.inj taken
      cases result <;> exact sound.withChild rfl rfl rfl rfl (by simp [RpcChild.registered])
  | unregistered =>
      obtain rfl := Option.some.inj taken
      unfold RpcChild.unregistered
      split
      case isTrue => exact sound.withChild rfl rfl rfl rfl id
      case isFalse => exact sound
  | ready =>
      obtain rfl := Option.some.inj taken
      unfold RpcChild.onReady
      split
      case isTrue => exact sound.withChild rfl rfl rfl rfl id
      case isFalse => exact sound
  | readyTimeout kill =>
      obtain rfl := Option.some.inj taken
      unfold RpcChild.readyTimeout
      split
      case isTrue => exact sound.withChild rfl rfl rfl rfl (by simp)
      case isFalse => exact sound
  | graceTimeout kill =>
      obtain rfl := Option.some.inj taken
      exact sound.withChild rfl rfl rfl rfl (by simp [RpcChild.graceTimeout])
  | send frame write => exact Option.some.inj taken ▸ send_sound sound frame write
  | close => exact Option.some.inj taken ▸ close_sound sound
  | response frame =>
      simp only [step] at taken
      split at taken
      case isTrue => simp at taken
      case isFalse => exact Option.some.inj taken ▸ response_sound sound frame
  | ackTimeout call id =>
      simp only [step] at taken
      split at taken
      case isTrue armed => exact Option.some.inj taken ▸ ackTimeout_sound sound armed
      case isFalse => simp at taken
  | error listened text =>
      simp only [step] at taken
      split at taken
      case isTrue => simp at taken
      case isFalse => exact Option.some.inj taken ▸ error_sound sound listened text
  | exit status =>
      simp only [step] at taken
      split at taken
      case h_1 => simp at taken
      case h_2 =>
          split at taken
          case isTrue => simp at taken
          case isFalse => exact Option.some.inj taken ▸ exit_sound sound status

theorem reachable_sound (reach : machine.Reachable Transition.Always s) : s.Sound :=
  reach.invariant (by rintro _ ⟨binary, key, rfl⟩; exact initial_sound binary key)
    fun _ _ _ sound _ taken => step_sound sound taken

/-! ### Every promise is settled once -/

/-- The log says that the `call`-th send is settled with `result`: it was
rejected at once, or `result` is the verdict of the first thing after it
that has one. -/
def Decided (log : List Happening) (call : ℕ) (result : SendResult) : Prop :=
  ∃ before id command after,
    (∃ text, log = before ++ .sent call id command (some text) :: after ∧
      result = .error text) ∨
    ∃ between decisive,
      log = before ++ .sent call id command none :: (between ++ decisive :: after) ∧
      (∀ h ∈ between, h.verdict call id command = none) ∧
      decisive.verdict call id command = some result

theorem Decided.append {log : List Happening} {call : ℕ} {result : SendResult}
    (decided : Decided log call result) (later : List Happening) :
    Decided (log ++ later) call result := by
  obtain ⟨before, id, command, after, ⟨text, rfl, same⟩ | ⟨between, decisive, rfl, quiet, own⟩⟩ :=
    decided
  · exact ⟨before, id, command, after ++ later, .inl ⟨text, by simp, same⟩⟩
  · exact ⟨before, id, command, after ++ later, .inr ⟨between, decisive, by simp, quiet, own⟩⟩

/-- A call that waits was sent, and nothing has decided it since. -/
theorem waiting_log {call : ℕ} {id command : String} {log : List Happening}
    (waits : log.foldl (Standing.after call) .notMade = .waiting id command) :
    ∃ before since, log = before ++ .sent call id command none :: since ∧
      ∀ h ∈ since, h.verdict call id command = none := by
  induction log using List.reverseRecOn with
  | nil => simp at waits
  | append_singleton log h ih =>
      rw [List.foldl_append] at waits
      simp only [List.foldl_cons, List.foldl_nil] at waits
      cases stands : log.foldl (Standing.after call) .notMade with
      | notMade =>
          rw [stands] at waits
          cases h with
          | sent c i cmd refusal =>
              simp only [Standing.after] at waits
              split at waits
              case isFalse => simp at waits
              case isTrue same =>
                  cases refusal with
                  | some text => simp at waits
                  | none =>
                      obtain ⟨rfl, rfl⟩ := Standing.waiting.inj waits
                      exact ⟨log, [], by rw [same], by simp⟩
          | _ => simp [Standing.after] at waits
      | waiting i c =>
          rw [stands] at waits
          simp only [Standing.after] at waits
          split at waits
          case h_1 => simp at waits
          case h_2 undecided =>
              obtain ⟨rfl, rfl⟩ := Standing.waiting.inj waits
              obtain ⟨before, since, rfl, quiet⟩ := ih stands
              refine ⟨before, since ++ [h], by simp, ?_⟩
              intro g mem
              rcases List.mem_append.mp mem with old | new
              · exact quiet g old
              · rw [List.mem_singleton.mp new]
                exact undecided
      | settled result =>
          rw [stands] at waits
          simp [Standing.after] at waits

/-- The result of a call that is settled is the one that the log decides. -/
theorem decided_of_settled {call : ℕ} {result : SendResult} {log : List Happening}
    (settled : log.foldl (Standing.after call) .notMade = .settled result) :
    Decided log call result := by
  induction log using List.reverseRecOn with
  | nil => simp at settled
  | append_singleton log h ih =>
      rw [List.foldl_append] at settled
      simp only [List.foldl_cons, List.foldl_nil] at settled
      cases stands : log.foldl (Standing.after call) .notMade with
      | notMade =>
          rw [stands] at settled
          cases h with
          | sent c i cmd refusal =>
              simp only [Standing.after] at settled
              split at settled
              case isFalse => simp at settled
              case isTrue same =>
                  cases refusal with
                  | none => simp at settled
                  | some text =>
                      obtain rfl := Standing.settled.inj settled
                      exact ⟨log, i, cmd, [], .inl ⟨text, by rw [same], rfl⟩⟩
          | _ => simp [Standing.after] at settled
      | waiting i c =>
          rw [stands] at settled
          simp only [Standing.after] at settled
          split at settled
          case h_2 => simp at settled
          case h_1 decided =>
              obtain rfl := Standing.settled.inj settled
              obtain ⟨before, since, rfl, quiet⟩ := waiting_log stands
              exact ⟨before, i, c, [], .inr ⟨since, h, by simp, quiet, decided⟩⟩
      | settled earlier =>
          rw [stands] at settled
          exact (ih (stands.trans settled)).append [h]

/-- The timer of a call that waits settles it. -/
theorem Sound.ackTimeout_settles (sound : s.Sound) {call : ℕ} {id command : String}
    (waits : s.standing call = .waiting id command) :
    (s.ackTimeout call id).standing call = .settled (.error ("omp rpc command \"" ++ command
      ++ "\" timed out waiting for acknowledgement")) := by
  have found := (sound.waiting _ _ _).mp waits
  unfold RpcSends.ackTimeout
  rw [found]
  simp only [RpcSends.close, standing, List.foldl_append, List.foldl_cons, List.foldl_nil]
  have folded : s.log.foldl (Standing.after call) .notMade = .waiting id command := waits
  rw [folded]
  simp [Standing.after, Happening.verdict]

/-- Every promise of `send` is settled at most once, with what the log
decides; as long as it is not, its timer is armed and will settle it. A
closed child has nothing pending and no timer armed. -/
theorem settles_once (reach : machine.Reachable Transition.Always s) :
    (∀ call, s.child.settled.filter (fun e => e.1 = call) = (s.standing call).results call) ∧
    (∀ call, s.standing call = .notMade ↔ s.child.sends ≤ call) ∧
    (∀ call result, s.standing call = .settled result → Decided s.log call result) ∧
    (∀ call id command, s.standing call = .waiting id command →
      s.child.pendingResponses.get id = some ⟨command, call⟩ ∧ (call, id) ∈ s.timers ∧
      ∃ t result, s.step (.ackTimeout call id) = some t ∧ t.standing call = .settled result) ∧
    (s.child.closed = true → s.child.pendingResponses.entries = [] ∧ s.timers = []) := by
  have sound := reachable_sound reach
  refine ⟨sound.settled, sound.made, fun _ _ => decided_of_settled, ?_, ?_⟩
  · intro call id command waits
    have armed := (sound.armed call id).mpr ⟨command, waits⟩
    exact ⟨(sound.waiting _ _ _).mp waits, armed, s.ackTimeout call id, _, by simp [step, armed],
      sound.ackTimeout_settles waits⟩
  · intro closed
    have nothing := sound.idle (.inl closed)
    constructor
    · rw [List.eq_nil_iff_forall_not_mem]
      rintro ⟨id, p⟩ mem
      have found := (OrderedMap.mem_entries _).mp mem
      simp [nothing] at found
    · rw [List.eq_nil_iff_forall_not_mem]
      rintro ⟨call, id⟩ mem
      obtain ⟨command, waits⟩ := (sound.armed call id).mp mem
      have found := (sound.waiting _ _ _).mp waits
      simp [nothing] at found

end Invariant

/-- A prompt is sent, the process reports an error, and the response
arrives after all. -/
def errorThenResponse : List Action :=
  [.start ⟨some 100, .running, false⟩, .send ⟨none, some "prompt", "hello"⟩ (.ok ()),
    .error true "read EIO", .response ⟨some "1", "prompt", true, none, none, none⟩]

theorem errorThenResponse_runs :
    ∃ s, machine.Reachable Transition.Always s ∧
      s.child.settled = [(0, .error "read EIO")] ∧
      s.log = [.sent 0 "1" "prompt" none, .error "read EIO",
        .response ⟨some "1", "prompt", true, none, none, none⟩] := by
  have run : (machine.exec Transition.Always (initial "omp" none) errorThenResponse).map
      (fun s => (s.child.settled, s.log)) = some ([(0, .error "read EIO")],
        [.sent 0 "1" "prompt" none, .error "read EIO",
          .response ⟨some "1", "prompt", true, none, none, none⟩]) := by rfl
  obtain ⟨s, run, facts⟩ := Option.map_eq_some_iff.mp run
  obtain ⟨settled, log⟩ := Prod.mk.inj facts
  exact ⟨s, .of_exec ⟨"omp", none, rfl⟩ run, settled, log⟩

/-- Not every promise is settled with the first response that comes before
a timeout, a close and an exit: an error of the process rejects it first. -/
theorem response_may_come_too_late :
    ¬ ∀ s, machine.Reachable Transition.Always s → ∀ before call id command between frame after,
      s.log = before ++ .sent call id command none :: (between ++ .response frame :: after) →
      frame.id = some id →
      (∀ h ∈ between, h ≠ .closing ∧ (∀ other, h ≠ .timedOut other) ∧
        (∀ status, h ≠ .exited status) ∧
        ∀ earlier, h = .response earlier → earlier.id ≠ some id) →
      (call, .ok frame) ∈ s.child.settled := by
  intro literal
  obtain ⟨s, reach, settled, log⟩ := errorThenResponse_runs
  have first := literal s reach [] 0 "1" "prompt" [.error "read EIO"] _ [] log rfl (by simp)
  simp [settled] at first

/-- In that run the promise is settled once, with the error. -/
theorem settles_once_errorThenResponse :
    ∃ s, machine.Reachable Transition.Always s ∧ s.child.sends = 1 ∧
      s.child.settled.filter (fun e => e.1 = 0) = (s.standing 0).results 0 ∧
      s.standing 0 = .settled (.error "read EIO") := by
  obtain ⟨s, reach, settled, log⟩ := errorThenResponse_runs
  obtain ⟨once, made, _⟩ := settles_once reach
  have stands : s.standing 0 = .settled (.error "read EIO") := by
    rw [standing, log]
    rfl
  refine ⟨s, reach, ?_, once 0, stands⟩
  have one := (made 1).mp (by rw [standing, log]; rfl)
  have zero := (made 0).not.mp (by simp [stands])
  omega

end RpcSends

end OmpBundler.Core
