import OmpBundler.Core.Supervisor

/-!
The supervisor as a machine.

While an emitter has code to run it runs, with the hooks of the supervisor;
then comes what is left of the piece of code that has called it; and then
anything may happen that somebody waits for.

An insert never throws here: the identifiers of events are drawn afresh, and
the emitter of an active correlation is open.
-/

namespace OmpBundler.Core

open Library

namespace Supervisor

variable (o : SupervisorOptions)

/-! ### Deliveries and their hooks -/

/-- What a store error says. -/
def errorText : StoreError → String
  | .idempotencyConflict adapterId messageId incomingHash existingHash =>
      "idempotency conflict for adapter=\"" ++ adapterId ++ "\" message=\"" ++ messageId
        ++ "\" (incoming sha256=" ++ incomingHash ++ ", existing sha256=" ++ existingHash ++ ")"
  | .invalidStateTransition _ _ detail => detail
  | .error message => message

/-- The events that the hooks of the supervisor do not ignore. -/
def isAnswer : EventBody → Bool
  | .turnReply _ _ _ | .turnError _ _ _ => true
  | _ => false

/-- The answer of a hook, and the store after it. -/
def hookAnswer (performed : Except StoreError Unit × IdempotencyStore) :
    Except String Unit × IdempotencyStore :=
  (match performed.1 with
    | .ok _ => .ok ()
    | .error error => .error (errorText error), performed.2)

/-- The hooks of an emitter. -/
def hook (s : Supervisor) (now : ℤ) (e : OutboundEmitter) :
    Op → Except String Unit × IdempotencyStore
  | .emit _ event | .deliver _ event | .prepareRetry _ event =>
      if isAnswer event.body then
        hookAnswer (s.idempotency.saveResponseForCorrelation now e.adapterId e.correlationId event)
      else (.ok (), s.idempotency)
  | .confirm _ event | .delivered _ event =>
      if isAnswer event.body then
        hookAnswer (s.idempotency.markCorrelationSent now e.adapterId e.correlationId event.eventId)
      else (.ok (), s.idempotency)
  | .failed _ event error =>
      if isAnswer event.body then
        hookAnswer (s.idempotency.markCorrelationFailed now e.adapterId e.correlationId
          event.eventId error)
      else (.ok (), s.idempotency)
  | .insert _ _ | .retry _ _ => (.ok (), s.idempotency)

/-- Whether a delivery that settles is fulfilled. -/
def isFulfilled (a : Outbound.Action) : Payload → Bool
  | .rejection => false
  | .bestEffort _ => true
  | .durable _ _ =>
      match a with
      | .run (.ok _) => true
      | _ => false

/-- Let the emitters take a step that concerns one chain, and remember how its
first delivery settles and which one is its last. -/
def moved (s : Supervisor) (k : ℕ) (a : Outbound.Action) (out : Outbound) : Supervisor :=
  { s with
    out
    settledAs :=
      match (s.out.chainOf k).deliveries with
      | [] => s.settledAs
      | d :: _ =>
          if d ∈ (out.chainOf k).deliveries then s.settledAs
          else Function.update s.settledAs d.id (some (isFulfilled a d.payload))
    tailOf :=
      match (out.chainOf k).deliveries.getLast? with
      | none => s.tailOf
      | some d => Function.update s.tailOf k (some d.id) }

/-- The next piece of an emitter's code, with the hook that it calls. -/
def runEmitter (s : Supervisor) (now : ℤ) : Option Supervisor :=
  match s.out.todo with
  | [] => none
  | op :: _ =>
      (s.out.emitterOf op.emitter).bind fun e =>
        let answer := s.hook now e op
        (s.out.step o.emitter (.run answer.1)).map fun out =>
          { s.moved op.emitter (.run answer.1) out with
            idempotency := answer.2
            threw :=
              match op, answer.1 with
              | .confirm _ _, .error _ => true
              | _, _ => s.threw }

/-! ### The machine -/

/-- What may happen to the first delivery of a chain. -/
inductive DeliveryEvent where
  | begin
  | wake
  | answer (response : Response)
  deriving DecidableEq, Repr

/-- The action of the emitters. -/
def DeliveryEvent.action (k : ℕ) : DeliveryEvent → Outbound.Action
  | .begin => .begin k
  | .wake => .wake k
  | .answer response => .answer k response

/-- One uninterrupted piece of code. -/
inductive Action where
  | recoverPending
  | beginRecovery (conversation : Conversation)
  | resumeRecovery (conversation : Conversation)
  | processInbound (adapterId : String) (m : ValidatedMessage)
  /-- It is the call's turn. -/
  | start (i : ℕ) (now : ℤ)
  /-- The child has answered an abort, or is gone. -/
  | aborted (i : ℕ)
  /-- `interruptTurn` has returned to `processInboundSerial`. -/
  | superseded (i : ℕ) (now : ℤ)
  /-- The pool has answered. -/
  | acquired (i : ℕ) (now : ℤ) (answer : Except String ChildId)
  /-- The child has answered a passive append. -/
  | appended (i : ℕ) (now : ℤ) (answer : Reply)
  /-- The child has answered a prompt. -/
  | prompted (i : ℕ) (now : ℤ) (answer : Reply)
  /-- `retireConversation` has returned. -/
  | retired (i : ℕ) (now : ℤ) (answer : Reply)
  | resumeCall (i : ℕ)
  | frame (conversation : Conversation) (now : ℤ) (frame : RpcEventFrame)
  /-- The child has exited or reported an error. -/
  | childFailed (conversation : Conversation) (now : ℤ)
  | flushSettled (now : ℤ)
  | dismissEngagement (conversation : Conversation) (now : ℤ)
  /-- The pool writes to the session registry. -/
  | writeSessions (sessions : SessionRegistry)
  | deliver (k : ℕ) (event : DeliveryEvent)
  /-- An emitter that has been flushed is closed. -/
  | close (k : ℕ) (delivery : Option ℕ)
  /-- The next piece of an emitter's code. -/
  | run (now : ℤ)
  /-- The next task. -/
  | remainder
  /-- The process dies, and another one takes over. -/
  | crash

/-- The databases outlive the process. -/
def crash (s : Supervisor) : Supervisor :=
  { s with
    out := s.out.crash
    buffer := .empty
    active := fun _ => none
    callOf := fun _ => none
    inboundChains := fun _ => []
    sweeps := []
    recoveryChains := fun _ => []
    closers := []
    agenda := []
    threw := false
    recovered := false }

/-- What an action does when no code is running. -/
def react (s : Supervisor) : Action → Option Supervisor
  | .recoverPending => if s.recovered then none else some s.recoverPending
  | .beginRecovery conversation =>
      match s.recoveryChains conversation with
      | r :: _ => if r.stage = .queued then some (s.beginRecovery o conversation r) else none
      | [] => none
  | .resumeRecovery conversation => s.resumeRecovery conversation
  | .processInbound adapterId m =>
      if s.recovered then some (s.processInbound adapterId m) else none
  | .start i now =>
      (s.callOf i).bind fun c =>
        if c.stage = .queued ∧ s.mayStart i c = true then
          match c.origin with
          | .processInbound => some (s.processInboundSerial o i c now)
          | .flushSettled => some (s.activateSettled o i c now)
        else none
  | .aborted i =>
      (s.callOf i).bind fun c =>
        match c.stage with
        | .superseding k =>
            some ((s.cleanupCorrelation k).setCall i { c with stage := .superseded })
        | .interrupting k =>
            some ((s.cleanupCorrelation k).setCall i { c with stage := .retiring })
        | _ => none
  | .superseded i now =>
      (s.callOf i).bind fun c =>
        if c.stage = .superseded then some (s.classify o i c now) else none
  | .acquired i now answer =>
      (s.callOf i).bind fun c =>
        match c.stage, answer with
        | .acquiring none, .ok child =>
            some ((s.setCall i { c with stage := .appending (some child) }).send child
              (.ambientIngest (promptText c now) false))
        | .acquiring none, .error _ => some (s.failAppend o i c now)
        | .acquiring (some mode), .ok child => some (s.activateWith o i c mode child now)
        | .acquiring (some _), .error _ => some (s.failActivation o i c now)
        | _, _ => none
  | .appended i now answer =>
      (s.callOf i).bind fun c =>
        match c.stage, answer with
        | .appending _, .done => some (s.completeAppend i c now)
        | .appending _, .failed _ => some (s.failAppend o i c now)
        | _, _ => none
  | .prompted i now answer =>
      (s.callOf i).bind fun c =>
        match c.stage, answer with
        | .prompting _ _, .done => some (s.completePrompt i c now)
        | .prompting k mode, .failed _ => some (s.failPrompt o i c k mode now)
        | _, _ => none
  | .retired i now answer =>
      (s.callOf i).bind fun c =>
        match c.stage, answer with
        | .retiring, .done => some (s.finishSessionReset o i c now)
        | .retiring, .failed _ => some (s.failActivation o i c now)
        | _, _ => none
  | .resumeCall i => (s.callOf i).bind fun c => s.resumeCall i c
  | .frame conversation now frame => some (s.handleChildEvent o conversation now frame)
  | .childFailed conversation now => some (s.failCorrelation o conversation now)
  | .flushSettled now => some (s.flushSettled o now)
  | .dismissEngagement conversation now =>
      some { s with
        buffer := (s.buffer.dismiss now conversation.adapterId conversation.conversationKey).2 }
  | .writeSessions sessions => some { s with sessions }
  | .deliver k event =>
      (s.out.step o.emitter (event.action k)).map fun out => s.moved k (event.action k) out
  | .close k delivery =>
      if (k, delivery) ∈ s.closers ∧ (s.joined delivery.toList).isSome then
        some { s.closeEmitter k with closers := s.closers.erase (k, delivery) }
      else none
  | .run _ | .remainder | .crash => none

/-- What an action does; code that runs is interrupted by the death of the
process only. -/
def step (s : Supervisor) : Action → Option Supervisor
  | .crash => some s.crash
  | .run now => s.runEmitter o now
  | .remainder =>
      match s.out.todo, s.agenda with
      | [], task :: rest => some ({ s with agenda := rest }.perform task)
      | _, _ => none
  | a => if s.out.todo = [] ∧ s.agenda = [] then s.react o a else none

/-- The supervisor as a machine. -/
def machine : Transition.Machine Supervisor Action where
  init s := s = initial
  step := step o

end Supervisor

end OmpBundler.Core
