import OmpBundler.Core.IdempotencyStore
import OmpBundler.Core.IngestBuffer
import OmpBundler.Core.Outbound
import OmpBundler.Core.SessionRegistry

/-!
The supervisor: what becomes of an inbound message, and of the frames of a
child.

The supervisor puts the stores, the buffer and the emitters together. Its
code is cut at each `await`: a call of `processInbound` stands in a `Stage`
between two pieces. A piece that
hands events to an emitter is not over before the emitter has run: while the
emitters have code to run nothing else happens, and what the piece does after
that is kept in `agenda`.

A correlation has the number of its emitter. The pool and the children are
not modelled here: what they answer, and which frames a child sends, are part
of the actions, so a lease may be given to anybody at any time. The rows of
the session registry may change at any time as well. The sets of message
identifiers that the source passes to the hooks are written and never read,
so only the direct additions to them are kept. The shutdown is not part of
this machine.
-/

namespace OmpBundler.Core

open Library

/-! ### Data -/

/-- The configuration. No two texts have the same digest, and the identifiers
that the store draws are all different. -/
structure SupervisorOptions where
  emitter : EmitterOptions
  buffer : IngestBufferOptions
  digest : PayloadDigest
  sha256_injective : Function.Injective digest.sha256
  uuid : ℕ ↪ String
  uuid_ne_empty : ∀ n, uuid n ≠ ""

/-- A correlation that is being answered. -/
structure ActiveCorrelation where
  correlationId : String
  conversation : Conversation
  /-- The messages of the correlation. -/
  messageIds : List String
  /-- The child whose lease is held. -/
  lease : Option ChildId
  /-- Queued ambient follow-up runs that have not ended. -/
  pendingFollowUps : ℕ
  /-- Whether a terminal event has been emitted. -/
  terminalEmitted : Bool
  deriving DecidableEq, Repr

/-- Add message identifiers to the set. -/
def ActiveCorrelation.addMessages (corr : ActiveCorrelation) (ids : List String) :
    ActiveCorrelation :=
  { corr with messageIds := corr.messageIds ++ ids.filter (· ∉ corr.messageIds) }

/-- What `processInbound` resolves with. -/
inductive InboundResult where
  | accepted (correlationId : String)
  | duplicate (correlationId : String)
  deriving DecidableEq, Repr

/-- What it rejects with. -/
inductive InboundFailure where
  | conflict (adapterId messageId : String)
  | store (error : StoreError)
  /-- The redelivery of a saved event has rejected. -/
  | redelivery
  /-- `activate` has thrown. -/
  | activation
  deriving DecidableEq, Repr

/-- What a call waits for. -/
inductive Stage where
  /-- Its turn in the chain, and the recovery of its conversation. -/
  | queued
  /-- The abort of the turn that it supersedes. -/
  | superseding (k : ℕ)
  /-- `interruptTurn` to return. -/
  | superseded
  /-- Deliveries that redeliver a saved event. -/
  | redelivering (k : ℕ) (deliveries : List ℕ)
  /-- `flush`, after that. -/
  | flushing (k : ℕ) (delivery : Option ℕ)
  /-- A lease, to append the message passively if there is no mode. -/
  | acquiring (mode : Option ActivationMode)
  /-- The passive append; the lease is its own, if there is one. -/
  | appending (lease : Option ChildId)
  /-- The abort of the turn that a reset interrupts. -/
  | interrupting (k : ℕ)
  /-- The retirement of the child of the conversation. -/
  | retiring
  /-- The prompt of the active correlation. -/
  | prompting (k : ℕ) (mode : ActivationMode)
  | resolved (result : InboundResult)
  | rejected (failure : InboundFailure)
  deriving DecidableEq, Repr

/-- Who has called. -/
inductive Origin where
  | processInbound
  | flushSettled
  deriving DecidableEq, Repr

/-- A call of `processInbound`, or an activation of `flushSettled`; `value` is
the object that the message was read from. -/
structure InboundCall where
  origin : Origin
  adapterId : String
  message : InboundMessage
  value : JsValue
  /-- The correlation of the row, once the store has answered. -/
  correlationId : String
  /-- Whether the call has inserted the row. -/
  created : Bool
  stage : Stage

/-- The conversation of the message. -/
def InboundCall.conversation (c : InboundCall) : Conversation :=
  ⟨c.adapterId, c.message.conversationKey⟩

/-- The row of the message. -/
def InboundCall.key (c : InboundCall) : MessageKey := ⟨c.adapterId, c.message.messageId⟩

/-- Where a recovery stands. -/
inductive RecoveryStage where
  | queued
  | redelivering (k : ℕ) (deliveries : List ℕ)
  | flushing (k : ℕ) (delivery : Option ℕ)
  deriving DecidableEq, Repr

/-- The recovery of a correlation, with the saved terminal if there is one. -/
structure Recovery where
  correlationId : String
  terminal : Option OutboundEvent
  stage : RecoveryStage
  deriving DecidableEq, Repr

/-- Who waits for a redelivery. -/
inductive Waiting where
  | call (i : ℕ)
  | recovery (conversation : Conversation)
  deriving DecidableEq, Repr

/-- How a saved event is redelivered. -/
inductive Redelivery where
  /-- By a delivery of its own. -/
  | fresh
  | resume
  | retry (eventId : String)
  /-- Not at all: it is only confirmed. -/
  | confirm
  /-- `redeliverDurable` has thrown. -/
  | threw
  deriving DecidableEq, Repr

/-- What is left of a piece of code when the emitters have run. -/
inductive Remainder where
  /-- Wait for the deliveries of a redelivery. -/
  | await (who : Waiting) (k : ℕ) (how : Redelivery)
  /-- `flush`, and `close` after it. -/
  | flush (k : ℕ)
  deriving DecidableEq, Repr

/-- What is sent to a child. -/
inductive ChildCommand where
  | prompt (text : String) (steer : Bool)
  | ambientIngest (content : String) (triggerTurn : Bool)
  | abort
  deriving DecidableEq, Repr

/-- The supervisor and what it has put together. -/
structure Supervisor where
  out : Outbound
  idempotency : IdempotencyStore
  buffer : IngestBuffer
  sessions : SessionRegistry
  correlationOf : ℕ → ActiveCorrelation
  active : Conversation → Option ℕ
  callOf : ℕ → Option InboundCall
  inboundChains : Conversation → List ℕ
  /-- The activations of each sweep, which run one after the other. -/
  sweeps : List (List ℕ)
  recoveryChains : Conversation → List Recovery
  /-- How deliveries have settled: whether they were fulfilled. -/
  settledAs : ℕ → Option Bool
  /-- The last delivery of each chain. -/
  tailOf : ℕ → Option ℕ
  /-- The emitters that are closed once a delivery has settled. -/
  closers : List (ℕ × Option ℕ)
  agenda : List Remainder
  /-- Whether the hook of a confirmation has thrown. -/
  threw : Bool
  /-- Whether `recoverPending` has been called. -/
  recovered : Bool
  nextCall : ℕ
  nextCorrelation : ℕ
  /-- What was sent to the children. -/
  commands : List (ChildId × ChildCommand)

namespace Supervisor

/-- Two empty databases, and nothing in memory. -/
def initial : Supervisor where
  out := .initial
  idempotency := .empty
  buffer := .empty
  sessions := ⟨fun _ => none, fun _ => none⟩
  correlationOf _ := ⟨"", ⟨"", ""⟩, [], none, 0, false⟩
  active _ := none
  callOf _ := none
  inboundChains _ := []
  sweeps := []
  recoveryChains _ := []
  settledAs _ := none
  tailOf _ := none
  closers := []
  agenda := []
  threw := false
  recovered := false
  nextCall := 0
  nextCorrelation := 0
  commands := []

/-! ### Updates -/

@[simps -fullyApplied]
def setCall (s : Supervisor) (i : ℕ) (c : InboundCall) : Supervisor :=
  { s with callOf := Function.update s.callOf i (some c) }

@[simps -fullyApplied]
def setCorrelation (s : Supervisor) (k : ℕ) (corr : ActiveCorrelation) : Supervisor :=
  { s with correlationOf := Function.update s.correlationOf k corr }

/-- Leave something to do for when the emitters have run. -/
@[simps -fullyApplied]
def later (s : Supervisor) (task : Remainder) : Supervisor := { s with agenda := s.agenda ++ [task] }

@[simps -fullyApplied]
def send (s : Supervisor) (child : ChildId) (command : ChildCommand) : Supervisor :=
  { s with commands := s.commands ++ [(child, command)] }

/-- A call of `processInbound` is over: the next one of its conversation may
start. -/
def finish (s : Supervisor) (i : ℕ) (c : InboundCall) (stage : Stage) : Supervisor :=
  { s.setCall i { c with stage } with
    inboundChains := Function.update s.inboundChains c.conversation
      ((s.inboundChains c.conversation).filter (· ≠ i))
    sweeps := s.sweeps.map fun l => l.filter (· ≠ i) }

def resolve (s : Supervisor) (i : ℕ) (c : InboundCall) (result : InboundResult) : Supervisor :=
  s.finish i c (.resolved result)

def reject (s : Supervisor) (i : ℕ) (c : InboundCall) (failure : InboundFailure) : Supervisor :=
  s.finish i c (.rejected failure)

/-! ### Emitters -/

variable (o : SupervisorOptions)

/-- Call a method of an emitter. -/
def emit (s : Supervisor) (k : ℕ) (now : ℤ) (m : OutboundEmitter.Call) : Supervisor :=
  match s.out.emitterOf k with
  | none => s
  | some e => { s with out := s.out.call o.emitter k e now m }

/-- `close` of an emitter. -/
def closeEmitter (s : Supervisor) (k : ℕ) : Supervisor :=
  match s.out.emitterOf k with
  | none => s
  | some e => { s with out := s.out.setEmitter k { e with closed := true } }

/-- Make an emitter for a correlation, and make that the active one of its
conversation. -/
def register (s : Supervisor) (corr : ActiveCorrelation) : Supervisor :=
  { s.setCorrelation s.out.nextEmitter corr with
    out := s.out.create o.emitter corr.conversation.adapterId corr.conversation.conversationKey
      corr.correlationId
    active := Function.update s.active corr.conversation (some s.out.nextEmitter) }

/-- The active correlation of a conversation is used if there is one, and else
a new one. -/
def ensureActive (s : Supervisor) (corr : ActiveCorrelation) : Supervisor :=
  match s.active corr.conversation with
  | some _ => s
  | none => s.register o corr

def recordInteraction (s : Supervisor) (conversation : Conversation) (now : ℤ) : Supervisor :=
  { s with
    buffer := (s.buffer.recordInteraction o.buffer now conversation.adapterId
      conversation.conversationKey).2 }

/-! ### The end of a turn -/

/-- Release the lease and remove the active state; the emitter is flushed and
closed. -/
def cleanupCorrelation (s : Supervisor) (k : ℕ) : Supervisor :=
  let corr := s.correlationOf k
  ({ s.setCorrelation k { corr with lease := none } with
    active :=
      if s.active corr.conversation = some k then Function.update s.active corr.conversation none
      else s.active }).later (.flush k)

/-- Claim the terminal of a correlation. -/
def claimTerminal (s : Supervisor) (k : ℕ) : Supervisor :=
  s.setCorrelation k { s.correlationOf k with terminalEmitted := true }

/-- A child has failed: one terminal for the turn in flight. -/
def failCorrelation (s : Supervisor) (conversation : Conversation) (now : ℤ) : Supervisor :=
  match s.active conversation with
  | none => s
  | some k =>
      if (s.correlationOf k).terminalEmitted then s
      else
        (((s.claimTerminal k).emit o k now (.emitPresence .offline)).emit o k now
          (.emitProviderError "agent_unavailable"
            "Agent process stopped before completing the turn" true)).cleanupCorrelation k

/-- The supervisor's side of `agent_end`. -/
def handleAgentEnd (s : Supervisor) (k : ℕ) : Supervisor :=
  if (s.correlationOf k).terminalEmitted then s else (s.claimTerminal k).cleanupCorrelation k

/-- Route a frame to the active correlation. -/
def handleChildEvent (s : Supervisor) (conversation : Conversation) (now : ℤ)
    (frame : RpcEventFrame) : Supervisor :=
  match s.active conversation with
  | none => s
  | some k =>
      let corr := s.correlationOf k
      match frame with
      | .agentEnd _ =>
          -- the run of a queued follow-up is still to come
          if 0 < corr.pendingFollowUps then
            s.setCorrelation k { corr with pendingFollowUps := corr.pendingFollowUps - 1 }
          else
            ((s.emit o k now (.emitPresence .idle)).emit o k now (.ingest frame)).handleAgentEnd k
      | .turnStart =>
          ((s.emit o k now (.ingest frame)).emit o k now (.emitPresence .active)).recordInteraction
            o corr.conversation now
      | .messageUpdate _ =>
          (s.emit o k now (.ingest frame)).recordInteraction o corr.conversation now
      | _ => s.emit o k now (.ingest frame)

/-- `interruptTurn` up to its `await`: the cancellation comes before the
abort. -/
def interruptTurn (s : Supervisor) (k : ℕ) (now : ℤ) : Supervisor :=
  let s := (s.emit o k now .emitCancelled).claimTerminal k
  match (s.correlationOf k).lease with
  | none => s
  | some child => s.send child .abort

/-- A message that was accepted cannot be processed: end its correlation, or
the one that is active. -/
def terminalizeAcceptedInbound (s : Supervisor) (c : InboundCall) (correlationId : String)
    (now : ℤ) : Supervisor :=
  if ((s.idempotency.getEntry c.key).bind (·.response)).isSome then s
  else
    let s := s.ensureActive o
      { correlationId
        conversation := c.conversation
        messageIds := (s.idempotency.getEntriesByCorrelation c.adapterId correlationId).map
          (·.1.messageId)
        lease := none
        pendingFollowUps := 0
        terminalEmitted := false }
    match s.active c.conversation with
    | none => s
    | some k =>
        if (s.correlationOf k).terminalEmitted then s
        else
          let s := (s.setCorrelation k ((s.correlationOf k).addMessages
            [c.message.messageId])).claimTerminal k
          (s.emit o k now (.emitProviderError "agent_unavailable"
            "Agent process could not accept the message" true)).cleanupCorrelation k

/-! ### Redelivery -/

/-- Which way `redeliverDurable` takes. -/
def redeliveryOf (s : Supervisor) (k : ℕ) (event : OutboundEvent) : Redelivery :=
  match s.out.emitterOf k with
  | none => .threw
  | some e =>
      if e.closed then .threw
      else
        match s.out.rowOf e event.eventId with
        | none => .fresh
        | some row =>
            if row.event ≠ event then .threw
            else
              match row.status with
              | .pending => .resume
              | .permanentFailure => .retry event.eventId
              | .delivered => .confirm

/-- Call `redeliverDurable`. -/
def redeliver (s : Supervisor) (who : Waiting) (k : ℕ) (event : OutboundEvent) : Supervisor :=
  let how := s.redeliveryOf k event
  match s.out.emitterOf k with
  | none => s.later (.await who k how)
  | some e => { s with out := s.out.redeliverDurable k e event }.later (.await who k how)

/-- The deliveries that a redelivery waits for, if it has not thrown. -/
def awaited (s : Supervisor) (k : ℕ) : Redelivery → Option (List ℕ)
  | .fresh => some (s.tailOf k).toList
  | .resume => some (((s.out.chainOf k).resuming).getD [])
  | .retry eventId =>
      ((s.out.chainOf k).retrying.find? fun r => r.1 = eventId).map fun r => [r.2]
  | .confirm => if s.threw then none else some []
  | .threw => none

/-- Redeliver a saved or failed terminal, through the emitter that is active
or else through one of its own. -/
def redeliverSaved (s : Supervisor) (i : ℕ) (c : InboundCall) (response : Option OutboundEvent) :
    Supervisor :=
  let ids := (s.idempotency.getEntriesByCorrelation c.adapterId c.correlationId).map
    (·.1.messageId)
  let s := s.ensureActive o
    { correlationId := c.correlationId
      conversation := c.conversation
      messageIds := ids
      lease := none
      pendingFollowUps := 0
      terminalEmitted := true }
  match s.active c.conversation, response with
  | some k, some event =>
      ((s.setCorrelation k ((s.correlationOf k).addMessages ids)).setCall i c).redeliver (.call i)
        k event
  | _, _ => s.reject i c .redelivery

/-! ### Activation -/

/-- The messages that core answers itself by starting a new session. -/
def isSessionReset (text : String) : Bool :=
  let command := (JsString.trimChars text.toList).map Char.toLower
  command = "/new".toList || command = "/reset".toList

/-- `activate` has thrown. -/
def failActivation (s : Supervisor) (i : ℕ) (c : InboundCall) (now : ℤ) : Supervisor :=
  match c.origin with
  | .processInbound =>
      (s.terminalizeAcceptedInbound o c c.correlationId now).resolve i c
        (.accepted c.correlationId)
  | .flushSettled => s.reject i c .activation

/-- The message as the child is to read it. -/
def promptText (c : InboundCall) (now : ℤ) : String :=
  renderRecord (toRecord c.adapterId c.message now)

/-- `activate` with a correlation: prompt its child, or append an ambient
follow-up that triggers a turn. -/
def dispatch (s : Supervisor) (i : ℕ) (c : InboundCall) (k : ℕ) (mode : ActivationMode) (now : ℤ) :
    Supervisor :=
  let s := s.recordInteraction o c.conversation now
  match (s.correlationOf k).lease with
  | none => s.failActivation o i c now
  | some child =>
      let s := s.setCall i { c with stage := .prompting k mode }
      match mode with
      | .prompt => s.send child (.prompt (promptText c now) false)
      | .steer => s.send child (.prompt (promptText c now) true)
      | .followUp =>
          (s.setCorrelation k { s.correlationOf k with
            pendingFollowUps := (s.correlationOf k).pendingFollowUps + 1 }).send child
              (.ambientIngest (promptText c now) true)

/-- `handleSessionReset` up to its first `await`. -/
def handleSessionReset (s : Supervisor) (i : ℕ) (c : InboundCall) (now : ℤ) : Supervisor :=
  match s.active c.conversation with
  | some k => (s.interruptTurn o k now).setCall i { c with stage := .interrupting k }
  | none => s.setCall i { c with stage := .retiring }

/-- The rest of `handleSessionReset`, once the child of the conversation is
retired: drop the mapping and answer. -/
def finishSessionReset (s : Supervisor) (i : ℕ) (c : InboundCall) (now : ℤ) : Supervisor :=
  let existed := (s.sessions.getRaw c.conversation).isSome
  let s := { s with sessions := s.sessions.forget c.conversation }
  let s := s.recordInteraction o c.conversation now
  let k := s.out.nextEmitter
  let s := s.register o
    { correlationId := c.correlationId
      conversation := c.conversation
      messageIds := [c.message.messageId]
      lease := none
      pendingFollowUps := 0
      terminalEmitted := false }
  let s := s.emit o k now (.emitDirectReply
    (if existed then "Started a new session. Earlier messages are no longer in context."
      else "Already on a new session."))
  ((s.claimTerminal k).cleanupCorrelation k).resolve i c (.accepted c.correlationId)

/-- `activate` up to its first `await`. -/
def activate (s : Supervisor) (i : ℕ) (c : InboundCall) (mode : ActivationMode) (now : ℤ) :
    Supervisor :=
  if isSessionReset c.message.text then s.handleSessionReset o i c now
  else
    match s.active c.conversation with
    | none => s.setCall i { c with stage := .acquiring (some mode) }
    | some k =>
        (s.setCorrelation k ((s.correlationOf k).addMessages [c.message.messageId])).dispatch o i c
          k mode now

/-- `activate` with the lease that it has waited for. -/
def activateWith (s : Supervisor) (i : ℕ) (c : InboundCall) (mode : ActivationMode)
    (child : ChildId) (now : ℤ) : Supervisor :=
  (s.register o
    { correlationId := c.correlationId
      conversation := c.conversation
      messageIds := [c.message.messageId]
      lease := some child
      pendingFollowUps := 0
      terminalEmitted := false }).dispatch o i c s.out.nextEmitter mode now

/-! ### Inbound messages -/

/-- Whether a turn is in flight. -/
def isStreaming (s : Supervisor) (conversation : Conversation) : Bool :=
  (s.active conversation).any fun k => (s.correlationOf k).lease.isSome

/-- Append a message passively: on the child of the active correlation, or on
one that is leased for it. -/
def appendPassiveMessage (s : Supervisor) (i : ℕ) (c : InboundCall) (now : ℤ) : Supervisor :=
  match (s.active c.conversation).bind fun k => (s.correlationOf k).lease with
  | some child =>
      (s.setCall i { c with stage := .appending none }).send child
        (.ambientIngest (promptText c now) false)
  | none => s.setCall i { c with stage := .acquiring none }

/-- A new message goes through the buffer. -/
def ingest (s : Supervisor) (i : ℕ) (c : InboundCall) (now : ℤ) : Supervisor :=
  match s.buffer.ingest o.buffer now c.adapterId c.message (s.isStreaming c.conversation) with
  | (.buffered _ _, buffer) => { s with buffer }.appendPassiveMessage i c now
  | (.activate mode _ _, buffer) => { s with buffer }.activate o i c mode now

/-- The error of a message that could not be begun. -/
def beginFailure (c : InboundCall) : StoreError → InboundFailure
  | .idempotencyConflict _ _ _ _ => .conflict c.adapterId c.message.messageId
  | error => .store error

/-- The switch of `processInboundSerial`. -/
def classify (s : Supervisor) (i : ℕ) (c : InboundCall) (now : ℤ) : Supervisor :=
  let activeCorrelation := (s.active c.conversation).map fun k => (s.correlationOf k).correlationId
  match s.idempotency.beginInbound o.digest now (o.uuid s.nextCorrelation) c.adapterId c.message
      c.value activeCorrelation with
  | (.error error, _) => s.reject i c (beginFailure c error)
  | (.ok begun, idempotency) =>
      let s := { s with idempotency, nextCorrelation := s.nextCorrelation + 1 }
      let c := { c with correlationId := begun.correlationId }
      match begun with
      | .alreadySent correlationId => s.resolve i c (.duplicate correlationId)
      | .responseSaved _ response | .deliveryFailed _ response _ =>
          s.redeliverSaved o i c response
      | .pending correlationId =>
          let s :=
            if activeCorrelation = none ∧
                (s.idempotency.getEntry c.key).map (·.ingestState) = some .pending then
              s.terminalizeAcceptedInbound o c correlationId now
            else s
          s.resolve i c (.duplicate correlationId)
      | .created _ => s.ingest o i { c with created := true } now

/-- The begin of `processInboundSerial`: an addressed message supersedes the
turn in flight before its correlation is chosen. -/
def processInboundSerial (s : Supervisor) (i : ℕ) (c : InboundCall) (now : ℤ) : Supervisor :=
  match s.active c.conversation with
  | some k =>
      if c.message.addressed ∧ (s.correlationOf k).terminalEmitted = false then
        (s.interruptTurn o k now).setCall i { c with stage := .superseding k }
      else s.classify o i c now
  | none => s.classify o i c now

/-- An activation of `flushSettled`. -/
def activateSettled (s : Supervisor) (i : ℕ) (c : InboundCall) (now : ℤ) : Supervisor :=
  match s.idempotency.beginInbound o.digest now (o.uuid s.nextCorrelation) c.adapterId c.message
      c.value none with
  | (.error error, _) => s.reject i c (beginFailure c error)
  | (.ok begun, idempotency) =>
      { s with idempotency, nextCorrelation := s.nextCorrelation + 1 }.activate o i
        { c with correlationId := begun.correlationId } .prompt now

/-- The message that `flushSettled` makes of a backlog, as an object. -/
def settledValue (m : InboundMessage) : JsValue :=
  .object [("messageId", .string m.messageId), ("conversationKey", .string m.conversationKey),
    ("speaker", .object [("id", .string m.speaker.id),
      ("displayName", .string m.speaker.displayName)]),
    ("text", .string m.text), ("attachments", .array []), ("addressed", .bool m.addressed)]

/-- The activation of a backlog that has settled. -/
def settledCall (settled : SettledActivation) : Option InboundCall :=
  settled.records.getLast?.map fun last =>
    let message : InboundMessage :=
      { messageId := last.messageId
        conversationKey := settled.conversationKey
        parentConversationKey := none
        speaker := last.speaker
        text := settled.prompt
        attachments := []
        addressed := false }
    { origin := .flushSettled
      adapterId := settled.adapterId
      message
      value := settledValue message
      correlationId := ""
      created := false
      stage := .queued }

/-- Append calls; the numbers of the new ones follow each other. -/
def addCalls (s : Supervisor) (calls : List InboundCall) : Supervisor :=
  { s with
    callOf := fun i =>
      if i < s.nextCall then s.callOf i else calls[i - s.nextCall]?
    nextCall := s.nextCall + calls.length }

/-- Release the backlogs that have settled, and activate them one after the
other. -/
def flushSettled (s : Supervisor) (now : ℤ) : Supervisor :=
  let swept := s.buffer.sweepSettled o.buffer now
  let calls := swept.1.filterMap settledCall
  { { s with buffer := swept.2 }.addCalls calls with
    sweeps := s.sweeps ++ [(List.range calls.length).map (s.nextCall + ·)] }

/-- `processInbound` up to its first `await`; the caller has validated the
message. -/
def processInbound (s : Supervisor) (adapterId : String) (m : ValidatedMessage) : Supervisor :=
  let c : InboundCall :=
    { origin := .processInbound
      adapterId
      message := m.message
      value := m.value
      correlationId := ""
      created := false
      stage := .queued }
  { s.addCalls [c] with
    inboundChains := Function.update s.inboundChains c.conversation
      (s.inboundChains c.conversation ++ [s.nextCall]) }

/-- Whether it is the call's turn. -/
def mayStart (s : Supervisor) (i : ℕ) (c : InboundCall) : Bool :=
  match c.origin with
  | .processInbound =>
      (s.inboundChains c.conversation).head? = some i && s.recoveryChains c.conversation = []
  | .flushSettled => s.sweeps.any fun l => l.head? = some i

/-- The acknowledgement of a prompt: ingest is complete, unless a terminal
event has completed it before. -/
def completePrompt (s : Supervisor) (i : ℕ) (c : InboundCall) (now : ℤ) : Supervisor :=
  let idempotency :=
    if (s.idempotency.getEntry c.key).map (·.ingestState) = some .pending then
      (s.idempotency.markIngestComplete now c.key).2
    else s.idempotency
  { s with idempotency }.resolve i c (.accepted c.correlationId)

/-- The acknowledgement of a passive append. -/
def completeAppend (s : Supervisor) (i : ℕ) (c : InboundCall) (now : ℤ) : Supervisor :=
  match s.idempotency.markIngestComplete now c.key with
  | (.ok _, idempotency) => { s with idempotency }.resolve i c (.accepted c.correlationId)
  | (.error error, idempotency) => { s with idempotency }.reject i c (.store error)

/-- The rejection of a prompt. -/
def failPrompt (s : Supervisor) (i : ℕ) (c : InboundCall) (k : ℕ) (mode : ActivationMode)
    (now : ℤ) : Supervisor :=
  let corr := s.correlationOf k
  let s :=
    if mode = .followUp ∧ 0 < corr.pendingFollowUps then
      s.setCorrelation k { corr with pendingFollowUps := corr.pendingFollowUps - 1 }
    else s
  s.failActivation o i c now

/-- A message could not be appended passively. -/
def failAppend (s : Supervisor) (i : ℕ) (c : InboundCall) (now : ℤ) : Supervisor :=
  (s.terminalizeAcceptedInbound o c c.correlationId now).resolve i c (.accepted c.correlationId)

/-! ### Recovery -/

/-- The correlations that are to be recovered, with their conversations: those
with pending events, and those with saved responses. -/
def recoverable (s : Supervisor) : List ((String × String) × String) :=
  let pending := (s.out.outbox.filter (·.status = .pending)).map fun row =>
    ((row.adapterId, row.event.correlationId), row.event.conversationKey)
  let sorted := pending.insertionSort fun a b =>
    a.1.1 < b.1.1 ∨ (a.1.1 = b.1.1 ∧ a.1.2 ≤ b.1.2)
  let saved := (s.idempotency.rows.entries.filter (·.2.deliveryState = .saved)).map fun e =>
    ((e.1.adapterId, e.2.correlationId), e.2.conversationKey)
  ((sorted ++ saved).foldl (fun m e => m.set e.1 e.2) OrderedMap.empty).entries

/-- The recovery of a correlation that has rows. -/
def recoveryOf (s : Supervisor) (adapterId correlationId : String) : Option Recovery :=
  let entries := s.idempotency.getEntriesByCorrelation adapterId correlationId
  if entries = [] then none
  else
    some
      { correlationId
        terminal := entries.findSome? fun e =>
          if e.2.deliveryState = .saved then e.2.response else none
        stage := .queued }

/-- `recoverPending` up to its `await`. -/
def recoverPending (s : Supervisor) : Supervisor :=
  { s with
    recovered := true
    recoveryChains := fun conversation =>
      s.recoverable.filterMap fun e =>
        if (⟨e.1.1, e.2⟩ : Conversation) = conversation then s.recoveryOf e.1.1 e.1.2 else none }

/-- The first recovery of a conversation begins. -/
def beginRecovery (s : Supervisor) (conversation : Conversation) (r : Recovery) : Supervisor :=
  let k := s.out.nextEmitter
  let s := { s with
    out := s.out.create o.emitter conversation.adapterId conversation.conversationKey
      r.correlationId }
  match r.terminal with
  | some event => s.redeliver (.recovery conversation) k event
  | none =>
      match s.out.emitterOf k with
      | none => s
      | some e =>
          { s with out := s.out.resumePending k e }.later
            (.await (.recovery conversation) k .resume)

/-- The first recovery of a conversation is over. -/
def endRecovery (s : Supervisor) (conversation : Conversation) (k : ℕ) : Supervisor :=
  { s.closeEmitter k with
    recoveryChains := Function.update s.recoveryChains conversation
      (s.recoveryChains conversation).tail }

/-- Put the first recovery of a conversation into a stage. -/
def setRecovery (s : Supervisor) (conversation : Conversation) (stage : RecoveryStage) :
    Supervisor :=
  { s with
    recoveryChains := Function.update s.recoveryChains conversation
      (match s.recoveryChains conversation with
      | [] => []
      | r :: rest => { r with stage } :: rest) }

/-! ### Waiting for deliveries -/

/-- What `await` of several deliveries comes to: an error as soon as one of
them is rejected. -/
def joined (s : Supervisor) (deliveries : List ℕ) : Option Bool :=
  if deliveries.any fun d => s.settledAs d = some false then some false
  else if deliveries.all fun d => s.settledAs d = some true then some true
  else none

/-- A redelivery goes to wait for its deliveries; if it has thrown, the call
is rejected and a recovery is over. -/
def awaitRedelivery (s : Supervisor) (k : ℕ) (how : Redelivery) : Waiting → Supervisor
  | .call i =>
      match s.callOf i with
      | none => s
      | some c =>
          match s.awaited k how with
          | some deliveries => s.setCall i { c with stage := .redelivering k deliveries }
          | none => s.reject i c .redelivery
  | .recovery conversation =>
      match s.awaited k how with
      | some deliveries => s.setRecovery conversation (.redelivering k deliveries)
      | none => s.endRecovery conversation k

/-- The next task. -/
def perform (s : Supervisor) : Remainder → Supervisor
  | .await who k how => { s.awaitRedelivery k how who with threw := false }
  | .flush k => { s with closers := s.closers ++ [(k, s.tailOf k)] }

/-- The end of `redeliverSaved`: a correlation without a lease was there for
the redelivery only. -/
def endRedelivery (s : Supervisor) (i : ℕ) (c : InboundCall) (k : ℕ) : Supervisor :=
  let corr := s.correlationOf k
  let s :=
    if corr.lease = none then
      { s.closeEmitter k with
        active :=
          if s.active corr.conversation = some k then
            Function.update s.active corr.conversation none
          else s.active }
    else s
  s.resolve i c (.duplicate c.correlationId)

/-- A call that waits for deliveries goes on. -/
def resumeCall (s : Supervisor) (i : ℕ) (c : InboundCall) : Option Supervisor :=
  match c.stage with
  | .redelivering k deliveries =>
      (s.joined deliveries).map fun fulfilled =>
        if fulfilled then s.setCall i { c with stage := .flushing k (s.tailOf k) }
        else s.reject i c .redelivery
  | .flushing k delivery =>
      (s.joined delivery.toList).map fun fulfilled =>
        if fulfilled then s.endRedelivery i c k else s.reject i c .redelivery
  | _ => none

/-- The first recovery of a conversation goes on. -/
def resumeRecovery (s : Supervisor) (conversation : Conversation) : Option Supervisor :=
  (s.recoveryChains conversation).head?.bind fun r =>
    match r.stage with
    | .queued => none
    | .redelivering k deliveries =>
        (s.joined deliveries).map fun fulfilled =>
          if fulfilled then s.setRecovery conversation (.flushing k (s.tailOf k))
          else s.endRecovery conversation k
    | .flushing k delivery =>
        (s.joined delivery.toList).map fun _ => s.endRecovery conversation k

end Supervisor

end OmpBundler.Core
