import OmpBundler.Pumble.DeliveryStore

/-!
The outbound renderer of the Pumble adapter.

An event is rendered by one call of `render`, under the correlation state of
its conversation and correlation and under the checkpoints that the store
holds for it. Both change while the event is rendered, and what they have
become by then stays when a handler throws. Correlation state is memory: a
restart forgets it. Renderings of one correlation wait for each other in the
source, so a rendering runs from its start to its end here.

Log lines are left out.
-/

namespace OmpBundler.Pumble

open Library Library.Proc

def seenReaction : String := ":eyes:"
def thinkingReaction : String := ":brain:"
def replyingReaction : String := ":speech_balloon:"

/-- Every status reaction, for bulk clearing at the end of a turn. -/
def statusReactions : List String := [seenReaction, thinkingReaction, replyingReaction]

/-- Minimum gap between interim edits. -/
def interimEditIntervalMs : ℕ := 900

/-! ### Checkpoints -/

def textCheckpoint : String := "text"

def attachmentCheckpoint (index : ℕ) : String := "attachment:" ++ toString index

def reactionAddCheckpoint (emoji : String) : String := "reaction:add:" ++ emoji

def reactionRemoveCheckpoint (emoji : String) : String := "reaction:remove:" ++ emoji

def unconfiguredNoticeCheckpoint : String := "notice:attachments-unconfigured"

def failedNoticeCheckpoint (index : ℕ) : String :=
  "notice:attachment:" ++ toString index ++ ":failed"

/-! ### State -/

/-- Which of its optional dependencies the renderer was constructed with. -/
structure PumbleRendererOptions where
  attachmentSender : Bool
  checkpointStore : Bool
  settings : Bool
  deriving DecidableEq, Repr

/-- In-memory per-correlation delivery checkpoints. -/
structure CorrelationState where
  /-- Event ids already applied within this process. -/
  seen : List String
  startedReaction : Bool
  activeReactions : List String
  attemptedReactions : List String
  interimMessageId : Option String
  interimText : String
  lastInterimEditAt : ℕ
  /-- The final text of the terminal reply has been posted. -/
  finalTextPosted : Bool
  /-- Attachment indexes already handed to the sender. -/
  sentAttachmentIndexes : List ℕ
  terminal : Bool
  deriving DecidableEq, Repr

namespace CorrelationState

/-- The state that `stateFor` creates. -/
def fresh : CorrelationState where
  seen := []
  startedReaction := false
  activeReactions := []
  attemptedReactions := []
  interimMessageId := none
  interimText := ""
  lastInterimEditAt := 0
  finalTextPosted := false
  sentAttachmentIndexes := []
  terminal := false

@[simps]
def addSeen (state : CorrelationState) (eventId : String) : CorrelationState :=
  { state with seen := state.seen.insert eventId }

@[simps]
def start (state : CorrelationState) : CorrelationState :=
  { state with startedReaction := true }

@[simps]
def addActive (state : CorrelationState) (emoji : String) : CorrelationState :=
  { state with activeReactions := state.activeReactions.insert emoji }

@[simps]
def deleteActive (state : CorrelationState) (emoji : String) : CorrelationState :=
  { state with activeReactions := state.activeReactions.erase emoji }

@[simps]
def addAttempted (state : CorrelationState) (emoji : String) : CorrelationState :=
  { state with attemptedReactions := state.attemptedReactions.insert emoji }

@[simps]
def appendInterim (state : CorrelationState) (text : String) : CorrelationState :=
  { state with interimText := state.interimText ++ text }

/-- An interim message has been posted; Pumble may not have told its id. -/
@[simps]
def interimPosted (state : CorrelationState) (messageId : Option String) (now : ℕ) :
    CorrelationState :=
  { state with
    interimMessageId := messageId.or state.interimMessageId
    lastInterimEditAt := now }

@[simps]
def interimEdited (state : CorrelationState) (now : ℕ) : CorrelationState :=
  { state with lastInterimEditAt := now }

@[simps]
def dropInterim (state : CorrelationState) : CorrelationState :=
  { state with interimMessageId := none }

@[simps]
def posted (state : CorrelationState) : CorrelationState :=
  { state with finalTextPosted := true }

@[simps]
def addSent (state : CorrelationState) (index : ℕ) : CorrelationState :=
  { state with sentAttachmentIndexes := state.sentAttachmentIndexes.insert index }

@[simps]
def close (state : CorrelationState) : CorrelationState :=
  { state with terminal := true }

end CorrelationState

/-- The adapter's process, its store, and what it has done so far. -/
structure Adapter where
  deliveries : DeliveryStore
  /-- Keyed by conversation key and correlation id. -/
  correlations : OrderedMap (String × String) CorrelationState
  /-- The checkpoint set of the rendering under way. -/
  checkpoints : List String
  /-- What has happened in Pumble, each effect with the event it is part of. -/
  effects : List (String × Effect)
  /-- The answers to requests: the event that was delivered, and the status. -/
  answers : List (String × ℕ)

/-- The events of the core: a redelivery carries the same event. -/
structure Feed where
  event : String → OutboundEvent
  event_eventId : ∀ eventId, (event eventId).eventId = eventId

/-- The pair that the renderer keys its state by. -/
def correlationKey (event : OutboundEvent) : String × String :=
  (event.conversationKey, event.correlationId)

namespace Adapter

/-- The state of the event's correlation, which is created when first used. -/
def stateFor (adapter : Adapter) (event : OutboundEvent) : CorrelationState :=
  (adapter.correlations.get (correlationKey event)).getD .fresh

@[simps]
def update (adapter : Adapter) (event : OutboundEvent)
    (f : CorrelationState → CorrelationState) : Adapter :=
  { adapter with
    correlations := adapter.correlations.set (correlationKey event)
      (f (adapter.stateFor event)) }

@[simps]
def record (adapter : Adapter) (event : OutboundEvent) (effect : Effect) : Adapter :=
  { adapter with effects := (event.eventId, effect) :: adapter.effects }

@[simps]
def addCheckpoint (adapter : Adapter) (checkpoint : String) : Adapter :=
  { adapter with checkpoints := adapter.checkpoints.insert checkpoint }

@[simps]
def begin (adapter : Adapter) (checkpoints : List String) : Adapter :=
  { adapter with checkpoints := checkpoints }

@[simps]
def setDeliveries (adapter : Adapter) (deliveries : DeliveryStore) : Adapter :=
  { adapter with deliveries := deliveries }

@[simps]
def answer (adapter : Adapter) (event : OutboundEvent) (status : ℕ) : Adapter :=
  { adapter with answers := (event.eventId, status) :: adapter.answers }

end Adapter

/-- A step of the adapter's work on an event. -/
abbrev Rendering (α : Type) : Type := Proc Adapter Reply String α

/-- An operation of the delivery store. -/
def onStore {α : Type} : StoreOperation α → Rendering α :=
  focus Adapter.deliveries Adapter.setDeliveries

/-- Read the state of the event's correlation. -/
def readState (event : OutboundEvent) : Rendering CorrelationState :=
  Proc.get >>= fun adapter => pure (adapter.stateFor event)

def updateState (event : OutboundEvent) (f : CorrelationState → CorrelationState) :
    Rendering Unit :=
  modify (·.update event f)

/-- A call of Pumble or of the sender, which has its effect if it resolves. -/
def perform (event : OutboundEvent) (effect : Effect) : Rendering Reply := do
  let reply ← attempt
  modify (·.record event effect)
  pure reply

/-- A call whose failure is only reported. -/
def safely (event : OutboundEvent) (effect : Effect) : Rendering Bool :=
  tryCatch (perform event effect >>= fun _ => pure true) fun _ => pure false

def safeAddReaction (event : OutboundEvent) (target : ResolvedTarget) (emoji : String) :
    Rendering Bool :=
  safely event (.addReaction target emoji)

def safeRemoveReaction (event : OutboundEvent) (target : ResolvedTarget) (emoji : String) :
    Rendering Bool :=
  safely event (.removeReaction target emoji)

def safeSendNotice (event : OutboundEvent) (target : ResolvedTarget) (text : String) :
    Rendering Bool :=
  safely event (.sendMessage target text)

/-- The deletion of an interim message, whose failure is only reported. -/
def safeDeleteInterim (event : OutboundEvent) (target : ResolvedTarget) (messageId : String) :
    Rendering Unit := do
  let _ ← safely event (.deleteMessage target messageId)
  updateState event CorrelationState.dropInterim

def describeCorrelation (event : OutboundEvent) : String :=
  "conversationKey=" ++ event.conversationKey ++ " correlationId=" ++ event.correlationId ++
    " sequence=" ++ toString event.sequence

/-- The target of a best-effort effect: nothing when the resolver throws. -/
def resolve (_event : OutboundEvent) : Rendering (Option ResolvedTarget) :=
  tryCatch (attempt >>= fun reply => pure reply.target) fun _ => pure none

/-- The target of a terminal event: it is an error not to have one. -/
def resolveRequired (event : OutboundEvent) : Rendering ResolvedTarget := do
  let reply ← attempt
  match reply.target with
  | some target => pure target
  | none =>
      Proc.throw ("no target resolved for terminal event (" ++ describeCorrelation event ++ ")")

section Rendering

variable (options : PumbleRendererOptions)

/-- Whether to post and edit an interim message for this conversation. -/
def streamingEnabled (target : ResolvedTarget) : Rendering Bool :=
  if options.settings then
    Proc.call >>= fun reply =>
      pure (if target.direct = some true then reply.settings.streamInDirectMessages
        else reply.settings.streamInChannels)
  else
    pure false

def markCheckpoint (event : OutboundEvent) (checkpoint : String) : Rendering Unit := do
  let adapter ← Proc.get
  if checkpoint ∈ adapter.checkpoints then
    pure ()
  else
    (if options.checkpointStore then
      onStore (DeliveryStore.markCheckpoint event.eventId checkpoint)
    else
      pure ())
    modify (·.addCheckpoint checkpoint)

/-- Add one status reaction and record it, unless a checkpoint says it is
already there. -/
def addStatusReaction (event : OutboundEvent) (target : ResolvedTarget) (emoji : String) :
    Rendering Unit := do
  let state ← readState event
  if emoji ∈ state.attemptedReactions then
    pure ()
  else
    updateState event (·.addAttempted emoji)
    let adapter ← Proc.get
    if reactionAddCheckpoint emoji ∈ adapter.checkpoints then
      updateState event (·.addActive emoji)
    else
      let added ← safeAddReaction event target emoji
      if added then
        updateState event (·.addActive emoji)
        markCheckpoint options event (reactionAddCheckpoint emoji)
      else
        pure ()

/-- Remove one status reaction. The removal is not gated on the active
reactions, which a restart forgets. -/
def removeStatusReaction (event : OutboundEvent) (target : ResolvedTarget) (emoji : String) :
    Rendering Unit := do
  let adapter ← Proc.get
  (if reactionRemoveCheckpoint emoji ∈ adapter.checkpoints then
    pure ()
  else do
    let removed ← safeRemoveReaction event target emoji
    if removed then
      markCheckpoint options event (reactionRemoveCheckpoint emoji)
    else
      pure ())
  updateState event (·.deleteActive emoji)

def clearStatusReactions (event : OutboundEvent) (target : ResolvedTarget) : Rendering Unit :=
  forEach statusReactions (removeStatusReaction options event target)

/-- Clear the status markers of a terminal event. An error is only reported:
the caller is in a `finally`. -/
def clearTerminalStatus (event : OutboundEvent) : Rendering Unit :=
  tryCatch
    (do
      let target ← resolveRequired event
      clearStatusReactions options event target)
    fun _ => pure ()

def onStarted (event : OutboundEvent) : Rendering Unit := do
  let target ← resolve event
  match target with
  | none => pure ()
  | some target => do
      updateState event CorrelationState.start
      forEach [seenReaction, thinkingReaction] (addStatusReaction options event target)

/-- The first delta swaps thinking for replying. -/
def swapReactions (event : OutboundEvent) : Rendering Unit := do
  let target ← resolve event
  match target with
  | none => pure ()
  | some target => do
      removeStatusReaction options event target thinkingReaction
      addStatusReaction options event target replyingReaction

/-- Post the interim message, or edit it when it is there. -/
def showInterim (event : OutboundEvent) (target : ResolvedTarget) (now : ℕ) :
    Rendering Unit := do
  let state ← readState event
  match state.interimMessageId with
  | none =>
      tryCatch
        (do
          let reply ← perform event (.sendMessage target state.interimText)
          updateState event (·.interimPosted (messageIdOf reply.response) now))
        fun _ => pure ()
  | some messageId =>
      tryCatch
        (do
          let _ ← perform event (.editMessage target messageId state.interimText)
          updateState event (·.interimEdited now))
        fun _ => pure ()

def onDelta (event : OutboundEvent) (text : String) : Rendering Unit := do
  updateState event (·.appendInterim text)
  let state ← readState event
  (if replyingReaction ∈ state.attemptedReactions then
    pure ()
  else
    swapReactions options event)
  let clock ← Proc.call
  let state ← readState event
  if state.interimMessageId.isSome ∧ clock.now - state.lastInterimEditAt < interimEditIntervalMs then
    pure ()
  else
    let target ← resolve event
    match target with
    | none => pure ()
    | some target => do
        let streaming ← streamingEnabled options target
        if streaming then
          showInterim event target clock.now
        else
          pure ()

def onProgress (_event : OutboundEvent) : Rendering Unit := pure ()

/-- Post the terminal text as a new message. -/
def postFinalText (event : OutboundEvent) (target : ResolvedTarget) (text : String) :
    Rendering Unit :=
  perform event (.sendMessage target text) >>= fun _ => pure ()

/-- Deliver terminal text: edit the interim message into it when there is
one, and fall back to posting if the edit fails. -/
def deliverFinalText (event : OutboundEvent) (target : ResolvedTarget) (text : String) :
    Rendering Unit := do
  let state ← readState event
  match state.interimMessageId with
  | some messageId =>
      tryCatch (perform event (.editMessage target messageId text) >>= fun _ => pure ())
        fun _ => postFinalText event target text
  | none => postFinalText event target text

/-- The text of a reply, with the checkpoint that it has been posted. -/
def deliverReplyText (event : OutboundEvent) (target : ResolvedTarget) (text : String) :
    Rendering Unit := do
  let adapter ← Proc.get
  if textCheckpoint ∈ adapter.checkpoints then
    updateState event CorrelationState.posted
  else if (adapter.stateFor event).finalTextPosted then
    markCheckpoint options event textCheckpoint
  else
    deliverFinalText event target text
    updateState event CorrelationState.posted
    markCheckpoint options event textCheckpoint

/-- A silent turn leaves no interim message standing. -/
def removeInterim (event : OutboundEvent) (target : ResolvedTarget) : Rendering Unit := do
  let state ← readState event
  match state.interimMessageId with
  | none => pure ()
  | some messageId => safeDeleteInterim event target messageId

/-- Report an attachment that could not be delivered, once. -/
def sendNotice (event : OutboundEvent) (target : ResolvedTarget) (checkpoint text : String) :
    Rendering Unit := do
  let adapter ← Proc.get
  if checkpoint ∈ adapter.checkpoints then
    pure ()
  else
    let sent ← safeSendNotice event target text
    if sent then
      markCheckpoint options event checkpoint
    else
      pure ()

/-- `attachment.name || attachment.path`. -/
def attachmentLabel (attachment : WorkspaceAttachment) : String :=
  (attachment.name.filter (· ≠ "")).getD attachment.path

/-- Hand one attachment to the sender. -/
def sendAttachment (event : OutboundEvent) (target : ResolvedTarget) (index : ℕ)
    (attachment : WorkspaceAttachment) : Rendering Unit :=
  tryCatch
    (perform event (.sendAttachment target index attachment) >>= fun _ => pure ())
    fun error => do
      sendNotice options event target (failedNoticeCheckpoint index)
        ("Failed to deliver attachment \"" ++ attachmentLabel attachment ++ "\".")
      Proc.throw error

/-- One round of the attachment loop. -/
def deliverAttachment (event : OutboundEvent) (target : ResolvedTarget) (index : ℕ)
    (attachment : WorkspaceAttachment) : Rendering Unit := do
  let adapter ← Proc.get
  if attachmentCheckpoint index ∈ adapter.checkpoints then
    updateState event (·.addSent index)
  else if index ∈ (adapter.stateFor event).sentAttachmentIndexes then
    markCheckpoint options event (attachmentCheckpoint index)
  else
    sendAttachment options event target index attachment
    updateState event (·.addSent index)
    markCheckpoint options event (attachmentCheckpoint index)

def deliverAttachments (event : OutboundEvent) (target : ResolvedTarget)
    (attachments : List WorkspaceAttachment) : Rendering Unit :=
  if attachments.length = 0 then
    pure ()
  else if options.attachmentSender then
    forEach attachments.zipIdx fun (attachment, index) =>
      deliverAttachment options event target index attachment
  else do
    sendNotice options event target unconfiguredNoticeCheckpoint
      ("This reply included " ++ toString attachments.length ++
        " attachment(s) but attachment delivery is not configured for this adapter.")
    Proc.throw ("attachments present but no AttachmentSender is configured (" ++
      toString attachments.length ++ " undelivered)")

def onReply (event : OutboundEvent) (text : String) (attachments : List WorkspaceAttachment) :
    Rendering Unit := do
  let target ← resolveRequired event
  (if text = "" then
    removeInterim event target
  else
    deliverReplyText options event target text)
  deliverAttachments options event target attachments

def onError (event : OutboundEvent) (message : String) : Rendering Unit := do
  let target ← resolveRequired event
  let adapter ← Proc.get
  if textCheckpoint ∈ adapter.checkpoints then
    pure ()
  else
    deliverFinalText event target message
    markCheckpoint options event textCheckpoint

/-- A turn was abandoned: an interim message already posted has to go. -/
def onCancelled (event : OutboundEvent) : Rendering Unit := do
  let target ← resolve event
  match target with
  | none => pure ()
  | some target => removeInterim event target

/-- Only `offline` says something: the agent died without replying. -/
def onPresence (event : OutboundEvent) (presence : Presence) : Rendering Unit :=
  match presence with
  | .offline => do
      let target ← resolve event
      match target with
      | none => pure ()
      | some target => clearStatusReactions options event target
  | .active | .idle => pure ()

def dispatch (event : OutboundEvent) : Rendering Unit :=
  match event.body with
  | .turnStarted => onStarted options event
  | .turnProgress _ => onProgress event
  | .turnDelta text => onDelta options event text
  | .turnReply text attachments _ => onReply options event text attachments
  | .turnError _ message _ => onError options event message
  | .turnCancelled => onCancelled event
  | .presenceChanged presence => onPresence options event presence

/-- What `apply` does after a dispatch, whether it returned or threw. -/
def afterDispatch (event : OutboundEvent) : Rendering Unit :=
  if event.isTerminal then do
    clearTerminalStatus options event
    updateState event CorrelationState.close
  else
    pure ()

def apply (event : OutboundEvent) : Rendering Unit := do
  let state ← readState event
  if event.eventId ∈ state.seen then
    pure ()
  else if state.terminal then
    pure ()
  else
    tryFinally (dispatch options event) (afterDispatch options event)
    updateState event (·.addSeen event.eventId)

/-- The checkpoints that a rendering starts from. -/
def recordedCheckpoints (event : OutboundEvent) : Rendering (List String) :=
  if options.checkpointStore then
    onStore (DeliveryStore.checkpointsFor event.eventId)
  else
    pure []

/-- Apply one outbound event. -/
def render (event : OutboundEvent) : Rendering Unit := do
  let checkpoints ← recordedCheckpoints options event
  modify (·.begin checkpoints)
  apply options event

end Rendering

end OmpBundler.Pumble
