import Mathlib.Data.Int.Notation
import OmpBundler.Contracts

/-!
What the emitter of one correlation makes of the frames of its child.

An emitter numbers the events it generates and hands them over for delivery
one by one. A method of it runs without interruption, and whether an event
that it hands over is accepted has no influence on the rest of the method,
so a method is a function on the emitter that leaves what it has handed
over in `drafts`. The clock is read once for each call.
-/

namespace OmpBundler.Core

/-- The tool that marks a file for delivery with the reply. -/
def deliveryAttachmentTool : String := "deliver_attachment"

/-- The tool by which the agent declines to answer. -/
def staySilentTool : String := "stay_silent"

/-- A message of an `agent_end` frame, as far as it is read. -/
structure AgentMessage where
  role : String
  stopReason : Option String
  usage : Option TurnUsage
  deriving DecidableEq, Repr

/-- The three kinds of subagent frames. -/
inductive SubagentFrame where
  | lifecycle
  | progress
  | event
  deriving DecidableEq, Repr

/-- A frame of a child, as the emitter's extraction functions read it. -/
inductive RpcEventFrame where
  | turnStart
  /-- With the delta of a text update, if it is one. -/
  | messageUpdate (delta : Option String)
  /-- With the attachment marker in the details of the result, if there is
  a valid one. -/
  | toolExecutionEnd (toolName : String) (isError : Bool)
      (marker : Option WorkspaceAttachment)
  | turnEnd (usage : Option TurnUsage)
  | agentEnd (messages : List AgentMessage)
  | subagent (kind : SubagentFrame) (id name : String)
  /-- Everything that has no outbound mapping. -/
  | other
  deriving DecidableEq, Repr

/-- No tokens and no costs. -/
def noUsage : TurnUsage := ⟨0, 0, 0, 0, 0⟩

/-- Usage of the first assistant message that has one. -/
def extractUsageFromAgentEnd (messages : List AgentMessage) : TurnUsage :=
  (messages.findSome? fun m => if m.role = "assistant" then m.usage else none).getD noUsage

/-- Whether the final assistant message ended in a provider error. -/
def agentEndHasModelError (messages : List AgentMessage) : Bool :=
  match messages.reverse.find? fun m => m.role = "assistant" with
  | none => false
  | some message => message.stopReason = some "error"

/-- The attachment that a tool result asks to deliver. -/
def extractDeliveryAttachment (toolName : String) (isError : Bool)
    (marker : Option WorkspaceAttachment) : Option WorkspaceAttachment :=
  if toolName ≠ deliveryAttachmentTool ∨ isError then none else marker

/-- The progress text of a subagent frame. -/
def describeSubagentFrame (kind : SubagentFrame) (id name : String) : String :=
  let label :=
    match kind with
    | .lifecycle => "subagent lifecycle"
    | .progress => "subagent progress"
    | .event => "subagent event"
  let detail := if name ≠ "" then name else if id ≠ "" then id else ""
  if detail ≠ "" then label ++ ": " ++ detail else label

/-- An event that a method hands over: its number, and what it says. -/
structure Draft where
  sequence : ℕ
  body : EventBody
  deriving DecidableEq, Repr

/-- The fields of an emitter that its frame handlers use. -/
structure OutboundEmitter where
  adapterId : String
  conversationKey : String
  correlationId : String
  progressThresholdMs : ℕ
  /-- The counter that durable and best-effort events share. -/
  sequence : ℕ
  replyText : String
  replyAttachments : List WorkspaceAttachment
  replyUsage : Option TurnUsage
  /-- Whether a terminal event has been emitted. -/
  terminalEmitted : Bool
  /-- The agent called `stay_silent`. -/
  staySilent : Bool
  startedEmitted : Bool
  /-- Last emitted presence. -/
  presence : Option Presence
  lastProgressAt : ℤ
  pendingProgress : Option String
  closed : Bool
  /-- What the method that runs has handed over. -/
  drafts : List Draft
  deriving DecidableEq, Repr

namespace OutboundEmitter

/-- The constructor: the counter goes on from the highest persisted number,
and a persisted terminal keeps the emitter from starting or ending the turn
once more. -/
def create (adapterId conversationKey correlationId : String) (progressThresholdMs : ℕ)
    (maxSequence : ℕ) (terminalRow : Bool) : OutboundEmitter where
  adapterId := adapterId
  conversationKey := conversationKey
  correlationId := correlationId
  progressThresholdMs := progressThresholdMs
  sequence := maxSequence
  replyText := ""
  replyAttachments := []
  replyUsage := none
  terminalEmitted := terminalRow
  staySilent := false
  startedEmitted := terminalRow
  presence := none
  lastProgressAt := 0
  pendingProgress := none
  closed := false
  drafts := []

/-- Number an event and hand it over. -/
def emit (e : OutboundEmitter) (body : EventBody) : OutboundEmitter :=
  { e with
    sequence := e.sequence + 1
    drafts := e.drafts ++ [⟨e.sequence + 1, body⟩] }

/-- `turn_start` and, for the terminals, `ensureStarted`: the first event of
the turn. It seeds the progress baseline. -/
def handleTurnStart (e : OutboundEmitter) (now : ℤ) : OutboundEmitter :=
  if e.startedEmitted then e
  else { e with startedEmitted := true, lastProgressAt := now }.emit .turnStarted

/-- The same lines once more in the source. -/
def ensureStarted (e : OutboundEmitter) (now : ℤ) : OutboundEmitter := e.handleTurnStart now

/-- Claim the terminal and hand it over. -/
def emitTerminal (e : OutboundEmitter) (body : EventBody) : OutboundEmitter :=
  { e with terminalEmitted := true }.emit body

def emitProviderError (e : OutboundEmitter) (now : ℤ) (code message : String)
    (retryable : Bool) : OutboundEmitter :=
  if e.closed || e.terminalEmitted then e
  else (e.ensureStarted now).emitTerminal (.turnError code message retryable)

def emitPresence (e : OutboundEmitter) (presence : Presence) : OutboundEmitter :=
  if e.presence = some presence then e
  else { e with presence := some presence }.emit (.presenceChanged presence)

/-- The terminal of a turn abandoned before it replied. -/
def emitCancelled (e : OutboundEmitter) : OutboundEmitter :=
  if e.closed || e.terminalEmitted then e else e.emitTerminal .turnCancelled

/-- A terminal reply that core produced itself. -/
def emitDirectReply (e : OutboundEmitter) (text : String) : OutboundEmitter :=
  if e.closed || e.terminalEmitted then e else e.emitTerminal (.turnReply text [] noUsage)

def emitProgress (e : OutboundEmitter) (now : ℤ) (message : String) : OutboundEmitter :=
  { e with lastProgressAt := now }.emit (.turnProgress message)

/-- Emit the pending progress candidate whose window has elapsed. -/
def flushProgress (e : OutboundEmitter) (now : ℤ) : OutboundEmitter :=
  match e.pendingProgress with
  | none => e
  | some message =>
      if (e.progressThresholdMs : ℤ) ≤ now - e.lastProgressAt then
        { e with pendingProgress := none }.emitProgress now message
      else e

def handleProgressCandidate (e : OutboundEmitter) (now : ℤ) (message : String) :
    OutboundEmitter :=
  { e with pendingProgress := some message }.flushProgress now

/-- Append a text chunk to the reply, and stream it. -/
def handleMessageUpdate (e : OutboundEmitter) (now : ℤ) : Option String → OutboundEmitter
  | none => e
  | some delta =>
      if delta = "" then e
      else
        let e := { e with replyText := e.replyText ++ delta }
        if e.closed || e.terminalEmitted then e
        else (e.emit (.turnDelta delta)).handleProgressCandidate now delta

/-- Usage is collected here; the reply waits for `agent_end`. -/
def handleTurnEnd (e : OutboundEmitter) : Option TurnUsage → OutboundEmitter
  | none => e
  | some usage => { e with replyUsage := some usage }

/-- Capture the markers that tools leave on their results. -/
def handleToolExecutionEnd (e : OutboundEmitter) (toolName : String) (isError : Bool)
    (marker : Option WorkspaceAttachment) : OutboundEmitter :=
  let e :=
    match extractDeliveryAttachment toolName isError marker with
    | none => e
    | some attachment =>
        if e.replyAttachments.any fun candidate => candidate.path = attachment.path then e
        else { e with replyAttachments := e.replyAttachments ++ [attachment] }
  if toolName = staySilentTool ∧ isError = false then { e with staySilent := true } else e

/-- `agent_end`: one terminal event. -/
def handleAgentEnd (e : OutboundEmitter) (now : ℤ) (messages : List AgentMessage) :
    OutboundEmitter :=
  if e.closed || e.terminalEmitted then e
  else if agentEndHasModelError messages then
    e.emitProviderError now "model_error" "Agent model request failed" true
  else
    let usage := e.replyUsage.getD (extractUsageFromAgentEnd messages)
    if e.staySilent then (e.ensureStarted now).emitTerminal (.turnReply "" [] usage)
    else if e.replyText = "" ∧ e.replyAttachments = [] then
      e.emitProviderError now "empty_response" "Agent completed without producing a reply" false
    else (e.ensureStarted now).emitTerminal (.turnReply e.replyText e.replyAttachments usage)

/-- Map one frame to outbound events. -/
def ingest (e : OutboundEmitter) (now : ℤ) : RpcEventFrame → OutboundEmitter
  | .turnStart => e.handleTurnStart now
  | .messageUpdate delta => e.handleMessageUpdate now delta
  | .toolExecutionEnd toolName isError marker =>
      e.handleToolExecutionEnd toolName isError marker
  | .turnEnd usage => e.handleTurnEnd usage
  | .agentEnd messages => e.handleAgentEnd now messages
  | .subagent kind id name => e.handleProgressCandidate now (describeSubagentFrame kind id name)
  | .other => e

/-- The methods that may generate events. -/
inductive Call where
  | ingest (frame : RpcEventFrame)
  | emitProviderError (code message : String) (retryable : Bool)
  | emitPresence (presence : Presence)
  | emitCancelled
  | emitDirectReply (text : String)
  | flushProgress
  deriving DecidableEq, Repr

/-- Call a method. -/
def call (e : OutboundEmitter) (now : ℤ) : Call → OutboundEmitter
  | .ingest frame => e.ingest now frame
  | .emitProviderError code message retryable => e.emitProviderError now code message retryable
  | .emitPresence presence => e.emitPresence presence
  | .emitCancelled => e.emitCancelled
  | .emitDirectReply text => e.emitDirectReply text
  | .flushProgress => e.flushProgress now

end OutboundEmitter

end OmpBundler.Core
