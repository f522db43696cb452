import Mathlib.Data.List.Induction
import OmpBundler.Core.EmitterCalls

/-!
The text of a reply is what has been streamed.

The emitter keeps the text of the reply beside the deltas that it sends. As
long as the turn has not ended both grow by the same pieces, and after it
nothing is streamed any more. The attachments of the reply are the markers
that the tools have left, each path once.
-/

namespace OmpBundler.Core

/-- The text that an event streams. -/
def Draft.delta? (draft : Draft) : Option String :=
  match draft.body with
  | .turnDelta text => some text
  | _ => none

/-- The attachment that a frame marks for delivery. -/
def RpcEventFrame.marker? : RpcEventFrame → Option WorkspaceAttachment
  | .toolExecutionEnd toolName isError marker => extractDeliveryAttachment toolName isError marker
  | _ => none

/-- The frame tells that the agent declines to answer. -/
def RpcEventFrame.isSilent : RpcEventFrame → Bool
  | .toolExecutionEnd toolName isError _ => decide (toolName = staySilentTool ∧ isError = false)
  | _ => false

namespace OutboundEmitter

/-- Frames that are ingested one after the other, each with a reading of the
clock. -/
def feed (e : OutboundEmitter) (frames : List (ℤ × RpcEventFrame)) : OutboundEmitter :=
  frames.foldl (fun e p => e.ingest p.1 p.2) e

/-- The texts of the deltas, in the order in which they were handed over. -/
def deltaTexts (drafts : List Draft) : List String := drafts.filterMap Draft.delta?

/-- The attachments that frames mark for delivery. -/
def markers (frames : List (ℤ × RpcEventFrame)) : List WorkspaceAttachment :=
  frames.filterMap (·.2.marker?)

/-- The first of the attachments with each path, in their order. -/
structure FirstSeen (marked attachments : List WorkspaceAttachment) : Prop where
  order : attachments.Sublist marked
  distinct : (attachments.map (·.path)).Nodup
  covers : ∀ m ∈ marked, ∃ a ∈ attachments, a.path = m.path
  first : ∀ a ∈ attachments, marked.find? (·.path = a.path) = some a

variable {e e' : OutboundEmitter} {frames : List (ℤ × RpcEventFrame)}

theorem feed_append (e : OutboundEmitter) (frames more : List (ℤ × RpcEventFrame)) :
    e.feed (frames ++ more) = (e.feed frames).feed more := List.foldl_append

/-! ### Attachments -/

/-- The attachment is new: it is added at the end. -/
theorem FirstSeen.concat {marked attachments : List WorkspaceAttachment}
    (seen : FirstSeen marked attachments) (m : WorkspaceAttachment) :
    FirstSeen (marked ++ [m])
      (if attachments.any (fun a => a.path = m.path) then attachments else attachments ++ [m]) := by
  have find_first : ∀ a ∈ attachments, (marked ++ [m]).find? (·.path = a.path) = some a :=
    fun a mem => by rw [List.find?_append, seen.first a mem, Option.some_or]
  split_ifs with known
  · obtain ⟨b, there, same⟩ := List.any_eq_true.mp known
    refine ⟨seen.order.trans (List.sublist_append_left _ _), seen.distinct, fun x mem => ?_,
      find_first⟩
    rcases List.mem_append.mp mem with before | last
    · exact seen.covers x before
    · obtain rfl := List.mem_singleton.mp last
      exact ⟨b, there, by simpa using same⟩
  · have other : ∀ a ∈ attachments, a.path ≠ m.path := by simpa using known
    have new : marked.find? (fun x => x.path = m.path) = none := by
      rw [List.find?_eq_none]
      intro x mem same
      obtain ⟨a, there, path⟩ := seen.covers x mem
      exact other a there (path.trans (by simpa using same))
    refine ⟨seen.order.append_right _, ?_, fun x mem => ?_, fun a mem => ?_⟩
    · rw [List.map_append, List.nodup_append]
      refine ⟨seen.distinct, by simp, ?_⟩
      rintro path mem last here rfl
      obtain ⟨a, there, rfl⟩ := List.mem_map.mp mem
      exact other a there (by simpa using here)
    · rcases List.mem_append.mp mem with before | last
      · obtain ⟨a, there, path⟩ := seen.covers x before
        exact ⟨a, List.mem_append_left _ there, path⟩
      · obtain rfl := List.mem_singleton.mp last
        exact ⟨x, List.mem_append_right _ (List.mem_singleton_self x), rfl⟩
    · rcases List.mem_append.mp mem with before | last
      · exact find_first a before
      · obtain rfl := List.mem_singleton.mp last
        rw [List.find?_append, new, Option.none_or]
        simp

/-! ### What the emitter has accumulated -/

theorem join_concat (l : List String) (text : String) :
    String.join (l ++ [text]) = String.join l ++ text := by
  simp [String.join]

/-- What the emitter keeps for the reply agrees with the frames it has seen,
as long as the turn has not ended. -/
structure Gathered (e : OutboundEmitter) (frames : List (ℤ × RpcEventFrame)) : Prop where
  text : e.replyText = String.join (deltaTexts e.drafts)
  attachments : FirstSeen (markers frames) e.replyAttachments
  silent : e.staySilent = true → ∃ p ∈ frames, p.2.isSilent = true

/-- Nothing is streamed, and what is kept for the reply stays. -/
structure Mute (e e' : OutboundEmitter) : Prop where
  deltas : deltaTexts e'.drafts = deltaTexts e.drafts
  text : e'.replyText = e.replyText
  attachments : e'.replyAttachments = e.replyAttachments
  silent : e'.staySilent = e.staySilent
  ended : e'.terminalEmitted = e.terminalEmitted

theorem Mute.refl (e : OutboundEmitter) : Mute e e := ⟨rfl, rfl, rfl, rfl, rfl⟩

theorem deltaTexts_emit (e : OutboundEmitter) (body : EventBody) :
    deltaTexts (e.emit body).drafts =
      deltaTexts e.drafts ++ (Draft.delta? ⟨e.sequence + 1, body⟩).toList := by
  rw [emit, deltaTexts, List.filterMap_append, ← deltaTexts]
  cases body <;> rfl

theorem Mute.emit (mute : Mute e e') (body : EventBody)
    (other : ∀ n, Draft.delta? ⟨n, body⟩ = none) : Mute e (e'.emit body) where
  deltas := by rw [deltaTexts_emit, other, mute.deltas]; simp
  text := mute.text
  attachments := mute.attachments
  silent := mute.silent
  ended := mute.ended

theorem mute_handleTurnStart (e : OutboundEmitter) (now : ℤ) : Mute e (e.handleTurnStart now) := by
  rw [handleTurnStart]
  split
  · exact .refl e
  · refine Mute.emit ?_ .turnStarted fun _ => rfl
    exact ⟨rfl, rfl, rfl, rfl, rfl⟩

theorem mute_flushProgress (e : OutboundEmitter) (now : ℤ) : Mute e (e.flushProgress now) := by
  rw [flushProgress]
  split
  · exact .refl e
  next message _ =>
    split
    · refine Mute.emit ?_ (.turnProgress message) fun _ => rfl
      exact ⟨rfl, rfl, rfl, rfl, rfl⟩
    · exact .refl e

theorem mute_handleProgressCandidate (e : OutboundEmitter) (now : ℤ) (message : String) :
    Mute e (e.handleProgressCandidate now message) := by
  obtain ⟨deltas, text, attachments, silent, ended⟩ :=
    mute_flushProgress { e with pendingProgress := some message } now
  exact ⟨deltas, text, attachments, silent, ended⟩

/-! ### One frame -/

/-- The turn goes on, and what is kept agrees with the frames. -/
structure Speaking (e : OutboundEmitter) (frames : List (ℤ × RpcEventFrame)) : Prop
    extends Gathered e frames where
  running : e.terminalEmitted = false
  opened : e.closed = false

variable {now : ℤ} {frame : RpcEventFrame}

theorem markers_concat (frames : List (ℤ × RpcEventFrame)) (now : ℤ) (frame : RpcEventFrame) :
    markers (frames ++ [(now, frame)]) = markers frames ++ frame.marker?.toList := by
  rw [markers, List.filterMap_append, ← markers]
  cases marked : frame.marker? <;> simp [marked]

theorem Gathered.of_mute (gathered : Gathered e frames) (mute : Mute e e')
    (unmarked : frame.marker? = none) : Gathered e' (frames ++ [(now, frame)]) where
  text := by rw [mute.text, mute.deltas, gathered.text]
  attachments := by
    rw [markers_concat, unmarked, mute.attachments]
    simpa using gathered.attachments
  silent quiet := by
    obtain ⟨p, mem, silent⟩ := gathered.silent (mute.silent ▸ quiet)
    exact ⟨p, List.mem_append_left _ mem, silent⟩

theorem Speaking.of_mute (speaking : Speaking e frames) (mute : Mute e e')
    (closed : e'.closed = e.closed) (unmarked : frame.marker? = none) :
    Speaking e' (frames ++ [(now, frame)]) :=
  ⟨speaking.toGathered.of_mute mute unmarked, mute.ended.trans speaking.running,
    closed.trans speaking.opened⟩

/-- A piece of text is streamed and added to the reply. -/
theorem Speaking.handleMessageUpdate (speaking : Speaking e frames) (delta : Option String) :
    Speaking (e.handleMessageUpdate now delta) (frames ++ [(now, .messageUpdate delta)]) := by
  cases delta with
  | none => exact speaking.of_mute (.refl e) rfl rfl
  | some text =>
    rw [OutboundEmitter.handleMessageUpdate]
    by_cases empty : text = ""
    · rw [if_pos empty]
      exact speaking.of_mute (.refl e) rfl rfl
    · have on : ¬ (e.closed || e.terminalEmitted) = true := by
        rw [speaking.opened, speaking.running]
        decide
      rw [if_neg empty]
      dsimp only
      rw [if_neg on]
      have streamed : Speaking (OutboundEmitter.emit { e with replyText := e.replyText ++ text }
          (.turnDelta text)) (frames ++ [(now, .messageUpdate (some text))]) := by
        refine ⟨⟨?_, ?_, fun quiet => ?_⟩, speaking.running, speaking.opened⟩
        · rw [deltaTexts_emit]
          show e.replyText ++ text = String.join (deltaTexts e.drafts ++ [text])
          rw [join_concat, ← speaking.text]
        · rw [markers_concat]
          show FirstSeen (markers frames ++ []) e.replyAttachments
          rw [List.append_nil]
          exact speaking.attachments
        · obtain ⟨p, mem, silent⟩ := speaking.silent quiet
          exact ⟨p, List.mem_append_left _ mem, silent⟩
      have mute := mute_handleProgressCandidate (OutboundEmitter.emit
        { e with replyText := e.replyText ++ text } (.turnDelta text)) now text
      have closed := (extends_handleProgressCandidate (OutboundEmitter.emit
        { e with replyText := e.replyText ++ text } (.turnDelta text)) now text).closed
      exact
        { text := by rw [mute.text, mute.deltas, streamed.text]
          attachments := by rw [mute.attachments]; exact streamed.attachments
          silent := fun quiet => streamed.silent (mute.silent ▸ quiet)
          running := mute.ended.trans streamed.running
          opened := closed.trans streamed.opened }

/-- The attachments after a tool result: a marked one is added, unless its
path is there. -/
theorem replyAttachments_handleToolExecutionEnd (e : OutboundEmitter) (toolName : String)
    (isError : Bool) (marker : Option WorkspaceAttachment) :
    (e.handleToolExecutionEnd toolName isError marker).replyAttachments =
      match extractDeliveryAttachment toolName isError marker with
      | none => e.replyAttachments
      | some m =>
        if e.replyAttachments.any (fun a => a.path = m.path) then e.replyAttachments
        else e.replyAttachments ++ [m] := by
  rw [OutboundEmitter.handleToolExecutionEnd]
  cases extractDeliveryAttachment toolName isError marker with
  | none => dsimp only; split_ifs <;> rfl
  | some m => dsimp only; split_ifs <;> rfl

/-- The other fields that matter, after a tool result. -/
theorem handleToolExecutionEnd_other (e : OutboundEmitter) (toolName : String) (isError : Bool)
    (marker : Option WorkspaceAttachment) :
    let e' := e.handleToolExecutionEnd toolName isError marker
    e'.drafts = e.drafts ∧ e'.replyText = e.replyText ∧ e'.terminalEmitted = e.terminalEmitted ∧
      e'.closed = e.closed ∧ (e'.staySilent = true →
        e.staySilent = true ∨ toolName = staySilentTool ∧ isError = false) := by
  rw [OutboundEmitter.handleToolExecutionEnd]
  cases extractDeliveryAttachment toolName isError marker with
  | none =>
    dsimp only
    split_ifs with quiet
    · exact ⟨rfl, rfl, rfl, rfl, fun _ => .inr quiet⟩
    · exact ⟨rfl, rfl, rfl, rfl, .inl⟩
  | some m =>
    dsimp only
    by_cases quiet : toolName = staySilentTool ∧ isError = false
    · rw [if_pos quiet]
      split_ifs <;> exact ⟨rfl, rfl, rfl, rfl, fun _ => .inr quiet⟩
    · rw [if_neg quiet]
      split_ifs <;> exact ⟨rfl, rfl, rfl, rfl, .inl⟩

/-- A tool result may mark an attachment, or keep the agent silent. -/
theorem Speaking.handleToolExecutionEnd (speaking : Speaking e frames) (toolName : String)
    (isError : Bool) (marker : Option WorkspaceAttachment) :
    Speaking (e.handleToolExecutionEnd toolName isError marker)
      (frames ++ [(now, .toolExecutionEnd toolName isError marker)]) := by
  obtain ⟨drafts, text, running, closed, silent⟩ :=
    handleToolExecutionEnd_other e toolName isError marker
  refine ⟨⟨?_, ?_, fun quiet => ?_⟩, running.trans speaking.running,
    closed.trans speaking.opened⟩
  · rw [text, drafts, speaking.text]
  · rw [markers_concat, replyAttachments_handleToolExecutionEnd, RpcEventFrame.marker?]
    cases extractDeliveryAttachment toolName isError marker with
    | none => simpa using speaking.attachments
    | some m => exact speaking.attachments.concat m
  · rcases silent quiet with before | marked
    · obtain ⟨p, mem, silent⟩ := speaking.silent before
      exact ⟨p, List.mem_append_left _ mem, silent⟩
    · exact ⟨_, List.mem_append_right _ (List.mem_singleton_self _), decide_eq_true marked⟩

/-! ### The end of the turn -/

/-- After the end of the turn nothing is streamed. -/
theorem ingest_of_ended (ended : e.terminalEmitted = true) (now : ℤ) (frame : RpcEventFrame) :
    (e.ingest now frame).terminalEmitted = true ∧
      deltaTexts (e.ingest now frame).drafts = deltaTexts e.drafts := by
  have off : (e.closed || e.terminalEmitted) = true := by rw [ended, Bool.or_true]
  cases frame with
  | turnStart =>
    have mute := mute_handleTurnStart e now
    exact ⟨mute.ended.trans ended, mute.deltas⟩
  | messageUpdate delta =>
    cases delta with
    | none => exact ⟨ended, rfl⟩
    | some text =>
      rw [ingest, handleMessageUpdate]
      by_cases empty : text = ""
      · rw [if_pos empty]
        exact ⟨ended, rfl⟩
      · rw [if_neg empty]
        dsimp only
        rw [if_pos off]
        exact ⟨ended, rfl⟩
  | toolExecutionEnd toolName isError marker =>
    obtain ⟨drafts, -, running, -, -⟩ := handleToolExecutionEnd_other e toolName isError marker
    exact ⟨running.trans ended, congrArg deltaTexts drafts⟩
  | turnEnd usage => cases usage <;> exact ⟨ended, rfl⟩
  | agentEnd messages =>
    rw [ingest, handleAgentEnd, if_pos off]
    exact ⟨ended, rfl⟩
  | subagent kind id name =>
    have mute := mute_handleProgressCandidate e now (describeSubagentFrame kind id name)
    exact ⟨mute.ended.trans ended, mute.deltas⟩
  | other => exact ⟨ended, rfl⟩

theorem feed_of_ended (ended : e.terminalEmitted = true) (frames : List (ℤ × RpcEventFrame)) :
    deltaTexts (e.feed frames).drafts = deltaTexts e.drafts := by
  induction frames generalizing e with
  | nil => rfl
  | cons p rest ih =>
    have step := ingest_of_ended ended p.1 p.2
    exact (ih step.1).trans step.2

/-- A terminal after the first event of the turn: it ends the turn, and
streams nothing. -/
theorem deltaTexts_startedTerminal (e : OutboundEmitter) (now : ℤ) (body : EventBody)
    (other : ∀ n, Draft.delta? ⟨n, body⟩ = none) :
    ((e.ensureStarted now).emitTerminal body).terminalEmitted = true ∧
      deltaTexts ((e.ensureStarted now).emitTerminal body).drafts = deltaTexts e.drafts := by
  refine ⟨rfl, ?_⟩
  rw [emitTerminal, deltaTexts_emit, other]
  show deltaTexts (e.ensureStarted now).drafts ++ [] = _
  rw [List.append_nil]
  exact (mute_handleTurnStart e now).deltas

/-- The events that a terminal after the first event of the turn hands over. -/
theorem mem_startedTerminal {draft : Draft} {body : EventBody}
    (emitted : draft ∈ ((e.ensureStarted now).emitTerminal body).drafts) :
    draft ∈ e.drafts ∨ draft.body = .turnStarted ∨ draft.body = body := by
  rcases List.mem_append.mp emitted with earlier | last
  · rw [show ({ e.ensureStarted now with terminalEmitted := true } : OutboundEmitter).drafts =
      (e.handleTurnStart now).drafts from rfl, handleTurnStart] at earlier
    split_ifs at earlier
    · exact .inl earlier
    · rcases List.mem_append.mp earlier with before | start
      · exact .inl before
      · exact .inr (.inl (by rw [List.mem_singleton.mp start]))
  · exact .inr (.inr (by rw [List.mem_singleton.mp last]))

/-- A turn that goes on is ended by `agent_end`, and a reply carries what has
been kept for it. -/
theorem Speaking.handleAgentEnd (speaking : Speaking e frames) (now : ℤ)
    (messages : List AgentMessage) :
    (e.handleAgentEnd now messages).terminalEmitted = true ∧
      deltaTexts (e.handleAgentEnd now messages).drafts = deltaTexts e.drafts ∧
      ∀ draft ∈ (e.handleAgentEnd now messages).drafts, draft ∉ e.drafts →
        ∀ text attachments usage, draft.body = .turnReply text attachments usage →
          e.staySilent = true ∨ text = e.replyText ∧ attachments = e.replyAttachments := by
  have on : ¬ (e.closed || e.terminalEmitted) = true := by
    rw [speaking.opened, speaking.running]
    decide
  have erring : ∀ code message retryable,
      e.emitProviderError now code message retryable =
        (e.ensureStarted now).emitTerminal (.turnError code message retryable) :=
    fun code message retryable => by rw [emitProviderError, if_neg on]
  have no_reply : ∀ code message retryable, ∀ draft ∈
      ((e.ensureStarted now).emitTerminal (.turnError code message retryable)).drafts,
      draft ∉ e.drafts → ∀ text attachments usage,
        draft.body ≠ .turnReply text attachments usage := by
    intro code message retryable draft emitted new text attachments usage reply
    rcases mem_startedTerminal emitted with earlier | start | last
    · exact new earlier
    · rw [start] at reply
      cases reply
    · rw [last] at reply
      cases reply
  rw [OutboundEmitter.handleAgentEnd, if_neg on]
  dsimp only
  split_ifs with failed silent empty
  · rw [erring]
    obtain ⟨ended, deltas⟩ := deltaTexts_startedTerminal e now
      (.turnError "model_error" "Agent model request failed" true) fun _ => rfl
    exact ⟨ended, deltas, fun draft emitted new text attachments usage reply =>
      absurd reply (no_reply _ _ _ draft emitted new text attachments usage)⟩
  · obtain ⟨ended, deltas⟩ := deltaTexts_startedTerminal e now
      (.turnReply "" [] (e.replyUsage.getD (extractUsageFromAgentEnd messages))) fun _ => rfl
    exact ⟨ended, deltas, fun _ _ _ _ _ _ _ => .inl silent⟩
  · rw [erring]
    obtain ⟨ended, deltas⟩ := deltaTexts_startedTerminal e now
      (.turnError "empty_response" "Agent completed without producing a reply" false) fun _ => rfl
    exact ⟨ended, deltas, fun draft emitted new text attachments usage reply =>
      absurd reply (no_reply _ _ _ draft emitted new text attachments usage)⟩
  · obtain ⟨ended, deltas⟩ := deltaTexts_startedTerminal e now
      (.turnReply e.replyText e.replyAttachments
        (e.replyUsage.getD (extractUsageFromAgentEnd messages))) fun _ => rfl
    refine ⟨ended, deltas, fun draft emitted new text attachments usage reply => .inr ?_⟩
    rcases mem_startedTerminal emitted with earlier | start | last
    · exact absurd earlier new
    · rw [start] at reply
      cases reply
    · rw [last] at reply
      cases reply
      exact ⟨rfl, rfl⟩

/-- One frame: the turn goes on, or it has ended. -/
theorem Speaking.ingest (speaking : Speaking e frames) (now : ℤ) (frame : RpcEventFrame) :
    (e.ingest now frame).terminalEmitted = true ∨
      Speaking (e.ingest now frame) (frames ++ [(now, frame)]) := by
  cases frame with
  | turnStart =>
    exact .inr (speaking.of_mute (mute_handleTurnStart e now)
      (extends_handleTurnStart e now).closed rfl)
  | messageUpdate delta => exact .inr (speaking.handleMessageUpdate delta)
  | toolExecutionEnd toolName isError marker =>
    exact .inr (speaking.handleToolExecutionEnd toolName isError marker)
  | turnEnd usage =>
    cases usage with
    | none => exact .inr (speaking.of_mute (.refl e) rfl rfl)
    | some usage =>
      have mute : Mute e { e with replyUsage := some usage } := ⟨rfl, rfl, rfl, rfl, rfl⟩
      exact .inr (speaking.of_mute mute rfl rfl)
  | agentEnd messages => exact .inl (speaking.handleAgentEnd now messages).1
  | subagent kind id name =>
    exact .inr (speaking.of_mute (mute_handleProgressCandidate e now _)
      (extends_handleProgressCandidate e now _).closed rfl)
  | other => exact .inr (speaking.of_mute (.refl e) rfl rfl)

/-! ### Runs -/

/-- An emitter that is fed from its start on has ended its turn, or keeps
what the frames have brought. -/
theorem feed_speaking (adapterId conversationKey correlationId : String)
    (progressThresholdMs maxSequence : ℕ) (terminalRow : Bool)
    (frames : List (ℤ × RpcEventFrame)) :
    let e := (create adapterId conversationKey correlationId progressThresholdMs maxSequence
      terminalRow).feed frames
    e.terminalEmitted = true ∨ Speaking e frames := by
  induction frames using List.reverseRecOn with
  | nil =>
    cases terminalRow with
    | true => exact .inl rfl
    | false =>
      refine .inr ⟨⟨rfl, ⟨.slnil, List.nodup_nil, ?_, ?_⟩, nofun⟩, rfl, rfl⟩
      · exact fun m mem => absurd mem List.not_mem_nil
      · exact fun m mem => absurd mem List.not_mem_nil
  | append_singleton before p ih =>
    simp only [feed_append]
    rcases ih with ended | speaking
    · exact .inl (ingest_of_ended ended p.1 p.2).1
    · exact speaking.ingest p.1 p.2

theorem extends_feed (e : OutboundEmitter) (frames : List (ℤ × RpcEventFrame)) :
    Extends e (e.feed frames) := by
  induction frames generalizing e with
  | nil => exact .refl e
  | cons p rest ih => exact (extends_ingest e p.1 p.2).trans (ih _)

/-- A reply that ends a turn in which the agent has not declined to answer:
its text is that of all the deltas of the emitter, in the order of their
numbers, and its attachments are the marked ones, the first of each path. -/
theorem reply_is_what_was_streamed (adapterId conversationKey correlationId : String)
    (progressThresholdMs maxSequence : ℕ) (terminalRow : Bool)
    (before after : List (ℤ × RpcEventFrame)) (now : ℤ) (messages : List AgentMessage)
    (draft : Draft) (text : String) (attachments : List WorkspaceAttachment) (usage : TurnUsage)
    (reply : draft.body = .turnReply text attachments usage) :
    let start := create adapterId conversationKey correlationId progressThresholdMs maxSequence
      terminalRow
    let ended := start.feed (before ++ (now, .agentEnd messages) :: after)
    draft ∈ ((start.feed before).ingest now (.agentEnd messages)).drafts →
    draft ∉ (start.feed before).drafts →
    (∀ p ∈ before, p.2.isSilent = false) →
    text = String.join (deltaTexts ended.drafts) ∧
      ended.drafts.Pairwise (fun earlier later => earlier.sequence < later.sequence) ∧
      FirstSeen (markers before) attachments := by
  intro start ended emitted new spoken
  have speaking : Speaking (start.feed before) before := by
    rcases feed_speaking adapterId conversationKey correlationId progressThresholdMs maxSequence
      terminalRow before with finished | speaking
    · have off : ((start.feed before).closed || (start.feed before).terminalEmitted) = true := by
        rw [finished, Bool.or_true]
      rw [ingest, handleAgentEnd, if_pos off] at emitted
      exact absurd emitted new
    · exact speaking
  obtain ⟨terminal, deltas, carried⟩ := speaking.handleAgentEnd now messages
  have whole : deltaTexts ended.drafts = deltaTexts (start.feed before).drafts := by
    show deltaTexts (start.feed (before ++ (now, .agentEnd messages) :: after)).drafts = _
    rw [feed_append]
    exact (feed_of_ended terminal after).trans deltas
  have increasing : ended.drafts.Pairwise
      (fun earlier later => earlier.sequence < later.sequence) := by
    obtain ⟨bodies, drafts, -⟩ :=
      (extends_feed start (before ++ (now, .agentEnd messages) :: after)).drafts
    rw [show ended.drafts = [] ++ numbered start.sequence bodies from drafts, List.nil_append]
    exact numbered_increasing _ _
  rcases carried draft emitted new text attachments usage reply with silent | ⟨rfl, rfl⟩
  · obtain ⟨p, mem, quiet⟩ := speaking.silent silent
    exact absurd quiet (by rw [spoken p mem]; decide)
  · exact ⟨speaking.text.trans (congrArg String.join whole.symm), increasing,
      speaking.attachments⟩

/-- Two pieces of text with a marker in between, and a late piece. -/
def spokenFrames : List (ℤ × RpcEventFrame) :=
  [(0, .turnStart), (1, .messageUpdate (some "It ")),
    (2, .toolExecutionEnd deliveryAttachmentTool false (some ⟨"plot.png", none, none⟩)),
    (3, .toolExecutionEnd deliveryAttachmentTool false (some ⟨"plot.png", none, none⟩)),
    (4, .messageUpdate (some "works."))]

/-- A turn of this kind. -/
theorem reply_is_what_was_streamed_spokenFrames :
    let start := create "chat" "room" "corr-1" 10 0 false
    let ended := start.feed (spokenFrames ++ (5, .agentEnd []) :: [(6, .messageUpdate (some "!"))])
    "It works." = String.join (deltaTexts ended.drafts) ∧
      ended.drafts.Pairwise (fun earlier later => earlier.sequence < later.sequence) ∧
      FirstSeen (markers spokenFrames) [⟨"plot.png", none, none⟩] :=
  reply_is_what_was_streamed "chat" "room" "corr-1" 10 0 false spokenFrames
    [(6, .messageUpdate (some "!"))] 5 [] ⟨4, .turnReply "It works." [⟨"plot.png", none, none⟩] noUsage⟩
    "It works." [⟨"plot.png", none, none⟩] noUsage rfl (by decide) (by decide) (by decide)

end OutboundEmitter

end OmpBundler.Core
