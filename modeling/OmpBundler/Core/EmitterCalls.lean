import OmpBundler.Core.OutboundEmitter

/-!
What a call of an emitter hands over.

A method only ever appends: its events are numbered from the counter on, and
the counter ends at the last number. The relation is closed under
composition, so that one line for each method is enough.
-/

namespace OmpBundler.Core

namespace OutboundEmitter

/-- Bodies with their numbers, the first one after `n`. -/
def numbered (n : ℕ) : List EventBody → List Draft
  | [] => []
  | body :: rest => ⟨n + 1, body⟩ :: numbered (n + 1) rest

theorem numbered_append (n : ℕ) (bodies more : List EventBody) :
    numbered n (bodies ++ more) = numbered n bodies ++ numbered (n + bodies.length) more := by
  induction bodies generalizing n with
  | nil => rfl
  | cons body rest ih =>
      rw [List.cons_append, numbered, numbered, ih, List.length_cons, List.cons_append,
        show n + 1 + rest.length = n + (rest.length + 1) by omega]

theorem length_numbered (n : ℕ) (bodies : List EventBody) :
    (numbered n bodies).length = bodies.length := by
  induction bodies generalizing n with
  | nil => rfl
  | cons body rest ih => simp [numbered, ih]

theorem sequence_of_mem_numbered {n : ℕ} {bodies : List EventBody} {draft : Draft}
    (mem : draft ∈ numbered n bodies) :
    n < draft.sequence ∧ draft.sequence ≤ n + bodies.length := by
  induction bodies generalizing n with
  | nil => simp [numbered] at mem
  | cons body rest ih =>
      rw [List.length_cons]
      rcases List.mem_cons.mp mem with rfl | later
      · exact ⟨by show n < n + 1; omega, by show n + 1 ≤ _; omega⟩
      · have := ih later
        omega

theorem numbered_increasing (n : ℕ) (bodies : List EventBody) :
    (numbered n bodies).Pairwise fun earlier later => earlier.sequence < later.sequence := by
  induction bodies generalizing n with
  | nil => exact List.Pairwise.nil
  | cons body rest ih =>
      exact List.pairwise_cons.mpr ⟨fun later mem => (sequence_of_mem_numbered mem).1, ih (n + 1)⟩

theorem bodies_numbered (n : ℕ) (bodies : List EventBody) :
    (numbered n bodies).map (·.body) = bodies := by
  induction bodies generalizing n with
  | nil => rfl
  | cons body rest ih =>
      show body :: _ = _
      rw [ih]

/-- `e'` is `e` after it has handed over further events. -/
structure Extends (e e' : OutboundEmitter) : Prop where
  adapterId : e'.adapterId = e.adapterId
  conversationKey : e'.conversationKey = e.conversationKey
  correlationId : e'.correlationId = e.correlationId
  closed : e'.closed = e.closed
  drafts : ∃ bodies, e'.drafts = e.drafts ++ numbered e.sequence bodies ∧
    e'.sequence = e.sequence + bodies.length

theorem Extends.refl (e : OutboundEmitter) : Extends e e :=
  ⟨rfl, rfl, rfl, rfl, [], by simp [numbered], rfl⟩

theorem Extends.trans {e e' e'' : OutboundEmitter} (first : Extends e e')
    (second : Extends e' e'') : Extends e e'' where
  adapterId := second.adapterId.trans first.adapterId
  conversationKey := second.conversationKey.trans first.conversationKey
  correlationId := second.correlationId.trans first.correlationId
  closed := second.closed.trans first.closed
  drafts := by
    obtain ⟨bodies, drafts, sequence⟩ := first.drafts
    obtain ⟨more, drafts', sequence'⟩ := second.drafts
    refine ⟨bodies ++ more, ?_, ?_⟩
    · rw [drafts', drafts, sequence, numbered_append, List.append_assoc]
    · rw [sequence', sequence, List.length_append, Nat.add_assoc]

variable {e e' : OutboundEmitter}

/-- Nothing is handed over on the way from `e` to `e'`. -/
structure Alike (e e' : OutboundEmitter) : Prop where
  adapterId : e'.adapterId = e.adapterId
  conversationKey : e'.conversationKey = e.conversationKey
  correlationId : e'.correlationId = e.correlationId
  closed : e'.closed = e.closed
  drafts : e'.drafts = e.drafts
  sequence : e'.sequence = e.sequence

theorem Extends.of_alike (alike : Alike e e') : Extends e e' :=
  ⟨alike.adapterId, alike.conversationKey, alike.correlationId, alike.closed, [],
    by simp [alike.drafts, numbered], alike.sequence⟩

theorem Extends.emit (body : EventBody) (alike : Alike e e') : Extends e (e'.emit body) := by
  refine ⟨alike.adapterId, alike.conversationKey, alike.correlationId, alike.closed, [body],
    ?_, ?_⟩
  · show e'.drafts ++ [⟨e'.sequence + 1, body⟩] = _
    rw [alike.drafts, alike.sequence]
    rfl
  · show e'.sequence + 1 = _
    rw [alike.sequence]
    rfl

theorem extends_handleTurnStart (e : OutboundEmitter) (now : ℤ) :
    Extends e (e.handleTurnStart now) := by
  rw [handleTurnStart]
  split
  · exact .refl e
  · exact .emit _ ⟨rfl, rfl, rfl, rfl, rfl, rfl⟩

theorem extends_emitTerminal (e : OutboundEmitter) (body : EventBody) :
    Extends e (e.emitTerminal body) :=
  .emit body ⟨rfl, rfl, rfl, rfl, rfl, rfl⟩

theorem extends_startedTerminal (e : OutboundEmitter) (now : ℤ) (body : EventBody) :
    Extends e ((e.ensureStarted now).emitTerminal body) :=
  (extends_handleTurnStart e now).trans (extends_emitTerminal _ body)

theorem extends_emitProviderError (e : OutboundEmitter) (now : ℤ) (code message : String)
    (retryable : Bool) : Extends e (e.emitProviderError now code message retryable) := by
  rw [emitProviderError]
  split
  · exact .refl e
  · exact extends_startedTerminal e now _

theorem extends_flushProgress (e : OutboundEmitter) (now : ℤ) :
    Extends e (e.flushProgress now) := by
  rw [flushProgress]
  split
  · exact .refl e
  · split
    · exact .emit _ ⟨rfl, rfl, rfl, rfl, rfl, rfl⟩
    · exact .refl e

theorem extends_handleProgressCandidate (e : OutboundEmitter) (now : ℤ) (message : String) :
    Extends e (e.handleProgressCandidate now message) := by
  have waiting : Extends e { e with pendingProgress := some message } :=
    .of_alike ⟨rfl, rfl, rfl, rfl, rfl, rfl⟩
  exact waiting.trans (extends_flushProgress _ now)

theorem extends_handleMessageUpdate (e : OutboundEmitter) (now : ℤ) (delta : Option String) :
    Extends e (e.handleMessageUpdate now delta) := by
  cases delta with
  | none => exact .refl e
  | some text =>
      simp only [handleMessageUpdate]
      split
      · exact .refl e
      · split
        · exact .of_alike ⟨rfl, rfl, rfl, rfl, rfl, rfl⟩
        · have sent : Extends e ({ e with replyText := e.replyText ++ text }.emit (.turnDelta text)) :=
            .emit _ ⟨rfl, rfl, rfl, rfl, rfl, rfl⟩
          exact sent.trans (extends_handleProgressCandidate _ now text)

theorem extends_handleToolExecutionEnd (e : OutboundEmitter) (toolName : String) (isError : Bool)
    (marker : Option WorkspaceAttachment) :
    Extends e (e.handleToolExecutionEnd toolName isError marker) := by
  rw [handleToolExecutionEnd]
  cases extractDeliveryAttachment toolName isError marker with
  | none => dsimp only; split <;> exact .of_alike ⟨rfl, rfl, rfl, rfl, rfl, rfl⟩
  | some attachment => dsimp only; split <;> split <;> exact .of_alike ⟨rfl, rfl, rfl, rfl, rfl, rfl⟩

theorem extends_handleAgentEnd (e : OutboundEmitter) (now : ℤ) (messages : List AgentMessage) :
    Extends e (e.handleAgentEnd now messages) := by
  rw [handleAgentEnd]
  split
  · exact .refl e
  · split
    · exact extends_emitProviderError e now _ _ _
    · split
      · exact extends_startedTerminal e now _
      · split
        · exact extends_emitProviderError e now _ _ _
        · exact extends_startedTerminal e now _

theorem extends_ingest (e : OutboundEmitter) (now : ℤ) (frame : RpcEventFrame) :
    Extends e (e.ingest now frame) := by
  cases frame with
  | turnStart => exact extends_handleTurnStart e now
  | messageUpdate delta => exact extends_handleMessageUpdate e now delta
  | toolExecutionEnd toolName isError marker =>
      exact extends_handleToolExecutionEnd e toolName isError marker
  | turnEnd usage =>
      cases usage with
      | none => exact .refl e
      | some usage => exact .of_alike ⟨rfl, rfl, rfl, rfl, rfl, rfl⟩
  | agentEnd messages => exact extends_handleAgentEnd e now messages
  | subagent kind id name => exact extends_handleProgressCandidate e now _
  | other => exact .refl e

/-- Every method extends the emitter. -/
theorem extends_call (e : OutboundEmitter) (now : ℤ) (m : Call) : Extends e (e.call now m) := by
  cases m with
  | ingest frame => exact extends_ingest e now frame
  | emitProviderError code message retryable =>
      exact extends_emitProviderError e now code message retryable
  | emitPresence presence =>
      simp only [call, emitPresence]
      split
      · exact .refl e
      · exact .emit _ ⟨rfl, rfl, rfl, rfl, rfl, rfl⟩
  | emitCancelled =>
      simp only [call, emitCancelled]
      split
      · exact .refl e
      · exact extends_emitTerminal e _
  | emitDirectReply text =>
      simp only [call, emitDirectReply]
      split
      · exact .refl e
      · exact extends_emitTerminal e _
  | flushProgress => exact extends_flushProgress e now

end OutboundEmitter

end OmpBundler.Core
