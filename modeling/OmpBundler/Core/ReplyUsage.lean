import Mathlib.Algebra.BigOperators.Group.List.Basic
import OmpBundler.Core.ReplyText

/-!
The usage of a reply.

A turn may take several calls of the model. Each of them is reported by a
`turn_end`, and the last report replaces the ones before it; if there was
none, the first assistant message of `agent_end` counts. So the reply carries
the whole usage exactly if everything that was replaced or passed over is
nothing.
-/

namespace OmpBundler.Core

/-! ### Sums -/

attribute [ext] TurnUsage

instance : Zero TurnUsage := ⟨noUsage⟩

instance : Add TurnUsage :=
  ⟨fun u v => ⟨u.input + v.input, u.output + v.output, u.cacheRead + v.cacheRead,
    u.cacheWrite + v.cacheWrite, u.costUsd + v.costUsd⟩⟩

namespace TurnUsage

variable (u v : TurnUsage)

@[simp] theorem input_add : (u + v).input = u.input + v.input := rfl
@[simp] theorem output_add : (u + v).output = u.output + v.output := rfl
@[simp] theorem cacheRead_add : (u + v).cacheRead = u.cacheRead + v.cacheRead := rfl
@[simp] theorem cacheWrite_add : (u + v).cacheWrite = u.cacheWrite + v.cacheWrite := rfl
@[simp] theorem costUsd_add : (u + v).costUsd = u.costUsd + v.costUsd := rfl

@[simp] theorem input_zero : (0 : TurnUsage).input = 0 := rfl
@[simp] theorem output_zero : (0 : TurnUsage).output = 0 := rfl
@[simp] theorem cacheRead_zero : (0 : TurnUsage).cacheRead = 0 := rfl
@[simp] theorem cacheWrite_zero : (0 : TurnUsage).cacheWrite = 0 := rfl
@[simp] theorem costUsd_zero : (0 : TurnUsage).costUsd = 0 := rfl

/-- Usage is added component by component. -/
instance : AddCancelCommMonoid TurnUsage where
  add_assoc u v w := by
    ext <;> simp [add_assoc]
  zero_add u := by
    ext <;> simp
  add_zero u := by
    ext <;> simp
  add_comm u v := by
    ext <;> simp [add_comm]
  add_left_cancel u v w same := by
    ext
    · exact Nat.add_left_cancel (congrArg TurnUsage.input same)
    · exact Nat.add_left_cancel (congrArg TurnUsage.output same)
    · exact Nat.add_left_cancel (congrArg TurnUsage.cacheRead same)
    · exact Nat.add_left_cancel (congrArg TurnUsage.cacheWrite same)
    · exact add_left_cancel (congrArg TurnUsage.costUsd same)
  nsmul := nsmulRec

end TurnUsage

namespace OutboundEmitter

/-! ### What is reported, and what is kept -/

/-- The usage that a `turn_end` reports. -/
def usage? : RpcEventFrame → Option TurnUsage
  | .turnEnd usage => usage
  | _ => none

/-- The usage that the `turn_end` frames report. -/
def reported (frames : List (ℤ × RpcEventFrame)) : List TurnUsage :=
  frames.filterMap fun p => usage? p.2

/-- The usage of the assistant messages. -/
def assistantUsages (messages : List AgentMessage) : List TurnUsage :=
  messages.filterMap fun m => if m.role = "assistant" then m.usage else none

/-- The usage of the turn: what the `turn_end` frames have reported, or else
what the assistant messages say. -/
def turnUsage (frames : List (ℤ × RpcEventFrame)) (messages : List AgentMessage) : TurnUsage :=
  if reported frames = [] then (assistantUsages messages).sum else (reported frames).sum

/-- What is replaced or passed over is nothing. -/
def NothingLost (frames : List (ℤ × RpcEventFrame)) (messages : List AgentMessage) : Prop :=
  if reported frames = [] then (assistantUsages messages).tail.sum = 0
  else (reported frames).dropLast.sum = 0

instance (frames : List (ℤ × RpcEventFrame)) (messages : List AgentMessage) :
    Decidable (NothingLost frames messages) :=
  inferInstanceAs (Decidable
    (if reported frames = [] then (assistantUsages messages).tail.sum = 0
      else (reported frames).dropLast.sum = 0))

variable {e : OutboundEmitter} {frames : List (ℤ × RpcEventFrame)}

theorem extractUsageFromAgentEnd_eq (messages : List AgentMessage) :
    extractUsageFromAgentEnd messages = (assistantUsages messages).head?.getD 0 := by
  rw [assistantUsages, List.head?_filterMap]
  rfl

theorem emit_replyUsage (body : EventBody) : (e.emit body).replyUsage = e.replyUsage := rfl

theorem handleTurnStart_replyUsage (now : ℤ) :
    (e.handleTurnStart now).replyUsage = e.replyUsage := by
  rw [handleTurnStart]
  split <;> rfl

theorem startedTerminal_replyUsage (now : ℤ) (body : EventBody) :
    ((e.ensureStarted now).emitTerminal body).replyUsage = e.replyUsage :=
  handleTurnStart_replyUsage now

theorem emitProviderError_replyUsage (now : ℤ) (code message : String) (retryable : Bool) :
    (e.emitProviderError now code message retryable).replyUsage = e.replyUsage := by
  rw [emitProviderError]
  split
  · rfl
  · exact startedTerminal_replyUsage now _

theorem handleProgressCandidate_replyUsage (now : ℤ) (message : String) :
    (e.handleProgressCandidate now message).replyUsage = e.replyUsage := by
  rw [handleProgressCandidate, flushProgress]
  split
  · rfl
  · split <;> rfl

/-- A report replaces the one before it, and nothing else touches it. -/
theorem ingest_replyUsage (now : ℤ) (frame : RpcEventFrame) :
    (e.ingest now frame).replyUsage = (usage? frame).or e.replyUsage := by
  cases frame with
  | turnStart => exact handleTurnStart_replyUsage now
  | messageUpdate delta =>
    cases delta with
    | none => rfl
    | some text =>
      rw [ingest, handleMessageUpdate]
      split
      · rfl
      · dsimp only
        split
        · rfl
        · exact handleProgressCandidate_replyUsage now text
  | toolExecutionEnd toolName isError marker =>
    rw [ingest, handleToolExecutionEnd]
    cases extractDeliveryAttachment toolName isError marker with
    | none =>
      dsimp only
      split <;> rfl
    | some attachment =>
      dsimp only
      split <;> split <;> rfl
  | turnEnd usage => cases usage <;> rfl
  | agentEnd messages =>
    rw [ingest, handleAgentEnd]
    split
    · rfl
    split
    · exact emitProviderError_replyUsage now _ _ _
    split
    · exact startedTerminal_replyUsage now _
    split
    · exact emitProviderError_replyUsage now _ _ _
    · exact startedTerminal_replyUsage now _
  | subagent kind id name => exact handleProgressCandidate_replyUsage now _
  | other => rfl

theorem reported_concat (frames : List (ℤ × RpcEventFrame)) (p : ℤ × RpcEventFrame) :
    reported (frames ++ [p]) = reported frames ++ (usage? p.2).toList := by
  rw [reported, List.filterMap_append]
  cases used : usage? p.2 <;> simp [used, reported]

/-- The last report is kept. -/
theorem feed_replyUsage (start : e.replyUsage = none) (frames : List (ℤ × RpcEventFrame)) :
    (e.feed frames).replyUsage = (reported frames).getLast? := by
  induction frames using List.reverseRecOn with
  | nil => exact start
  | append_singleton before p ih =>
    rw [feed_append, reported_concat]
    show ((e.feed before).ingest p.1 p.2).replyUsage = _
    rw [ingest_replyUsage, ih]
    cases usage? p.2 <;> simp

/-! ### The usage of a reply -/

/-- The reply that `agent_end` hands over carries the last report, or else
the usage of the first assistant message. -/
theorem usage_of_reply {now : ℤ} {messages : List AgentMessage} {draft : Draft} {text : String}
    {attachments : List WorkspaceAttachment} {usage : TurnUsage}
    (emitted : draft ∈ (e.ingest now (.agentEnd messages)).drafts) (new : draft ∉ e.drafts)
    (reply : draft.body = .turnReply text attachments usage) :
    usage = e.replyUsage.getD (extractUsageFromAgentEnd messages) := by
  have terminal {body : EventBody}
      (emitted : draft ∈ ((e.ensureStarted now).emitTerminal body).drafts) :
      draft.body = body := by
    rcases mem_startedTerminal emitted with earlier | start | last
    · exact absurd earlier new
    · rw [start] at reply
      cases reply
    · exact last
  have error {code message : String} {retryable : Bool}
      (emitted : draft ∈ (e.emitProviderError now code message retryable).drafts) : False := by
    rw [emitProviderError] at emitted
    split at emitted
    · exact new emitted
    · have body := terminal emitted
      rw [reply] at body
      cases body
  rw [ingest, handleAgentEnd] at emitted
  dsimp only at emitted
  split at emitted
  · exact absurd emitted new
  split at emitted
  · exact (error emitted).elim
  split at emitted
  · have body := terminal emitted
    rw [reply] at body
    cases body
    rfl
  split at emitted
  · exact (error emitted).elim
  · have body := terminal emitted
    rw [reply] at body
    cases body
    rfl

/-- The last of several, and what comes before it. -/
theorem sum_eq_getLast_iff {usages : List TurnUsage} {last : TurnUsage}
    (found : usages.getLast? = some last) : last = usages.sum ↔ usages.dropLast.sum = 0 := by
  have split : usages.dropLast ++ [last] = usages := List.dropLast_append_getLast? last found
  rw [eq_comm, ← split, List.sum_append, List.sum_singleton, List.dropLast_concat, add_eq_right]

theorem sum_eq_head_iff (usages : List TurnUsage) :
    usages.head?.getD 0 = usages.sum ↔ usages.tail.sum = 0 := by
  cases usages with
  | nil => simp
  | cons first rest => simp

/-- The reply carries the usage of the turn exactly if nothing is lost of
it: the reports before the last one add up to nothing or, if there was no
report, the assistant messages after the first one do. -/
theorem reply_carries_turnUsage_iff (adapterId conversationKey correlationId : String)
    (progressThresholdMs maxSequence : ℕ) (terminalRow : Bool)
    (before : List (ℤ × RpcEventFrame)) (now : ℤ) (messages : List AgentMessage)
    (draft : Draft) (text : String) (attachments : List WorkspaceAttachment) (usage : TurnUsage)
    (reply : draft.body = .turnReply text attachments usage) :
    let e := (create adapterId conversationKey correlationId progressThresholdMs maxSequence
      terminalRow).feed before
    draft ∈ (e.ingest now (.agentEnd messages)).drafts → draft ∉ e.drafts →
    (usage = turnUsage before messages ↔ NothingLost before messages) := by
  intro e emitted new
  have carried := usage_of_reply emitted new reply
  have kept : e.replyUsage = (reported before).getLast? := feed_replyUsage rfl before
  rw [kept, extractUsageFromAgentEnd_eq] at carried
  rw [carried, turnUsage, NothingLost]
  split_ifs with silent
  · rw [silent, List.getLast?_nil, Option.getD_none]
    exact sum_eq_head_iff _
  · obtain ⟨last, found⟩ := Option.ne_none_iff_exists'.mp
      (fun empty => silent (List.getLast?_eq_none_iff.mp empty))
    rw [found, Option.getD_some]
    exact sum_eq_getLast_iff found

/-- Two calls of the model, the second one after a tool. -/
def twoCalls : List (ℤ × RpcEventFrame) :=
  [(0, .turnStart), (1, .turnEnd (some ⟨100, 20, 0, 0, 0⟩)),
    (2, .messageUpdate (some "Done.")), (3, .turnEnd (some ⟨150, 5, 0, 0, 0⟩))]

/-- The usage of the first call is not in the reply. -/
theorem twoCalls_lose_usage :
    let e := (create "chat" "room" "corr-1" 10 0 false).feed twoCalls
    (⟨3, .turnReply "Done." [] ⟨150, 5, 0, 0, 0⟩⟩ : Draft) ∈
        (e.ingest 4 (.agentEnd [])).drafts ∧
      (⟨150, 5, 0, 0, 0⟩ : TurnUsage) ≠ turnUsage twoCalls [] := by
  decide +kernel

/-- A turn of one call: its reply carries the whole usage. -/
theorem reply_carries_turnUsage_single :
    (⟨100, 20, 0, 0, 0⟩ : TurnUsage) = turnUsage
        [(0, .turnStart), (1, .messageUpdate (some "Done.")),
          (2, .turnEnd (some ⟨100, 20, 0, 0, 0⟩))] [] ↔
      NothingLost
        [(0, .turnStart), (1, .messageUpdate (some "Done.")),
          (2, .turnEnd (some ⟨100, 20, 0, 0, 0⟩))] [] :=
  reply_carries_turnUsage_iff "chat" "room" "corr-1" 10 0 false _ 3 []
    ⟨3, .turnReply "Done." [] ⟨100, 20, 0, 0, 0⟩⟩ "Done." [] ⟨100, 20, 0, 0, 0⟩ rfl
    (by decide +kernel) (by decide +kernel)

end OutboundEmitter

end OmpBundler.Core
