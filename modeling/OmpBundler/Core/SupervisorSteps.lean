import Mathlib.Tactic.SplitIfs
import OmpBundler.Core.OutboundSteps
import OmpBundler.Core.SupervisorMachine

/-!
What the pieces of code of the supervisor do to the calls.

A piece of code changes one call at most, and most of them put it into
another stage only; a call that is over leaves its chain. A call that has
begun, which is one whose message the store has classified as new, goes on to
wait for the pool or a child, or is accepted: `Onward` is the list of the
stages that it may come to.
-/

namespace OmpBundler.Core

open Library

/-! ### Stages -/

/-- The stages of a call that the store is about to classify. -/
inductive Stage.Ready : Stage → Prop
  | queued : Stage.Ready .queued
  | superseded : Stage.Ready .superseded

/-- The stages of a call whose message is not known to be new. -/
inductive Stage.Early : Stage → Prop
  | ready {stage : Stage} (ready : stage.Ready) : Stage.Early stage
  | superseding (k : ℕ) : Stage.Early (.superseding k)
  | redelivering (k : ℕ) (deliveries : List ℕ) : Stage.Early (.redelivering k deliveries)
  | flushing (k : ℕ) (delivery : Option ℕ) : Stage.Early (.flushing k delivery)

/-- The stages of a call that has begun and is not over. -/
inductive Stage.Begun : Stage → Prop
  | acquiring (mode : Option ActivationMode) : Stage.Begun (.acquiring mode)
  | appending (lease : Option ChildId) : Stage.Begun (.appending lease)
  | interrupting (k : ℕ) : Stage.Begun (.interrupting k)
  | retiring : Stage.Begun .retiring
  | prompting (k : ℕ) (mode : ActivationMode) : Stage.Begun (.prompting k mode)

/-- The stages of a call that is over. -/
inductive Stage.Final : Stage → Prop
  | resolved (result : InboundResult) : Stage.Final (.resolved result)
  | rejected (failure : InboundFailure) : Stage.Final (.rejected failure)

theorem Stage.Early.not_final {stage : Stage} (early : stage.Early) : ¬ stage.Final := by
  rintro (⟨⟨⟩⟩ | ⟨⟨⟩⟩) <;> cases early with | ready ready => cases ready

theorem Stage.Begun.not_final {stage : Stage} (begun : stage.Begun) : ¬ stage.Final := by
  cases begun <;> rintro ⟨⟩

theorem Stage.Begun.not_early {stage : Stage} (begun : stage.Begun) : ¬ stage.Early := by
  cases begun <;> (rintro ⟨⟩; next ready => cases ready)

/-- The stages that a call may come to once it has begun. -/
inductive InboundCall.Onward (c : InboundCall) : Stage → Prop
  | begun {stage : Stage} (begun : stage.Begun) : InboundCall.Onward c stage
  | accepted : InboundCall.Onward c (.resolved (.accepted c.correlationId))
  /-- An activation of `flushSettled` is dropped. -/
  | dropped (settled : c.origin = .flushSettled) : InboundCall.Onward c (.rejected .activation)

/-- A call that has just come in. -/
def InboundCall.Fresh (c : InboundCall) : Prop := c.stage = .queued ∧ c.created = false

/-! ### Calls and their chains -/

/-- What the supervisor keeps of its calls. -/
structure Calls where
  callOf : ℕ → Option InboundCall
  inboundChains : Conversation → List ℕ
  sweeps : List (List ℕ)
  nextCall : ℕ

/-- Put a call into a stage; if that is the end, it leaves its chain. -/
def Calls.put (x : Calls) (i : ℕ) (c : InboundCall) : Calls :=
  match c.stage with
  | .resolved _ | .rejected _ =>
      { callOf := Function.update x.callOf i (some c)
        inboundChains := Function.update x.inboundChains c.conversation
          ((x.inboundChains c.conversation).filter (· ≠ i))
        sweeps := x.sweeps.map fun l => l.filter (· ≠ i)
        nextCall := x.nextCall }
  | _ => { x with callOf := Function.update x.callOf i (some c) }

@[simp]
theorem Calls.put_callOf (x : Calls) (i : ℕ) (c : InboundCall) :
    (x.put i c).callOf = Function.update x.callOf i (some c) := by
  rw [put]
  split <;> rfl

theorem Calls.put_of_not_final {c : InboundCall} (x : Calls) (i : ℕ) (going : ¬ c.stage.Final) :
    x.put i c = { x with callOf := Function.update x.callOf i (some c) } := by
  rw [put]
  split
  · case h_1 result stage => exact absurd (stage ▸ .resolved result) going
  · case h_2 failure stage => exact absurd (stage ▸ .rejected failure) going
  · rfl

namespace Supervisor

/-- The calls of a state. -/
def calls (s : Supervisor) : Calls := ⟨s.callOf, s.inboundChains, s.sweeps, s.nextCall⟩

variable {o : SupervisorOptions} {s t : Supervisor} {i j k : ℕ} {c : InboundCall} {now : ℤ}

/-! ### Pieces that leave the calls alone -/

@[simp]
theorem emit_calls (m : OutboundEmitter.Call) : (s.emit o k now m).calls = s.calls := by
  rw [emit]
  split <;> rfl

@[simp]
theorem closeEmitter_calls : (s.closeEmitter k).calls = s.calls := by
  rw [closeEmitter]
  split <;> rfl

@[simp]
theorem register_calls (corr : ActiveCorrelation) : (s.register o corr).calls = s.calls := rfl

@[simp]
theorem ensureActive_calls (corr : ActiveCorrelation) :
    (s.ensureActive o corr).calls = s.calls := by
  rw [ensureActive]
  split <;> rfl

@[simp]
theorem setCorrelation_calls (corr : ActiveCorrelation) :
    (s.setCorrelation k corr).calls = s.calls := rfl

@[simp]
theorem send_calls (child : ChildId) (command : ChildCommand) :
    (s.send child command).calls = s.calls := rfl

@[simp]
theorem recordInteraction_calls (conversation : Conversation) :
    (s.recordInteraction o conversation now).calls = s.calls := rfl

@[simp]
theorem cleanupCorrelation_calls : (s.cleanupCorrelation k).calls = s.calls := rfl

@[simp]
theorem claimTerminal_calls : (s.claimTerminal k).calls = s.calls := rfl

@[simp]
theorem failCorrelation_calls (conversation : Conversation) :
    (s.failCorrelation o conversation now).calls = s.calls := by
  rw [failCorrelation]
  split
  · rfl
  · split_ifs <;> simp

@[simp]
theorem handleAgentEnd_calls : (s.handleAgentEnd k).calls = s.calls := by
  rw [handleAgentEnd]
  split_ifs <;> rfl

@[simp]
theorem handleChildEvent_calls (conversation : Conversation) (frame : RpcEventFrame) :
    (s.handleChildEvent o conversation now frame).calls = s.calls := by
  rw [handleChildEvent]
  split
  · rfl
  · simp only
    split
    · split_ifs <;> simp
    · simp
    · simp
    · simp

@[simp]
theorem interruptTurn_calls : (s.interruptTurn o k now).calls = s.calls := by
  simp only [interruptTurn]
  split <;> simp

@[simp]
theorem terminalizeAcceptedInbound_calls (correlationId : String) :
    (s.terminalizeAcceptedInbound o c correlationId now).calls = s.calls := by
  simp only [terminalizeAcceptedInbound]
  split_ifs
  · rfl
  · split
    · simp
    · split_ifs <;> simp

@[simp]
theorem redeliver_calls (who : Waiting) (event : OutboundEvent) :
    (s.redeliver who k event).calls = s.calls := by
  rw [redeliver]
  split <;> rfl

@[simp]
theorem setRecovery_calls (conversation : Conversation) (stage : RecoveryStage) :
    (s.setRecovery conversation stage).calls = s.calls := rfl

@[simp]
theorem endRecovery_calls (conversation : Conversation) :
    (s.endRecovery conversation k).calls = s.calls := closeEmitter_calls

@[simp]
theorem beginRecovery_calls (conversation : Conversation) (r : Recovery) :
    (s.beginRecovery o conversation r).calls = s.calls := by
  simp only [beginRecovery]
  split
  · rw [redeliver_calls]
    rfl
  · split <;> rfl

/-! ### Pieces that move a call -/

theorem setCall_calls (going : ¬ c.stage.Final) : (s.setCall i c).calls = s.calls.put i c :=
  (Calls.put_of_not_final s.calls i going).symm

theorem resolve_calls (result : InboundResult) :
    (s.resolve i c result).calls = s.calls.put i { c with stage := .resolved result } := rfl

theorem reject_calls (failure : InboundFailure) :
    (s.reject i c failure).calls = s.calls.put i { c with stage := .rejected failure } := rfl

/-- `t` differs from `s`, as far as calls are concerned, by the stage of a
call that has begun. -/
def Continues (s : Supervisor) (i : ℕ) (c : InboundCall) (t : Supervisor) : Prop :=
  ∃ stage, c.Onward stage ∧ t.calls = s.calls.put i { c with stage }

/-- What comes before does not matter if it leaves the calls alone. -/
theorem Continues.of_eq {u : Supervisor} (h : Continues u i c t) (same : u.calls = s.calls) :
    Continues s i c t := by
  obtain ⟨stage, onward, moved⟩ := h
  exact ⟨stage, onward, by rw [moved, same]⟩

theorem Continues.of_begun {u : Supervisor} {stage : Stage} (begun : stage.Begun)
    (moved : t.calls = (u.setCall i { c with stage }).calls) (same : u.calls = s.calls) :
    Continues s i c t :=
  ⟨stage, .begun begun, by rw [moved, ← same]; exact setCall_calls begun.not_final⟩

theorem continues_failActivation (s : Supervisor) (i : ℕ) (c : InboundCall) (now : ℤ) :
    Continues s i c (s.failActivation o i c now) := by
  rw [failActivation]
  split
  · exact ⟨_, .accepted, by rw [resolve_calls, terminalizeAcceptedInbound_calls]⟩
  · case h_2 settled => exact ⟨_, .dropped settled, reject_calls .activation⟩

theorem continues_dispatch (s : Supervisor) (i : ℕ) (c : InboundCall) (k : ℕ)
    (mode : ActivationMode) (now : ℤ) : Continues s i c (s.dispatch o i c k mode now) := by
  simp only [dispatch]
  split
  · exact (continues_failActivation _ i c now).of_eq rfl
  · refine @Continues.of_begun _ _ i c (s.recordInteraction o c.conversation now) _
      (.prompting k mode) ?_ rfl
    cases mode <;> rfl

theorem continues_handleSessionReset (s : Supervisor) (i : ℕ) (c : InboundCall) (now : ℤ) :
    Continues s i c (s.handleSessionReset o i c now) := by
  rw [handleSessionReset]
  split
  · case h_1 k active =>
      exact .of_begun (.interrupting k) rfl interruptTurn_calls
  · exact .of_begun .retiring rfl rfl

theorem continues_finishSessionReset (s : Supervisor) (i : ℕ) (c : InboundCall) (now : ℤ) :
    Continues s i c (s.finishSessionReset o i c now) := by
  refine ⟨_, .accepted, ?_⟩
  simp only [finishSessionReset, resolve_calls, cleanupCorrelation_calls, claimTerminal_calls,
    emit_calls, register_calls, recordInteraction_calls]
  rfl

theorem continues_activate (s : Supervisor) (i : ℕ) (c : InboundCall) (mode : ActivationMode)
    (now : ℤ) : Continues s i c (s.activate o i c mode now) := by
  rw [activate]
  split_ifs
  · exact continues_handleSessionReset s i c now
  · split
    · exact .of_begun (.acquiring (some mode)) rfl rfl
    · exact (continues_dispatch _ i c _ mode now).of_eq rfl

theorem continues_activateWith (s : Supervisor) (i : ℕ) (c : InboundCall) (mode : ActivationMode)
    (child : ChildId) (now : ℤ) : Continues s i c (s.activateWith o i c mode child now) :=
  (continues_dispatch _ i c _ mode now).of_eq rfl

theorem continues_appendPassiveMessage (s : Supervisor) (i : ℕ) (c : InboundCall) (now : ℤ) :
    Continues s i c (s.appendPassiveMessage i c now) := by
  rw [appendPassiveMessage]
  split
  · exact .of_begun (.appending none) rfl rfl
  · exact .of_begun (.acquiring none) rfl rfl

theorem continues_ingest (s : Supervisor) (i : ℕ) (c : InboundCall) (now : ℤ) :
    Continues s i c (s.ingest o i c now) := by
  rw [ingest]
  split
  · exact (continues_appendPassiveMessage _ i c now).of_eq rfl
  · exact (continues_activate _ i c _ now).of_eq rfl

theorem continues_completePrompt (s : Supervisor) (i : ℕ) (c : InboundCall) (now : ℤ) :
    Continues s i c (s.completePrompt i c now) :=
  ⟨_, .accepted, rfl⟩

theorem continues_failPrompt (s : Supervisor) (i : ℕ) (c : InboundCall) (k : ℕ)
    (mode : ActivationMode) (now : ℤ) : Continues s i c (s.failPrompt o i c k mode now) := by
  simp only [failPrompt]
  split_ifs
  · exact (continues_failActivation _ i c now).of_eq rfl
  · exact continues_failActivation s i c now

theorem continues_failAppend (s : Supervisor) (i : ℕ) (c : InboundCall) (now : ℤ) :
    Continues s i c (s.failAppend o i c now) :=
  ⟨_, .accepted, by rw [failAppend, resolve_calls, terminalizeAcceptedInbound_calls]⟩

/-! ### The classification of a message -/

/-- What the classification of a message makes of its call: it is over, it
waits for a redelivery, or it goes on. -/
inductive Classified (s : Supervisor) (i : ℕ) (c : InboundCall) (t : Supervisor) : Prop
  | ended (correlationId : String) {stage : Stage} (final : stage.Final)
      (moved : t.calls = s.calls.put i { c with correlationId, stage })
  | redelivers (correlationId : String)
      (moved : t.calls = s.calls.put i { c with correlationId })
  | begun (correlationId : String)
      (moved : Continues s i { c with correlationId, created := true } t)
  /-- The same for an activation of `flushSettled`. -/
  | settled (origin : c.origin = .flushSettled) (correlationId : String)
      (moved : Continues s i { c with correlationId } t)

theorem classified_redeliverSaved (s : Supervisor) (i : ℕ) {c : InboundCall}
    (ready : c.stage.Ready) (correlationId : String) (response : Option OutboundEvent) :
    Classified s i c (s.redeliverSaved o i { c with correlationId } response) := by
  simp only [redeliverSaved]
  split
  · have going : ¬ ({ c with correlationId } : InboundCall).stage.Final :=
      (Stage.Early.ready ready).not_final
    refine .redelivers correlationId ?_
    rw [redeliver_calls, setCall_calls going, setCorrelation_calls, ensureActive_calls]
  · exact .ended correlationId (.rejected .redelivery) (by rw [reject_calls, ensureActive_calls])

theorem Classified.of_eq {u : Supervisor} (h : Classified u i c t) (same : u.calls = s.calls) :
    Classified s i c t := by
  cases h with
  | ended correlationId final moved => exact .ended correlationId final (by rw [moved, same])
  | redelivers correlationId moved => exact .redelivers correlationId (by rw [moved, same])
  | begun correlationId moved => exact .begun correlationId (moved.of_eq same)
  | settled origin correlationId moved => exact .settled origin correlationId (moved.of_eq same)

theorem classified_classify (s : Supervisor) (i : ℕ) {c : InboundCall} (ready : c.stage.Ready)
    (now : ℤ) : Classified s i c (s.classify o i c now) := by
  simp only [classify]
  split
  · case h_1 error store _ =>
      exact .ended c.correlationId (.rejected (beginFailure c error)) (reject_calls _)
  · case h_2 begun store _ =>
    split
    · case h_1 correlationId _ =>
        exact .ended correlationId (.resolved (.duplicate correlationId)) (resolve_calls _)
    · case h_2 correlationId response _ =>
        exact (classified_redeliverSaved _ i ready correlationId response).of_eq rfl
    · case h_3 correlationId response _ _ =>
        exact (classified_redeliverSaved _ i ready correlationId response).of_eq rfl
    · case h_4 correlationId _ =>
        refine .ended correlationId (.resolved (.duplicate correlationId)) ?_
        split_ifs
        · rw [resolve_calls, terminalizeAcceptedInbound_calls]
          rfl
        · exact resolve_calls _
    · exact .begun _ ((continues_ingest _ i _ now).of_eq rfl)

theorem classified_activateSettled (s : Supervisor) (i : ℕ) {c : InboundCall} (now : ℤ)
    (origin : c.origin = .flushSettled) : Classified s i c (s.activateSettled o i c now) := by
  simp only [activateSettled]
  split
  · case h_1 error store _ =>
      exact .ended c.correlationId (.rejected (beginFailure c error)) (reject_calls _)
  · exact .settled origin _ ((continues_activate _ i _ .prompt now).of_eq rfl)

/-! ### What a step does to a call -/

/-- The call that an action is about. -/
def Action.call? : Action → Option ℕ
  | .start i _ | .aborted i | .superseded i _ | .acquired i _ _ | .appended i _ _
  | .prompted i _ _ | .retired i _ _ | .resumeCall i => some i
  | _ => none

/-- What becomes of the call that acts in a step. -/
inductive Turned (s : Supervisor) : Action → InboundCall → InboundCall → Prop
  | supersedes {i : ℕ} {now : ℤ} {c : InboundCall} (queued : c.stage = .queued) (k : ℕ) :
      Turned s (.start i now) c { c with stage := .superseding k }
  | superseded {i k : ℕ} {c : InboundCall} (was : c.stage = .superseding k) :
      Turned s (.aborted i) c { c with stage := .superseded }
  /-- It is over, and its message was not new. -/
  | ended {a : Action} {c : InboundCall} {stage : Stage} (ready : c.stage.Ready)
      (correlationId : String) (final : stage.Final) :
      Turned s a c { c with correlationId, stage }
  | redelivers {a : Action} {c : InboundCall} (ready : c.stage.Ready) (correlationId : String) :
      Turned s a c { c with correlationId }
  | waits {c : InboundCall} (ready : c.stage.Ready) (k : ℕ) (deliveries : List ℕ) :
      Turned s .remainder c { c with stage := .redelivering k deliveries }
  | flushes {i k : ℕ} {deliveries : List ℕ} {c : InboundCall}
      (was : c.stage = .redelivering k deliveries) (joined : s.joined deliveries = some true) :
      Turned s (.resumeCall i) c { c with stage := .flushing k (s.tailOf k) }
  | redelivered {i k : ℕ} {delivery : Option ℕ} {c : InboundCall}
      (was : c.stage = .flushing k delivery) (joined : s.joined delivery.toList = some true) :
      Turned s (.resumeCall i) c { c with stage := .resolved (.duplicate c.correlationId) }
  | fails {i : ℕ} {c : InboundCall} (early : c.stage.Early) :
      Turned s (.resumeCall i) c { c with stage := .rejected .redelivery }
  | begun {a : Action} {c : InboundCall} {correlationId : String} {stage : Stage}
      (ready : c.stage.Ready)
      (onward : InboundCall.Onward { c with correlationId, created := true } stage) :
      Turned s a c { c with correlationId, created := true, stage }
  | settled {a : Action} {c : InboundCall} {correlationId : String} {stage : Stage}
      (ready : c.stage.Ready) (origin : c.origin = .flushSettled)
      (onward : InboundCall.Onward { c with correlationId } stage) :
      Turned s a c { c with correlationId, stage }
  | onward {a : Action} {c : InboundCall} {stage : Stage} (begun : c.stage.Begun)
      (onward : c.Onward stage) : Turned s a c { c with stage }
  /-- The passive append is acknowledged, and its row is not as expected. -/
  | refused {i : ℕ} {c : InboundCall} {now : ℤ} {lease : Option ChildId} {error : StoreError}
      (appending : c.stage = .appending lease)
      (refusal : (s.idempotency.markIngestComplete now c.key).1 = .error error) :
      Turned s (.appended i now .done) c { c with stage := .rejected (.store error) }

/-- The call that acts: the one that the action is about, or the one that goes
to wait for a redelivery. -/
def Acts (s : Supervisor) (a : Action) (i : ℕ) : Prop :=
  a.call? = some i ∨ a = .remainder ∧ ∃ k how rest, s.agenda = .await (.call i) k how :: rest

/-- What a step does to the calls: it moves the call that acts, or calls come
in. -/
inductive Turns (o : SupervisorOptions) (s : Supervisor) (a : Action) (t : Supervisor) : Prop
  | same (kept : t.calls = s.calls)
  | turned {i : ℕ} {c c' : InboundCall} (acts : s.Acts a i) (known : s.callOf i = some c)
      (mayStart : c.stage = .queued → s.mayStart i c = true) (moved : t.calls = s.calls.put i c')
      (turned : Turned s a c c')
  | arrives {adapterId : String} {m : ValidatedMessage} (action : a = .processInbound adapterId m)
      (recovered : s.recovered = true) (moved : t = s.processInbound adapterId m)
  | sweeps {now : ℤ} (action : a = .flushSettled now) (moved : t = s.flushSettled o now)

theorem turns_of_continues {a : Action} (acts : s.Acts a i) (known : s.callOf i = some c)
    (begun : c.stage.Begun) (moved : Continues s i c t) : Turns o s a t := by
  obtain ⟨stage, onward, moved⟩ := moved
  exact .turned acts known (fun queued => absurd (queued ▸ begun) nofun) moved
    (.onward begun onward)

theorem turns_of_classified {a : Action} (acts : s.Acts a i) (known : s.callOf i = some c)
    (mayStart : c.stage = .queued → s.mayStart i c = true) (ready : c.stage.Ready)
    (classified : Classified s i c t) : Turns o s a t := by
  cases classified with
  | ended correlationId final moved =>
      exact .turned acts known mayStart moved (.ended ready correlationId final)
  | redelivers correlationId moved =>
      exact .turned acts known mayStart moved (.redelivers ready correlationId)
  | begun correlationId moved =>
      obtain ⟨stage, onward, moved⟩ := moved
      exact .turned acts known mayStart moved (.begun ready onward)
  | settled origin correlationId moved =>
      obtain ⟨stage, onward, moved⟩ := moved
      exact .turned acts known mayStart moved (.settled ready origin onward)


theorem turns_start {a : Action} (named : a = .start i now) (known : s.callOf i = some c)
    (queued : c.stage = .queued) (mayStart : s.mayStart i c = true) :
    Turns o s a (match c.origin with
      | .processInbound => s.processInboundSerial o i c now
      | .flushSettled => s.activateSettled o i c now) := by
  subst named
  have ready : c.stage.Ready := queued ▸ .queued
  split
  · rw [processInboundSerial]
    split
    · case h_1 k active =>
        split_ifs
        · refine .turned (.inl rfl) known (fun _ => mayStart) ?_ (.supersedes queued k)
          rw [setCall_calls (Stage.Early.superseding k).not_final, interruptTurn_calls]
        · exact turns_of_classified (.inl rfl) known (fun _ => mayStart) ready
            (classified_classify s i ready now)
    · exact turns_of_classified (.inl rfl) known (fun _ => mayStart) ready
        (classified_classify s i ready now)
  · case h_2 origin =>
      exact turns_of_classified (.inl rfl) known (fun _ => mayStart) ready
        (classified_activateSettled s i now origin)

theorem turns_completeAppend {lease : Option ChildId} (known : s.callOf i = some c)
    (appending : c.stage = .appending lease) :
    Turns o s (.appended i now .done) (s.completeAppend i c now) := by
  have started : c.stage = .queued → s.mayStart i c = true := by simp [appending]
  rw [completeAppend]
  split
  · exact .turned (.inl rfl) known started (resolve_calls _) (.onward (appending ▸ .appending lease) .accepted)
  · case h_2 error store refusal =>
      exact .turned (.inl rfl) known started (reject_calls _) (.refused appending (by rw [refusal]))

theorem endRedelivery_calls : (s.endRedelivery i c k).calls =
    s.calls.put i { c with stage := .resolved (.duplicate c.correlationId) } := by
  rw [endRedelivery, resolve_calls]
  refine congrArg (Calls.put · i _) ?_
  split
  · exact closeEmitter_calls
  · rfl

theorem turns_resumeCall (known : s.callOf i = some c) (taken : s.resumeCall i c = some t) :
    Turns o s (.resumeCall i) t := by
  rw [resumeCall] at taken
  split at taken
  · case h_1 k deliveries stage =>
      have started : c.stage = .queued → s.mayStart i c = true := by simp [stage]
      obtain ⟨fulfilled, joined, rfl⟩ := Option.map_eq_some_iff.mp taken
      split_ifs with success
      · subst success
        exact .turned (.inl rfl) known started (setCall_calls (Stage.Early.flushing k _).not_final)
          (.flushes stage joined)
      · exact .turned (.inl rfl) known started (reject_calls _) (.fails (stage ▸ .redelivering k deliveries))
  · case h_2 k delivery stage =>
      have started : c.stage = .queued → s.mayStart i c = true := by simp [stage]
      obtain ⟨fulfilled, joined, rfl⟩ := Option.map_eq_some_iff.mp taken
      split_ifs with success
      · subst success
        refine .turned (.inl rfl) known started ?_ (.redelivered stage joined)
        exact endRedelivery_calls
      · exact .turned (.inl rfl) known started (reject_calls _) (.fails (stage ▸ .flushing k delivery))
  · simp at taken

theorem calls_resumeRecovery {conversation : Conversation}
    (taken : s.resumeRecovery conversation = some t) : t.calls = s.calls := by
  obtain ⟨r, -, taken⟩ := Option.bind_eq_some_iff.mp taken
  split at taken
  · simp at taken
  · obtain ⟨fulfilled, -, rfl⟩ := Option.map_eq_some_iff.mp taken
    split_ifs <;> simp
  · obtain ⟨fulfilled, -, rfl⟩ := Option.map_eq_some_iff.mp taken
    simp

theorem turns_react {a : Action} (taken : s.react o a = some t) : Turns o s a t := by
  cases a with
  | recoverPending =>
      simp only [react, Option.ite_none_left_eq_some, Option.some.injEq] at taken
      exact .same (taken.2 ▸ rfl)
  | beginRecovery conversation =>
      simp only [react] at taken
      split at taken
      · simp only [Option.ite_none_right_eq_some, Option.some.injEq] at taken
        exact .same (taken.2 ▸ beginRecovery_calls conversation _)
      · simp at taken
  | resumeRecovery conversation => exact .same (calls_resumeRecovery taken)
  | processInbound adapterId m =>
      simp only [react, Option.ite_none_right_eq_some, Option.some.injEq] at taken
      exact .arrives rfl taken.1 taken.2.symm
  | start i now =>
      obtain ⟨c, known, taken⟩ := Option.bind_eq_some_iff.mp taken
      simp only [Option.ite_none_right_eq_some] at taken
      obtain ⟨⟨queued, mayStart⟩, taken⟩ := taken
      have turns := @turns_start o s i c now (.start i now) rfl known queued mayStart
      cases origin : c.origin <;> rw [origin] at taken turns <;>
        exact Option.some.inj taken ▸ turns
  | aborted i =>
      obtain ⟨c, known, taken⟩ := Option.bind_eq_some_iff.mp taken
      split at taken
      · case h_1 k stage =>
          obtain rfl := Option.some.inj taken
          exact .turned (.inl rfl) known (by simp [stage])
            (setCall_calls (Stage.Early.ready .superseded).not_final) (.superseded stage)
      · case h_2 k stage =>
          obtain rfl := Option.some.inj taken
          exact turns_of_continues (.inl rfl) known (stage ▸ .interrupting k) (.of_begun .retiring rfl rfl)
      · simp at taken
  | superseded i now =>
      obtain ⟨c, known, taken⟩ := Option.bind_eq_some_iff.mp taken
      simp only [Option.ite_none_right_eq_some, Option.some.injEq] at taken
      obtain ⟨stage, rfl⟩ := taken
      have ready : c.stage.Ready := stage ▸ .superseded
      exact turns_of_classified (.inl rfl) known (by simp [stage]) ready (classified_classify s i ready now)
  | acquired i now answer =>
      obtain ⟨c, known, taken⟩ := Option.bind_eq_some_iff.mp taken
      have turned {mode : Option ActivationMode} (stage : c.stage = .acquiring mode)
          (moved : Continues s i c t) : Turns o s (.acquired i now answer) t :=
        turns_of_continues (.inl rfl) known (stage ▸ .acquiring mode) moved
      split at taken
      · case h_1 child stage _ =>
          exact turned stage (Option.some.inj taken ▸ .of_begun (.appending (some child)) rfl rfl)
      · case h_2 error stage _ =>
          exact turned stage (Option.some.inj taken ▸ continues_failAppend ..)
      · case h_3 mode child stage _ =>
          exact turned stage (Option.some.inj taken ▸ continues_activateWith ..)
      · case h_4 mode error stage _ =>
          exact turned stage (Option.some.inj taken ▸ continues_failActivation ..)
      · simp at taken
  | appended i now answer =>
      obtain ⟨c, known, taken⟩ := Option.bind_eq_some_iff.mp taken
      split at taken
      · case h_1 lease stage _ =>
          exact Option.some.inj taken ▸ turns_completeAppend known stage
      · case h_2 lease error stage _ =>
          exact turns_of_continues (.inl rfl) known (stage ▸ .appending lease)
            (Option.some.inj taken ▸ continues_failAppend ..)
      · simp at taken
  | prompted i now answer =>
      obtain ⟨c, known, taken⟩ := Option.bind_eq_some_iff.mp taken
      split at taken
      · case h_1 k mode stage _ =>
          exact turns_of_continues (.inl rfl) known (stage ▸ .prompting k mode)
            (Option.some.inj taken ▸ continues_completePrompt ..)
      · case h_2 k mode error stage _ =>
          exact turns_of_continues (.inl rfl) known (stage ▸ .prompting k mode)
            (Option.some.inj taken ▸ continues_failPrompt ..)
      · simp at taken
  | retired i now answer =>
      obtain ⟨c, known, taken⟩ := Option.bind_eq_some_iff.mp taken
      split at taken
      · case h_1 stage _ =>
          exact turns_of_continues (.inl rfl) known (stage ▸ .retiring)
            (Option.some.inj taken ▸ continues_finishSessionReset ..)
      · case h_2 error stage _ =>
          exact turns_of_continues (.inl rfl) known (stage ▸ .retiring)
            (Option.some.inj taken ▸ continues_failActivation ..)
      · simp at taken
  | resumeCall i =>
      obtain ⟨c, known, taken⟩ := Option.bind_eq_some_iff.mp taken
      exact turns_resumeCall known taken
  | frame conversation now frame =>
      exact .same (Option.some.inj taken ▸ handleChildEvent_calls conversation frame)
  | childFailed conversation now =>
      exact .same (Option.some.inj taken ▸ failCorrelation_calls conversation)
  | flushSettled now => exact .sweeps rfl (Option.some.inj taken).symm
  | dismissEngagement conversation now => exact .same (Option.some.inj taken ▸ rfl)
  | writeSessions sessions => exact .same (Option.some.inj taken ▸ rfl)
  | deliver k event =>
      obtain ⟨out, -, rfl⟩ := Option.map_eq_some_iff.mp taken
      exact .same rfl
  | close k delivery =>
      simp only [react, Option.ite_none_right_eq_some, Option.some.injEq] at taken
      exact .same (taken.2 ▸ closeEmitter_calls)
  | run | remainder | crash => simp [react] at taken

/-! ### What is left to do -/

/-- `t` has nothing more left to do than `s`, except to flush emitters. -/
def Flushes (s t : Supervisor) : Prop := ∀ x ∈ t.agenda, x ∈ s.agenda ∨ ∃ k, x = .flush k

theorem Flushes.of_eq (same : t.agenda = s.agenda) : Flushes s t :=
  fun _ mem => .inl (same ▸ mem)

theorem Flushes.of_append (more : t.agenda = s.agenda ++ [.flush k]) : Flushes s t := by
  intro x mem
  rw [more, List.mem_append, List.mem_singleton] at mem
  exact mem.imp_right fun same => ⟨k, same⟩

@[simp]
theorem emit_agenda (m : OutboundEmitter.Call) : (s.emit o k now m).agenda = s.agenda := by
  rw [emit]
  split <;> rfl

@[simp]
theorem closeEmitter_agenda : (s.closeEmitter k).agenda = s.agenda := by
  rw [closeEmitter]
  split <;> rfl

@[simp]
theorem register_agenda (corr : ActiveCorrelation) : (s.register o corr).agenda = s.agenda := rfl

@[simp]
theorem ensureActive_agenda (corr : ActiveCorrelation) :
    (s.ensureActive o corr).agenda = s.agenda := by
  rw [ensureActive]
  split <;> rfl

@[simp]
theorem recordInteraction_agenda (conversation : Conversation) :
    (s.recordInteraction o conversation now).agenda = s.agenda := rfl

@[simp]
theorem cleanupCorrelation_agenda :
    (s.cleanupCorrelation k).agenda = s.agenda ++ [.flush k] := rfl

@[simp]
theorem claimTerminal_agenda : (s.claimTerminal k).agenda = s.agenda := rfl

@[simp]
theorem finish_agenda (stage : Stage) : (s.finish i c stage).agenda = s.agenda := rfl

@[simp]
theorem interruptTurn_agenda : (s.interruptTurn o k now).agenda = s.agenda := by
  simp only [interruptTurn]
  split <;> simp

theorem flushes_failCorrelation (s : Supervisor) (conversation : Conversation) (now : ℤ) :
    Flushes s (s.failCorrelation o conversation now) := by
  rw [failCorrelation]
  split
  · exact .of_eq rfl
  · case h_2 k active =>
      split_ifs
      · exact .of_eq rfl
      · exact @Flushes.of_append _ _ k (by simp)

theorem flushes_handleChildEvent (s : Supervisor) (conversation : Conversation) (now : ℤ)
    (frame : RpcEventFrame) : Flushes s (s.handleChildEvent o conversation now frame) := by
  rw [handleChildEvent]
  split
  · exact .of_eq rfl
  · case h_2 k active =>
      simp only
      split
      · split_ifs
        · exact .of_eq rfl
        · rw [handleAgentEnd]
          split_ifs
          · exact .of_eq (by simp)
          · exact @Flushes.of_append _ _ k (by simp)
      · exact .of_eq (by simp)
      · exact .of_eq (by simp)
      · exact .of_eq (by simp)

theorem flushes_terminalizeAcceptedInbound (s : Supervisor) (c : InboundCall)
    (correlationId : String) (now : ℤ) :
    Flushes s (s.terminalizeAcceptedInbound o c correlationId now) := by
  simp only [terminalizeAcceptedInbound]
  split_ifs
  · exact .of_eq rfl
  · split
    · exact .of_eq (by simp)
    · case h_2 k active =>
        split_ifs
        · exact .of_eq (by simp)
        · exact @Flushes.of_append _ _ k (by simp)

theorem flushes_failActivation (s : Supervisor) (i : ℕ) (c : InboundCall) (now : ℤ) :
    Flushes s (s.failActivation o i c now) := by
  rw [failActivation]
  split
  · exact flushes_terminalizeAcceptedInbound s c c.correlationId now
  · exact .of_eq rfl

theorem flushes_dispatch (s : Supervisor) (i : ℕ) (c : InboundCall) (k : ℕ)
    (mode : ActivationMode) (now : ℤ) : Flushes s (s.dispatch o i c k mode now) := by
  simp only [dispatch]
  split
  · exact flushes_failActivation (s.recordInteraction o c.conversation now) i c now
  · cases mode <;> exact .of_eq rfl

theorem flushes_activate (s : Supervisor) (i : ℕ) (c : InboundCall) (mode : ActivationMode)
    (now : ℤ) : Flushes s (s.activate o i c mode now) := by
  rw [activate, handleSessionReset]
  split_ifs
  · split
    · exact .of_eq (by simp)
    · exact .of_eq rfl
  · split
    · exact .of_eq rfl
    · exact flushes_dispatch (s.setCorrelation _ _) i c _ mode now

theorem flushes_ingest (s : Supervisor) (i : ℕ) (c : InboundCall) (now : ℤ) :
    Flushes s (s.ingest o i c now) := by
  rw [ingest]
  split
  · rw [appendPassiveMessage]
    split <;> exact .of_eq rfl
  · exact flushes_activate { s with buffer := _ } i c _ now

theorem flushes_finishSessionReset (s : Supervisor) (i : ℕ) (c : InboundCall) (now : ℤ) :
    Flushes s (s.finishSessionReset o i c now) :=
  @Flushes.of_append _ _ s.out.nextEmitter (by
    simp only [finishSessionReset, resolve, finish_agenda, cleanupCorrelation_agenda,
      claimTerminal_agenda, emit_agenda, register_agenda, recordInteraction_agenda]
    rfl)

theorem flushes_failPrompt (s : Supervisor) (i : ℕ) (c : InboundCall) (k : ℕ)
    (mode : ActivationMode) (now : ℤ) : Flushes s (s.failPrompt o i c k mode now) := by
  simp only [failPrompt]
  split_ifs
  · exact flushes_failActivation (s.setCorrelation k _) i c now
  · exact flushes_failActivation s i c now

theorem flushes_completeAppend (s : Supervisor) (i : ℕ) (c : InboundCall) (now : ℤ) :
    Flushes s (s.completeAppend i c now) := by
  rw [completeAppend]
  split <;> exact .of_eq rfl

theorem flushes_endRedelivery (s : Supervisor) (i : ℕ) (c : InboundCall) (k : ℕ) :
    Flushes s (s.endRedelivery i c k) := by
  simp only [endRedelivery, resolve]
  split_ifs <;> exact .of_eq (by simp)

/-- The call is the one whose message the store has just classified. -/
def Classifies (t : Supervisor) (i : ℕ) : Prop :=
  ∃ c, t.callOf i = some c ∧ c.stage.Ready ∧ (c.stage = .queued → t.mayStart i c = true)

/-- A redelivery that a call waits for, or one that a recovery waits for. -/
def Awaits (t : Supervisor) (x : Remainder) : Prop :=
  ∃ who k how, x = .await who k how ∧ ∀ i, who = .call i → t.Classifies i

theorem mayStart_congr (calls : t.calls = s.calls) (recoveries : t.recoveryChains = s.recoveryChains) :
    t.mayStart i c = s.mayStart i c := by
  have chains : t.inboundChains = s.inboundChains := congrArg Calls.inboundChains calls
  have sweeps : t.sweeps = s.sweeps := congrArg Calls.sweeps calls
  rw [mayStart, mayStart, chains, sweeps, recoveries]

theorem redeliver_recoveryChains {who : Waiting} {event : OutboundEvent} :
    (s.redeliver who k event).recoveryChains = s.recoveryChains := by
  rw [redeliver]
  split <;> rfl

theorem ensureActive_recoveryChains (corr : ActiveCorrelation) :
    (s.ensureActive o corr).recoveryChains = s.recoveryChains := by
  rw [ensureActive]
  split <;> rfl

theorem agenda_redeliver (who : Waiting) (event : OutboundEvent) :
    (s.redeliver who k event).agenda = s.agenda ++ [.await who k (s.redeliveryOf k event)] := by
  rw [redeliver]
  split <;> rfl

/-- `t` has emitters to flush, or a redelivery to wait for. -/
def Leaves (s t : Supervisor) : Prop :=
  Flushes s t ∨ ∃ x, t.agenda = s.agenda ++ [x] ∧ Awaits t x

theorem leaves_redeliver {u : Supervisor} {who : Waiting} (event : OutboundEvent)
    (same : u.agenda = s.agenda) (ready : ∀ i, who = .call i → u.Classifies i) :
    Leaves s (u.redeliver who k event) := by
  refine .inr ⟨.await who k (u.redeliveryOf k event), ?_, who, k, _, rfl, fun i here => ?_⟩
  · rw [agenda_redeliver, same]
  · obtain ⟨c, known, ready, mayStart⟩ := ready i here
    have calls : (u.redeliver who k event).calls = u.calls := redeliver_calls who event
    refine ⟨c, (congrFun (congrArg Calls.callOf calls) i).trans known, ready, fun queued => ?_⟩
    rw [← mayStart queued]
    exact mayStart_congr calls redeliver_recoveryChains

theorem leaves_redeliverSaved (s : Supervisor) (i : ℕ) {c : InboundCall} (ready : c.stage.Ready)
    (mayStart : c.stage = .queued → s.mayStart i c = true) (response : Option OutboundEvent) :
    Leaves s (s.redeliverSaved o i c response) := by
  simp only [redeliverSaved]
  split
  · refine leaves_redeliver _ (by simp) fun j same => ?_
    obtain rfl := Waiting.call.inj same
    refine ⟨c, by simp, ready, fun queued => ?_⟩
    rw [← mayStart queued]
    exact (mayStart_congr (t := (s.ensureActive o _)) (ensureActive_calls _)
      (ensureActive_recoveryChains _))
  · exact .inl (.of_eq (by simp [reject]))

theorem leaves_classify (s : Supervisor) (i : ℕ) {c : InboundCall} (ready : c.stage.Ready)
    (mayStart : c.stage = .queued → s.mayStart i c = true) (now : ℤ) :
    Leaves s (s.classify o i c now) := by
  have redelivers (u : Supervisor) (correlationId : String) (response : Option OutboundEvent)
      (same : u.agenda = s.agenda) (may : u.mayStart i c = s.mayStart i c) :
      Leaves s (u.redeliverSaved o i { c with correlationId } response) := by
    have ready : ({ c with correlationId } : InboundCall).stage.Ready := ready
    have leaves := @leaves_redeliverSaved o u i _ ready (fun queued => may.trans (mayStart queued))
      response
    unfold Leaves Flushes at leaves ⊢
    rwa [same] at leaves
  rw [classify]
  split
  · exact .inl (.of_eq rfl)
  · case h_2 begun store _ =>
    simp only
    split
    · exact .inl (.of_eq rfl)
    · exact redelivers _ _ _ rfl rfl
    · exact redelivers _ _ _ rfl rfl
    · refine .inl fun x mem => ?_
      simp only [resolve, finish_agenda] at mem
      split at mem
      · exact flushes_terminalizeAcceptedInbound
          { s with idempotency := store, nextCorrelation := s.nextCorrelation + 1 } _ _ now x mem
      · exact .inl mem
    · exact .inl (flushes_ingest { s with idempotency := _, nextCorrelation := _ } i _ now)

theorem leaves_react {a : Action} (taken : s.react o a = some t) : Leaves s t := by
  have same (kept : t.agenda = s.agenda) : Leaves s t := .inl (.of_eq kept)
  cases a with
  | recoverPending =>
      simp only [react, Option.ite_none_left_eq_some, Option.some.injEq] at taken
      exact same (taken.2 ▸ rfl)
  | beginRecovery conversation =>
      simp only [react] at taken
      split at taken
      · case h_1 r rest chain =>
          simp only [Option.ite_none_right_eq_some, Option.some.injEq] at taken
          obtain ⟨-, rfl⟩ := taken
          rw [beginRecovery]
          split
          · exact leaves_redeliver _ rfl (by simp)
          · split
            · exact .inl (.of_eq rfl)
            · exact .inr ⟨_, rfl, _, _, _, rfl, by simp⟩
      · simp at taken
  | resumeRecovery conversation =>
      obtain ⟨r, -, taken⟩ := Option.bind_eq_some_iff.mp taken
      split at taken
      · simp at taken
      · obtain ⟨fulfilled, -, rfl⟩ := Option.map_eq_some_iff.mp taken
        refine same ?_
        split_ifs
        · rfl
        · exact closeEmitter_agenda
      · obtain ⟨fulfilled, -, rfl⟩ := Option.map_eq_some_iff.mp taken
        exact same closeEmitter_agenda
  | processInbound adapterId m =>
      simp only [react, Option.ite_none_right_eq_some, Option.some.injEq] at taken
      exact same (taken.2 ▸ rfl)
  | start i now =>
      obtain ⟨c, known, taken⟩ := Option.bind_eq_some_iff.mp taken
      simp only [Option.ite_none_right_eq_some] at taken
      obtain ⟨⟨queued, mayStart⟩, taken⟩ := taken
      have ready : c.stage.Ready := queued ▸ .queued
      split at taken
      · obtain rfl := Option.some.inj taken
        rw [processInboundSerial]
        split
        · split_ifs
          · exact .inl (.of_eq (by simp))
          · exact leaves_classify s i ready (fun _ => mayStart) now
        · exact leaves_classify s i ready (fun _ => mayStart) now
      · obtain rfl := Option.some.inj taken
        rw [activateSettled]
        split
        · exact .inl (.of_eq rfl)
        · exact .inl (flushes_activate { s with idempotency := _, nextCorrelation := _ } i _ _ now)
  | aborted i =>
      obtain ⟨c, known, taken⟩ := Option.bind_eq_some_iff.mp taken
      split at taken
      · exact Option.some.inj taken ▸ .inl (.of_append rfl)
      · exact Option.some.inj taken ▸ .inl (.of_append rfl)
      · simp at taken
  | superseded i now =>
      obtain ⟨c, known, taken⟩ := Option.bind_eq_some_iff.mp taken
      simp only [Option.ite_none_right_eq_some, Option.some.injEq] at taken
      obtain ⟨stage, rfl⟩ := taken
      exact leaves_classify s i (stage ▸ .superseded) (by simp [stage]) now
  | acquired i now answer =>
      obtain ⟨c, known, taken⟩ := Option.bind_eq_some_iff.mp taken
      split at taken
      · exact same (Option.some.inj taken ▸ rfl)
      · exact .inl (Option.some.inj taken ▸ flushes_terminalizeAcceptedInbound s c _ now)
      · exact .inl (Option.some.inj taken ▸ flushes_dispatch (s.register o _) i c _ _ now)
      · exact .inl (Option.some.inj taken ▸ flushes_failActivation s i c now)
      · simp at taken
  | appended i now answer =>
      obtain ⟨c, known, taken⟩ := Option.bind_eq_some_iff.mp taken
      split at taken
      · exact .inl (Option.some.inj taken ▸ flushes_completeAppend s i c now)
      · exact .inl (Option.some.inj taken ▸ flushes_terminalizeAcceptedInbound s c _ now)
      · simp at taken
  | prompted i now answer =>
      obtain ⟨c, known, taken⟩ := Option.bind_eq_some_iff.mp taken
      split at taken
      · exact same (Option.some.inj taken ▸ rfl)
      · exact .inl (Option.some.inj taken ▸ flushes_failPrompt s i c _ _ now)
      · simp at taken
  | retired i now answer =>
      obtain ⟨c, known, taken⟩ := Option.bind_eq_some_iff.mp taken
      split at taken
      · exact .inl (Option.some.inj taken ▸ flushes_finishSessionReset s i c now)
      · exact .inl (Option.some.inj taken ▸ flushes_failActivation s i c now)
      · simp at taken
  | resumeCall i =>
      obtain ⟨c, known, taken⟩ := Option.bind_eq_some_iff.mp taken
      rw [resumeCall] at taken
      split at taken
      · obtain ⟨fulfilled, -, rfl⟩ := Option.map_eq_some_iff.mp taken
        split_ifs <;> exact .inl (.of_eq rfl)
      · obtain ⟨fulfilled, -, rfl⟩ := Option.map_eq_some_iff.mp taken
        split_ifs
        · exact .inl (flushes_endRedelivery s i c _)
        · exact .inl (.of_eq rfl)
      · simp at taken
  | frame conversation now frame =>
      exact .inl (Option.some.inj taken ▸ flushes_handleChildEvent s conversation now frame)
  | childFailed conversation now =>
      exact .inl (Option.some.inj taken ▸ flushes_failCorrelation s conversation now)
  | flushSettled now => exact same (Option.some.inj taken ▸ rfl)
  | dismissEngagement conversation now => exact same (Option.some.inj taken ▸ rfl)
  | writeSessions sessions => exact same (Option.some.inj taken ▸ rfl)
  | deliver k event =>
      obtain ⟨out, -, rfl⟩ := Option.map_eq_some_iff.mp taken
      exact same rfl
  | close k delivery =>
      simp only [react, Option.ite_none_right_eq_some, Option.some.injEq] at taken
      exact same (taken.2 ▸ closeEmitter_agenda)
  | run | remainder | crash => simp [react] at taken

/-! ### The machine -/

/-- The four ways in which a step goes. -/
theorem step_cases {a : Action} (taken : s.step o a = some t) :
    (a = .crash ∧ t = s.crash) ∨ (∃ now, a = .run now ∧ s.runEmitter o now = some t) ∨
      (∃ x rest, a = .remainder ∧ s.out.todo = [] ∧ s.agenda = x :: rest ∧
        { s with agenda := rest }.perform x = t) ∨
      (s.out.todo = [] ∧ s.agenda = [] ∧ s.react o a = some t) := by
  cases a with
  | crash => exact .inl ⟨rfl, (Option.some.inj taken).symm⟩
  | run now => exact .inr (.inl ⟨now, rfl, taken⟩)
  | remainder =>
      simp only [step] at taken
      split at taken
      · case h_1 x rest todo agenda =>
          exact .inr (.inr (.inl ⟨x, rest, rfl, todo, agenda, Option.some.inj taken⟩))
      · simp at taken
  | _ =>
      simp only [step, Option.ite_none_right_eq_some] at taken
      exact .inr (.inr (.inr ⟨taken.1.1, taken.1.2, taken.2⟩))

theorem runEmitter_calls (taken : s.runEmitter o now = some t) : t.calls = s.calls := by
  rw [runEmitter] at taken
  split at taken
  · simp at taken
  · obtain ⟨e, -, taken⟩ := Option.bind_eq_some_iff.mp taken
    obtain ⟨out, -, rfl⟩ := Option.map_eq_some_iff.mp taken
    rfl

theorem runEmitter_agenda (taken : s.runEmitter o now = some t) : t.agenda = s.agenda := by
  rw [runEmitter] at taken
  split at taken
  · simp at taken
  · obtain ⟨e, -, taken⟩ := Option.bind_eq_some_iff.mp taken
    obtain ⟨out, -, rfl⟩ := Option.map_eq_some_iff.mp taken
    rfl

theorem runEmitter_recoveryChains (taken : s.runEmitter o now = some t) :
    t.recoveryChains = s.recoveryChains := by
  rw [runEmitter] at taken
  split at taken
  · simp at taken
  · obtain ⟨e, -, taken⟩ := Option.bind_eq_some_iff.mp taken
    obtain ⟨out, -, rfl⟩ := Option.map_eq_some_iff.mp taken
    rfl

/-- A call whose message is not known to be new has not inserted its row, and
the calls that are about to wait for a redelivery are such calls. -/
structure Orderly (s : Supervisor) : Prop where
  early : ∀ i c, s.callOf i = some c → c.stage.Early → c.created = false
  agenda : (∀ x ∈ s.agenda, ∃ k, x = .flush k) ∨ ∃ x, s.agenda = [x] ∧ Awaits s x

theorem awaitRedelivery_calls (how : Redelivery) (who : Waiting) :
    (s.awaitRedelivery k how who).calls = s.calls ∨
      ∃ i c, who = .call i ∧ s.callOf i = some c ∧
        ((∃ deliveries, (s.awaitRedelivery k how who).calls =
          s.calls.put i { c with stage := .redelivering k deliveries }) ∨
        (s.awaitRedelivery k how who).calls =
          s.calls.put i { c with stage := .rejected .redelivery }) := by
  cases who with
  | recovery conversation =>
      refine .inl ?_
      simp only [awaitRedelivery]
      split <;> simp
  | call i =>
      simp only [awaitRedelivery]
      split
      · exact .inl rfl
      · case h_2 c known =>
          refine .inr ⟨i, c, rfl, known, ?_⟩
          split
          · case h_1 deliveries _ =>
              exact .inl ⟨deliveries, setCall_calls (Stage.Early.redelivering k _).not_final⟩
          · exact .inr (reject_calls _)

/-- The call that waits for a redelivery is the one that acts when nothing
else runs. -/
theorem Orderly.classifies (orderly : s.Orderly) {how : Redelivery} {rest : List Remainder}
    (agenda : s.agenda = .await (.call i) k how :: rest) : s.Classifies i := by
  rcases orderly.agenda with flushes | ⟨x, single, who, k', how', same, waits⟩
  · obtain ⟨k', same⟩ := flushes _ (agenda ▸ List.mem_cons_self)
    cases same
  · obtain ⟨rfl, -⟩ := List.cons.inj (agenda.symm.trans single)
    cases same
    exact waits i rfl

/-- What a step does to the calls, unless the process dies. -/
theorem turns_step {a : Action} (orderly : s.Orderly) (taken : s.step o a = some t) :
    (a = .crash ∧ t = s.crash) ∨ Turns o s a t := by
  rcases step_cases taken with crashed | ⟨now, rfl, ran⟩ | ⟨x, rest, rfl, -, agenda, rfl⟩ |
      ⟨-, -, reacted⟩
  · exact .inl crashed
  · exact .inr (.same (runEmitter_calls ran))
  · refine .inr ?_
    cases x with
    | flush k => exact .same rfl
    | await who k how =>
        rcases @awaitRedelivery_calls { s with agenda := rest } k how who with
          same | ⟨i, c, rfl, known, moved⟩
        · exact .same same
        · obtain ⟨c', known', ready, mayStart⟩ := orderly.classifies agenda
          obtain rfl := Option.some.inj (known.symm.trans known')
          rcases moved with ⟨deliveries, moved⟩ | moved
          · exact .turned (.inr ⟨rfl, k, how, rest, agenda⟩) known mayStart moved
              (.waits ready k deliveries)
          · exact .turned (.inr ⟨rfl, k, how, rest, agenda⟩) known mayStart moved
              (.ended ready c.correlationId (.rejected .redelivery))
  · exact .inr (turns_react reacted)

@[simp]
theorem awaitRedelivery_agenda (how : Redelivery) (who : Waiting) :
    (s.awaitRedelivery k how who).agenda = s.agenda := by
  cases who with
  | call i =>
      simp only [awaitRedelivery]
      split
      · rfl
      · split <;> rfl
  | recovery conversation =>
      simp only [awaitRedelivery]
      split
      · rfl
      · exact closeEmitter_agenda

theorem orderly_initial : Orderly initial where
  early i c found := by simp [initial] at found
  agenda := .inl (by simp [initial])

/-- A call that is past its begin does not go back. -/
theorem early_of_turned {a : Action} {c' : InboundCall} (turned : Turned s a c c')
    (early : c'.stage.Early) : c.stage.Early ∧ c'.created = c.created := by
  cases turned with
  | supersedes queued => exact ⟨queued ▸ .ready .queued, rfl⟩
  | superseded was => exact ⟨was ▸ .superseding _, rfl⟩
  | ended ready correlationId final => exact absurd final early.not_final
  | redelivers ready => exact ⟨.ready ready, rfl⟩
  | waits ready => exact ⟨.ready ready, rfl⟩
  | flushes was => exact ⟨was ▸ .redelivering _ _, rfl⟩
  | redelivered was joined => exact absurd (.resolved _) early.not_final
  | fails was => exact ⟨was, rfl⟩
  | begun ready onward =>
      cases onward with
      | begun begun => exact absurd early begun.not_early
      | accepted => exact absurd (.resolved _) early.not_final
      | dropped => exact absurd (.rejected _) early.not_final
  | settled ready origin onward =>
      cases onward with
      | begun begun => exact absurd early begun.not_early
      | accepted => exact absurd (.resolved _) early.not_final
      | dropped => exact absurd (.rejected _) early.not_final
  | onward begun onward =>
      cases onward with
      | begun begun => exact absurd early begun.not_early
      | accepted => exact absurd (.resolved _) early.not_final
      | dropped => exact absurd (.rejected _) early.not_final
  | refused appending refusal => exact absurd (.rejected _) early.not_final

theorem fresh_of_settledCall {settled : SettledActivation} (made : settledCall settled = some c) :
    c.Fresh := by
  obtain ⟨last, -, rfl⟩ := Option.map_eq_some_iff.mp made
  exact ⟨rfl, rfl⟩

theorem addCalls_callOf {news : List InboundCall} {c' : InboundCall}
    (fresh : ∀ c ∈ news, c.Fresh) (found : (s.addCalls news).callOf j = some c') :
    s.callOf j = some c' ∨ c'.Fresh := by
  simp only [addCalls] at found
  split_ifs at found
  · exact .inl found
  · exact .inr (fresh c' (List.mem_of_getElem? found))

/-- Every call was there before, or has been turned, or has just come in. -/
theorem Turns.call {a : Action} (turns : Turns o s a t) {c' : InboundCall}
    (found : t.callOf j = some c') :
    s.callOf j = some c' ∨ (∃ c, s.callOf j = some c ∧ s.Acts a j ∧ Turned s a c c') ∨
      c'.Fresh := by
  cases turns with
  | same kept => exact .inl ((congrFun (congrArg Calls.callOf kept) j).symm.trans found)
  | @turned i c c'' acts known mayStart moved turned =>
      have found : (s.calls.put i c'').callOf j = some c' := by rw [← moved]; exact found
      rw [Calls.put_callOf] at found
      by_cases here : j = i
      · subst here
        rw [Function.update_self] at found
        obtain rfl := Option.some.inj found
        exact .inr (.inl ⟨c, known, acts, turned⟩)
      · rw [Function.update_of_ne here] at found
        exact .inl found
  | arrives action recovered moved =>
      subst moved
      rcases addCalls_callOf (by simp [InboundCall.Fresh]) found with old | fresh
      · exact .inl old
      · exact .inr (.inr fresh)
  | @sweeps now action moved =>
      subst moved
      have fresh : ∀ c ∈ (s.buffer.sweepSettled o.buffer now).1.filterMap settledCall, c.Fresh := by
        intro c mem
        obtain ⟨settled, -, made⟩ := List.mem_filterMap.mp mem
        exact fresh_of_settledCall made
      rcases addCalls_callOf fresh found with old | fresh
      · exact .inl old
      · exact .inr (.inr fresh)

theorem Orderly.step {a : Action} (h : s.Orderly) (taken : s.step o a = some t) : t.Orderly := by
  refine ⟨fun j c' found early => ?_, ?_⟩
  · rcases turns_step h taken with ⟨-, rfl⟩ | turns
    · simp [crash] at found
    · rcases turns.call found with old | ⟨c, known, -, turned⟩ | fresh
      · exact h.early j c' old early
      · obtain ⟨was, same⟩ := early_of_turned turned early
        rw [same, h.early j c known was]
      · exact fresh.2
  · rcases step_cases taken with ⟨-, rfl⟩ | ⟨now, -, ran⟩ | ⟨x, rest, -, -, agenda, rfl⟩ |
        ⟨-, ready, reacted⟩
    · exact .inl (by simp [crash])
    · rw [runEmitter_agenda ran]
      refine h.agenda.imp_right fun ⟨x, single, who, k, how, same, waits⟩ =>
        ⟨x, single, who, k, how, same, fun i here => ?_⟩
      obtain ⟨c, known, ready, mayStart⟩ := waits i here
      have calls := runEmitter_calls ran
      refine ⟨c, (congrFun (congrArg Calls.callOf calls) i).trans known, ready, fun queued => ?_⟩
      rw [← mayStart queued]
      exact mayStart_congr calls (runEmitter_recoveryChains ran)
    · have flushes : ∀ y ∈ rest, ∃ k, y = .flush k := by
        intro y mem
        rcases h.agenda with flushes | ⟨z, single, -⟩
        · exact flushes y (agenda ▸ List.mem_cons_of_mem x mem)
        · obtain ⟨-, rfl⟩ := List.cons.inj (agenda.symm.trans single)
          simp at mem
      refine .inl ?_
      cases x with
      | flush k => exact flushes
      | await who k how => simpa [perform] using flushes
    · rcases leaves_react reacted with flushes | ⟨x, single, awaits⟩
      · refine .inl fun x mem => ?_
        simpa [ready] using flushes x mem
      · exact .inr ⟨x, by simpa [ready] using single, awaits⟩

theorem orderly_of_reachable {C : Supervisor → Action → Prop}
    (reach : (machine o).Reachable C s) : s.Orderly :=
  reach.invariant (fun _ initial => initial ▸ orderly_initial) fun _ _ _ h _ taken => h.step taken

/-! ### A configuration for concrete runs -/

/-- Words of one letter that are not empty. -/
def correlations : ℕ ↪ String where
  toFun n := String.ofList (List.replicate (n + 1) 'c')
  inj' m n same := by
    have lengths := congrArg (fun word : String => word.toList.length) same
    simpa using lengths

theorem correlations_ne_empty (n : ℕ) : correlations n ≠ "" := by
  intro empty
  have lengths := congrArg (fun word : String => word.toList.length) empty
  have counted : (correlations n).toList.length = n + 1 := by
    rw [show correlations n = String.ofList (List.replicate (n + 1) 'c') from rfl]
    simp
  rw [counted] at lengths
  simp at lengths

theorem wellFormed_settledValue (m : InboundMessage) : (settledValue m).WellFormed := by
  have speaker : (JsValue.object [("id", .string m.speaker.id),
      ("displayName", .string m.speaker.displayName)]).WellFormed :=
    .object (by simp) (by simp [JsValue.WellFormed.string])
  have attachments : (JsValue.array []).WellFormed := .array (by simp)
  refine .object (by simp) ?_
  simp [JsValue.WellFormed.string, JsValue.WellFormed.bool, speaker, attachments]

/-- A window of a minute, and ambient messages are not held. -/
def roomOptions : SupervisorOptions where
  emitter := Outbound.retryOnce
  buffer := ⟨60000, 0, by decide, by decide⟩
  digest := ⟨fun _ => [], id⟩
  sha256_injective := Function.injective_id
  uuid := correlations
  uuid_ne_empty := correlations_ne_empty

/-- The conversation of the concrete runs. -/
def room : Conversation := ⟨"chat", "room"⟩

/-- A message without attachments in that conversation. -/
def note (messageId text : String) (addressed : Bool) : InboundMessage :=
  ⟨messageId, "room", none, ⟨"u1", "Ada"⟩, text, [], addressed⟩

/-- It comes in. -/
def arrival (messageId text : String) (addressed : Bool)
    (valid : validateInboundMessage (settledValue (note messageId text addressed)) =
      some (note messageId text addressed)) : Action :=
  .processInbound "chat" ⟨_, _, wellFormed_settledValue _, valid⟩

end Supervisor

end OmpBundler.Core
