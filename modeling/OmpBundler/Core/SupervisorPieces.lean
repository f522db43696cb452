import Mathlib.Logic.Relation
import OmpBundler.Core.SupervisorSteps

/-!
The code of the supervisor as a sequence of updates.

As far as emitters and recoveries are concerned, a piece of code that does
not belong to a recovery is made of six kinds of updates. What each of them
keeps, every such piece keeps, so an invariant of the emitters need not be
proved for the pieces one by one.
-/

namespace OmpBundler.Core

open Library

/-- The emitter that a call at this stage refers to. -/
def Stage.emitter? : Stage → Option ℕ
  | .superseding k | .redelivering k _ | .flushing k _ | .interrupting k | .prompting k _ => some k
  | _ => none

theorem Stage.Ready.emitter? {stage : Stage} (ready : stage.Ready) : stage.emitter? = none := by
  cases ready <;> rfl

theorem Stage.Final.emitter? {stage : Stage} (final : stage.Final) : stage.emitter? = none := by
  cases final <;> rfl

namespace Supervisor

variable {o : SupervisorOptions} {s t u : Supervisor} {i k : ℕ} {c : InboundCall} {now : ℤ}

/-- The emitter answers for some conversation. -/
def IsActive (s : Supervisor) (k : ℕ) : Prop := ∃ conversation, s.active conversation = some k

/-- The emitter is active, or a call goes on with it. -/
def Refers (s : Supervisor) (k : ℕ) : Prop :=
  s.IsActive k ∨ (∃ i c, s.callOf i = some c ∧ c.stage.emitter? = some k) ∨
    ∃ who how, .await who k how ∈ s.agenda

/-- `t` differs from `s` in nothing that has to do with emitters, except that
calls may go on with emitters that were referred to. -/
structure Aside (s t : Supervisor) : Prop where
  out : t.out = s.out
  active : t.active = s.active
  correlationOf : t.correlationOf = s.correlationOf
  closers : t.closers = s.closers
  agenda : t.agenda = s.agenda
  recoveryChains : t.recoveryChains = s.recoveryChains
  recovered : t.recovered = s.recovered
  calls : ∀ i c k, t.callOf i = some c → c.stage.emitter? = some k → s.Refers k

/-- An update of the emitters or of the active correlations. -/
inductive Primitive (o : SupervisorOptions) (s : Supervisor) : Supervisor → Prop
  | aside {t : Supervisor} (kept : Aside s t) : Primitive o s t
  | correlation (k : ℕ) (corr : ActiveCorrelation)
      (conversation : corr.conversation = (s.correlationOf k).conversation)
      (correlationId : corr.correlationId = (s.correlationOf k).correlationId) :
      Primitive o s (s.setCorrelation k corr)
  | emit {k : ℕ} (active : s.IsActive k) (now : ℤ) (m : OutboundEmitter.Call) :
      Primitive o s (s.emit o k now m)
  | register (corr : ActiveCorrelation) : Primitive o s (s.register o corr)
  | cleanup {k : ℕ} (refers : s.Refers k) : Primitive o s (s.cleanupCorrelation k)
  | redeliver (i : ℕ) {k : ℕ} (active : s.IsActive k) (event : OutboundEvent) :
      Primitive o s (s.redeliver (.call i) k event)

/-- A piece of code: one update after the other. -/
def Piece (o : SupervisorOptions) : Supervisor → Supervisor → Prop :=
  Relation.ReflTransGen (Primitive o)

/-! ### Updates that do not concern emitters -/

theorem refers_of_call (known : s.callOf i = some c) (named : c.stage.emitter? = some k) :
    s.Refers k := .inr (.inl ⟨i, c, known, named⟩)

/-- One call has moved. -/
theorem calls_of_update (moved : t.callOf = Function.update s.callOf i (some c))
    (refers : ∀ k, c.stage.emitter? = some k → s.Refers k) :
    ∀ j d k, t.callOf j = some d → d.stage.emitter? = some k → s.Refers k := by
  intro j d k known named
  rw [moved] at known
  by_cases here : j = i
  · subst here
    rw [Function.update_self] at known
    obtain rfl := Option.some.inj known
    exact refers k named
  · rw [Function.update_of_ne here] at known
    exact refers_of_call known named

theorem aside_setCall (refers : ∀ k, c.stage.emitter? = some k → s.Refers k) :
    Aside s (s.setCall i c) :=
  ⟨rfl, rfl, rfl, rfl, rfl, rfl, rfl, calls_of_update rfl refers⟩

theorem aside_finish {stage : Stage} (final : stage.Final) : Aside s (s.finish i c stage) :=
  ⟨rfl, rfl, rfl, rfl, rfl, rfl, rfl,
    calls_of_update rfl fun k named => by simp [final.emitter?] at named⟩

theorem aside_send (child : ChildId) (command : ChildCommand) : Aside s (s.send child command) :=
  ⟨rfl, rfl, rfl, rfl, rfl, rfl, rfl, fun _ _ _ => refers_of_call⟩

theorem aside_recordInteraction (conversation : Conversation) (now : ℤ) :
    Aside s (s.recordInteraction o conversation now) :=
  ⟨rfl, rfl, rfl, rfl, rfl, rfl, rfl, fun _ _ _ => refers_of_call⟩

theorem aside_stores (idempotency : IdempotencyStore) (buffer : IngestBuffer)
    (sessions : SessionRegistry) (nextCorrelation : ℕ) :
    Aside s { s with idempotency, buffer, sessions, nextCorrelation } :=
  ⟨rfl, rfl, rfl, rfl, rfl, rfl, rfl, fun _ _ _ => refers_of_call⟩

/-- Calls that come in refer to no emitter. -/
theorem calls_addCalls {news : List InboundCall} (fresh : ∀ c ∈ news, c.Fresh) :
    ∀ j d k, (s.addCalls news).callOf j = some d → d.stage.emitter? = some k → s.Refers k := by
  intro j d k known named
  rcases addCalls_callOf fresh known with old | ⟨queued, -⟩
  · exact refers_of_call old named
  · simp [queued, Stage.emitter?] at named

/-! ### One update more -/

@[simp]
theorem emit_active (m : OutboundEmitter.Call) : (s.emit o k now m).active = s.active := by
  rw [emit]
  split <;> rfl

@[simp]
theorem isActive_emit (m : OutboundEmitter.Call) (j : ℕ) :
    (s.emit o k now m).IsActive j ↔ s.IsActive j := by
  rw [IsActive, IsActive, emit_active]

theorem isActive_register (s : Supervisor) (corr : ActiveCorrelation) :
    (s.register o corr).IsActive s.out.nextEmitter :=
  ⟨corr.conversation, Function.update_self ..⟩

theorem Piece.refl (s : Supervisor) : Piece o s s := Relation.ReflTransGen.refl

theorem Piece.aside (piece : Piece o s t) (kept : Aside t u) : Piece o s u :=
  .tail piece (.aside kept)

theorem Piece.setCall (piece : Piece o s t)
    (refers : ∀ k, c.stage.emitter? = some k → t.Refers k) : Piece o s (t.setCall i c) :=
  piece.aside (aside_setCall refers)

/-- The call goes to a stage that has no emitter. -/
theorem Piece.setStage (piece : Piece o s t) {stage : Stage} (unnamed : stage.emitter? = none) :
    Piece o s (t.setCall i { c with stage }) :=
  piece.setCall (by simp [unnamed])

theorem Piece.resolve (piece : Piece o s t) (result : InboundResult) :
    Piece o s (t.resolve i c result) := piece.aside (aside_finish (.resolved result))

theorem Piece.reject (piece : Piece o s t) (failure : InboundFailure) :
    Piece o s (t.reject i c failure) := piece.aside (aside_finish (.rejected failure))

theorem Piece.send (piece : Piece o s t) (child : ChildId) (command : ChildCommand) :
    Piece o s (t.send child command) := piece.aside (aside_send child command)

theorem Piece.recordInteraction (piece : Piece o s t) (conversation : Conversation) (now : ℤ) :
    Piece o s (t.recordInteraction o conversation now) :=
  piece.aside (aside_recordInteraction conversation now)

theorem Piece.stores (piece : Piece o s t) (idempotency : IdempotencyStore)
    (buffer : IngestBuffer) (sessions : SessionRegistry) (nextCorrelation : ℕ) :
    Piece o s { t with idempotency, buffer, sessions, nextCorrelation } :=
  piece.aside (aside_stores idempotency buffer sessions nextCorrelation)

theorem Piece.setCorrelation (piece : Piece o s t) {corr : ActiveCorrelation}
    (conversation : corr.conversation = (t.correlationOf k).conversation)
    (correlationId : corr.correlationId = (t.correlationOf k).correlationId) :
    Piece o s (t.setCorrelation k corr) :=
  .tail piece (.correlation k corr conversation correlationId)

theorem Piece.addMessages (piece : Piece o s t) (ids : List String) :
    Piece o s (t.setCorrelation k ((t.correlationOf k).addMessages ids)) :=
  piece.setCorrelation rfl rfl

theorem Piece.setFollowUps (piece : Piece o s t) (n : ℕ) :
    Piece o s (t.setCorrelation k { t.correlationOf k with pendingFollowUps := n }) :=
  piece.setCorrelation rfl rfl

theorem Piece.claimTerminal (piece : Piece o s t) : Piece o s (t.claimTerminal k) :=
  piece.setCorrelation rfl rfl

theorem Piece.emit (piece : Piece o s t) (active : t.IsActive k) (m : OutboundEmitter.Call) :
    Piece o s (t.emit o k now m) := .tail piece (.emit active now m)

theorem Piece.cleanup (piece : Piece o s t) (refers : t.Refers k) :
    Piece o s (t.cleanupCorrelation k) := .tail piece (.cleanup refers)

theorem Piece.redeliver (piece : Piece o s t) (active : t.IsActive k) (i : ℕ)
    (event : OutboundEvent) : Piece o s (t.redeliver (.call i) k event) :=
  .tail piece (.redeliver i active event)

theorem Piece.register (piece : Piece o s t) (corr : ActiveCorrelation) :
    Piece o s (t.register o corr) := .tail piece (.register corr)

theorem Piece.ensureActive (piece : Piece o s t) (corr : ActiveCorrelation) :
    Piece o s (t.ensureActive o corr) := by
  rw [Supervisor.ensureActive]
  split
  · exact piece
  · exact piece.register corr

/-! ### Frames and failures of a child -/

theorem piece_failCorrelation (s : Supervisor) (conversation : Conversation) (now : ℤ) :
    Piece o s (s.failCorrelation o conversation now) := by
  rw [failCorrelation]
  split
  · exact .refl s
  · case h_2 k found =>
    have active : (s.claimTerminal k).IsActive k := ⟨conversation, found⟩
    split_ifs
    · exact .refl s
    · refine .cleanup (.emit (.emit (.claimTerminal (.refl s)) active _) ?_ _) (.inl ?_)
      · exact (isActive_emit _ k).mpr active
      · simpa using active

theorem Piece.handleAgentEnd (piece : Piece o s t) (active : t.IsActive k) :
    Piece o s (t.handleAgentEnd k) := by
  rw [Supervisor.handleAgentEnd]
  split_ifs
  · exact piece
  · exact .cleanup (.claimTerminal piece) (.inl active)

theorem piece_handleChildEvent (s : Supervisor) (conversation : Conversation) (now : ℤ)
    (frame : RpcEventFrame) : Piece o s (s.handleChildEvent o conversation now frame) := by
  rw [handleChildEvent]
  split
  · exact .refl s
  · case h_2 k found =>
    have active : s.IsActive k := ⟨conversation, found⟩
    have once (m : OutboundEmitter.Call) : Piece o s (s.emit o k now m) := .emit (.refl s) active m
    have twice (m n : OutboundEmitter.Call) : Piece o s ((s.emit o k now m).emit o k now n) :=
      .emit (once m) ((isActive_emit m k).mpr active) n
    simp only
    split
    · split_ifs
      · exact .setFollowUps (.refl s) _
      · exact .handleAgentEnd (twice _ _) (by simpa using active)
    · exact .recordInteraction (twice _ _) _ now
    · exact .recordInteraction (once _) _ now
    · exact once _

theorem interruptTurn_active : (s.interruptTurn o k now).active = s.active := by
  simp only [interruptTurn]
  split
  · exact emit_active _
  · exact emit_active _

theorem piece_interruptTurn (active : s.IsActive k) (now : ℤ) :
    Piece o s (s.interruptTurn o k now) := by
  have claimed : Piece o s ((s.emit o k now .emitCancelled).claimTerminal k) :=
    .claimTerminal (.emit (.refl s) active _)
  simp only [interruptTurn]
  split
  · exact claimed
  · exact claimed.send _ _

/-- The call waits for the abort of the turn that has been interrupted. -/
theorem piece_interrupts (active : s.IsActive k) {stage : Stage} (named : stage.emitter? = some k) :
    Piece o s ((s.interruptTurn o k now).setCall i { c with stage }) := by
  refine .setCall (piece_interruptTurn active now) fun j here => .inl ?_
  obtain rfl : k = j := Option.some.inj (named.symm.trans here)
  rwa [IsActive, interruptTurn_active]

theorem Piece.terminalizeAcceptedInbound (piece : Piece o s t) (c : InboundCall)
    (correlationId : String) (now : ℤ) :
    Piece o s (t.terminalizeAcceptedInbound o c correlationId now) := by
  simp only [Supervisor.terminalizeAcceptedInbound]
  split_ifs
  · exact piece
  · generalize there : t.ensureActive o _ = u
    have piece : Piece o s u := there ▸ piece.ensureActive _
    split
    · exact piece
    · case h_2 k found =>
      have active : u.IsActive k := ⟨_, found⟩
      split_ifs
      · exact piece
      · refine .cleanup (.emit (.claimTerminal (.addMessages piece _)) active _) (.inl ?_)
        exact (isActive_emit _ k).mpr active

/-! ### Activation -/

theorem Piece.failActivation (piece : Piece o s t) (i : ℕ) (c : InboundCall) (now : ℤ) :
    Piece o s (t.failActivation o i c now) := by
  rw [Supervisor.failActivation]
  split
  · exact .resolve (piece.terminalizeAcceptedInbound c _ now) _
  · exact piece.reject _

theorem piece_failAppend (s : Supervisor) (i : ℕ) (c : InboundCall) (now : ℤ) :
    Piece o s (s.failAppend o i c now) :=
  .resolve (.terminalizeAcceptedInbound (.refl s) c _ now) _

theorem Piece.dispatch (piece : Piece o s t) (active : t.IsActive k) (i : ℕ) (c : InboundCall)
    (mode : ActivationMode) (now : ℤ) : Piece o s (t.dispatch o i c k mode now) := by
  have recorded := piece.recordInteraction c.conversation now
  have prompting : Piece o s ((t.recordInteraction o c.conversation now).setCall i
      { c with stage := .prompting k mode }) :=
    recorded.setCall fun j here => .inl (Option.some.inj here ▸ active)
  simp only [Supervisor.dispatch]
  split
  · exact recorded.failActivation i c now
  · cases mode with
    | prompt => exact prompting.send _ _
    | steer => exact prompting.send _ _
    | followUp => exact .send (.setFollowUps prompting _) _ _

theorem Piece.activate (piece : Piece o s t) (i : ℕ) (c : InboundCall) (mode : ActivationMode)
    (now : ℤ) : Piece o s (t.activate o i c mode now) := by
  rw [Supervisor.activate, handleSessionReset]
  split_ifs
  · split
    · case h_1 k found => exact piece.trans (piece_interrupts ⟨_, found⟩ rfl)
    · exact piece.setStage rfl
  · split
    · exact piece.setStage rfl
    · case h_2 k found =>
      have active : t.IsActive k := ⟨_, found⟩
      exact .dispatch (.addMessages piece _) active i c mode now

theorem piece_activateWith (s : Supervisor) (i : ℕ) (c : InboundCall) (mode : ActivationMode)
    (child : ChildId) (now : ℤ) : Piece o s (s.activateWith o i c mode child now) :=
  .dispatch (.register (.refl s) _) (isActive_register s _) i c mode now

theorem Piece.ingest (piece : Piece o s t) (i : ℕ) (c : InboundCall) (now : ℤ) :
    Piece o s (t.ingest o i c now) := by
  rw [Supervisor.ingest]
  split
  · rw [appendPassiveMessage]
    split
    · exact .send (.setStage (piece.stores _ _ _ _) rfl) _ _
    · exact .setStage (piece.stores _ _ _ _) rfl
  · exact .activate (piece.stores _ _ _ _) i c _ now

theorem piece_finishSessionReset (s : Supervisor) (i : ℕ) (c : InboundCall) (now : ℤ) :
    Piece o s (s.finishSessionReset o i c now) := by
  simp only [finishSessionReset]
  refine .resolve (.cleanup (.claimTerminal (.emit (.register (.recordInteraction
    (.stores (.refl s) _ _ _ _) _ now) _) (isActive_register _ _) _)) (.inl ?_)) _
  exact (isActive_emit _ _).mpr (isActive_register _ _)

theorem piece_failPrompt (s : Supervisor) (i : ℕ) (c : InboundCall) (k : ℕ)
    (mode : ActivationMode) (now : ℤ) : Piece o s (s.failPrompt o i c k mode now) := by
  simp only [failPrompt]
  split_ifs
  · exact .failActivation (.setFollowUps (.refl s) _) i c now
  · exact .failActivation (.refl s) i c now

theorem piece_completeAppend (s : Supervisor) (i : ℕ) (c : InboundCall) (now : ℤ) :
    Piece o s (s.completeAppend i c now) := by
  rw [completeAppend]
  split
  · exact .resolve (.stores (.refl s) _ _ _ _) _
  · exact .reject (.stores (.refl s) _ _ _ _) _

/-! ### Inbound messages -/

theorem Piece.redeliverSaved (piece : Piece o s t) (i : ℕ) (c : InboundCall)
    (ready : c.stage.Ready) (response : Option OutboundEvent) :
    Piece o s (t.redeliverSaved o i c response) := by
  simp only [Supervisor.redeliverSaved]
  generalize there : t.ensureActive o _ = u
  have piece : Piece o s u := there ▸ piece.ensureActive _
  split
  · case h_1 k event found =>
    have active : u.IsActive k := ⟨_, found⟩
    exact .redeliver (.setCall (.addMessages piece _) (by simp [ready.emitter?])) active i event
  · exact piece.reject _

theorem piece_classify (s : Supervisor) (i : ℕ) {c : InboundCall} (ready : c.stage.Ready)
    (now : ℤ) : Piece o s (s.classify o i c now) := by
  rw [classify]
  split
  · exact .reject (.refl s) _
  · case h_2 begun store _ =>
    have stored : Piece o s
        { s with idempotency := store, nextCorrelation := s.nextCorrelation + 1 } :=
      .stores (.refl s) store s.buffer s.sessions _
    have redelivers (correlationId : String) (response : Option OutboundEvent) :=
      stored.redeliverSaved i { c with correlationId } ready response
    simp only
    split
    · exact stored.resolve _
    · exact redelivers _ _
    · exact redelivers _ _
    · split
      · exact .resolve (stored.terminalizeAcceptedInbound _ _ now) _
      · exact stored.resolve _
    · exact stored.ingest i _ now

theorem piece_processInboundSerial (s : Supervisor) (i : ℕ) {c : InboundCall}
    (ready : c.stage.Ready) (now : ℤ) : Piece o s (s.processInboundSerial o i c now) := by
  rw [processInboundSerial]
  split
  · case h_1 k found =>
    split_ifs
    · exact piece_interrupts ⟨_, found⟩ rfl
    · exact piece_classify s i ready now
  · exact piece_classify s i ready now

theorem piece_activateSettled (s : Supervisor) (i : ℕ) (c : InboundCall) (now : ℤ) :
    Piece o s (s.activateSettled o i c now) := by
  rw [activateSettled]
  split
  · exact .reject (.refl s) _
  · exact .activate (.stores (.refl s) _ s.buffer s.sessions _) i _ .prompt now

/-! ### What code does when nothing else runs -/

/-- An action that is not a piece as above belongs to a recovery, or it settles
or closes something. -/
inductive Reacts (o : SupervisorOptions) (s : Supervisor) : Supervisor → Prop
  | piece {t : Supervisor} (piece : Piece o s t) : Reacts o s t
  | recovers (first : s.recovered = false) : Reacts o s s.recoverPending
  | begins (conversation : Conversation) {r : Recovery} {rest : List Recovery}
      (head : s.recoveryChains conversation = r :: rest) :
      Reacts o s (s.beginRecovery o conversation r)
  | resumes {conversation : Conversation} {t : Supervisor}
      (taken : s.resumeRecovery conversation = some t) : Reacts o s t
  | redelivered {i k : ℕ} {c : InboundCall} (known : s.callOf i = some c)
      (named : c.stage.emitter? = some k) : Reacts o s (s.endRedelivery i c k)
  | delivers {k : ℕ} {event : DeliveryEvent} {out : Outbound}
      (taken : s.out.step o.emitter (event.action k) = some out) :
      Reacts o s (s.moved k (event.action k) out)
  | closes {k : ℕ} {delivery : Option ℕ} (mem : (k, delivery) ∈ s.closers) :
      Reacts o s { s.closeEmitter k with closers := s.closers.erase (k, delivery) }

theorem reacts_resumeCall (known : s.callOf i = some c) (taken : s.resumeCall i c = some t) :
    Reacts o s t := by
  rw [resumeCall] at taken
  split at taken
  · case h_1 k deliveries stage =>
      obtain ⟨fulfilled, -, rfl⟩ := Option.map_eq_some_iff.mp taken
      split_ifs
      · refine .piece (.setCall (.refl s) fun j here => refers_of_call known ?_)
        rw [stage]
        exact here
      · exact .piece (.reject (.refl s) _)
  · case h_2 k delivery stage =>
      obtain ⟨fulfilled, -, rfl⟩ := Option.map_eq_some_iff.mp taken
      split_ifs
      · exact .redelivered known (by rw [stage]; rfl)
      · exact .piece (.reject (.refl s) _)
  · simp at taken

theorem react_cases {a : Action} (taken : s.react o a = some t) : Reacts o s t := by
  cases a with
  | recoverPending =>
      simp only [react, Option.ite_none_left_eq_some, Option.some.injEq] at taken
      exact taken.2 ▸ .recovers (by simpa using taken.1)
  | beginRecovery conversation =>
      simp only [react] at taken
      split at taken
      · case h_1 r rest head =>
          simp only [Option.ite_none_right_eq_some, Option.some.injEq] at taken
          exact taken.2 ▸ .begins conversation head
      · simp at taken
  | resumeRecovery conversation => exact .resumes taken
  | processInbound adapterId m =>
      simp only [react, Option.ite_none_right_eq_some, Option.some.injEq] at taken
      obtain ⟨-, rfl⟩ := taken
      exact .piece (.aside (.refl s) ⟨rfl, rfl, rfl, rfl, rfl, rfl, rfl,
        calls_addCalls (by simp [InboundCall.Fresh])⟩)
  | start i now =>
      obtain ⟨c, known, taken⟩ := Option.bind_eq_some_iff.mp taken
      simp only [Option.ite_none_right_eq_some] at taken
      obtain ⟨⟨queued, -⟩, taken⟩ := taken
      split at taken
      · exact Option.some.inj taken ▸ .piece (piece_processInboundSerial s i (queued ▸ .queued) now)
      · exact Option.some.inj taken ▸ .piece (piece_activateSettled s i c now)
  | aborted i =>
      obtain ⟨c, known, taken⟩ := Option.bind_eq_some_iff.mp taken
      have aborts (k : ℕ) (named : c.stage.emitter? = some k) (stage : Stage)
          (unnamed : stage.emitter? = none) :
          Reacts o s ((s.cleanupCorrelation k).setCall i { c with stage }) :=
        .piece (.setStage (.cleanup (.refl s) (refers_of_call known named)) unnamed)
      split at taken
      · case h_1 k stage => exact Option.some.inj taken ▸ aborts k (by rw [stage]; rfl) _ rfl
      · case h_2 k stage => exact Option.some.inj taken ▸ aborts k (by rw [stage]; rfl) _ rfl
      · simp at taken
  | superseded i now =>
      obtain ⟨c, known, taken⟩ := Option.bind_eq_some_iff.mp taken
      simp only [Option.ite_none_right_eq_some, Option.some.injEq] at taken
      obtain ⟨stage, rfl⟩ := taken
      exact .piece (piece_classify s i (stage ▸ .superseded) now)
  | acquired i now answer =>
      obtain ⟨c, known, taken⟩ := Option.bind_eq_some_iff.mp taken
      split at taken
      · exact Option.some.inj taken ▸ .piece (.send (.setStage (.refl s) rfl) _ _)
      · exact Option.some.inj taken ▸ .piece (piece_failAppend s i c now)
      · exact Option.some.inj taken ▸ .piece (piece_activateWith s i c _ _ now)
      · exact Option.some.inj taken ▸ .piece (.failActivation (.refl s) i c now)
      · simp at taken
  | appended i now answer =>
      obtain ⟨c, known, taken⟩ := Option.bind_eq_some_iff.mp taken
      split at taken
      · exact Option.some.inj taken ▸ .piece (piece_completeAppend s i c now)
      · exact Option.some.inj taken ▸ .piece (piece_failAppend s i c now)
      · simp at taken
  | prompted i now answer =>
      obtain ⟨c, known, taken⟩ := Option.bind_eq_some_iff.mp taken
      split at taken
      · exact Option.some.inj taken ▸ .piece (.resolve (.stores (.refl s) _ _ _ _) _)
      · exact Option.some.inj taken ▸ .piece (piece_failPrompt s i c _ _ now)
      · simp at taken
  | retired i now answer =>
      obtain ⟨c, known, taken⟩ := Option.bind_eq_some_iff.mp taken
      split at taken
      · exact Option.some.inj taken ▸ .piece (piece_finishSessionReset s i c now)
      · exact Option.some.inj taken ▸ .piece (.failActivation (.refl s) i c now)
      · simp at taken
  | resumeCall i =>
      obtain ⟨c, known, taken⟩ := Option.bind_eq_some_iff.mp taken
      exact reacts_resumeCall known taken
  | frame conversation now frame =>
      exact Option.some.inj taken ▸ .piece (piece_handleChildEvent s conversation now frame)
  | childFailed conversation now =>
      exact Option.some.inj taken ▸ .piece (piece_failCorrelation s conversation now)
  | flushSettled now =>
      obtain rfl := Option.some.inj taken
      refine .piece (.aside (.refl s) ⟨rfl, rfl, rfl, rfl, rfl, rfl, rfl, ?_⟩)
      refine calls_addCalls (s := { s with buffer := _ }) fun c mem => ?_
      obtain ⟨settled, -, made⟩ := List.mem_filterMap.mp mem
      exact fresh_of_settledCall made
  | dismissEngagement conversation now =>
      exact Option.some.inj taken ▸ .piece (.stores (.refl s) _ _ _ _)
  | writeSessions sessions => exact Option.some.inj taken ▸ .piece (.stores (.refl s) _ _ _ _)
  | deliver k event =>
      obtain ⟨out, stepped, rfl⟩ := Option.map_eq_some_iff.mp taken
      exact .delivers stepped
  | close k delivery =>
      simp only [react, Option.ite_none_right_eq_some, Option.some.injEq] at taken
      exact taken.2 ▸ .closes taken.1.1
  | run | remainder | crash => simp [react] at taken

end Supervisor

end OmpBundler.Core
