import OmpBundler.Core.EmitterCalls
import OmpBundler.Core.SupervisorPieces

/-!
Nothing that the supervisor emits is lost.

An emitter that has been closed drops what is handed to it. The supervisor
closes emitters of its own accord, some time after it has stopped to refer to
them, so it has to be shown that the emitter of an active correlation is
open, that it is addressed to the conversation of that correlation, and that
it stays open while it has code to run.
-/

namespace OmpBundler.Core

open Library

/-- The emitter that a recovery at this stage refers to. -/
def RecoveryStage.emitter? : RecoveryStage → Option ℕ
  | .queued => none
  | .redelivering k _ | .flushing k _ => some k

namespace Outbound

variable {o : EmitterOptions} {s t : Outbound} {k : ℕ} {e : OutboundEmitter}

/-- The emitter exists, and its database is open. -/
def IsOpen (s : Outbound) (k : ℕ) : Prop := ∃ e, s.emitterOf k = some e ∧ e.closed = false

/-- The emitters are the same, and code that is added belongs to one that has
code to run or is open. -/
structure Keeps (s t : Outbound) : Prop where
  emitterOf : t.emitterOf = s.emitterOf
  nextEmitter : t.nextEmitter = s.nextEmitter
  todo : ∀ op ∈ t.todo, (∃ old ∈ s.todo, old.emitter = op.emitter) ∨ s.IsOpen op.emitter

theorem Keeps.of_todo (emitterOf : t.emitterOf = s.emitterOf)
    (nextEmitter : t.nextEmitter = s.nextEmitter) (todo : t.todo = s.todo) : Keeps s t :=
  ⟨emitterOf, nextEmitter, fun op mem => .inl ⟨op, todo ▸ mem, rfl⟩⟩

theorem Drive.emitters {d : Delivery} (driven : Drive s k e d t) :
    t.emitterOf = s.emitterOf ∧ t.nextEmitter = s.nextEmitter ∧
      ∀ op ∈ t.todo, op ∈ s.todo ∨ (op.emitter = k ∧ e.closed = false) := by
  cases driven with
  | settled b closed => exact ⟨by simp, by simp, fun op mem => .inl (by simpa using mem)⟩
  | posted | sleeping => exact ⟨rfl, rfl, fun op mem => .inl mem⟩
  | failed carried opened | acked carried opened =>
      refine ⟨rfl, rfl, fun op mem => ?_⟩
      rcases List.mem_append.mp mem with old | new
      · exact .inl old
      · exact .inr ⟨List.mem_singleton.mp new ▸ rfl, opened⟩

theorem keeps_of_drive {d : Delivery} (found : s.emitterOf k = some e)
    (driven : Drive s k e d t) : Keeps s t := by
  obtain ⟨emitterOf, nextEmitter, todo⟩ := driven.emitters
  refine ⟨emitterOf, nextEmitter, fun op mem => ?_⟩
  rcases todo op mem with old | ⟨here, opened⟩
  · exact .inl ⟨op, old, rfl⟩
  · exact .inr ⟨e, here ▸ found, opened⟩

theorem afterDelivered_emitters (event : OutboundEvent) (hook : Except String Unit) :
    (s.afterDelivered o k e event hook).emitterOf = s.emitterOf ∧
      (s.afterDelivered o k e event hook).nextEmitter = s.nextEmitter ∧
      ∀ op ∈ (s.afterDelivered o k e event hook).todo, op ∈ s.todo ∨ op.emitter = k := by
  cases hook with
  | ok u =>
      exact ⟨settle_emitterOf true, settle_nextEmitter true, fun op mem =>
        .inl (settle_todo (s := s) (k := k) true ▸ mem)⟩
  | error message =>
      simp only [afterDelivered]
      split
      · case h_1 callbackUrl attempt _ =>
          obtain ⟨emitterOf, nextEmitter, todo⟩ := (Drive.attempt (o := o)
            (s := s.write (s.outbox.recordAttempt event.eventId (attempt + 1) message)) (k := k)
            (e := e) (d := ⟨0, .durable event 0⟩) rfl callbackUrl (attempt + 1) message).emitters
          exact ⟨emitterOf, nextEmitter, fun op mem => (todo op mem).imp_right And.left⟩
      · exact ⟨rfl, rfl, fun op => .inl⟩

/-- A piece of code adds code of its own emitter only. -/
theorem runOp_emitters (hook : Except String Unit) (op : Op) :
    (s.runOp o e hook op).emitterOf = s.emitterOf ∧
      (s.runOp o e hook op).nextEmitter = s.nextEmitter ∧
      ∀ x ∈ (s.runOp o e hook op).todo, x ∈ s.todo ∨ x.emitter = op.emitter := by
  have durable (s : Outbound) (k : ℕ) (event : OutboundEvent) :
      (s.deliverDurable k event hook).emitterOf = s.emitterOf ∧
        (s.deliverDurable k event hook).nextEmitter = s.nextEmitter ∧
        ∀ x ∈ (s.deliverDurable k event hook).todo, x ∈ s.todo ∨ x.emitter = k := by
    cases hook with
    | ok u => exact ⟨rfl, rfl, fun x mem => (List.mem_cons.mp mem).symm.imp_right (congrArg Op.emitter)⟩
    | error message => exact ⟨rfl, rfl, fun x => .inl⟩
  cases op with
  | emit k event =>
      simp only [runOp]
      split
      · exact ⟨rfl, rfl, fun x => .inl⟩
      · exact durable _ k event
  | deliver k event => exact durable s k event
  | insert k event =>
      simp only [runOp, insert]
      split
      · exact ⟨rfl, rfl, by simp⟩
      · split
        · split
          · exact ⟨rfl, rfl, fun x => .inl⟩
          · exact ⟨rfl, rfl, by simp⟩
        · exact ⟨rfl, rfl, fun x => .inl⟩
  | prepareRetry k event =>
      simp only [runOp]
      split
      · refine ⟨rfl, rfl, fun x mem => (List.mem_cons.mp mem).symm.imp_right fun same => ?_⟩
        rw [same]
        rfl
      · exact ⟨rfl, rfl, fun x => .inl⟩
  | retry k event => exact ⟨rfl, rfl, fun x => .inl⟩
  | confirm k event => exact ⟨rfl, rfl, fun x => .inl⟩
  | delivered k event => exact afterDelivered_emitters event hook
  | failed k event error =>
      exact ⟨settle_emitterOf _, settle_nextEmitter _, fun x mem =>
        .inl (by simpa [runOp] using mem)⟩

/-- The code that runs keeps the emitters. -/
theorem keeps_run {hook : Except String Unit} (taken : step o s (.run hook) = some t) :
    Keeps s t := by
  simp only [step] at taken
  split at taken
  · simp at taken
  · case h_2 op rest todo =>
    obtain ⟨e, found, rfl⟩ := Option.map_eq_some_iff.mp taken
    obtain ⟨emitterOf, nextEmitter, new⟩ := @runOp_emitters o (s.setTodo rest) e hook op
    refine ⟨emitterOf, nextEmitter, fun x mem => .inl ?_⟩
    rcases new x mem with old | here
    · exact ⟨x, todo ▸ List.mem_cons_of_mem _ old, rfl⟩
    · exact ⟨op, todo ▸ List.mem_cons_self, here.symm⟩

/-- A delivery keeps the emitters. -/
theorem keeps_deliver {event : Supervisor.DeliveryEvent} (taken : step o s (event.action k) = some t) :
    Keeps s t := by
  cases event with
  | begin =>
      simp only [Supervisor.DeliveryEvent.action, step, react, Option.ite_none_right_eq_some,
        Option.bind_eq_some_iff] at taken
      obtain ⟨-, e, found, taken⟩ := taken
      split at taken
      · case h_1 d rest _ _ =>
          obtain rfl := Option.some.inj taken
          exact keeps_of_drive found (.begin o s k e d)
      · simp at taken
  | wake =>
      simp only [Supervisor.DeliveryEvent.action, step, react, Option.ite_none_right_eq_some,
        Option.bind_eq_some_iff] at taken
      obtain ⟨-, e, found, taken⟩ := taken
      split at taken
      · exact Option.some.inj taken ▸ .of_todo rfl rfl rfl
      · simp at taken
  | answer response =>
      simp only [Supervisor.DeliveryEvent.action, step, react, Option.ite_none_right_eq_some,
        Option.bind_eq_some_iff] at taken
      obtain ⟨-, e, found, taken⟩ := taken
      split at taken
      · case h_1 d rest callbackUrl attempt _ _ =>
        obtain rfl := Option.some.inj taken
        by_cases called : d.payload = .rejection
        · rw [called]
          exact .of_todo rfl rfl rfl
        · rcases Drive.answer o s k e d callbackUrl attempt response called with
            driven | ⟨eventId, attempts, error, driven⟩
          · exact keeps_of_drive found driven
          · obtain ⟨emitterOf, nextEmitter, todo⟩ :=
              @keeps_of_drive (s.write (s.outbox.recordAttempt eventId attempts error)) _ k e d
                found driven
            exact ⟨emitterOf, nextEmitter, todo⟩
      · simp at taken

end Outbound

namespace Supervisor

variable {o : SupervisorOptions} {s t : Supervisor} {i j k : ℕ} {c : InboundCall} {now : ℤ}

/-! ### The invariant -/

/-- The emitter is open, and is addressed to the conversation. -/
structure Answers (s : Supervisor) (conversation : Conversation) (k : ℕ) : Prop where
  own : (s.correlationOf k).conversation = conversation
  emitter : ∃ e, s.out.emitterOf k = some e ∧ e.closed = false ∧
    e.adapterId = conversation.adapterId ∧ e.conversationKey = conversation.conversationKey ∧
    e.correlationId = (s.correlationOf k).correlationId

/-- The emitter is to be closed, or belongs to a recovery. -/
inductive Apart (s : Supervisor) (k : ℕ) : Prop
  | flush (mem : .flush k ∈ s.agenda)
  | closer {delivery : Option ℕ} (mem : (k, delivery) ∈ s.closers)
  | recovery {conversation : Conversation} {r : Recovery}
      (mem : r ∈ s.recoveryChains conversation) (named : r.stage.emitter? = some k)
  | await {conversation : Conversation} {how : Redelivery}
      (mem : .await (.recovery conversation) k how ∈ s.agenda)

/-- The emitters are in order. -/
structure EmittersSound (s : Supervisor) : Prop where
  active : ∀ conversation k, s.active conversation = some k → s.Answers conversation k
  known : ∀ k e, s.out.emitterOf k = some e → k < s.out.nextEmitter
  refers : ∀ k, s.Refers k → k < s.out.nextEmitter
  apart : ∀ k, s.Apart k → k < s.out.nextEmitter ∧ ¬ s.IsActive k
  todo : ∀ op ∈ s.out.todo, s.out.IsOpen op.emitter

theorem emittersSound_initial : EmittersSound initial where
  active conversation k found := by simp [initial] at found
  known k e found := by simp [initial, Outbound.initial] at found
  refers k refers := by
    rcases refers with ⟨_, found⟩ | ⟨_, _, found, -⟩ | ⟨_, _, mem⟩
    · simp [initial] at found
    · simp [initial] at found
    · simp [initial] at mem
  apart k apart := by
    cases apart with
    | flush mem | closer mem | await mem => simp [initial] at mem
    | recovery mem => simp [initial] at mem
  todo op mem := by simp [initial, Outbound.initial] at mem

/-- Active emitters exist. -/
theorem EmittersSound.lt_of_active (h : s.EmittersSound) (active : s.IsActive k) :
    k < s.out.nextEmitter := h.refers k (.inl active)

/-! ### Updates -/

/-- The emitters, as far as active correlations are concerned, are as they
were. -/
theorem Answers.of_eq {conversation : Conversation} (answers : s.Answers conversation k)
    (emitterOf : t.out.emitterOf k = s.out.emitterOf k)
    (conversation' : (t.correlationOf k).conversation = (s.correlationOf k).conversation)
    (correlationId : (t.correlationOf k).correlationId = (s.correlationOf k).correlationId) :
    t.Answers conversation k where
  own := conversation'.trans answers.own
  emitter := by
    rw [emitterOf, correlationId]
    exact answers.emitter

theorem Answers.isOpen {conversation : Conversation} (answers : s.Answers conversation k) :
    s.out.IsOpen k := by
  obtain ⟨e, found, opened, -⟩ := answers.emitter
  exact ⟨e, found, opened⟩

theorem EmittersSound.isOpen (h : s.EmittersSound) (active : s.IsActive k) : s.out.IsOpen k := by
  obtain ⟨conversation, found⟩ := active
  exact (h.active conversation k found).isOpen

theorem Apart.of_eq (apart : t.Apart k) (agenda : t.agenda = s.agenda)
    (closers : t.closers = s.closers) (chains : t.recoveryChains = s.recoveryChains) :
    s.Apart k := by
  cases apart with
  | flush mem => exact .flush (agenda ▸ mem)
  | closer mem => exact .closer (closers ▸ mem)
  | recovery mem named => exact .recovery (chains ▸ mem) named
  | await mem => exact .await (agenda ▸ mem)

/-- An update that leaves the emitters as they are, and adds no active one. -/
theorem EmittersSound.transfer (h : s.EmittersSound) (emitterOf : t.out.emitterOf = s.out.emitterOf)
    (nextEmitter : t.out.nextEmitter = s.out.nextEmitter)
    (own : ∀ k, (t.correlationOf k).conversation = (s.correlationOf k).conversation)
    (correlationId : ∀ k, (t.correlationOf k).correlationId = (s.correlationOf k).correlationId)
    (active : ∀ conversation k, t.active conversation = some k → s.active conversation = some k)
    (refers : ∀ k, t.Refers k → k < s.out.nextEmitter)
    (apart : ∀ k, t.Apart k → s.Apart k ∨ (k < s.out.nextEmitter ∧ ¬ t.IsActive k))
    (todo : ∀ op ∈ t.out.todo, s.out.IsOpen op.emitter) : t.EmittersSound where
  active conversation k found :=
    (h.active conversation k (active conversation k found)).of_eq (by rw [emitterOf]) (own k)
      (correlationId k)
  known k e known := by
    rw [emitterOf] at known
    exact nextEmitter ▸ h.known k e known
  refers k found := nextEmitter ▸ refers k found
  apart k found := by
    rw [nextEmitter]
    rcases apart k found with old | new
    · obtain ⟨lt, inactive⟩ := h.apart k old
      exact ⟨lt, fun ⟨conversation, here⟩ => inactive ⟨conversation, active conversation k here⟩⟩
    · exact new
  todo op mem := by
    rw [Outbound.IsOpen, emitterOf]
    exact todo op mem

theorem EmittersSound.aside (h : s.EmittersSound) (kept : Aside s t) : t.EmittersSound := by
  refine h.transfer (by rw [kept.out]) (by rw [kept.out]) (by simp [kept.correlationOf])
    (by simp [kept.correlationOf]) (by simp [kept.active]) (fun k refers => h.refers k ?_)
    (fun k apart => .inl (apart.of_eq kept.agenda kept.closers kept.recoveryChains))
    (fun op mem => h.todo op (kept.out ▸ mem))
  rcases refers with ⟨conversation, found⟩ | ⟨i, c, found, named⟩ | ⟨who, how, mem⟩
  · exact .inl ⟨conversation, kept.active ▸ found⟩
  · exact kept.calls i c k found named
  · exact .inr (.inr ⟨who, how, kept.agenda ▸ mem⟩)

/-- The address of a correlation does not change. -/
theorem EmittersSound.correlation (h : s.EmittersSound) {corr : ActiveCorrelation}
    (own : corr.conversation = (s.correlationOf k).conversation)
    (correlationId : corr.correlationId = (s.correlationOf k).correlationId) :
    (s.setCorrelation k corr).EmittersSound := by
  refine h.transfer rfl rfl (fun j => ?_) (fun j => ?_) (fun _ _ => id) h.refers
    (fun j apart => .inl (apart.of_eq rfl rfl rfl)) h.todo
  all_goals
    by_cases here : j = k
    · subst here
      simpa
    · simp [Function.update_of_ne here]

/-- The emitter hands events over and stays open. -/
theorem EmittersSound.emit (h : s.EmittersSound) (active : s.IsActive k) (now : ℤ)
    (m : OutboundEmitter.Call) : (s.emit o k now m).EmittersSound := by
  obtain ⟨e, found, opened⟩ := h.isOpen active
  have extended := OutboundEmitter.extends_call e now m
  have emitted : s.emit o k now m = { s with out := s.out.call o.emitter k e now m } := by
    rw [Supervisor.emit, found]
  have emitterOf (j : ℕ) : (s.out.call o.emitter k e now m).emitterOf j =
      if j = k then some { e.call now m with drafts := [] } else s.out.emitterOf j := by
    simp [Outbound.call, Function.update_apply]
  have stays (j : ℕ) (opened' : s.out.IsOpen j) : (s.out.call o.emitter k e now m).IsOpen j := by
    rw [Outbound.IsOpen, emitterOf]
    split
    · exact ⟨_, rfl, extended.closed.trans opened⟩
    · exact opened'
  rw [emitted]
  refine ⟨fun conversation j there => ?_, fun j e' known => ?_, h.refers, fun j apart => ?_,
    fun op mem => ?_⟩
  · obtain ⟨own, e', found', opened', adapterId, conversationKey, correlationId⟩ :=
      h.active conversation j there
    refine ⟨own, ?_⟩
    simp only [emitterOf]
    split
    · case isTrue here =>
      subst here
      obtain rfl := Option.some.inj (found.symm.trans found')
      exact ⟨_, rfl, extended.closed.trans opened, extended.adapterId.trans adapterId,
        extended.conversationKey.trans conversationKey, extended.correlationId.trans correlationId⟩
    · exact ⟨e', found', opened', adapterId, conversationKey, correlationId⟩
  · simp only [emitterOf] at known
    split at known
    · case isTrue here => exact here ▸ h.known k e found
    · exact h.known j e' known
  · exact h.apart j (apart.of_eq rfl rfl rfl)
  · simp only [Outbound.call, List.mem_append, List.mem_map] at mem
    rcases mem with old | ⟨event, -, rfl⟩
    · exact stays _ (h.todo op old)
    · exact stays k ⟨e, found, opened⟩

theorem emitterOf_create (out : Outbound) (adapterId conversationKey correlationId : String) :
    (out.create o.emitter adapterId conversationKey correlationId).emitterOf =
      Function.update out.emitterOf out.nextEmitter (some (.create adapterId conversationKey
        correlationId o.emitter.progressThresholdMs
        (out.outbox.maxSequence adapterId correlationId)
        (out.outbox.hasTerminal adapterId correlationId))) := rfl

/-- A new emitter leaves the others as they are. -/
theorem EmittersSound.create (h : s.EmittersSound) (adapterId conversationKey correlationId : String) :
    ({ s with
      out := s.out.create o.emitter adapterId conversationKey correlationId } : Supervisor).EmittersSound := by
  have old {j : ℕ} (lt : j < s.out.nextEmitter) :
      (s.out.create o.emitter adapterId conversationKey correlationId).emitterOf j =
        s.out.emitterOf j := by
    rw [emitterOf_create, Function.update_of_ne (Nat.ne_of_lt lt)]
  refine ⟨fun conversation j found => ?_, fun j e known => ?_, fun j refers => ?_,
    fun j apart => ?_, fun op mem => ?_⟩
  · exact (h.active conversation j found).of_eq (old (h.lt_of_active ⟨conversation, found⟩)) rfl rfl
  · by_cases here : j = s.out.nextEmitter
    · exact here ▸ Nat.lt_succ_self _
    · rw [emitterOf_create, Function.update_of_ne here] at known
      exact (h.known j e known).trans (Nat.lt_succ_self _)
  · exact (h.refers j refers).trans (Nat.lt_succ_self _)
  · obtain ⟨lt, inactive⟩ := h.apart j (apart.of_eq rfl rfl rfl)
    exact ⟨lt.trans (Nat.lt_succ_self _), inactive⟩
  · obtain ⟨e, found, opened⟩ := h.todo op mem
    exact ⟨e, (old (h.known _ e found)).trans found, opened⟩

theorem EmittersSound.register (h : s.EmittersSound) (corr : ActiveCorrelation) :
    (s.register o corr).EmittersSound := by
  have made := @EmittersSound.create o s h corr.conversation.adapterId
    corr.conversation.conversationKey corr.correlationId
  have active (conversation : Conversation) (j : ℕ)
      (found : (s.register o corr).active conversation = some j) :
      (conversation = corr.conversation ∧ j = s.out.nextEmitter) ∨
        (j < s.out.nextEmitter ∧ s.active conversation = some j) := by
    simp only [Supervisor.register] at found
    by_cases here : conversation = corr.conversation
    · subst here
      rw [Function.update_self] at found
      exact .inl ⟨rfl, (Option.some.inj found).symm⟩
    · rw [Function.update_of_ne here] at found
      exact .inr ⟨h.lt_of_active ⟨conversation, found⟩, found⟩
  refine ⟨fun conversation j found => ?_, made.known, fun j refers => ?_, fun j apart => ?_,
    made.todo⟩
  · rcases active conversation j found with ⟨rfl, rfl⟩ | ⟨lt, found⟩
    · have here : (s.register o corr).correlationOf s.out.nextEmitter = corr :=
        Function.update_self ..
      refine ⟨by rw [here], _, Function.update_self .., rfl, rfl, rfl, by rw [here]; rfl⟩
    · have other : (s.register o corr).correlationOf j = s.correlationOf j :=
        Function.update_of_ne (Nat.ne_of_lt lt) ..
      exact (made.active conversation j found).of_eq rfl (by rw [other]) (by rw [other])
  · rcases refers with ⟨conversation, found⟩ | rest
    · rcases active conversation j found with ⟨-, rfl⟩ | ⟨lt, -⟩
      · exact Nat.lt_succ_self _
      · exact lt.trans (Nat.lt_succ_self _)
    · exact (h.refers j (.inr rest)).trans (Nat.lt_succ_self _)
  · obtain ⟨lt, inactive⟩ := h.apart j (apart.of_eq rfl rfl rfl)
    refine ⟨lt.trans (Nat.lt_succ_self _), fun ⟨conversation, found⟩ => ?_⟩
    rcases active conversation j found with ⟨-, rfl⟩ | ⟨-, found⟩
    · exact lt_irrefl _ lt
    · exact inactive ⟨conversation, found⟩

/-- The active correlation of the conversation of `k`, if it is `k`, is
removed. -/
def withoutActive (s : Supervisor) (k : ℕ) : Conversation → Option ℕ :=
  if s.active (s.correlationOf k).conversation = some k then
    Function.update s.active (s.correlationOf k).conversation none
  else s.active

theorem active_of_withoutActive {conversation : Conversation}
    (found : s.withoutActive k conversation = some j) : s.active conversation = some j := by
  rw [withoutActive] at found
  split at found
  · by_cases here : conversation = (s.correlationOf k).conversation
    · subst here
      rw [Function.update_self] at found
      cases found
    · rwa [Function.update_of_ne here] at found
  · exact found

/-- After that it is not active anywhere. -/
theorem EmittersSound.not_withoutActive (h : s.EmittersSound) (conversation : Conversation) :
    s.withoutActive k conversation ≠ some k := by
  intro found
  have active := active_of_withoutActive found
  rw [withoutActive, (h.active conversation k active).own, if_pos active,
    Function.update_self] at found
  cases found

/-- Nothing but emitters to flush is added to the agenda. -/
theorem EmittersSound.cleanup (h : s.EmittersSound) (refers : s.Refers k) :
    (s.cleanupCorrelation k).EmittersSound := by
  have corr := @EmittersSound.correlation s k h { s.correlationOf k with lease := none } rfl rfl
  have agenda {x : Remainder} (mem : x ∈ (s.cleanupCorrelation k).agenda) :
      x ∈ s.agenda ∨ x = .flush k := by
    simpa using mem
  have active (conversation : Conversation) (j : ℕ)
      (found : (s.cleanupCorrelation k).active conversation = some j) :
      s.active conversation = some j := active_of_withoutActive (k := k) found
  refine corr.transfer rfl rfl (fun _ => rfl) (fun _ => rfl) active (fun j found => h.refers j ?_)
    (fun j apart => ?_) h.todo
  · rcases found with ⟨conversation, found⟩ | call | ⟨who, how, mem⟩
    · exact .inl ⟨conversation, active conversation j found⟩
    · exact .inr (.inl call)
    · exact .inr (.inr ⟨who, how, (agenda mem).resolve_right (by simp)⟩)
  · cases apart with
    | flush mem =>
        rcases agenda mem with mem | new
        · exact .inl (.flush mem)
        · obtain rfl : j = k := by simpa using new
          exact .inr ⟨h.refers j refers, fun ⟨conversation, found⟩ => h.not_withoutActive conversation found⟩
    | closer mem => exact .inl (.closer mem)
    | recovery mem named => exact .inl (.recovery mem named)
    | await mem => exact .inl (.await ((agenda mem).resolve_right (by simp)))

theorem redeliver_out (who : Waiting) (event : OutboundEvent) :
    (s.redeliver who k event).out.emitterOf = s.out.emitterOf ∧
      (s.redeliver who k event).out.nextEmitter = s.out.nextEmitter ∧
      ∀ op ∈ (s.redeliver who k event).out.todo, op ∈ s.out.todo ∨
        (op.emitter = k ∧ s.out.IsOpen k) := by
  rw [redeliver]
  split
  · exact ⟨rfl, rfl, fun op => .inl⟩
  · case h_2 e found =>
    have resumes : (s.out.resumePending k e).emitterOf = s.out.emitterOf ∧
        (s.out.resumePending k e).nextEmitter = s.out.nextEmitter ∧
        (s.out.resumePending k e).todo = s.out.todo := by
      rw [Outbound.resumePending]
      split <;> simp
    have adds {ops : List Op} (own : ∀ op ∈ ops, op.emitter = k) (opened : e.closed = false) :
        ∀ op ∈ s.out.todo ++ ops, op ∈ s.out.todo ∨ (op.emitter = k ∧ s.out.IsOpen k) := by
      intro op mem
      rcases List.mem_append.mp mem with old | new
      · exact .inl old
      · exact .inr ⟨own op new, e, found, opened⟩
    simp only [later, Outbound.redeliverDurable]
    split
    · exact ⟨rfl, rfl, fun op => .inl⟩
    · case isFalse opened =>
      have opened : e.closed = false := by simpa using opened
      split
      · exact ⟨rfl, rfl, adds (by simp [Op.emitter]) opened⟩
      · split
        · exact ⟨rfl, rfl, fun op => .inl⟩
        · split
          · exact ⟨resumes.1, resumes.2.1, fun op mem => .inl (resumes.2.2 ▸ mem)⟩
          · rw [Outbound.retryPermanentFailure]
            split
            · exact ⟨rfl, rfl, fun op => .inl⟩
            · split
              · split
                · exact ⟨rfl, rfl, adds (by simp [Op.emitter]) opened⟩
                · exact ⟨rfl, rfl, fun op => .inl⟩
              · exact ⟨rfl, rfl, fun op => .inl⟩
          · exact ⟨rfl, rfl, adds (by simp [Op.emitter]) opened⟩

/-- What a redelivery adds to the agenda refers to its emitter. -/
theorem EmittersSound.redeliver (h : s.EmittersSound) (who : Waiting) (event : OutboundEvent)
    (lt : k < s.out.nextEmitter) (inactive : ∀ conversation, who = .recovery conversation → ¬ s.IsActive k) :
    (s.redeliver who k event).EmittersSound := by
  obtain ⟨emitterOf, nextEmitter, todo⟩ := @redeliver_out s k who event
  have agenda := agenda_redeliver (s := s) (k := k) who event
  have kept : (s.redeliver who k event).active = s.active ∧
      (s.redeliver who k event).correlationOf = s.correlationOf ∧
      (s.redeliver who k event).callOf = s.callOf ∧
      (s.redeliver who k event).closers = s.closers ∧
      (s.redeliver who k event).recoveryChains = s.recoveryChains := by
    rw [Supervisor.redeliver]
    split <;> exact ⟨rfl, rfl, rfl, rfl, rfl⟩
  obtain ⟨active, correlationOf, callOf, closers, chains⟩ := kept
  refine h.transfer emitterOf nextEmitter (by simp [correlationOf]) (by simp [correlationOf])
    (by simp [active]) (fun j refers => ?_) (fun j apart => ?_) (fun op mem => ?_)
  · rcases refers with ⟨conversation, found⟩ | ⟨i, c, found, named⟩ | ⟨who', how, mem⟩
    · exact h.refers j (.inl ⟨conversation, active ▸ found⟩)
    · exact h.refers j (refers_of_call (callOf ▸ found) named)
    · rw [agenda, List.mem_append, List.mem_singleton, Remainder.await.injEq] at mem
      rcases mem with old | ⟨-, rfl, -⟩
      · exact h.refers j (.inr (.inr ⟨who', how, old⟩))
      · exact lt
  · cases apart with
    | flush mem =>
        rw [agenda, List.mem_append, List.mem_singleton] at mem
        exact .inl (.flush (mem.resolve_right (by simp)))
    | closer mem => exact .inl (.closer (closers ▸ mem))
    | recovery mem named => exact .inl (.recovery (chains ▸ mem) named)
    | await mem =>
        rw [agenda, List.mem_append, List.mem_singleton, Remainder.await.injEq] at mem
        rcases mem with old | ⟨here, rfl, -⟩
        · exact .inl (.await old)
        · refine .inr ⟨lt, ?_⟩
          rw [IsActive, active]
          exact inactive _ here.symm
  · rcases todo op mem with old | ⟨here, opened⟩
    · exact h.todo op old
    · exact here ▸ opened

theorem EmittersSound.primitive (h : s.EmittersSound) (update : Primitive o s t) :
    t.EmittersSound := by
  cases update with
  | aside kept => exact h.aside kept
  | correlation k corr own correlationId => exact h.correlation own correlationId
  | emit active now m => exact h.emit active now m
  | register corr => exact h.register corr
  | cleanup refers => exact h.cleanup refers
  | redeliver i active event =>
      exact h.redeliver (.call i) event (h.lt_of_active active) (by simp)

theorem EmittersSound.piece (h : s.EmittersSound) (piece : Piece o s t) : t.EmittersSound := by
  induction piece with
  | refl => exact h
  | tail _ update ih => exact ih.primitive update

/-! ### Closing -/

/-- An emitter that is not active may be closed while no code runs. -/
theorem EmittersSound.close (h : s.EmittersSound) (inactive : ¬ s.IsActive k)
    (ready : s.out.todo = []) : (s.closeEmitter k).EmittersSound := by
  rw [closeEmitter]
  split
  · exact h
  · case h_2 e found =>
    refine ⟨fun conversation j active => ?_, fun j e' known => ?_, h.refers, fun j apart => ?_,
      by simp [ready]⟩
    · have other : j ≠ k := fun same => inactive ⟨conversation, same ▸ active⟩
      exact (h.active conversation j active).of_eq (by simp [Function.update_of_ne other]) rfl rfl
    · by_cases here : j = k
      · exact here ▸ h.known k e found
      · exact h.known j e' (by simpa [Function.update_of_ne here] using known)
    · exact h.apart j (apart.of_eq rfl rfl rfl)

theorem closeEmitter_active : (s.closeEmitter k).active = s.active := by
  rw [closeEmitter]
  split <;> rfl

theorem closeEmitter_recoveryChains : (s.closeEmitter k).recoveryChains = s.recoveryChains := by
  rw [closeEmitter]
  split <;> rfl

theorem closeEmitter_closers : (s.closeEmitter k).closers = s.closers := by
  rw [closeEmitter]
  split <;> rfl

/-- A recovery goes on with an emitter that it has. -/
theorem EmittersSound.setRecovery (h : s.EmittersSound) (conversation : Conversation)
    {stage : RecoveryStage} (named : ∀ k, stage.emitter? = some k → s.Apart k) :
    (s.setRecovery conversation stage).EmittersSound := by
  refine h.transfer rfl rfl (fun _ => rfl) (fun _ => rfl) (fun _ _ => id) h.refers
    (fun j apart => .inl ?_) h.todo
  cases apart with
  | flush mem => exact .flush mem
  | closer mem => exact .closer mem
  | await mem => exact .await mem
  | @recovery other r mem here =>
      by_cases same : other = conversation
      · subst same
        simp only [Supervisor.setRecovery, Function.update_self] at mem
        cases chain : s.recoveryChains other with
        | nil => simp [chain] at mem
        | cons first rest =>
            rw [chain] at mem
            rcases List.mem_cons.mp mem with rfl | old
            · exact named j here
            · exact .recovery (chain ▸ List.mem_cons_of_mem first old) here
      · simp only [Supervisor.setRecovery, Function.update_of_ne same] at mem
        exact .recovery mem here

/-- A recovery that ends closes its emitter. -/
theorem EmittersSound.endRecovery (h : s.EmittersSound) (conversation : Conversation)
    (apart : s.Apart k) (ready : s.out.todo = []) :
    (s.endRecovery conversation k).EmittersSound := by
  have closed := h.close (h.apart k apart).2 ready
  refine closed.transfer rfl rfl (fun _ => rfl) (fun _ => rfl) (fun _ _ => id) closed.refers
    (fun j apart => .inl ?_) closed.todo
  cases apart with
  | flush mem => exact .flush mem
  | closer mem => exact .closer mem
  | await mem => exact .await mem
  | @recovery other r mem here =>
      have old : r ∈ s.recoveryChains other := by
        by_cases same : other = conversation
        · subst same
          simp only [Supervisor.endRecovery, Function.update_self] at mem
          exact List.mem_of_mem_tail mem
        · simpa only [Supervisor.endRecovery, Function.update_of_ne same] using mem
      rw [← @closeEmitter_recoveryChains s k] at old
      exact .recovery old here

/-- The end of a redelivery: the correlation is not active any more when its
emitter is closed. -/
theorem EmittersSound.endRedelivery (h : s.EmittersSound) (i : ℕ) (c : InboundCall) (k : ℕ)
    (ready : s.out.todo = []) : (s.endRedelivery i c k).EmittersSound := by
  have inactive : ({ s with active := s.withoutActive k } : Supervisor).EmittersSound := by
    refine h.transfer rfl rfl (fun _ => rfl) (fun _ => rfl)
      (fun conversation j found => active_of_withoutActive (k := k) found)
      (fun j refers => h.refers j ?_) (fun j apart => .inl (apart.of_eq rfl rfl rfl)) h.todo
    rcases refers with ⟨conversation, found⟩ | rest
    · exact .inl ⟨conversation, active_of_withoutActive (k := k) found⟩
    · exact .inr rest
  have same : ({ s with active := s.withoutActive k } : Supervisor).closeEmitter k =
      { s.closeEmitter k with active := s.withoutActive k } := by
    rw [closeEmitter, closeEmitter]
    dsimp only
    split <;> rfl
  simp only [Supervisor.endRedelivery, resolve]
  split
  · have closed := inactive.close
      (fun active => active.elim fun conversation found => h.not_withoutActive conversation found)
      ready
    rw [same] at closed
    exact EmittersSound.aside (t := Supervisor.finish _ i c _) closed (aside_finish (.resolved _))
  · exact h.aside (aside_finish (.resolved _))

theorem EmittersSound.awaitRedelivery (h : s.EmittersSound) {how : Redelivery} {who : Waiting}
    (mem : .await who k how ∈ s.agenda) (ready : s.out.todo = []) :
    (s.awaitRedelivery k how who).EmittersSound := by
  cases who with
  | call i =>
      rw [Supervisor.awaitRedelivery]
      split
      · exact h
      · split
        · refine h.aside (aside_setCall fun j named => ?_)
          obtain rfl := Option.some.inj named
          exact .inr (.inr ⟨_, _, mem⟩)
        · exact h.aside (aside_finish (.rejected .redelivery))
  | recovery conversation =>
      have apart : s.Apart k := .await mem
      rw [Supervisor.awaitRedelivery]
      split
      · exact h.setRecovery conversation fun j named => Option.some.inj named ▸ apart
      · exact h.endRecovery conversation apart ready

/-- The first task is taken from the agenda before it is performed. -/
theorem awaitRedelivery_withAgenda (rest : List Remainder) (how : Redelivery) (who : Waiting) :
    ({ s with agenda := rest } : Supervisor).awaitRedelivery k how who =
      { s.awaitRedelivery k how who with agenda := rest } := by
  have awaited : ({ s with agenda := rest } : Supervisor).awaited k how = s.awaited k how := by
    cases how <;> rfl
  cases who with
  | call i =>
      simp only [Supervisor.awaitRedelivery, awaited]
      split
      · rfl
      · split <;> rfl
  | recovery conversation =>
      simp only [Supervisor.awaitRedelivery, awaited]
      split
      · rfl
      · simp only [Supervisor.endRecovery, closeEmitter]
        split <;> rfl

theorem EmittersSound.perform (h : s.EmittersSound) {x : Remainder} {rest : List Remainder}
    (agenda : s.agenda = x :: rest) (ready : s.out.todo = []) :
    (({ s with agenda := rest } : Supervisor).perform x).EmittersSound := by
  have sub {y : Remainder} (mem : y ∈ rest) : y ∈ s.agenda := agenda ▸ List.mem_cons_of_mem x mem
  cases x with
  | flush k =>
      refine h.transfer rfl rfl (fun _ => rfl) (fun _ => rfl) (fun _ _ => id)
        (fun j refers => h.refers j ?_) (fun j apart => .inl ?_) h.todo
      · rcases refers with active | call | ⟨who, how, mem⟩
        · exact .inl active
        · exact .inr (.inl call)
        · exact .inr (.inr ⟨who, how, sub mem⟩)
      · cases apart with
        | flush mem => exact .flush (sub mem)
        | closer mem =>
            rcases List.mem_append.mp mem with old | new
            · exact .closer old
            · obtain ⟨rfl, -⟩ := Prod.mk.inj (List.mem_singleton.mp new)
              exact .flush (agenda ▸ List.mem_cons_self)
        | recovery mem named => exact .recovery mem named
        | await mem => exact .await (sub mem)
  | await who k how =>
      have awaits := h.awaitRedelivery (agenda ▸ List.mem_cons_self) ready
      have same := @awaitRedelivery_agenda s k how who
      rw [Supervisor.perform, awaitRedelivery_withAgenda]
      refine awaits.transfer rfl rfl (fun _ => rfl) (fun _ => rfl) (fun _ _ => id)
        (fun j refers => awaits.refers j ?_) (fun j apart => .inl ?_) awaits.todo
      · rcases refers with active | call | ⟨who, how, mem⟩
        · exact .inl active
        · exact .inr (.inl call)
        · exact .inr (.inr ⟨who, how, same ▸ sub mem⟩)
      · cases apart with
        | flush mem => exact .flush (same ▸ sub mem)
        | closer mem => exact .closer mem
        | recovery mem named => exact .recovery mem named
        | await mem => exact .await (same ▸ sub mem)

/-- A recovery begins with an emitter of its own. -/
theorem EmittersSound.beginRecovery (h : s.EmittersSound) (conversation : Conversation)
    (r : Recovery) : (s.beginRecovery o conversation r).EmittersSound := by
  have made := @EmittersSound.create o s h conversation.adapterId conversation.conversationKey
    r.correlationId
  have lt : s.out.nextEmitter < s.out.nextEmitter + 1 := Nat.lt_succ_self _
  have inactive : ¬ s.IsActive s.out.nextEmitter := fun active => lt_irrefl _ (h.lt_of_active active)
  simp only [Supervisor.beginRecovery]
  split
  · exact made.redeliver (.recovery conversation) _ lt fun _ _ => inactive
  · split
    · exact made
    · case h_2 e found =>
      have resumes : ∀ out : Outbound, (out.resumePending s.out.nextEmitter e).emitterOf = out.emitterOf ∧
          (out.resumePending s.out.nextEmitter e).nextEmitter = out.nextEmitter ∧
          (out.resumePending s.out.nextEmitter e).todo = out.todo := by
        intro out
        rw [Outbound.resumePending]
        split <;> simp
      obtain ⟨emitterOf, nextEmitter, todo⟩ := resumes (s.out.create o.emitter conversation.adapterId
        conversation.conversationKey r.correlationId)
      refine made.transfer emitterOf nextEmitter (fun _ => rfl) (fun _ => rfl) (fun _ _ => id)
        (fun j refers => ?_) (fun j apart => ?_) (fun op mem => made.todo op ?_)
      · rcases refers with active | call | ⟨who, how, mem⟩
        · exact made.refers j (.inl active)
        · exact made.refers j (.inr (.inl call))
        · rcases List.mem_append.mp mem with old | new
          · exact made.refers j (.inr (.inr ⟨who, how, old⟩))
          · rw [List.mem_singleton, Remainder.await.injEq] at new
            exact new.2.1 ▸ lt
      · cases apart with
        | flush mem => exact .inl (.flush (by simpa using mem))
        | closer mem => exact .inl (.closer mem)
        | recovery mem named => exact .inl (.recovery mem named)
        | await mem =>
            rcases List.mem_append.mp mem with old | new
            · exact .inl (.await old)
            · rw [List.mem_singleton, Remainder.await.injEq] at new
              obtain ⟨-, rfl, -⟩ := new
              exact .inr ⟨lt, inactive⟩
      · rw [← todo]
        exact mem

/-! ### The machine -/

/-- The first recovery of a conversation names the emitter that it has. -/
theorem EmittersSound.resumeRecovery (h : s.EmittersSound) {conversation : Conversation}
    (ready : s.out.todo = []) (taken : s.resumeRecovery conversation = some t) :
    t.EmittersSound := by
  obtain ⟨r, first, taken⟩ := Option.bind_eq_some_iff.mp taken
  have mem : r ∈ s.recoveryChains conversation := List.mem_of_head? first
  split at taken
  · simp at taken
  · case h_2 k deliveries stage =>
    have apart : s.Apart k := .recovery mem (by rw [stage]; rfl)
    obtain ⟨fulfilled, -, rfl⟩ := Option.map_eq_some_iff.mp taken
    split_ifs
    · exact h.setRecovery conversation fun j named => Option.some.inj named ▸ apart
    · exact h.endRecovery conversation apart ready
  · case h_3 k delivery stage =>
    have apart : s.Apart k := .recovery mem (by rw [stage]; rfl)
    obtain ⟨fulfilled, -, rfl⟩ := Option.map_eq_some_iff.mp taken
    exact h.endRecovery conversation apart ready

/-- The emitters go on, and nothing else changes that concerns them. -/
theorem EmittersSound.keeps {out : Outbound} (h : s.EmittersSound) (keeps : s.out.Keeps out)
    (same : Aside { s with out } t) : t.EmittersSound := by
  have moved : ({ s with out } : Supervisor).EmittersSound := by
    refine h.transfer keeps.emitterOf keeps.nextEmitter (fun _ => rfl) (fun _ => rfl)
      (fun _ _ => id) h.refers (fun j apart => .inl (apart.of_eq rfl rfl rfl)) fun op mem => ?_
    rcases keeps.todo op mem with ⟨old, mem, here⟩ | opened
    · exact here ▸ h.todo old mem
    · exact opened
  exact moved.aside same

theorem EmittersSound.react (h : s.EmittersSound) (ready : s.out.todo = [])
    (reacts : Reacts o s t) : t.EmittersSound := by
  cases reacts with
  | piece piece => exact h.piece piece
  | recovers first =>
      refine h.transfer rfl rfl (fun _ => rfl) (fun _ => rfl) (fun _ _ => id) h.refers
        (fun j apart => .inl ?_) h.todo
      cases apart with
      | flush mem => exact .flush mem
      | closer mem => exact .closer mem
      | await mem => exact .await mem
      | recovery mem named =>
          simp only [recoverPending, List.mem_filterMap] at mem
          obtain ⟨e, -, made⟩ := mem
          split at made
          · simp only [recoveryOf] at made
            split at made
            · simp at made
            · obtain rfl := Option.some.inj made
              cases named
          · simp at made
  | begins conversation head => exact h.beginRecovery conversation _
  | resumes taken => exact h.resumeRecovery ready taken
  | redelivered known named => exact h.endRedelivery _ _ _ ready
  | delivers taken =>
      exact h.keeps (Outbound.keeps_deliver taken) ⟨rfl, rfl, rfl, rfl, rfl, rfl, rfl,
        fun _ _ _ => refers_of_call⟩
  | @closes k delivery mem =>
      have closed := h.close (h.apart k (.closer mem)).2 ready
      refine closed.transfer rfl rfl (fun _ => rfl) (fun _ => rfl) (fun _ _ => id) closed.refers
        (fun j apart => .inl ?_) closed.todo
      cases apart with
      | flush mem => exact .flush mem
      | closer mem => exact .closer (closeEmitter_closers (s := s) (k := k) ▸ List.mem_of_mem_erase mem)
      | await mem => exact .await mem
      | recovery mem named => exact .recovery mem named

theorem EmittersSound.step {a : Action} (h : s.EmittersSound) (taken : s.step o a = some t) :
    t.EmittersSound := by
  rcases step_cases taken with ⟨-, rfl⟩ | ⟨now, -, ran⟩ | ⟨x, rest, -, ready, agenda, rfl⟩ |
      ⟨ready, -, reacted⟩
  · refine ⟨by simp [crash], by simp [crash], fun k refers => ?_, fun k apart => ?_, by simp [crash]⟩
    · rcases refers with ⟨_, found⟩ | ⟨_, _, found, -⟩ | ⟨_, _, mem⟩
      · simp [crash] at found
      · simp [crash] at found
      · simp [crash] at mem
    · cases apart with
      | flush mem | closer mem | recovery mem | await mem => simp [crash] at mem
  · rw [runEmitter] at ran
    split at ran
    · simp at ran
    · obtain ⟨e, -, ran⟩ := Option.bind_eq_some_iff.mp ran
      obtain ⟨out, stepped, rfl⟩ := Option.map_eq_some_iff.mp ran
      exact h.keeps (Outbound.keeps_run stepped) ⟨rfl, rfl, rfl, rfl, rfl, rfl, rfl,
        fun _ _ _ => refers_of_call⟩
  · exact h.perform agenda ready
  · exact h.react ready (react_cases reacted)

/-- The emitter of an active correlation is open and addressed to its
conversation, and every emitter that has code to run is open. -/
def EmitsOpenly (s : Supervisor) : Prop :=
  (∀ conversation k, s.active conversation = some k → s.Answers conversation k) ∧
    ∀ op ∈ s.out.todo, s.out.IsOpen op.emitter

/-- In every run, whatever the pool, the children and the adapters do and
whenever the process dies: what a child of a conversation says is handed to
an open emitter that is addressed to that conversation, and what an emitter
has been handed is not dropped because the emitter has been closed. -/
theorem emitters_stay_open (o : SupervisorOptions) (as : List Action) :
    (machine o).Throughout EmitsOpenly initial as :=
  Transition.Machine.throughout_of_invariant emittersSound_initial
    (fun _ h => ⟨h.active, h.todo⟩) (fun _ _ _ h taken => h.step taken) as

end Supervisor

end OmpBundler.Core
