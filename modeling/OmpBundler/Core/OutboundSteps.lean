import Mathlib.Data.List.Nodup
import OmpBundler.Core.Outbound

/-!
What a step of the outbox machine can be.

Whatever the first delivery of a chain does, it does one of a few things
(`Drive`), and what the rest of the machine does is a list of cases
(`Step`). The invariants are proved by these cases, and none of them unfolds
the step function again.
-/

namespace OmpBundler.Core

open Library

namespace Outbox

/-! ### Reading through the updates -/

theorem mem_update {outbox : Outbox} {eventId : String} {f : OutboxRow → OutboxRow}
    {row : OutboxRow} :
    row ∈ outbox.update eventId f ↔
      (row ∈ outbox ∧ row.event.eventId ≠ eventId) ∨
        ∃ old ∈ outbox, old.event.eventId = eventId ∧ row = f old := by
  rw [update, List.mem_map]
  constructor
  · rintro ⟨old, mem, rfl⟩
    by_cases same : old.event.eventId = eventId
    · rw [if_pos same]
      exact .inr ⟨old, mem, same, rfl⟩
    · rw [if_neg same]
      exact .inl ⟨mem, same⟩
  · rintro (⟨mem, other⟩ | ⟨old, mem, same, rfl⟩)
    · exact ⟨row, mem, if_neg other⟩
    · exact ⟨old, mem, if_pos same⟩

/-- Whose row it is and what it holds, the immutable part of the outbox. -/
def keys (outbox : Outbox) : List (String × OutboundEvent) :=
  outbox.map fun row => (row.adapterId, row.event)

theorem mem_keys {outbox : Outbox} {key : String × OutboundEvent} :
    key ∈ outbox.keys ↔ ∃ row ∈ outbox, row.adapterId = key.1 ∧ row.event = key.2 := by
  simp only [keys, List.mem_map, Prod.ext_iff]

theorem keys_update (outbox : Outbox) (eventId : String) {f : OutboxRow → OutboxRow}
    (adapterId : ∀ row, (f row).adapterId = row.adapterId)
    (event : ∀ row, (f row).event = row.event) :
    (outbox.update eventId f).keys = outbox.keys := by
  rw [keys, update, List.map_map]
  refine List.map_congr_left fun row _ => ?_
  by_cases same : row.event.eventId = eventId <;> simp [same, adapterId, event]

@[simp]
theorem keys_markDelivered (outbox : Outbox) (eventId : String) (n : ℕ) :
    (outbox.markDelivered eventId n).keys = outbox.keys :=
  keys_update _ _ (fun _ => rfl) fun _ => rfl

@[simp]
theorem keys_recordAttempt (outbox : Outbox) (eventId : String) (n : ℕ) (error : String) :
    (outbox.recordAttempt eventId n error).keys = outbox.keys :=
  keys_update _ _ (fun _ => rfl) fun _ => rfl

@[simp]
theorem keys_markPermanentFailure (outbox : Outbox) (eventId error : String) :
    (outbox.markPermanentFailure eventId error).keys = outbox.keys :=
  keys_update _ _ (fun _ => rfl) fun _ => rfl

@[simp]
theorem keys_resetFailure (outbox : Outbox) (eventId : String) :
    (outbox.resetFailure eventId).keys = outbox.keys :=
  keys_update _ _ (fun row => by split <;> rfl) fun row => by split <;> rfl

theorem keys_append (outbox : Outbox) (adapterId : String) (event : OutboundEvent) :
    keys (outbox ++ [⟨adapterId, event, .pending, 0, none⟩]) =
      outbox.keys ++ [(adapterId, event)] := by
  simp [keys]

theorem row_eq_none {outbox : Outbox} {eventId : String} :
    outbox.row eventId = none ↔ ∀ row ∈ outbox, row.event.eventId ≠ eventId := by
  simp [row]

theorem mem_of_row {outbox : Outbox} {eventId : String} {row : OutboxRow}
    (found : outbox.row eventId = some row) : row ∈ outbox :=
  List.mem_of_find?_eq_some found

theorem row_eventId {outbox : Outbox} {eventId : String} {row : OutboxRow}
    (found : outbox.row eventId = some row) : row.event.eventId = eventId := by
  simpa using List.find?_some found

/-- The counter goes on above everything that is persisted. -/
theorem le_maxSequence {outbox : Outbox} {adapterId : String} {event : OutboundEvent}
    (mem : (adapterId, event) ∈ outbox.keys) :
    event.sequence ≤ outbox.maxSequence adapterId event.correlationId := by
  obtain ⟨row, present, rfl, rfl⟩ := mem_keys.mp mem
  rw [maxSequence]
  have bound (l : List ℕ) (n : ℕ) (mem : n ∈ l) : n ≤ l.foldr max 0 := by
    induction l with
    | nil => simp at mem
    | cons m rest ih =>
        rcases List.mem_cons.mp mem with rfl | later
        · exact le_max_left _ _
        · exact (ih later).trans (le_max_right _ _)
  refine bound _ _ (List.mem_map.mpr ⟨row, List.mem_filter.mpr ⟨present, ?_⟩, rfl⟩)
  simp [OutboxRow.isOf]

theorem mem_pendingRows {outbox : Outbox} {adapterId correlationId : String} {row : OutboxRow} :
    row ∈ outbox.pendingRows adapterId correlationId ↔
      row ∈ outbox ∧ row.isOf adapterId correlationId ∧ row.status = .pending := by
  simp [pendingRows]

end Outbox

/-- The event that a delivery carries. -/
def Payload.event? : Payload → Option OutboundEvent
  | .durable event _ | .bestEffort event => some event
  | .rejection => none

/-- The persisted event that a delivery carries. -/
def Payload.durable? : Payload → Option OutboundEvent
  | .durable event _ => some event
  | _ => none

/-- Code that hands out events. -/
def Op.isEmission : Op → Bool
  | .emit _ _ | .deliver _ _ | .insert _ _ | .confirm _ _ => true
  | _ => false

/-- The hooks of a delivery that has ended. -/
def Op.isEnd : Op → Bool
  | .delivered _ _ | .failed _ _ _ => true
  | _ => false

/-- What the log says about a delivery. -/
def Entry.isReport : Entry → Bool
  | .posted _ _ | .acked _ _ => true
  | _ => false

namespace Outbound

variable {o : EmitterOptions} {s t : Outbound} {k : ℕ} {e : OutboundEmitter}

/-! ### What the operations leave alone -/

@[simp]
theorem settle_outbox (b : Bool) : (s.settle k b).outbox = s.outbox := by
  unfold settle; split <;> rfl

@[simp]
theorem settle_emitterOf (b : Bool) : (s.settle k b).emitterOf = s.emitterOf := by
  unfold settle; split <;> rfl

@[simp]
theorem settle_todo (b : Bool) : (s.settle k b).todo = s.todo := by
  unfold settle; split <;> rfl

@[simp]
theorem settle_log (b : Bool) : (s.settle k b).log = s.log := by
  unfold settle; split <;> rfl

@[simp]
theorem settle_nextEmitter (b : Bool) : (s.settle k b).nextEmitter = s.nextEmitter := by
  unfold settle; split <;> rfl

@[simp]
theorem settle_nextEvent (b : Bool) : (s.settle k b).nextEvent = s.nextEvent := by
  unfold settle; split <;> rfl

theorem settle_deliveries (b : Bool) (j : ℕ) :
    ((s.settle k b).chainOf j).deliveries =
      if j = k then (s.chainOf k).deliveries.tail else (s.chainOf j).deliveries := by
  unfold settle
  split
  · case h_1 empty =>
      by_cases same : j = k
      · subst same
        simp [empty]
      · simp [same]
  · case h_2 head =>
      by_cases same : j = k
      · subst same
        simp [head]
      · simp [same]

theorem enqueueAll_eq (s : Outbound) (k : ℕ) (payloads : List Payload) :
    (s.enqueueAll k payloads).outbox = s.outbox ∧
      (s.enqueueAll k payloads).emitterOf = s.emitterOf ∧
      (s.enqueueAll k payloads).todo = s.todo ∧
      (s.enqueueAll k payloads).log = s.log ∧
      (s.enqueueAll k payloads).nextEmitter = s.nextEmitter ∧
      (s.enqueueAll k payloads).nextEvent = s.nextEvent := by
  induction payloads generalizing s with
  | nil => exact ⟨rfl, rfl, rfl, rfl, rfl, rfl⟩
  | cons payload rest ih => exact ih (s.enqueue k payload)

theorem enqueue_deliveries (s : Outbound) (k : ℕ) (payload : Payload) (j : ℕ) :
    ((s.enqueue k payload).chainOf j).deliveries =
      if j = k then (s.chainOf k).deliveries ++ [⟨s.nextDelivery, payload⟩]
      else (s.chainOf j).deliveries := by
  by_cases same : j = k
  · subst same
    simp
  · simp [same]

@[simp]
theorem redrive_outbox (rows : List OutboxRow) : (s.redrive k rows).outbox = s.outbox :=
  (enqueueAll_eq s k _).1

@[simp]
theorem redrive_emitterOf (rows : List OutboxRow) :
    (s.redrive k rows).emitterOf = s.emitterOf :=
  (enqueueAll_eq s k _).2.1

@[simp]
theorem redrive_todo (rows : List OutboxRow) : (s.redrive k rows).todo = s.todo :=
  (enqueueAll_eq s k _).2.2.1

@[simp]
theorem redrive_log (rows : List OutboxRow) : (s.redrive k rows).log = s.log :=
  (enqueueAll_eq s k _).2.2.2.1

@[simp]
theorem redrive_nextEmitter (rows : List OutboxRow) :
    (s.redrive k rows).nextEmitter = s.nextEmitter :=
  (enqueueAll_eq s k _).2.2.2.2.1

@[simp]
theorem redrive_nextEvent (rows : List OutboxRow) :
    (s.redrive k rows).nextEvent = s.nextEvent :=
  (enqueueAll_eq s k _).2.2.2.2.2

/-! ### The payloads of a chain -/

/-- What the chain of an emitter is to do, in order. -/
def payloads (s : Outbound) (k : ℕ) : List Payload := (s.chainOf k).deliveries.map (·.payload)

theorem payloads_settle (b : Bool) (j : ℕ) :
    (s.settle k b).payloads j = if j = k then (s.payloads k).tail else s.payloads j := by
  simp only [payloads, settle_deliveries]
  split <;> simp

theorem payloads_setChain (chain : DeliveryChain)
    (same : chain.deliveries = (s.chainOf k).deliveries) (j : ℕ) :
    (s.setChain k chain).payloads j = s.payloads j := by
  by_cases here : j = k
  · subst here
    simp [payloads, same]
  · simp [payloads, here]

theorem payloads_enqueue (payload : Payload) (j : ℕ) :
    (s.enqueue k payload).payloads j =
      if j = k then s.payloads k ++ [payload] else s.payloads j := by
  simp only [payloads, enqueue_deliveries]
  split <;> simp

theorem payloads_enqueueAll (s : Outbound) (k : ℕ) (more : List Payload) (j : ℕ) :
    (s.enqueueAll k more).payloads j =
      if j = k then s.payloads k ++ more else s.payloads j := by
  induction more generalizing s with
  | nil =>
      show s.payloads j = _
      by_cases same : j = k <;> simp [same]
  | cons payload rest ih =>
      show ((s.enqueue k payload).enqueueAll k rest).payloads j = _
      rw [ih, payloads_enqueue, payloads_enqueue, if_pos rfl]
      by_cases same : j = k <;> simp [same]

theorem payloads_redrive (rows : List OutboxRow) (j : ℕ) :
    (s.redrive k rows).payloads j =
      if j = k then s.payloads k ++ rows.map fun row => .durable row.event row.attempts
      else s.payloads j := by
  rw [redrive, payloads_setChain, payloads_enqueueAll]
  rfl

theorem payloads_post (e : OutboundEmitter) (event : OutboundEvent) (callbackUrl : String)
    (attempt j : ℕ) : (s.post k e event callbackUrl attempt).payloads j = s.payloads j := by
  show (s.setChain k _).payloads j = _
  rw [payloads_setChain]
  rfl

theorem payloads_retry (event : OutboundEvent) (j : ℕ) :
    (s.retry k event).payloads j =
      if j = k then s.payloads k ++ [.durable event 0] else s.payloads j := by
  rw [retry, payloads_setChain, payloads_enqueue]
  · rfl
  · rfl

/-! ### The first delivery of a chain -/

/-- What the first delivery `d` of the chain of `k` may do next. -/
inductive Drive (s : Outbound) (k : ℕ) (e : OutboundEmitter) (d : Delivery) : Outbound → Prop
  /-- It is over, and its row, if there is one, is left as it was: the
  database is closed. -/
  | settled (fulfilled : Bool) (closed : d.payload.durable? = none ∨ e.closed = true) :
      Drive s k e d (s.settle k fulfilled)
  | posted {event : OutboundEvent} (carried : d.payload.event? = some event)
      (callbackUrl : String) (attempt : ℕ) :
      Drive s k e d (s.post k e event callbackUrl attempt)
  | sleeping {event : OutboundEvent} (carried : d.payload.durable? = some event)
      (callbackUrl : String) (attempt : ℕ) :
      Drive s k e d (s.setChain k { s.chainOf k with stage := .sleeping callbackUrl attempt })
  | failed {event : OutboundEvent} (carried : d.payload.durable? = some event)
      (opened : e.closed = false) (error : String) :
      Drive s k e d ((s.write (s.outbox.markPermanentFailure event.eventId error)).setTodo
        (s.todo ++ [.failed k event error]))
  | acked {event : OutboundEvent} (carried : d.payload.durable? = some event)
      (opened : e.closed = false) (attempts : ℕ) :
      Drive s k e d (((s.write (s.outbox.markDelivered event.eventId attempts)).note
        (.acked e.adapterId event)).setTodo (s.todo ++ [.delivered k event]))

theorem Drive.fail {d : Delivery} {event : OutboundEvent}
    (carried : d.payload.durable? = some event) (error : String) :
    Drive s k e d (s.fail k e event error) := by
  rw [Outbound.fail]
  split
  · case isTrue closed => exact .settled false (.inr closed)
  · case isFalse opened => exact .failed carried (by simpa using opened) error

theorem Payload.event?_of_durable? {payload : Payload} {event : OutboundEvent}
    (carried : payload.durable? = some event) : payload.event? = some event := by
  cases payload <;> simp_all [Payload.durable?, Payload.event?]

theorem Drive.attempt {d : Delivery} {event : OutboundEvent}
    (carried : d.payload.durable? = some event) (callbackUrl : String) (n : ℕ)
    (lastError : String) : Drive s k e d (s.attempt o k e event callbackUrl n lastError) := by
  rw [Outbound.attempt]
  split
  · split
    · exact .sleeping carried callbackUrl n
    · exact .posted (Payload.event?_of_durable? carried) callbackUrl n
  · exact .fail carried lastError

theorem Drive.begin (o : EmitterOptions) (s : Outbound) (k : ℕ) (e : OutboundEmitter)
    (d : Delivery) : Drive s k e d (s.begin o k e d.payload) := by
  obtain ⟨id, payload⟩ := d
  cases payload with
  | rejection => exact .settled false (.inl rfl)
  | bestEffort event =>
      simp only [Outbound.begin]
      split
      · exact .settled true (.inl rfl)
      · exact .posted rfl _ 0
  | durable event attempts =>
      simp only [Outbound.begin]
      split
      · exact .fail rfl _
      · exact .attempt rfl _ attempts ""

/-- The answer is recorded first unless it ends the delivery. -/
theorem Drive.answer (o : EmitterOptions) (s : Outbound) (k : ℕ) (e : OutboundEmitter)
    (d : Delivery) (callbackUrl : String) (n : ℕ) (response : Response)
    (called : d.payload ≠ .rejection) :
    Drive s k e d (s.answer o k e callbackUrl n response d.payload) ∨
      ∃ eventId attempts error,
        Drive (s.write (s.outbox.recordAttempt eventId attempts error)) k e d
          (s.answer o k e callbackUrl n response d.payload) := by
  obtain ⟨id, payload⟩ := d
  cases payload with
  | rejection => exact absurd rfl called
  | bestEffort event => exact .inl (.settled true (.inl rfl))
  | durable event attempts =>
      simp only [Outbound.answer]
      split
      · case isTrue closed => exact .inl (.settled false (.inr closed))
      · case isFalse opened =>
          have opened : e.closed = false := by simpa using opened
          split
          · exact .inl (.acked rfl opened (n + 1))
          · exact .inr ⟨_, _, _, .attempt rfl callbackUrl (n + 1) _⟩

/-- Nothing is generated and nothing comes out. -/
structure Quiet (s t : Outbound) : Prop where
  emitterOf : t.emitterOf = s.emitterOf
  nextEmitter : t.nextEmitter = s.nextEmitter
  nextEvent : t.nextEvent = s.nextEvent
  keys : t.outbox.keys = s.outbox.keys
  payloads : ∀ j, (t.payloads j).Sublist (s.payloads j)
  todo : ∃ ends, t.todo = s.todo ++ ends ∧ ∀ op ∈ ends, op.isEnd
  log : ∃ reports, t.log = s.log ++ reports ∧ ∀ entry ∈ reports, entry.isReport

theorem quiet_settle (s : Outbound) (k : ℕ) (b : Bool) : Quiet s (s.settle k b) where
  emitterOf := by simp
  nextEmitter := by simp
  nextEvent := by simp
  keys := by simp
  payloads j := by
    rw [payloads_settle]
    split
    · case isTrue same =>
        subst same
        exact List.tail_sublist _
    · exact List.Sublist.refl _
  todo := ⟨[], by simp⟩
  log := ⟨[], by simp⟩

theorem Drive.quiet {d : Delivery} (driven : Drive s k e d t) : Quiet s t := by
  cases driven with
  | settled b closed => exact quiet_settle s k b
  | @posted event carried callbackUrl attempt =>
      refine ⟨rfl, rfl, rfl, rfl, fun j => ?_, ⟨[], by simp [post]⟩,
        ⟨[.posted e.adapterId event], rfl, by simp [Entry.isReport]⟩⟩
      rw [payloads_post]
  | sleeping carried callbackUrl attempt =>
      refine ⟨rfl, rfl, rfl, rfl, fun j => ?_, ⟨[], by simp⟩, ⟨[], by simp⟩⟩
      rw [payloads_setChain]
      rfl
  | @failed event carried opened error =>
      exact ⟨rfl, rfl, rfl, by simp, fun j => List.Sublist.refl _,
        ⟨[.failed k event error], rfl, by simp [Op.isEnd]⟩, ⟨[], by simp⟩⟩
  | @acked event carried opened attempts =>
      exact ⟨rfl, rfl, rfl, by simp, fun j => List.Sublist.refl _,
        ⟨[.delivered k event], rfl, by simp [Op.isEnd]⟩,
        ⟨[.acked e.adapterId event], rfl, by simp [Entry.isReport]⟩⟩

theorem quiet_record (s : Outbound) (eventId : String) (attempts : ℕ) (error : String) :
    Quiet s (s.write (s.outbox.recordAttempt eventId attempts error)) :=
  ⟨rfl, rfl, rfl, by simp, fun _ => List.Sublist.refl _, ⟨[], by simp⟩, ⟨[], by simp⟩⟩

theorem Quiet.trans {u : Outbound} (first : Quiet s t) (second : Quiet t u) : Quiet s u where
  emitterOf := second.emitterOf.trans first.emitterOf
  nextEmitter := second.nextEmitter.trans first.nextEmitter
  nextEvent := second.nextEvent.trans first.nextEvent
  keys := second.keys.trans first.keys
  payloads j := (second.payloads j).trans (first.payloads j)
  todo := by
    obtain ⟨ends, todo, all⟩ := first.todo
    obtain ⟨ends', todo', all'⟩ := second.todo
    refine ⟨ends ++ ends', by rw [todo', todo, List.append_assoc], fun op mem => ?_⟩
    exact (List.mem_append.mp mem).elim (all op) (all' op)
  log := by
    obtain ⟨reports, log, all⟩ := first.log
    obtain ⟨reports', log', all'⟩ := second.log
    refine ⟨reports ++ reports', by rw [log', log, List.append_assoc], fun entry mem => ?_⟩
    exact (List.mem_append.mp mem).elim (all entry) (all' entry)

/-- The delivery goes on or is over, whatever the delivered hook says. -/
theorem quiet_afterDelivered (event : OutboundEvent) (hook : Except String Unit) :
    Quiet s (s.afterDelivered o k e event hook) := by
  cases hook with
  | ok u => exact quiet_settle s k true
  | error message =>
      simp only [afterDelivered]
      split
      · case h_1 callbackUrl attempt stage =>
          exact (quiet_record s event.eventId (attempt + 1) message).trans
            (Drive.attempt (d := ⟨0, .durable event 0⟩) rfl callbackUrl (attempt + 1)
              message).quiet
      · exact ⟨rfl, rfl, rfl, rfl, fun _ => List.Sublist.refl _, ⟨[], by simp⟩, ⟨[], by simp⟩⟩

/-! ### The steps -/

/-- The steps of the machine. -/
inductive Step (o : EmitterOptions) (s : Outbound) : Action → Outbound → Prop
  | nothing (a : Action) : Step o s a s
  | create (ready : s.todo = []) (adapterId conversationKey correlationId : String) :
      Step o s (.create adapterId conversationKey correlationId)
        (s.create o adapterId conversationKey correlationId)
  | call {k : ℕ} {e : OutboundEmitter} (ready : s.todo = []) (found : s.emitterOf k = some e)
      (now : ℤ) (m : OutboundEmitter.Call) :
      Step o s (.call k now m) (s.call o k e now m)
  /-- The pending rows of a correlation are read and enqueued. -/
  | redrive {k : ℕ} {e : OutboundEmitter} {a : Action} (ready : s.todo = [])
      (found : s.emitterOf k = some e) (idle : (s.chainOf k).resuming = none)
      (asked : a = .resumePending k ∨
        ∃ event row, a = .redeliverDurable k event ∧ s.rowOf e event.eventId = some row ∧
          row.status = .pending) :
      Step o s a (s.redrive k (s.outbox.pendingRows e.adapterId e.correlationId))
  | prepareRetry {k : ℕ} {e : OutboundEmitter} {row : OutboxRow} (a : Action)
      (ready : s.todo = []) (found : s.emitterOf k = some e) (mem : row ∈ s.outbox)
      (own : row.isOf e.adapterId e.correlationId = true) (failure : row.status = .permanentFailure) :
      Step o s a (s.setTodo [.prepareRetry k row.event])
  | deliver {k : ℕ} {e : OutboundEmitter} {event : OutboundEvent} (ready : s.todo = [])
      (found : s.emitterOf k = some e) (saved : s.isSaved e event = true) :
      Step o s (.redeliverDurable k event) (s.setTodo [.deliver k event])
  | confirm {k : ℕ} {e : OutboundEmitter} {event : OutboundEvent} (ready : s.todo = [])
      (found : s.emitterOf k = some e) :
      Step o s (.redeliverDurable k event) (s.setTodo [.confirm k event])
  | close {k : ℕ} {e : OutboundEmitter} (ready : s.todo = []) (found : s.emitterOf k = some e) :
      Step o s (.close k) (s.setEmitter k { e with closed := true })
  | drive {k : ℕ} {e : OutboundEmitter} {d : Delivery} {rest : List Delivery} {t : Outbound}
      (a : Action) (ready : s.todo = []) (found : s.emitterOf k = some e)
      (head : (s.chainOf k).deliveries = d :: rest) (driven : Drive s k e d t) : Step o s a t
  /-- The same after the failure of the last attempt has been recorded. -/
  | recorded {k : ℕ} {e : OutboundEmitter} {d : Delivery} {rest : List Delivery} {t : Outbound}
      (a : Action) (ready : s.todo = []) (found : s.emitterOf k = some e)
      (head : (s.chainOf k).deliveries = d :: rest) (eventId : String) (attempts : ℕ)
      (error : String)
      (driven : Drive (s.write (s.outbox.recordAttempt eventId attempts error)) k e d t) :
      Step o s a t
  | run {op : Op} {rest : List Op} {e : OutboundEmitter} (todo : s.todo = op :: rest)
      (found : s.emitterOf op.emitter = some e) (hook : Except String Unit) :
      Step o s (.run hook) ((s.setTodo rest).runOp o e hook op)
  | crash : Step o s .crash s.crash

theorem Step.ofResumePending {a : Action} (ready : s.todo = []) (found : s.emitterOf k = some e)
    (asked : a = .resumePending k ∨
      ∃ event row, a = .redeliverDurable k event ∧ s.rowOf e event.eventId = some row ∧
        row.status = .pending) :
    Step o s a (s.resumePending k e) := by
  rw [Outbound.resumePending]
  split
  · exact .nothing a
  · case isFalse idle =>
      simp only [Bool.or_eq_true, not_or, Bool.not_eq_true, Option.isSome_eq_false_iff,
        Option.isNone_iff_eq_none] at idle
      exact .redrive ready found idle.1 asked

theorem Step.ofRetryPermanentFailure (a : Action) (ready : s.todo = [])
    (found : s.emitterOf k = some e) (eventId : String) :
    Step o s a (s.retryPermanentFailure k e eventId) := by
  rw [Outbound.retryPermanentFailure]
  split
  · exact .nothing a
  · split
    · case h_1 row present =>
        split
        · case isTrue failure =>
            have own := List.find?_some present
            rw [Bool.and_eq_true] at own
            rw [ready]
            exact .prepareRetry a ready found (List.mem_of_find?_eq_some present) own.2 failure
        · exact .nothing a
    · exact .nothing a

theorem Step.ofRedeliverDurable {event : OutboundEvent} (ready : s.todo = [])
    (found : s.emitterOf k = some e) (saved : s.isSaved e event = true) :
    Step o s (.redeliverDurable k event) (s.redeliverDurable k e event) := by
  rw [Outbound.redeliverDurable]
  split
  · exact .nothing _
  · split
    · rw [ready]
      exact .deliver ready found saved
    · case h_2 row present =>
        split
        · exact .nothing _
        · split
          · case h_1 pending =>
              exact .ofResumePending ready found (.inr ⟨event, row, rfl, present, pending⟩)
          · exact .ofRetryPermanentFailure _ ready found event.eventId
          · rw [ready]
            exact .confirm ready found

theorem step_cases {a : Action} (taken : step o s a = some t) : Step o s a t := by
  cases a with
  | crash =>
      simp only [step, Option.some.injEq] at taken
      exact taken ▸ .crash
  | run hook =>
      simp only [step] at taken
      split at taken
      · simp at taken
      · case h_2 op rest todo =>
          obtain ⟨e, found, rfl⟩ := Option.map_eq_some_iff.mp taken
          exact .run todo found hook
  | create adapterId conversationKey correlationId =>
      simp only [step, react, Option.ite_none_right_eq_some, Option.some.injEq] at taken
      exact taken.2 ▸ .create taken.1 _ _ _
  | call k now m =>
      simp only [step, react, Option.ite_none_right_eq_some, Option.map_eq_some_iff] at taken
      obtain ⟨ready, e, found, rfl⟩ := taken
      exact .call ready found now m
  | resumePending k =>
      simp only [step, react, Option.ite_none_right_eq_some, Option.map_eq_some_iff] at taken
      obtain ⟨ready, e, found, rfl⟩ := taken
      exact .ofResumePending ready found (.inl rfl)
  | retryPermanentFailure k eventId =>
      simp only [step, react, Option.ite_none_right_eq_some, Option.map_eq_some_iff] at taken
      obtain ⟨ready, e, found, rfl⟩ := taken
      exact .ofRetryPermanentFailure _ ready found eventId
  | redeliverDurable k event =>
      simp only [step, react, Option.ite_none_right_eq_some, Option.bind_eq_some_iff,
        Option.some.injEq] at taken
      obtain ⟨ready, e, found, saved, rfl⟩ := taken
      exact .ofRedeliverDurable ready found saved
  | close k =>
      simp only [step, react, Option.ite_none_right_eq_some, Option.map_eq_some_iff] at taken
      obtain ⟨ready, e, found, rfl⟩ := taken
      exact .close ready found
  | begin k =>
      simp only [step, react, Option.ite_none_right_eq_some, Option.bind_eq_some_iff] at taken
      obtain ⟨ready, e, found, taken⟩ := taken
      split at taken
      · case h_1 d rest head stage =>
          obtain rfl := Option.some.inj taken
          exact .drive _ ready found head (.begin o s k e d)
      · simp at taken
  | wake k =>
      simp only [step, react, Option.ite_none_right_eq_some, Option.bind_eq_some_iff] at taken
      obtain ⟨ready, e, found, taken⟩ := taken
      split at taken
      · case h_1 head stage =>
          obtain rfl := Option.some.inj taken
          exact .drive _ ready found head (.posted rfl _ _)
      · simp at taken
  | answer k response =>
      simp only [step, react, Option.ite_none_right_eq_some, Option.bind_eq_some_iff] at taken
      obtain ⟨ready, e, found, taken⟩ := taken
      split at taken
      · case h_1 d rest callbackUrl attempt head stage =>
          obtain rfl := Option.some.inj taken
          by_cases called : d.payload = .rejection
          · rw [called]
            exact .nothing _
          · rcases Drive.answer o s k e d callbackUrl attempt response called with
              driven | ⟨eventId, attempts, error, driven⟩
            · exact .drive _ ready found head driven
            · exact .recorded _ ready found head eventId attempts error driven
      · simp at taken

/-! ### A configuration for concrete runs -/

/-- The identifiers are words of one letter. -/
def lettered : ℕ ↪ String where
  toFun n := String.ofList (List.replicate n 'e')
  inj' m n same := by
    have lengths := congrArg (fun word : String => word.toList.length) same
    simpa using lengths

/-- One adapter, and one retry after a second. -/
def retryOnce : EmitterOptions where
  progressThresholdMs := 15000
  retryDelaysMs := [1000]
  resolveAdapterTarget _ := some "http://adapter/events"
  uuid := lettered

end Outbound

end OmpBundler.Core
