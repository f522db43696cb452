import OmpBundler.Core.OutboundSteps

/-!
When an acknowledged event stays delivered.

The invariant is that a persisted event is in at most one chain, at most
once, and that it is pending as long as it is in a chain. The one exception
is the delivery that has just ended and whose hook is still to run. A pass
over the pending rows breaks it when one of them is in a chain already, and
so does a delivered hook that throws, since its delivery then goes on with
the schedule.
-/

namespace OmpBundler.Core

open Library

namespace Outbox

/-- A row holds the event and has the status. -/
def Marked (outbox : Outbox) (event : OutboundEvent) (status : OutboxStatus) : Prop :=
  ∃ row ∈ outbox, row.event = event ∧ row.status = status

/-- No two rows have the same event identifier. -/
def Distinct (outbox : Outbox) : Prop := (outbox.keys.map (·.2.eventId)).Nodup

variable {outbox : Outbox} {event other : OutboundEvent} {status : OutboxStatus}

theorem Marked.mem_keys (marked : outbox.Marked event status) :
    event ∈ outbox.keys.map Prod.snd := by
  obtain ⟨row, mem, rfl, -⟩ := marked
  exact List.mem_map.mpr ⟨_, List.mem_map.mpr ⟨row, mem, rfl⟩, rfl⟩

theorem Distinct.row_eq (distinct : outbox.Distinct) {row old : OutboxRow} (mem : row ∈ outbox)
    (mem' : old ∈ outbox) (same : row.event.eventId = old.event.eventId) : row = old := by
  rw [Distinct, keys, List.map_map] at distinct
  exact List.inj_on_of_nodup_map distinct mem mem' same

theorem Distinct.status_eq (distinct : outbox.Distinct) {status' : OutboxStatus}
    (marked : outbox.Marked event status) (marked' : outbox.Marked event status') :
    status = status' := by
  obtain ⟨row, mem, rfl, rfl⟩ := marked
  obtain ⟨row', mem', same, rfl⟩ := marked'
  rw [distinct.row_eq mem mem' (by rw [same])]

theorem Distinct.event_eq (distinct : outbox.Distinct) {status' : OutboxStatus}
    (marked : outbox.Marked event status) (marked' : outbox.Marked other status')
    (same : event.eventId = other.eventId) : event = other := by
  obtain ⟨row, mem, rfl, -⟩ := marked
  obtain ⟨row', mem', rfl, -⟩ := marked'
  rw [distinct.row_eq mem mem' same]

theorem Marked.update_other (marked : outbox.Marked event status) {eventId : String}
    (different : event.eventId ≠ eventId) (f : OutboxRow → OutboxRow) :
    (outbox.update eventId f).Marked event status := by
  obtain ⟨row, mem, rfl, rfl⟩ := marked
  exact ⟨row, mem_update.mpr (.inl ⟨mem, different⟩), rfl, rfl⟩

theorem Marked.update_here (marked : outbox.Marked event status) {f : OutboxRow → OutboxRow}
    {status' : OutboxStatus} (keeps : ∀ row, (f row).event = row.event)
    (changes : ∀ row, row.status = status → (f row).status = status') :
    (outbox.update event.eventId f).Marked event status' := by
  obtain ⟨row, mem, rfl, status⟩ := marked
  exact ⟨f row, mem_update.mpr (.inr ⟨row, mem, rfl, rfl⟩), keeps row, changes row status⟩

theorem Marked.update (marked : outbox.Marked event status) {eventId : String}
    {f : OutboxRow → OutboxRow} (keeps : ∀ row, (f row).event = row.event)
    (unchanged : ∀ row, (f row).status = row.status) :
    (outbox.update eventId f).Marked event status := by
  by_cases same : event.eventId = eventId
  · subst same
    exact marked.update_here keeps fun row status => by rw [unchanged, status]
  · exact marked.update_other same f

theorem Marked.append (marked : outbox.Marked event status) (more : Outbox) :
    Marked (outbox ++ more) event status := by
  obtain ⟨row, mem, facts⟩ := marked
  exact ⟨row, List.mem_append_left _ mem, facts⟩

theorem Distinct.of_keys {outbox' : Outbox} (distinct : outbox.Distinct)
    (same : outbox'.keys = outbox.keys) : outbox'.Distinct := by
  rw [Distinct, same]
  exact distinct

end Outbox

namespace Outbound

/-! ### Deliveries that are not over -/

/-- The persisted events that the chain of an emitter has yet to deliver. -/
def queued (s : Outbound) (k : ℕ) : List OutboundEvent :=
  (s.payloads k).filterMap Payload.durable?

/-- The first delivery of a chain carries this persisted event. -/
def Heads (s : Outbound) (k : ℕ) (event : OutboundEvent) : Prop :=
  ∃ payload rest, s.payloads k = payload :: rest ∧ payload.durable? = some event

/-- The delivery of the event has ended, and its hook is still to run. -/
def Finishing (s : Outbound) (k : ℕ) (event : OutboundEvent) : Prop :=
  s.todo = [.delivered k event] ∨ ∃ error, s.todo = [.failed k event error]

/-- What the outbox and the chains look like when this code is to run. -/
def Backed (s : Outbound) : Op → Prop
  | .delivered k event => s.Heads k event ∧ s.outbox.Marked event .delivered
  | .failed k event _ => s.Heads k event ∧ s.outbox.Marked event .permanentFailure
  | .prepareRetry _ event | .retry _ event => s.outbox.Marked event .permanentFailure
  | _ => True

/-- Code that hands out nothing runs alone. -/
def Underway (s : Outbound) : Prop :=
  (∀ op ∈ s.todo, op.isEmission) ∨ ∃ op, s.todo = [op] ∧ s.Backed op

/-- What is persisted is what the prepared hook may have seen. -/
structure Sorted (s : Outbound) : Prop where
  rows : ∀ key ∈ s.outbox.keys, key.2.body.isBestEffort = false
  todo : ∀ op ∈ s.todo, ∀ k event, op = .insert k event ∨ op = .deliver k event →
    event.body.isBestEffort = false
  chains : ∀ k event, .bestEffort event ∈ s.payloads k → event.body.isBestEffort = true

/-- No event is in the chains twice. -/
structure Apart (s : Outbound) : Prop where
  bounded : ∀ k, s.nextEmitter ≤ k → s.queued k = []
  alive : ∀ k e, s.emitterOf k = some e → k < s.nextEmitter
  nodup : ∀ k, (s.queued k).Nodup
  apart : ∀ j k event, event ∈ s.queued j → event ∈ s.queued k → j = k

/-- Each event is pending while it is delivered, and by one delivery only. -/
structure Single (s : Outbound) : Prop extends Apart s where
  distinct : s.outbox.Distinct
  pending : ∀ k event, event ∈ s.queued k → s.outbox.Marked event .pending ∨ s.Finishing k event
  underway : s.Underway
  acked : ∀ adapterId event, .acked adapterId event ∈ s.log → s.outbox.Marked event .delivered

/-- No POST of an event follows its acknowledgement. -/
def Silent (log : List Entry) : Prop :=
  log.Pairwise fun earlier later => ∀ adapterId other event,
    earlier = .acked adapterId event → later ≠ .posted other event

/-- An acknowledged event is delivered, and no POST of it follows. -/
structure Final (s : Outbound) : Prop where
  delivered : ∀ adapterId event, .acked adapterId event ∈ s.log → s.outbox.Marked event .delivered
  silent : Silent s.log

/-! ### The condition -/

/-- No pending row that a pass of `k` would read has a delivery already. -/
def Undelivered (s : Outbound) (k : ℕ) : Prop :=
  (s.chainOf k).resuming = none → ∀ e ∈ s.emitterOf k,
    ∀ row ∈ s.outbox.pendingRows e.adapterId e.correlationId,
      ∀ j < s.nextEmitter, row.event ∉ s.queued j

/-- The saved event is pending, so that its redelivery is such a pass. -/
def isPending (s : Outbound) (k : ℕ) (event : OutboundEvent) : Bool :=
  ((s.emitterOf k).bind fun e => s.rowOf e event.eventId).any (·.status = .pending)

/-- A delivered hook does not throw, and a pass over the pending rows finds
none of them in a chain. -/
def Undisturbed (s : Outbound) : Action → Prop
  | .run hook =>
      match s.todo with
      | .delivered _ _ :: _ => hook = .ok ()
      | _ => True
  | .resumePending k => s.Undelivered k
  | .redeliverDurable k event => s.isPending k event → s.Undelivered k
  | _ => True

instance (s : Outbound) (k : ℕ) : Decidable (s.Undelivered k) := by
  unfold Undelivered; infer_instance

instance (s : Outbound) (a : Action) : Decidable (s.Undisturbed a) := by
  unfold Undisturbed; split
  · split <;> infer_instance
  all_goals infer_instance

variable {o : EmitterOptions} {s t : Outbound} {k : ℕ} {e : OutboundEmitter}

/-! ### The queues through the operations -/

theorem queued_congr (same : t.payloads k = s.payloads k) : t.queued k = s.queued k := by
  rw [queued, queued, same]

theorem queued_enqueue (payload : Payload) (j : ℕ) :
    (s.enqueue k payload).queued j =
      if j = k then s.queued k ++ payload.durable?.toList else s.queued j := by
  rw [queued, payloads_enqueue]
  by_cases same : j = k
  · rw [if_pos same, if_pos same, List.filterMap_append]
    cases payload <;> rfl
  · rw [if_neg same, if_neg same]
    rfl

theorem queued_redrive (rows : List OutboxRow) (j : ℕ) :
    (s.redrive k rows).queued j =
      if j = k then s.queued k ++ rows.map (·.event) else s.queued j := by
  rw [queued, payloads_redrive]
  by_cases same : j = k
  · rw [if_pos same, if_pos same, List.filterMap_append, List.filterMap_map]
    congr 1
    rw [← List.filterMap_eq_map]
    rfl
  · rw [if_neg same, if_neg same]
    rfl

theorem queued_retry (event : OutboundEvent) (j : ℕ) :
    (s.retry k event).queued j =
      if j = k then s.queued k ++ [event] else s.queued j := by
  rw [queued, payloads_retry]
  by_cases same : j = k
  · rw [if_pos same, if_pos same, List.filterMap_append]
    rfl
  · rw [if_neg same, if_neg same]
    rfl

theorem Heads.queued {event : OutboundEvent} (heads : s.Heads k event) :
    ∃ rest, s.queued k = event :: rest ∧
      ∀ b j, (s.settle k b).queued j = if j = k then rest else s.queued j := by
  obtain ⟨payload, rest, head, carried⟩ := heads
  refine ⟨rest.filterMap Payload.durable?, ?_, fun b j => ?_⟩
  · rw [Outbound.queued, head, List.filterMap_cons_some carried]
  · rw [Outbound.queued, payloads_settle, head]
    by_cases same : j = k
    · rw [if_pos same, if_pos same]
      rfl
    · rw [if_neg same, if_neg same]
      rfl

/-! ### Chains that share no event -/

theorem Apart.sublist (h : Apart s) (shorter : ∀ j, (t.queued j).Sublist (s.queued j))
    (emitters : t.emitterOf = s.emitterOf)
    (next : t.nextEmitter = s.nextEmitter) : Apart t where
  bounded j beyond := by
    have none := shorter j
    rw [h.bounded j (next ▸ beyond)] at none
    exact List.sublist_nil.mp none
  alive j e found := by
    rw [next]
    exact h.alive j e (emitters ▸ found)
  nodup j := (h.nodup j).sublist (shorter j)
  apart i j event mem mem' := h.apart i j event ((shorter i).subset mem) ((shorter j).subset mem')

theorem Apart.same (h : Apart s) (same : ∀ j, t.queued j = s.queued j)
    (emitters : t.emitterOf = s.emitterOf)
    (next : t.nextEmitter = s.nextEmitter) : Apart t :=
  h.sublist (fun j => by rw [same]) emitters next

/-- Events that are in no chain are added to one. -/
theorem Apart.add (h : Apart s) (more : List OutboundEvent) (distinct : more.Nodup)
    (fresh : ∀ event ∈ more, ∀ j, event ∉ s.queued j) (found : s.emitterOf k = some e)
    (queued : ∀ j, t.queued j = if j = k then s.queued k ++ more else s.queued j)
    (emitters : t.emitterOf = s.emitterOf) (next : t.nextEmitter = s.nextEmitter) :
    Apart t where
  bounded j beyond := by
    rw [next] at beyond
    have other : j ≠ k := by
      rintro rfl
      exact absurd (h.alive j e found) (by omega)
    rw [queued, if_neg other, h.bounded j beyond]
  alive j e found := by
    rw [next]
    exact h.alive j e (emitters ▸ found)
  nodup j := by
    rw [queued]
    split
    · refine List.nodup_append.mpr ⟨h.nodup k, distinct, ?_⟩
      rintro event mem _ mem' rfl
      exact fresh event mem' k mem
    · exact h.nodup j
  apart := by
    intro i j event mem mem'
    rw [queued] at mem mem'
    split at mem <;> split at mem'
    · omega
    · case isTrue.isFalse here other =>
        rcases List.mem_append.mp mem with old | new
        · exact absurd (h.apart j k event mem' old) other
        · exact absurd mem' (fresh event new j)
    · case isFalse.isTrue other here =>
        rcases List.mem_append.mp mem' with old | new
        · exact absurd (h.apart i k event mem old) other
        · exact absurd mem (fresh event new i)
    · exact h.apart i j event mem mem'

/-! ### Code that is running -/

theorem Underway.emissions {op : Op} {rest : List Op} (h : s.Underway) (todo : s.todo = op :: rest) :
    ∀ op ∈ rest, op.isEmission := by
  rw [Underway, todo] at h
  rcases h with all | ⟨other, same, -⟩
  · exact fun op mem => all op (List.mem_cons_of_mem _ mem)
  · obtain ⟨-, rfl⟩ := List.cons.inj same
    simp

theorem Underway.backed {op : Op} {rest : List Op} (h : s.Underway) (todo : s.todo = op :: rest)
    (alone : op.isEmission = false) : rest = [] ∧ s.Backed op := by
  rw [Underway, todo] at h
  rcases h with all | ⟨other, same, backed⟩
  · simp [alone] at all
  · obtain ⟨rfl, rfl⟩ := List.cons.inj same
    exact ⟨rfl, backed⟩

/-! ### Each event has one delivery -/

theorem Single.marked (h : Single s) (ready : s.todo = []) (j : ℕ) (event : OutboundEvent)
    (mem : event ∈ s.queued j) : s.outbox.Marked event .pending := by
  rcases h.pending j event mem with pending | finishing
  · exact pending
  · simp [Finishing, ready] at finishing

/-- The same while code runs that is not the end of a delivery. -/
theorem Single.marked_of_run (h : Single s) {op : Op} {rest : List Op} (todo : s.todo = op :: rest)
    (delivered : ∀ k event, op ≠ .delivered k event)
    (failed : ∀ k event error, op ≠ .failed k event error) (j : ℕ) (event : OutboundEvent)
    (mem : event ∈ s.queued j) : s.outbox.Marked event .pending := by
  rcases h.pending j event mem with pending | same | ⟨error, same⟩
  · exact pending
  · rw [todo] at same
    exact absurd (List.cons.inj same).1 (delivered j event)
  · rw [todo] at same
    exact absurd (List.cons.inj same).1 (failed j event error)

/-- What does not touch the outbox. -/
theorem Single.frame (h : Single s) (apart : Apart t)
    (pending : ∀ j event, event ∈ t.queued j → s.outbox.Marked event .pending)
    (underway : t.Underway) (outbox : t.outbox = s.outbox)
    (log : ∀ adapterId event, .acked adapterId event ∈ t.log → .acked adapterId event ∈ s.log) :
    Single t where
  toApart := apart
  distinct := outbox ▸ h.distinct
  pending j event mem := .inl (outbox ▸ pending j event mem)
  underway := underway
  acked adapterId event mem := outbox ▸ h.acked adapterId event (log adapterId event mem)

theorem Single.record (h : Single s) (ready : s.todo = []) (eventId : String) (attempts : ℕ)
    (error : String) : Single (s.write (s.outbox.recordAttempt eventId attempts error)) where
  toApart := h.toApart.same (fun _ => rfl) rfl rfl
  distinct := h.distinct.of_keys (by simp)
  pending j event mem := .inl ((h.marked ready j event mem).update (fun _ => rfl) fun _ => rfl)
  underway := .inl (by simp [ready])
  acked adapterId event mem := (h.acked adapterId event mem).update (fun _ => rfl) fun _ => rfl

/-- The row of the event that heads a chain gets another status. -/
theorem Single.mark (h : Single s) (ready : s.todo = []) {event : OutboundEvent}
    (heads : s.Heads k event) {status : OutboxStatus} {f : OutboxRow → OutboxRow}
    (keeps : ∀ row, (f row).event = row.event) (changes : ∀ row, (f row).status = status)
    (owner : ∀ row, (f row).adapterId = row.adapterId) :
    let t := s.write (s.outbox.update event.eventId f)
    t.outbox.Distinct ∧ t.outbox.Marked event status ∧
      (∀ j other, other ∈ s.queued j → other = event ∧ j = k ∨ t.outbox.Marked other .pending) ∧
      ∀ adapterId other, .acked adapterId other ∈ s.log → t.outbox.Marked other .delivered := by
  obtain ⟨rest, queued, -⟩ := heads.queued
  have mem : event ∈ s.queued k := by simp [queued]
  have pending := h.marked ready k event mem
  refine ⟨h.distinct.of_keys (Outbox.keys_update _ _ owner keeps),
    pending.update_here keeps fun row _ => changes row, fun j other mem' => ?_,
    fun adapterId other acked => ?_⟩
  · have pending' := h.marked ready j other mem'
    by_cases same : other.eventId = event.eventId
    · obtain rfl := h.distinct.event_eq pending' pending same
      exact .inl ⟨rfl, h.apart j k other mem' mem⟩
    · exact .inr (pending'.update_other same f)
  · have delivered := h.acked adapterId other acked
    refine delivered.update_other (fun same => ?_) f
    obtain rfl := h.distinct.event_eq delivered pending same
    exact absurd (h.distinct.status_eq delivered pending) (by simp)

theorem heads_of_head {d : Delivery} {rest : List Delivery} {event : OutboundEvent}
    (head : (s.chainOf k).deliveries = d :: rest) (carried : d.payload.durable? = some event) :
    s.Heads k event :=
  ⟨d.payload, rest.map (·.payload), by rw [payloads, head]; rfl, carried⟩

theorem queued_settle_sublist (b : Bool) (j : ℕ) :
    ((s.settle k b).queued j).Sublist (s.queued j) := by
  rw [queued, payloads_settle]
  split
  · case isTrue same =>
      subst same
      exact (List.tail_sublist _).filterMap _
  · exact List.Sublist.refl _

theorem Single.drive (h : Single s) (ready : s.todo = []) {d : Delivery} {rest : List Delivery}
    (head : (s.chainOf k).deliveries = d :: rest) (driven : Drive s k e d t) : Single t := by
  cases driven with
  | settled b closed =>
      refine h.frame (h.toApart.sublist (queued_settle_sublist b) (by simp) (by simp)) ?_
        (.inl (by simp [ready])) (by simp) (by simp)
      exact fun j event mem => h.marked ready j event ((queued_settle_sublist b j).subset mem)
  | @posted event carried callbackUrl attempt =>
      have same (j : ℕ) : queued (s.post k e event callbackUrl attempt) j = s.queued j :=
        queued_congr (payloads_post e event callbackUrl attempt j)
      refine h.frame (h.toApart.same same rfl rfl) ?_ (.inl (by simp [ready, post]))
        rfl (by simp [post])
      exact fun j event mem => h.marked ready j event (same j ▸ mem)
  | sleeping carried callbackUrl attempt =>
      have same (j : ℕ) : queued (s.setChain k { s.chainOf k with
          stage := .sleeping callbackUrl attempt }) j = s.queued j := by
        rw [queued, payloads_setChain]
        · rfl
        · rfl
      refine h.frame (h.toApart.same same rfl rfl) ?_ (.inl (by simp [ready])) rfl
        fun _ _ mem => mem
      exact fun j event mem => h.marked ready j event (same j ▸ mem)
  | @failed event carried opened error =>
      have heads := heads_of_head head carried
      obtain ⟨distinct, marked, pending, acked⟩ :=
        h.mark ready heads (f := fun row => { row with
          status := .permanentFailure, lastError := some error })
          (fun _ => rfl) (fun _ => rfl) fun _ => rfl
      refine ⟨h.toApart.same (fun _ => rfl) rfl rfl, distinct, fun j other mem => ?_,
        .inr ⟨.failed k event error, by simp [ready], heads, marked⟩, acked⟩
      rcases pending j other mem with ⟨rfl, rfl⟩ | pending
      · exact .inr (.inr ⟨error, by simp [ready]⟩)
      · exact .inl pending
  | @acked event carried opened attempts =>
      have heads := heads_of_head head carried
      obtain ⟨distinct, marked, pending, acked⟩ :=
        h.mark ready heads (f := fun row => { row with
          status := .delivered, attempts := attempts, lastError := none })
          (fun _ => rfl) (fun _ => rfl) fun _ => rfl
      refine ⟨h.toApart.same (fun _ => rfl) rfl rfl, distinct, fun j other mem => ?_,
        .inr ⟨.delivered k event, by simp [ready], heads, marked⟩, fun adapterId other mem => ?_⟩
      · rcases pending j other mem with ⟨rfl, rfl⟩ | pending
        · exact .inr (.inl (by simp [ready]))
        · exact .inl pending
      · simp only [setTodo_log, note_log, write_log, List.mem_append, List.mem_singleton,
          Entry.acked.injEq] at mem
        rcases mem with old | ⟨-, rfl⟩
        · exact acked adapterId other old
        · exact marked

/-! ### What the code that runs does -/

/-- Every event in a chain is pending. -/
def Flowing (s : Outbound) : Prop :=
  ∀ j event, event ∈ s.queued j → s.outbox.Marked event .pending

/-- Only what is to be done changes. -/
theorem Single.still (h : Single s) (flowing : s.Flowing) {ops : List Op}
    (underway : (s.setTodo ops).Underway) : Single (s.setTodo ops) :=
  h.frame (h.toApart.same (fun _ => rfl) rfl rfl) flowing underway rfl fun _ _ mem => mem

/-- The next piece of code is taken, and it is not the end of a delivery. -/
theorem Single.take (h : Single s) {op : Op} {rest : List Op} (todo : s.todo = op :: rest)
    (delivered : ∀ k event, op ≠ .delivered k event)
    (failed : ∀ k event error, op ≠ .failed k event error) :
    Single (s.setTodo rest) ∧ Flowing (s.setTodo rest) := by
  have flowing := h.marked_of_run todo delivered failed
  exact ⟨h.frame (h.toApart.same (fun _ => rfl) rfl rfl) flowing (.inl (h.underway.emissions todo)) rfl
    fun _ _ mem => mem, flowing⟩

theorem Single.note (h : Single s) (entry : Entry) (flowing : s.Flowing)
    (emissions : ∀ op ∈ s.todo, op.isEmission)
    (other : ∀ adapterId event, entry ≠ .acked adapterId event) : Single (s.note entry) :=
  h.frame (h.toApart.same (fun _ => rfl) rfl rfl) flowing (.inl emissions) rfl
    fun adapterId event mem => by
      simpa [Ne.symm (other adapterId event)] using mem

/-- A delivery that carries no persisted event is appended. -/
theorem Single.enqueue (h : Single s) (flowing : s.Flowing)
    (emissions : ∀ op ∈ s.todo, op.isEmission) {payload : Payload}
    (transient : payload.durable? = none) : Single (s.enqueue k payload) := by
  have same (j : ℕ) : (s.enqueue k payload).queued j = s.queued j := by
    rw [queued_enqueue, transient]
    split
    · case isTrue here => simp [here]
    · rfl
  exact h.frame (h.toApart.same same rfl rfl) (fun j event mem => flowing j event (same j ▸ mem))
    (.inl emissions) rfl fun _ _ mem => mem

theorem Single.deliverDurable (h : Single s) (flowing : s.Flowing)
    (emissions : ∀ op ∈ s.todo, op.isEmission) (event : OutboundEvent)
    (hook : Except String Unit) : Single (s.deliverDurable k event hook) := by
  cases hook with
  | error message => exact h.enqueue flowing emissions rfl
  | ok u =>
      refine h.still flowing (.inl fun op mem => ?_)
      rcases List.mem_cons.mp mem with rfl | mem
      · rfl
      · exact emissions op mem

theorem Single.insert (h : Single s) (flowing : s.Flowing)
    (emissions : ∀ op ∈ s.todo, op.isEmission) (found : s.emitterOf k = some e)
    (event : OutboundEvent) : Single (s.insert k e event) := by
  have dropped : Single (s.setTodo []) :=
    h.still flowing (.inl (by simp))
  rw [Outbound.insert]
  split
  · exact dropped
  · split
    · split
      · exact h
      · exact dropped
    · case h_2 absent =>
        have absent := Outbox.row_eq_none.mp absent
        have new : Outbox.Marked (s.outbox ++ [⟨e.adapterId, event, .pending, 0, none⟩]) event
            .pending := ⟨_, List.mem_append_right _ (List.mem_singleton.mpr rfl), rfl, rfl⟩
        refine ⟨h.toApart.add [event] (List.nodup_singleton _) ?_ found (queued_enqueue _) rfl rfl,
          ?_, fun j other mem => .inl ?_, .inl emissions, fun adapterId other mem => ?_⟩
        · intro other mem j mem'
          obtain rfl := List.mem_singleton.mp mem
          obtain ⟨row, mem, same, -⟩ := flowing j _ mem'
          exact absent row mem (by rw [same])
        · show (Outbox.keys _ |>.map _).Nodup
          simp only [enqueue_outbox, note_outbox, write_outbox, Outbox.keys_append,
            List.map_append]
          refine List.nodup_append.mpr ⟨h.distinct, List.nodup_singleton _, ?_⟩
          rintro eventId mem _ mem' rfl
          obtain ⟨key, known, same⟩ := List.mem_map.mp mem
          obtain ⟨row, present, -, holds⟩ := Outbox.mem_keys.mp known
          refine absent row present ?_
          rw [holds, same]
          exact List.mem_singleton.mp mem'
        · rw [queued_enqueue] at mem
          split at mem
          · rcases List.mem_append.mp mem with old | here
            · exact (flowing k other old).append _
            · obtain rfl := List.mem_singleton.mp here
              exact new
          · exact (flowing j other mem).append _
        · exact (h.acked adapterId other (by simpa using mem)).append _

theorem Single.retry (h : Single s) (flowing : s.Flowing) (ready : s.todo = [])
    (found : s.emitterOf k = some e) {event : OutboundEvent}
    (failure : s.outbox.Marked event .permanentFailure) : Single (s.retry k event) := by
  -- any other row is left alone
  have other {other : OutboundEvent} {status : OutboxStatus}
      (marked : s.outbox.Marked other status) (different : status ≠ .permanentFailure) :
      (s.outbox.resetFailure event.eventId).Marked other status := by
    refine marked.update_other (fun same => different ?_) _
    obtain rfl := h.distinct.event_eq marked failure same
    exact h.distinct.status_eq marked failure
  have reset : (s.outbox.resetFailure event.eventId).Marked event .pending :=
    failure.update_here (fun row => by split <;> rfl) fun row status => by rw [if_pos status]
  refine ⟨h.toApart.add [event] (List.nodup_singleton _) ?_ found (queued_retry event) rfl rfl,
    h.distinct.of_keys (Outbox.keys_resetFailure ..), fun j queued mem => .inl ?_,
    .inl (fun op mem => ?_), fun adapterId acked mem => ?_⟩
  · intro queued mem j mem'
    obtain rfl := List.mem_singleton.mp mem
    exact absurd (h.distinct.status_eq (flowing j _ mem') failure) (by simp)
  · rw [queued_retry] at mem
    split at mem
    · rcases List.mem_append.mp mem with old | here
      · exact other (flowing k queued old) (by simp)
      · obtain rfl := List.mem_singleton.mp here
        exact reset
    · exact other (flowing j queued mem) (by simp)
  · have none : (s.retry k event).todo = [] := ready
    rw [none] at mem
    simp at mem
  · exact other (h.acked adapterId acked mem) (by simp)

/-- The hook of the delivery that has ended has run. -/
theorem Single.ended (h : Single s) {event : OutboundEvent} (heads : s.Heads k event)
    (ends : ∀ j other, s.Finishing j other → j = k ∧ other = event) (b : Bool) :
    Single ((s.setTodo []).settle k b) := by
  have heads : (s.setTodo []).Heads k event := heads
  obtain ⟨rest, queue, settled⟩ := heads.queued
  have shorter (j : ℕ) : (((s.setTodo []).settle k b).queued j).Sublist (s.queued j) :=
    queued_settle_sublist (s := s.setTodo []) b j
  refine h.frame (h.toApart.sublist shorter (settle_emitterOf b) (settle_nextEmitter b))
    (fun j other mem => ?_) (.inl (by simp)) (by simp) (by simp)
  rcases h.pending j other ((shorter j).subset mem) with pending | finishing
  · exact pending
  · -- the event that was delivered is in no chain any more
    obtain ⟨rfl, rfl⟩ := ends j other finishing
    rw [settled, if_pos rfl] at mem
    have distinct : (other :: rest).Nodup := queue ▸ h.nodup j
    exact absurd mem (List.nodup_cons.mp distinct).1

theorem Single.run (h : Single s) {op : Op} {rest : List Op} (todo : s.todo = op :: rest)
    (found : s.emitterOf op.emitter = some e) {hook : Except String Unit}
    (undisturbed : s.Undisturbed (.run hook)) : Single ((s.setTodo rest).runOp o e hook op) := by
  cases op with
  | emit k event =>
      obtain ⟨single, flowing⟩ := h.take todo (by simp) (by simp)
      have emissions := h.underway.emissions todo
      have noted := single.note (.generated k e.adapterId event) flowing emissions (by simp)
      show Single (if _ then _ else _)
      split
      · exact (noted.note (.out k e.adapterId event) flowing emissions (by simp)).enqueue
          flowing emissions rfl
      · exact noted.deliverDurable flowing emissions event hook
  | deliver k event =>
      obtain ⟨single, flowing⟩ := h.take todo (by simp) (by simp)
      exact single.deliverDurable flowing (h.underway.emissions todo) event hook
  | insert k event =>
      obtain ⟨single, flowing⟩ := h.take todo (by simp) (by simp)
      exact single.insert flowing (h.underway.emissions todo) found event
  | confirm k event => exact (h.take todo (by simp) (by simp)).1
  | prepareRetry k event =>
      obtain ⟨single, flowing⟩ := h.take todo (by simp) (by simp)
      obtain ⟨rfl, failure⟩ := h.underway.backed todo rfl
      cases hook with
      | error message => exact single
      | ok u =>
          exact single.still flowing (.inr ⟨.retry k event, rfl, failure⟩)
  | retry k event =>
      obtain ⟨single, flowing⟩ := h.take todo (by simp) (by simp)
      obtain ⟨rfl, failure⟩ := h.underway.backed todo rfl
      exact single.retry flowing rfl found failure
  | delivered k event =>
      obtain ⟨rfl, heads, -⟩ := h.underway.backed todo rfl
      have accepted : hook = .ok () := by simpa [Undisturbed, todo] using undisturbed
      rw [accepted]
      exact h.ended heads (by simp [Finishing, todo]) true
  | failed k event error =>
      obtain ⟨rfl, heads, -⟩ := h.underway.backed todo rfl
      exact h.ended heads (by simp [Finishing, todo]) _

/-! ### The steps -/

theorem Single.create (h : Single s) (ready : s.todo = [])
    (adapterId conversationKey correlationId : String) :
    Single (s.create o adapterId conversationKey correlationId) := by
  refine h.frame ⟨fun j beyond => h.bounded j (Nat.le_of_succ_le beyond), ?_, h.nodup, h.apart⟩
    (h.marked ready) (.inl (by simp [Outbound.create, ready])) rfl (by simp [Outbound.create])
  intro j e found
  show j < s.nextEmitter + 1
  by_cases new : j = s.nextEmitter
  · omega
  · have old : s.emitterOf j = some e := by
      rw [← found]
      exact (Function.update_of_ne new _ _).symm
    exact Nat.lt_succ_of_lt (h.alive j e old)

/-- An emitter changes, and hands over what it has to say. -/
theorem Single.setEmitter (h : Single s) (ready : s.todo = []) (found : s.emitterOf k = some e)
    {e' : OutboundEmitter} (emitters : t.emitterOf = (s.setEmitter k e').emitterOf)
    (emissions : ∀ op ∈ t.todo, op.isEmission) (chains : t.chainOf = s.chainOf)
    (next : t.nextEmitter = s.nextEmitter) (outbox : t.outbox = s.outbox)
    (log : t.log = s.log) : Single t := by
  have same (j : ℕ) : t.queued j = s.queued j := by
    rw [queued, queued, payloads, payloads, chains]
  refine h.frame ⟨?_, ?_, ?_, ?_⟩ (fun j event mem => h.marked ready j event (same j ▸ mem))
    (.inl emissions) outbox (fun _ _ mem => log ▸ mem)
  · intro j beyond
    rw [same]
    exact h.bounded j (next ▸ beyond)
  · intro j e'' found'
    rw [next]
    rw [emitters] at found'
    by_cases here : j = k
    · exact here ▸ h.alive k e found
    · exact h.alive j e'' (by rw [← found']; exact (Function.update_of_ne here _ _).symm)
  · intro j
    rw [same]
    exact h.nodup j
  · intro i j event mem mem'
    exact h.apart i j event (same i ▸ mem) (same j ▸ mem')

theorem nodup_pendingRows (distinct : s.outbox.Distinct) (adapterId correlationId : String) :
    ((s.outbox.pendingRows adapterId correlationId).map (·.event)).Nodup := by
  have ids : ((s.outbox.pendingRows adapterId correlationId).map (·.event.eventId)).Nodup := by
    rw [Outbox.pendingRows, ((List.mergeSort_perm _ _).map _).nodup_iff]
    rw [Outbox.Distinct, Outbox.keys, List.map_map] at distinct
    exact distinct.sublist (List.filter_sublist.map _)
  refine List.Nodup.of_map (·.eventId) ?_
  rw [List.map_map]
  exact ids

theorem Single.redrive (h : Single s) (ready : s.todo = []) (found : s.emitterOf k = some e)
    (idle : (s.chainOf k).resuming = none) (undelivered : s.Undelivered k) :
    Single (s.redrive k (s.outbox.pendingRows e.adapterId e.correlationId)) := by
  have fresh : ∀ event ∈ (s.outbox.pendingRows e.adapterId e.correlationId).map (·.event),
      ∀ j, event ∉ s.queued j := by
    intro event mem j
    obtain ⟨row, read, rfl⟩ := List.mem_map.mp mem
    rcases Nat.lt_or_ge j s.nextEmitter with made | beyond
    · exact undelivered idle e found row read j made
    · simp [h.bounded j beyond]
  refine h.frame (h.toApart.add _ (nodup_pendingRows h.distinct _ _) fresh found
    (queued_redrive _) (by simp) (by simp)) ?_ (.inl (by simp [ready])) (by simp) (by simp)
  intro j event mem
  rw [queued_redrive] at mem
  split at mem
  · rcases List.mem_append.mp mem with old | new
    · exact h.marked ready k event old
    · obtain ⟨row, read, rfl⟩ := List.mem_map.mp new
      obtain ⟨present, -, pending⟩ := Outbox.mem_pendingRows.mp read
      exact ⟨row, present, rfl, pending⟩
  · exact h.marked ready j event mem

theorem Single.crash (h : Single s) : Single s.crash where
  bounded _ _ := rfl
  alive _ _ found := by simp at found
  nodup _ := List.nodup_nil
  apart _ _ _ mem := by simp [queued, payloads, DeliveryChain.empty] at mem
  distinct := h.distinct
  pending _ _ mem := by simp [queued, payloads, DeliveryChain.empty] at mem
  underway := .inl (by simp)
  acked := h.acked

theorem Single.step {a : Action} (h : Single s) (undisturbed : s.Undisturbed a)
    (taken : step o s a = some t) : Single t := by
  cases step_cases taken with
  | nothing => exact h
  | create ready adapterId conversationKey correlationId => exact h.create ready _ _ _
  | call ready found now m =>
      refine h.setEmitter ready found rfl (fun op mem => ?_) rfl rfl rfl rfl
      simp only [Outbound.call, ready, List.nil_append, List.mem_map] at mem
      obtain ⟨event, -, rfl⟩ := mem
      rfl
  | redrive ready found idle asked =>
      refine h.redrive ready found idle ?_
      rcases asked with rfl | ⟨event, row, rfl, present, pending⟩
      · exact undisturbed
      · exact undisturbed (by simp [isPending, found, present, pending])
  | prepareRetry a ready found mem own failure =>
      exact h.still (h.marked ready) (.inr ⟨_, rfl, _, mem, rfl, failure⟩)
  | deliver ready found saved =>
      exact h.still (h.marked ready) (.inl (by simp [Op.isEmission]))
  | confirm ready found =>
      exact h.still (h.marked ready) (.inl (by simp [Op.isEmission]))
  | close ready found =>
      exact h.setEmitter ready found rfl (by simp [ready]) rfl rfl rfl rfl
  | drive a ready found head driven => exact h.drive ready head driven
  | recorded a ready found head eventId attempts error driven =>
      exact (h.record ready eventId attempts error).drive ready head driven
  | run todo found hook => exact h.run todo found undisturbed
  | crash => exact h.crash

/-! ### What is persisted -/

theorem Sorted.quiet (h : Sorted s) (quiet : Quiet s t) : Sorted t where
  rows key mem := h.rows key (quiet.keys ▸ mem)
  todo := by
    obtain ⟨ends, todo, all⟩ := quiet.todo
    intro op mem k event same
    rw [todo] at mem
    rcases List.mem_append.mp mem with old | new
    · exact h.todo op old k event same
    · have := all op new
      rcases same with rfl | rfl <;> simp [Op.isEnd] at this
  chains k event mem := h.chains k event ((quiet.payloads k).subset mem)

/-- What changes neither the outbox nor the chains. -/
theorem Sorted.frame (h : Sorted s)
    (todo : ∀ op ∈ t.todo, ∀ k event, op = .insert k event ∨ op = .deliver k event →
      event.body.isBestEffort = false)
    (outbox : t.outbox = s.outbox) (chains : t.chainOf = s.chainOf) :
    Sorted t where
  rows := outbox ▸ h.rows
  todo := todo
  chains k event mem := h.chains k event (by rwa [payloads, ← chains])

theorem Sorted.enqueue (h : Sorted s) {payload : Payload}
    (transient : ∀ event, payload = .bestEffort event → event.body.isBestEffort = true) :
    Sorted (s.enqueue k payload) where
  rows := h.rows
  todo := h.todo
  chains j event mem := by
    rw [payloads_enqueue] at mem
    split at mem
    · rcases List.mem_append.mp mem with old | new
      · exact h.chains k event old
      · exact transient event (List.mem_singleton.mp new).symm
    · exact h.chains j event mem

theorem Sorted.deliverDurable (h : Sorted s) {event : OutboundEvent}
    (durable : event.body.isBestEffort = false) (hook : Except String Unit) :
    Sorted (s.deliverDurable k event hook) := by
  cases hook with
  | error message => exact h.enqueue (by simp)
  | ok u =>
      refine h.frame (fun op mem j other same => ?_) rfl rfl
      rcases List.mem_cons.mp mem with rfl | mem
      · simp only [Op.insert.injEq, reduceCtorEq, or_false] at same
        exact same.2 ▸ durable
      · exact h.todo op mem j other same

theorem Sorted.insert (h : Sorted s) {event : OutboundEvent}
    (durable : event.body.isBestEffort = false) : Sorted (s.insert k e event) := by
  have dropped : Sorted (s.setTodo []) := h.frame (by simp) rfl rfl
  rw [Outbound.insert]
  split
  · exact dropped
  · split
    · split
      · exact h
      · exact dropped
    · have written : Sorted ((s.write (s.outbox ++ [⟨e.adapterId, event, .pending, 0, none⟩])).note
          (.out k e.adapterId event)) := by
        refine ⟨fun key mem => ?_, h.todo, h.chains⟩
        simp only [note_outbox, write_outbox, Outbox.keys_append] at mem
        rcases List.mem_append.mp mem with old | new
        · exact h.rows key old
        · obtain rfl := List.mem_singleton.mp new
          exact durable
      exact written.enqueue (by simp)

theorem Sorted.run (h : Sorted s) {op : Op} {rest : List Op} (todo : s.todo = op :: rest)
    (hook : Except String Unit) : Sorted ((s.setTodo rest).runOp o e hook op) := by
  have taken : Sorted (s.setTodo rest) := h.frame (fun op mem =>
    h.todo op (by rw [todo]; exact List.mem_cons_of_mem _ mem)) rfl rfl
  have here := h.todo op (by simp [todo])
  have noted (s : Outbound) (h : Sorted s) (entry : Entry) : Sorted (s.note entry) :=
    h.frame h.todo rfl rfl
  cases op with
  | emit k event =>
      show Sorted (if _ then _ else _)
      split
      · case isTrue transient =>
          refine (noted _ (noted _ taken _) _).enqueue fun other same => ?_
          obtain rfl := Payload.bestEffort.inj same
          exact transient
      · case isFalse durable =>
          exact (noted _ taken _).deliverDurable (by simpa using durable) hook
  | deliver k event => exact taken.deliverDurable (here k event (.inr rfl)) hook
  | insert k event => exact taken.insert (here k event (.inl rfl))
  | confirm k event => exact taken
  | prepareRetry k event =>
      cases hook with
      | error message => exact taken
      | ok u =>
          refine taken.frame (fun op mem j other same => ?_) rfl rfl
          rcases List.mem_cons.mp mem with rfl | mem
          · simp at same
          · exact taken.todo op mem j other same
  | retry k event =>
      refine ⟨fun key mem => taken.rows key ?_, taken.todo, fun j other mem => ?_⟩
      · have keys : ((s.setTodo rest).retry k event).outbox.keys = s.outbox.keys :=
          Outbox.keys_resetFailure ..
        exact keys ▸ mem
      · simp only [runOp] at mem
        rw [payloads_retry] at mem
        split at mem
        · rcases List.mem_append.mp mem with old | new
          · exact taken.chains k other old
          · simp at new
        · exact taken.chains j other mem
  | delivered k event => exact taken.quiet (quiet_afterDelivered event hook)
  | failed k event error => exact taken.quiet (quiet_settle _ k _)

theorem isSaved_durable {event : OutboundEvent} (saved : s.isSaved e event = true) :
    event.body.isBestEffort = false := by
  simp only [isSaved, Bool.and_eq_true, Bool.not_eq_true'] at saved
  exact saved.1.2

theorem Sorted.step {a : Action} (h : Sorted s) (taken : step o s a = some t) : Sorted t := by
  cases step_cases taken with
  | nothing => exact h
  | create ready adapterId conversationKey correlationId => exact h.frame h.todo rfl rfl
  | call ready found now m =>
      refine h.frame (fun op mem j other same => ?_) rfl rfl
      simp only [Outbound.call, ready, List.nil_append, List.mem_map] at mem
      obtain ⟨event, -, rfl⟩ := mem
      simp at same
  | redrive ready found idle asked =>
      refine ⟨by simpa using h.rows, by simpa using h.todo, fun j event mem => ?_⟩
      rw [payloads_redrive] at mem
      split at mem
      · rcases List.mem_append.mp mem with old | new
        · exact h.chains _ event old
        · simp at new
      · exact h.chains j event mem
  | prepareRetry a ready found mem own failure => exact h.frame (by simp) rfl rfl
  | deliver ready found saved =>
      refine h.frame (fun op mem j other same => ?_) rfl rfl
      obtain rfl := List.mem_singleton.mp mem
      simp only [reduceCtorEq, Op.deliver.injEq, false_or] at same
      exact same.2 ▸ isSaved_durable saved
  | confirm ready found => exact h.frame (by simp) rfl rfl
  | close ready found => exact h.frame h.todo rfl rfl
  | drive a ready found head driven => exact h.quiet driven.quiet
  | recorded a ready found head eventId attempts error driven =>
      exact (h.quiet (quiet_record s eventId attempts error)).quiet driven.quiet
  | run todo found hook => exact h.run todo hook
  | crash => exact ⟨h.rows, by simp, fun _ _ mem => by simp [payloads, DeliveryChain.empty] at mem⟩

/-! ### Silence after the acknowledgement -/

theorem Silent.append {log : List Entry} (h : Silent log) (entries : List Entry)
    (quiet : ∀ entry ∈ entries, ∀ adapterId event, entry ≠ .posted adapterId event) :
    Silent (log ++ entries) := by
  refine List.pairwise_append.mpr ⟨h, ?_, fun earlier _ later mem _ other event _ =>
    quiet later mem other event⟩
  exact List.Pairwise.imp_of_mem (fun _ mem _ _ other event _ => quiet _ mem other event)
    (List.pairwise_of_forall fun _ _ => trivial)

theorem Silent.post {log : List Entry} (h : Silent log) {adapterId : String}
    {event : OutboundEvent} (unacked : ∀ a, .acked a event ∉ log) :
    Silent (log ++ [.posted adapterId event]) := by
  refine List.pairwise_append.mpr ⟨h, List.pairwise_singleton _ _, ?_⟩
  rintro earlier mem later new a other acked rfl same
  obtain rfl := List.mem_singleton.mp new
  obtain ⟨-, rfl⟩ := Entry.posted.inj same
  exact unacked a mem

/-- An event that is in a chain has not been acknowledged. -/
theorem Single.unacked (h : Single s) (ready : s.todo = []) {event : OutboundEvent}
    (mem : event ∈ s.queued k) (adapterId : String) : .acked adapterId event ∉ s.log :=
  fun acked => absurd (h.distinct.status_eq (h.acked adapterId event acked)
    (h.marked ready k event mem)) (by simp)

theorem unacked_of_drive (single : Single s) (sorted : Sorted s) (ready : s.todo = [])
    {d : Delivery} {rest : List Delivery} (head : (s.chainOf k).deliveries = d :: rest)
    {event : OutboundEvent} (carried : d.payload.event? = some event) (adapterId : String) :
    .acked adapterId event ∉ s.log := by
  have first : d.payload ∈ s.payloads k := by simp [payloads, head]
  obtain ⟨id, payload⟩ := d
  cases payload with
  | rejection => simp [Payload.event?] at carried
  | durable other attempts =>
      obtain rfl := Option.some.inj carried
      exact single.unacked ready (List.mem_filterMap.mpr ⟨_, first, rfl⟩) adapterId
  | bestEffort other =>
      -- what has been acknowledged is persisted, and this is not
      obtain rfl := Option.some.inj carried
      intro acked
      obtain ⟨key, mem, same⟩ := List.mem_map.mp (single.acked adapterId _ acked).mem_keys
      have durable := sorted.rows key mem
      rw [same, sorted.chains k _ first] at durable
      simp at durable

theorem Silent.drive {d : Delivery} (h : Silent s.log) (driven : Drive s k e d t)
    (unacked : ∀ event, d.payload.event? = some event → ∀ a, .acked a event ∉ s.log) :
    Silent t.log := by
  cases driven with
  | settled b closed => simpa using h
  | posted carried callbackUrl attempt => exact h.post (unacked _ carried)
  | sleeping => exact h
  | failed => exact h
  | acked => exact h.append _ (by simp)

theorem silent_run (silent : Silent s.log) {op : Op} {rest : List Op}
    (todo : s.todo = op :: rest) {hook : Except String Unit}
    (undisturbed : s.Undisturbed (.run hook)) :
    Silent ((s.setTodo rest).runOp o e hook op).log := by
  cases op with
  | emit k event =>
      show Silent (Outbound.log (if _ then _ else _))
      split
      · exact (silent.append [.generated k e.adapterId event] (by simp)).append
          [.out k e.adapterId event] (by simp)
      · have noted := silent.append [.generated k e.adapterId event] (by simp)
        cases hook <;> exact noted
  | deliver k event => cases hook <;> exact silent
  | insert k event =>
      simp only [runOp, Outbound.insert]
      split
      · exact silent
      · split
        · split <;> exact silent
        · exact silent.append [.out k e.adapterId event] (by simp)
  | prepareRetry k event => cases hook <;> exact silent
  | retry k event => exact silent
  | confirm k event => exact silent
  | delivered k event =>
      have accepted : hook = .ok () := by simpa [Undisturbed, todo] using undisturbed
      rw [accepted]
      simpa [runOp, afterDelivered] using silent
  | failed k event error => simpa [runOp] using silent

theorem silent_step {a : Action} (single : Single s) (sorted : Sorted s) (silent : Silent s.log)
    (undisturbed : s.Undisturbed a) (taken : step o s a = some t) : Silent t.log := by
  cases step_cases taken with
  | nothing => exact silent
  | create ready adapterId conversationKey correlationId => exact silent.append _ (by simp)
  | call => exact silent
  | redrive => simpa using silent
  | prepareRetry => exact silent
  | deliver => exact silent
  | confirm => exact silent
  | close => exact silent
  | drive a ready found head driven =>
      exact silent.drive driven fun _ => unacked_of_drive single sorted ready head
  | recorded a ready found head eventId attempts error driven =>
      refine Silent.drive (s := s.write (s.outbox.recordAttempt ..)) silent driven fun _ carried => ?_
      exact unacked_of_drive single sorted ready head carried
  | run todo found hook => exact silent_run silent todo undisturbed
  | crash => exact silent

/-! ### Finality -/

theorem single_initial : Single initial where
  bounded _ _ := rfl
  alive := by simp [initial]
  nodup _ := List.nodup_nil
  apart := by simp [initial, queued, payloads, DeliveryChain.empty]
  distinct := List.nodup_nil
  pending := by simp [initial, queued, payloads, DeliveryChain.empty]
  underway := .inl (by simp [initial])
  acked := by simp [initial]

theorem sorted_initial : Sorted initial where
  rows := by simp [initial, Outbox.keys]
  todo := by simp [initial]
  chains := by simp [initial, payloads, DeliveryChain.empty]

/-- In a run of which no step disturbs a delivery, what has been
acknowledged stays delivered and is never posted again. -/
theorem acknowledged_is_final (reach : (machine o).Reachable Undisturbed s) : s.Final := by
  have inv : Single s ∧ Sorted s ∧ Silent s.log := by
    refine reach.invariant (I := fun s => Single s ∧ Sorted s ∧ Silent s.log) ?_ ?_
    · rintro s rfl
      exact ⟨single_initial, sorted_initial, List.Pairwise.nil⟩
    · rintro s a t ⟨single, sorted, silent⟩ undisturbed taken
      exact ⟨single.step undisturbed taken, sorted.step taken,
        silent_step single sorted silent undisturbed taken⟩
  exact ⟨inv.1.acked, inv.2.2⟩

/-! ### Two runs -/

/-- A direct reply, which is acknowledged at the second attempt and reported
once more when the redelivery of the saved event is asked for. -/
def orderlyRedelivery : List Action :=
  let reply : OutboundEvent := ⟨lettered 0, "room", "turn", 1, .turnReply "done" [] noUsage⟩
  [.create "pumble" "room" "turn", .call 0 0 (.emitDirectReply "done"), .run (.ok ()),
    .run (.ok ()), .begin 0, .answer 0 (.status 500), .wake 0, .answer 0 (.status 200),
    .run (.ok ()), .create "pumble" "room" "turn", .redeliverDurable 1 reply, .run (.ok ())]

theorem orderlyRedelivery_is_final :
    ∃ s, (machine retryOnce).exec Undisturbed initial orderlyRedelivery = some s ∧
      s.outbox.map (·.status) = [.delivered] ∧ s.Final := by
  have run : ((machine retryOnce).exec Undisturbed initial orderlyRedelivery).map
      (fun s => s.outbox.map (·.status)) = some [.delivered] := by
    decide +kernel
  obtain ⟨s, run, facts⟩ := Option.map_eq_some_iff.mp run
  exact ⟨s, run, facts, acknowledged_is_final (.of_exec rfl run)⟩

/-- The redelivery of the saved event is asked for while its first delivery
is in flight, as by a duplicate of the inbound message. -/
def hastyRedelivery : List Action :=
  let reply : OutboundEvent := ⟨lettered 0, "room", "turn", 1, .turnReply "done" [] noUsage⟩
  [.create "pumble" "room" "turn", .call 0 0 (.emitDirectReply "done"), .run (.ok ()),
    .run (.ok ()), .begin 0, .create "pumble" "room" "turn", .redeliverDurable 1 reply,
    .answer 0 (.status 200), .run (.ok ()), .begin 1, .answer 1 (.status 500), .wake 1,
    .answer 1 (.status 500), .run (.ok ())]

/-- The acknowledged event is posted twice more, and its row ends as a
permanent failure. -/
theorem hastyRedelivery_is_not_final :
    ∃ s, (machine retryOnce).Reachable Transition.Always s ∧
      s.outbox.map (·.status) = [.permanentFailure] ∧ ¬ s.Final := by
  let reply : OutboundEvent := ⟨lettered 0, "room", "turn", 1, .turnReply "done" [] noUsage⟩
  have run : ((machine retryOnce).exec Transition.Always initial hastyRedelivery).map
      (fun s => (s.outbox.map (·.status), decide (.acked "pumble" reply ∈ s.log))) =
        some ([.permanentFailure], true) := by
    decide +kernel
  obtain ⟨s, run, facts⟩ := Option.map_eq_some_iff.mp run
  obtain ⟨failed, acked⟩ := Prod.mk.inj facts
  refine ⟨s, .of_exec rfl run, failed, fun final => ?_⟩
  obtain ⟨row, mem, -, delivered⟩ := final.delivered "pumble" reply (of_decide_eq_true acked)
  have status := List.mem_map_of_mem (f := fun row : OutboxRow => row.status) mem
  simp [failed, delivered] at status

end Outbound

end OmpBundler.Core
