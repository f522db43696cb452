import OmpBundler.Core.IdempotencyStore
import OmpBundler.Library.Transition

/-!
What the operations of the idempotency store keep.

Whatever an operation does, it either throws and changes nothing, or runs
one statement: it inserts a fresh row, deletes a fully pending one, or
updates rows that its condition allows to be updated so (`Effect`). The life
cycle of a row follows from that, and so does the meaning of `beginInbound`,
with the message that each row was created with kept beside the store.
-/

namespace OmpBundler.Core

open Library

/-! ### The life cycle of a row -/

/-- The steps of a delivery. -/
inductive DeliveryStep : DeliveryState → DeliveryState → Prop
  | save : DeliveryStep .pending .saved
  | fail : DeliveryStep .saved .failed
  | send : DeliveryStep .saved .sent
  | resend : DeliveryStep .failed .sent

/-- The CHECK constraints of the schema that the types do not express. -/
structure IdempotencyRow.Checked (row : IdempotencyRow) : Prop where
  response : (row.deliveryState = .pending ∧ row.response = none) ∨
    ((row.deliveryState = .saved ∨ row.deliveryState = .sent ∨ row.deliveryState = .failed) ∧
      row.response ≠ none)
  errorText : (row.deliveryState = .failed ∧ row.errorText ≠ none) ∨
    ((row.deliveryState = .pending ∨ row.deliveryState = .saved ∨ row.deliveryState = .sent) ∧
      row.errorText = none)

/-- What may become of a row. -/
structure IdempotencyRow.Moves (row next : IdempotencyRow) : Prop where
  correlationId : next.correlationId = row.correlationId
  conversationKey : next.conversationKey = row.conversationKey
  payloadHash : next.payloadHash = row.payloadHash
  delivery : next.deliveryState = row.deliveryState ∨
    DeliveryStep row.deliveryState next.deliveryState
  response : ∀ event, row.response = some event → next.response = some event
  ingest : row.ingestState = .completed → next.ingestState = .completed

namespace IdempotencyRow

variable {row : IdempotencyRow}

theorem Moves.refl (row : IdempotencyRow) : row.Moves row :=
  ⟨rfl, rfl, rfl, .inl rfl, fun _ h => h, fun h => h⟩

theorem Checked.response_eq_none (checked : row.Checked) (pending : row.deliveryState = .pending) :
    row.response = none := by
  rcases checked.response with ⟨-, none⟩ | ⟨states, -⟩
  · exact none
  · simp [pending] at states

theorem Checked.response_ne_none (checked : row.Checked) (later : row.deliveryState ≠ .pending) :
    row.response ≠ none := by
  rcases checked.response with ⟨pending, -⟩ | ⟨-, some⟩
  · exact absurd pending later
  · exact some

theorem checked_newRow (now : ℤ) (conversationKey correlationId payloadHash : String) :
    (IdempotencyStore.newRow now conversationKey correlationId payloadHash).Checked :=
  ⟨.inl ⟨rfl, rfl⟩, .inr ⟨.inl rfl, rfl⟩⟩

theorem Checked.saveEvent (now : ℤ) (event : OutboundEvent) :
    (IdempotencyStore.saveEvent now event row).Checked :=
  ⟨.inr ⟨.inl rfl, by simp [IdempotencyStore.saveEvent]⟩, .inr ⟨.inr (.inl rfl), rfl⟩⟩

theorem Checked.markRowSent (checked : row.Checked) (later : row.deliveryState ≠ .pending)
    (now : ℤ) : (IdempotencyStore.markRowSent now row).Checked :=
  ⟨.inr ⟨.inr (.inl rfl), checked.response_ne_none later⟩, .inr ⟨.inr (.inr rfl), rfl⟩⟩

theorem Checked.markRowFailed (checked : row.Checked) (later : row.deliveryState ≠ .pending)
    (now : ℤ) (error : String) : (IdempotencyStore.markRowFailed now error row).Checked :=
  ⟨.inr ⟨.inr (.inr rfl), checked.response_ne_none later⟩,
    .inl ⟨rfl, by simp [IdempotencyStore.markRowFailed]⟩⟩

end IdempotencyRow

namespace IdempotencyStore

variable {d : PayloadDigest} {s t : IdempotencyStore} {now : ℤ} {key : MessageKey}
  {fresh : IdempotencyRow → Prop}

/-- Every row meets the constraints. -/
def Checked (s : IdempotencyStore) : Prop := ∀ key row, s.getEntry key = some row → row.Checked

/-! ### Statements -/

theorem getEntry_updateWhere (s : IdempotencyStore)
    (condition : MessageKey → IdempotencyRow → Bool) (set : IdempotencyRow → IdempotencyRow)
    (key : MessageKey) : (s.updateWhere condition set).1.getEntry key =
      (s.getEntry key).map fun row => if condition key row then set row else row :=
  OrderedMap.get_mapValues ..

/-- A statement that changes no row leaves the store as it is. -/
theorem updateWhere_of_zero {condition : MessageKey → IdempotencyRow → Bool}
    {set : IdempotencyRow → IdempotencyRow} (zero : (s.updateWhere condition set).2 = 0) :
    (s.updateWhere condition set).1 = s := by
  obtain ⟨⟨entries, nodup⟩⟩ := s
  simp only [updateWhere, List.length_eq_zero_iff, List.filter_eq_nil_iff] at zero
  have same : (entries.map fun e => (e.1, if condition e.1 e.2 then set e.2 else e.2)) =
      entries := by
    refine (List.map_congr_left fun e mem => ?_).trans (List.map_id entries)
    rw [if_neg (zero e mem), id]
  simp only [updateWhere, OrderedMap.mapValues, same]

theorem deleteWhere_of_zero {condition : IdempotencyRow → Bool}
    (zero : (s.deleteWhere key condition).2 = 0) : (s.deleteWhere key condition).1 = s := by
  unfold deleteWhere at *
  split
  · simp_all
  · rfl

/-- An update counts the rows that have been counted before. -/
theorem changes_eq_countIn (s : IdempotencyStore) (adapterId correlationId : String)
    (states : DeliveryState → Bool) (set : IdempotencyRow → IdempotencyRow) :
    (s.updateWhere (inState adapterId correlationId states) set).2 =
      countIn (s.getEntriesByCorrelation adapterId correlationId) states := by
  have perm := List.perm_insertionSort (fun a b => entryLe a b) (s.rows.entries.filter fun e =>
    e.1.adapterId = adapterId && e.2.correlationId = correlationId)
  rw [countIn, getEntriesByCorrelation, (perm.filter _).length_eq, List.filter_filter, updateWhere]
  refine congrArg List.length (List.filter_congr fun e _ => ?_)
  simp only [inState]
  rw [Bool.and_comm]

theorem mem_getEntriesByCorrelation {e : MessageKey × IdempotencyRow}
    {adapterId correlationId : String} :
    e ∈ s.getEntriesByCorrelation adapterId correlationId ↔
      s.getEntry e.1 = some e.2 ∧ e.1.adapterId = adapterId ∧
        e.2.correlationId = correlationId := by
  rw [getEntriesByCorrelation, List.mem_insertionSort, List.mem_filter]
  obtain ⟨key, row⟩ := e
  rw [OrderedMap.mem_entries]
  simp [getEntry]

/-! ### What an operation can do -/

/-- What an operation that does not throw makes of the store; `fresh` are the
rows that it may insert. -/
inductive Effect (fresh : IdempotencyRow → Prop) (s : IdempotencyStore) :
    IdempotencyStore → Prop
  | same : Effect fresh s s
  | created {row : IdempotencyRow} (key : MessageKey) (vacant : s.getEntry key = none)
      (allowed : fresh row) : Effect fresh s ⟨s.rows.set key row⟩
  | discarded {key : MessageKey} {row : IdempotencyRow} (found : s.getEntry key = some row)
      (unaccepted : row.ingestState = .pending) (unsaved : row.deliveryState = .pending) :
      Effect fresh s ⟨s.rows.delete key⟩
  | updated (condition : MessageKey → IdempotencyRow → Bool)
      (set : IdempotencyRow → IdempotencyRow)
      (moves : ∀ key row, condition key row = true → row.Checked →
        row.Moves (set row) ∧ (set row).Checked) :
      Effect fresh s (s.updateWhere condition set).1

/-- An operation throws and changes nothing, or has one of the effects. -/
def Lawful (fresh : IdempotencyRow → Prop) (s : IdempotencyStore) {α : Type}
    (performed : Except StoreError α × IdempotencyStore) : Prop :=
  (∃ error, performed = (.error error, s)) ∨ ∃ a t, performed = (.ok a, t) ∧ Effect fresh s t

theorem lawful_throw {α : Type} (error : StoreError) :
    Lawful (α := α) fresh s (.error error, s) := .inl ⟨error, rfl⟩

theorem lawful_same {α : Type} (a : α) : Lawful fresh s (.ok a, s) := .inr ⟨a, s, rfl, .same⟩

theorem lawful_update {condition : MessageKey → IdempotencyRow → Bool}
    {set : IdempotencyRow → IdempotencyRow}
    (moves : ∀ key row, condition key row = true → row.Checked →
      row.Moves (set row) ∧ (set row).Checked) (error : IdempotencyStore → StoreError) :
    Lawful fresh s (requireChange (s.updateWhere condition set) error) := by
  unfold requireChange
  split
  case isTrue zero =>
      rw [updateWhere_of_zero zero]
      exact lawful_throw _
  case isFalse => exact .inr ⟨(), _, rfl, .updated condition set moves⟩

/-- Saving a terminal event in a row without one. -/
theorem moves_saveEvent {row : IdempotencyRow} (event : OutboundEvent)
    (pending : row.deliveryState = .pending) (checked : row.Checked) :
    row.Moves (saveEvent now event row) ∧ (saveEvent now event row).Checked := by
  refine ⟨⟨rfl, rfl, rfl, .inr ?_, fun e some => ?_, fun _ => rfl⟩, .saveEvent now event⟩
  · rw [pending]
    exact .save
  · rw [checked.response_eq_none pending] at some
    simp at some

/-- Confirming the delivery of a row that has an event. -/
theorem moves_markRowSent {row : IdempotencyRow}
    (unsent : row.deliveryState = .saved ∨ row.deliveryState = .failed) (checked : row.Checked) :
    row.Moves (markRowSent now row) ∧ (markRowSent now row).Checked := by
  refine ⟨⟨rfl, rfl, rfl, .inr ?_, fun _ h => h, fun h => h⟩, checked.markRowSent ?_ now⟩
  · rcases unsent with saved | failed
    · rw [saved]
      exact .send
    · rw [failed]
      exact .resend
  · rcases unsent with saved | failed <;> simp_all

/-- Recording a failed delivery of a row that has an event. -/
theorem moves_markRowFailed {row : IdempotencyRow} (error : String)
    (saved : row.deliveryState = .saved) (checked : row.Checked) :
    row.Moves (markRowFailed now error row) ∧ (markRowFailed now error row).Checked := by
  refine ⟨⟨rfl, rfl, rfl, .inr ?_, fun _ h => h, fun h => h⟩,
    checked.markRowFailed (by simp [saved]) now error⟩
  rw [saved]
  exact .fail

theorem lawful_beginInbound (uuid adapterId : String) (message : InboundMessage)
    (value : JsValue) (correlationId : Option String) (fresh : IdempotencyRow → Prop)
    (allowed : fresh (newRow now message.conversationKey (correlationId.getD uuid)
      (canonicalPayloadHash d value))) :
    Lawful fresh s (s.beginInbound d now uuid adapterId message value correlationId) := by
  unfold beginInbound
  split
  · exact lawful_throw _
  split
  · exact lawful_throw _
  split
  · exact lawful_throw _
  dsimp only
  split
  case h_1 vacant => exact .inr ⟨_, _, rfl, .created _ vacant allowed⟩
  case h_2 existing found =>
      split
      · exact lawful_throw _
      · exact lawful_same _

theorem lawful_discardPendingInbound (key : MessageKey) :
    Lawful fresh s (s.discardPendingInbound key) := by
  unfold discardPendingInbound requireChange
  split
  case isTrue zero =>
      rw [deleteWhere_of_zero zero]
      exact lawful_throw _
  case isFalse some =>
      unfold deleteWhere at some ⊢
      split at some
      case isFalse => exact absurd rfl some
      case isTrue accepted =>
          rw [if_pos accepted]
          obtain ⟨row, found, states⟩ := (Option.any_eq_true _ _).mp accepted
          simp only [Bool.and_eq_true, decide_eq_true_eq] at states
          exact .inr ⟨(), _, rfl, .discarded found states.1.1 states.1.2⟩

theorem lawful_markIngestComplete (key : MessageKey) :
    Lawful fresh s (s.markIngestComplete now key) := by
  refine lawful_update (fun k row _ checked => ?_) _
  exact ⟨⟨rfl, rfl, rfl, .inl rfl, fun _ h => h, fun _ => rfl⟩, checked.response,
    checked.errorText⟩

theorem lawful_saveResponse (key : MessageKey) (event : OutboundEvent) :
    Lawful fresh s (s.saveResponse now key event) := by
  unfold saveResponse
  split
  · exact lawful_throw _
  split
  · exact lawful_throw _
  split
  · exact lawful_throw _
  split
  · exact lawful_throw _
  · refine lawful_update (fun k row pending checked => ?_) _
    simp only [Bool.and_eq_true, decide_eq_true_eq] at pending
    exact moves_saveEvent event pending.2 checked

theorem lawful_markSent (key : MessageKey) : Lawful fresh s (s.markSent now key) := by
  refine lawful_update (fun k row unsent checked => ?_) _
  simp only [Bool.and_eq_true, Bool.or_eq_true, decide_eq_true_eq] at unsent
  exact moves_markRowSent unsent.2 checked

theorem lawful_markFailed (key : MessageKey) (error : String) :
    Lawful fresh s (s.markFailed now key error) := by
  refine lawful_update (fun k row saved checked => ?_) _
  simp only [Bool.and_eq_true, decide_eq_true_eq] at saved
  exact moves_markRowFailed error saved.2 checked

/-- As many rows change as have been counted. -/
theorem lawful_updateCorrelation {adapterId correlationId : String}
    {states : DeliveryState → Bool} {counted : ℕ} {set : IdempotencyRow → IdempotencyRow}
    (count : counted = countIn (s.getEntriesByCorrelation adapterId correlationId) states)
    (moves : ∀ row, states row.deliveryState = true → row.Checked →
      row.Moves (set row) ∧ (set row).Checked) (changed : String) :
    Lawful fresh s (s.updateCorrelation adapterId correlationId states counted set changed) := by
  unfold updateCorrelation
  split
  · exact lawful_same ()
  · dsimp only
    rw [changes_eq_countIn, if_neg (by rw [count]; simp)]
    refine .inr ⟨(), _, rfl, .updated _ _ fun key row here checked => ?_⟩
    simp only [inState, Bool.and_eq_true] at here
    exact moves row here.2 checked

theorem lawful_saveResponseForCorrelation (adapterId correlationId : String)
    (event : OutboundEvent) :
    Lawful fresh s (s.saveResponseForCorrelation now adapterId correlationId event) := by
  unfold saveResponseForCorrelation
  split
  · exact lawful_throw _
  split
  · exact lawful_throw _
  dsimp only
  split
  · exact lawful_throw _
  split
  · exact lawful_throw _
  · exact lawful_updateCorrelation rfl (fun row pending checked =>
      moves_saveEvent event (by simpa using pending) checked) _

/-- No row of the correlation is pending when an outcome is recorded. -/
theorem not_pending_of_outcome {entries : List (MessageKey × IdempotencyRow)}
    {eventId words : String} (free : entries.findSome? (outcomeObstacle eventId words) = none) :
    ∀ e ∈ entries, e.2.deliveryState ≠ .pending := by
  intro e mem pending
  have := List.findSome?_eq_none_iff.mp free e mem
  simp [outcomeObstacle, pending] at this

theorem lawful_markCorrelationSent (adapterId correlationId eventId : String) :
    Lawful fresh s (s.markCorrelationSent now adapterId correlationId eventId) := by
  unfold markCorrelationSent
  dsimp only
  split
  · exact lawful_throw _
  case h_2 free =>
      refine lawful_updateCorrelation ?_ (fun row unsent checked =>
        moves_markRowSent (by simpa using unsent) checked) _
      refine congrArg List.length (List.filter_congr fun e mem => ?_)
      have := not_pending_of_outcome free e mem
      cases state : e.2.deliveryState <;> simp_all

theorem lawful_markCorrelationFailed (adapterId correlationId eventId error : String) :
    Lawful fresh s (s.markCorrelationFailed now adapterId correlationId eventId error) := by
  unfold markCorrelationFailed
  dsimp only
  split
  · exact lawful_throw _
  · exact lawful_updateCorrelation rfl (fun row saved checked =>
      moves_markRowFailed error (by simpa using saved) checked) _

/-- The rows that an operation may insert. -/
def Operation.Creates (d : PayloadDigest) (now : ℤ) (op : Operation) (row : IdempotencyRow) :
    Prop :=
  match op with
  | .beginInbound uuid _ message value correlationId =>
      row = newRow now message.conversationKey (correlationId.getD uuid)
        (canonicalPayloadHash d value)
  | _ => False

theorem lawful_perform (s : IdempotencyStore) (now : ℤ) (op : Operation) :
    Lawful (op.Creates d now) s (s.perform d now op) := by
  cases op with
  | beginInbound uuid adapterId message value correlationId =>
      have lawful : Lawful _ s (s.beginInbound d now uuid adapterId message value correlationId) :=
        lawful_beginInbound uuid adapterId message value correlationId (Operation.Creates d now
          (.beginInbound uuid adapterId message value correlationId)) rfl
      rcases lawful with ⟨error, threw⟩ | ⟨a, t, done, effect⟩
      · exact .inl ⟨error, by rw [perform, threw]; rfl⟩
      · exact .inr ⟨(), t, by rw [perform, done]; rfl, effect⟩
  | discardPendingInbound key => exact lawful_discardPendingInbound key
  | markIngestComplete key => exact lawful_markIngestComplete key
  | saveResponse key event => exact lawful_saveResponse key event
  | markSent key => exact lawful_markSent key
  | markFailed key error => exact lawful_markFailed key error
  | saveResponseForCorrelation adapterId correlationId event =>
      exact lawful_saveResponseForCorrelation adapterId correlationId event
  | markCorrelationSent adapterId correlationId eventId =>
      exact lawful_markCorrelationSent adapterId correlationId eventId
  | markCorrelationFailed adapterId correlationId eventId error =>
      exact lawful_markCorrelationFailed adapterId correlationId eventId error

/-! ### The rows over a run -/

/-- What becomes of a row under an effect. -/
theorem Effect.entry (effect : Effect fresh s t) (checked : s.Checked) {row : IdempotencyRow}
    (found : s.getEntry key = some row) :
    (t.getEntry key = none ∧ row.ingestState = .pending ∧ row.deliveryState = .pending) ∨
      ∃ next, t.getEntry key = some next ∧ row.Moves next := by
  cases effect with
  | same => exact .inr ⟨row, found, .refl row⟩
  | created other vacant allowed =>
      have apart : other ≠ key := by
        rintro rfl
        simp [vacant] at found
      refine .inr ⟨row, ?_, .refl row⟩
      rw [getEntry, OrderedMap.get_set, if_neg apart]
      exact found
  | @discarded other old present unaccepted unsaved =>
      by_cases here : other = key
      · subst here
        obtain rfl := Option.some.inj (present.symm.trans found)
        exact .inl ⟨by simp [getEntry], unaccepted, unsaved⟩
      · refine .inr ⟨row, ?_, .refl row⟩
        rw [getEntry, OrderedMap.get_delete, if_neg here]
        exact found
  | updated condition set moves =>
      refine .inr ⟨_, by rw [getEntry_updateWhere, found, Option.map_some], ?_⟩
      split
      · case isTrue meets => exact (moves key row meets (checked key row found)).1
      · exact .refl row

/-- A row that was not there is fresh. -/
theorem Effect.inserted (effect : Effect fresh s t) (vacant : s.getEntry key = none)
    {row : IdempotencyRow} (found : t.getEntry key = some row) : fresh row := by
  cases effect with
  | same => simp [vacant] at found
  | created other _ allowed =>
      rw [getEntry, OrderedMap.get_set] at found
      split at found
      · exact Option.some.inj found ▸ allowed
      · rw [getEntry] at vacant
        simp [vacant] at found
  | discarded =>
      rw [getEntry, OrderedMap.get_delete] at found
      rw [getEntry] at vacant
      split at found <;> simp [vacant] at found
  | updated condition set moves =>
      rw [getEntry_updateWhere, vacant] at found
      simp at found

theorem Effect.checked (effect : Effect fresh s t) (checked : s.Checked)
    (allowed : ∀ row, fresh row → row.Checked) : t.Checked := by
  intro key row found
  cases before : s.getEntry key with
  | none => exact allowed row (effect.inserted before found)
  | some old =>
      cases effect with
      | same => exact checked key row found
      | created other vacant fresh =>
          rw [getEntry, OrderedMap.get_set] at found
          split at found
          · exact Option.some.inj found ▸ allowed _ fresh
          · exact checked key row found
      | discarded =>
          rw [getEntry, OrderedMap.get_delete] at found
          split at found
          · simp at found
          · exact checked key row found
      | updated condition set moves =>
          rw [getEntry_updateWhere, before, Option.map_some] at found
          obtain rfl := Option.some.inj found
          split
          · case isTrue meets => exact (moves key old meets (checked key old before)).2
          · exact checked key old before

theorem Operation.Creates.checked {op : Operation} {row : IdempotencyRow}
    (creates : op.Creates d now row) : row.Checked := by
  cases op with
  | beginInbound => exact creates ▸ IdempotencyRow.checked_newRow ..
  | _ => exact creates.elim

/-- The store after an operation, whether or not it has thrown. -/
theorem effect_perform (s : IdempotencyStore) (now : ℤ) (op : Operation) :
    Effect (op.Creates d now) s (s.perform d now op).2 := by
  rcases lawful_perform (d := d) s now op with ⟨error, threw⟩ | ⟨a, t, done, effect⟩
  · rw [threw]
    exact .same
  · rw [done]
    exact effect

/-- The store as a machine. -/
def machine (d : PayloadDigest) : Transition.Machine IdempotencyStore (ℤ × Operation) where
  init s := s = empty
  step s a := some (s.perform d a.1 a.2).2

theorem checked_of_reachable (reach : (machine d).Reachable Transition.Always s) : s.Checked := by
  refine reach.invariant ?_ fun s a t checked _ taken => ?_
  · rintro s rfl key row found
    simp [empty, getEntry] at found
  · obtain rfl := Option.some.inj taken
    exact (effect_perform s a.1 a.2).checked checked fun _ creates => creates.checked

/-- What a row has reached once stays reached. -/
structure Reaches (row next : IdempotencyRow) : Prop where
  response : ∀ event, row.response = some event → next.response = some event
  sent : row.deliveryState = .sent → next.deliveryState = .sent
  ingest : row.ingestState = .completed → next.ingestState = .completed

theorem reaches_of_moves {row next : IdempotencyRow} (moves : row.Moves next) :
    Reaches row next where
  response := moves.response
  sent sent := by
    rcases moves.delivery with same | step
    · exact same.trans sent
    · rw [sent] at step
      cases step
  ingest := moves.ingest

/-- A row that has been accepted stays, and so does what it has reached. -/
theorem reaches_of_run {u : IdempotencyStore} (checked : s.Checked)
    (run : (machine d).Run Transition.Always s u) {row : IdempotencyRow}
    (found : s.getEntry key = some row)
    (accepted : row.ingestState = .completed ∨ row.response ≠ none) :
    ∃ next, u.getEntry key = some next ∧ Reaches row next := by
  have all : u.Checked ∧ ∃ next, u.getEntry key = some next ∧ Reaches row next := by
    refine run.invariant (I := fun t => t.Checked ∧ ∃ next, t.getEntry key = some next ∧
      Reaches row next) ⟨checked, row, found, fun _ h => h, fun h => h, fun h => h⟩ ?_
    rintro s a t ⟨checked, middle, present, reaches⟩ - taken
    obtain rfl := Option.some.inj taken
    have effect := effect_perform (d := d) s a.1 a.2
    refine ⟨effect.checked checked fun _ creates => creates.checked, ?_⟩
    rcases effect.entry checked present with ⟨-, unaccepted, unsaved⟩ | ⟨next, later, moves⟩
    · rcases accepted with completed | saved
      · simp [reaches.ingest completed] at unaccepted
      · obtain ⟨event, some⟩ := Option.ne_none_iff_exists'.mp saved
        have none := (checked key middle present).response_eq_none unsaved
        simp [reaches.response event some] at none
    · have further := reaches_of_moves moves
      exact ⟨next, later, fun e h => further.response e (reaches.response e h),
        fun h => further.sent (reaches.sent h), fun h => further.ingest (reaches.ingest h)⟩
  exact all.2

/-- The life cycle of the rows, over every sequence of operations. -/
theorem life_cycle (reach : (machine d).Reachable Transition.Always s) :
    s.Checked ∧
    (∀ key, s.getSavedResponse key ≠ none ↔ ∃ row, s.getEntry key = some row ∧
      (row.deliveryState = .saved ∨ row.deliveryState = .failed)) ∧
    (∀ now op, (∀ error t, s.perform d now op = (.error error, t) → t = s) ∧
      (∀ key row, s.getEntry key = some row →
        ((s.perform d now op).2.getEntry key = none ∧ row.ingestState = .pending ∧
          row.deliveryState = .pending) ∨
        ∃ next, (s.perform d now op).2.getEntry key = some next ∧ row.Moves next) ∧
      (∀ key row, s.getEntry key = none → (s.perform d now op).2.getEntry key = some row →
        row.ingestState = .pending ∧ row.deliveryState = .pending)) ∧
    ∀ t, (machine d).Run Transition.Always s t → ∀ key row, s.getEntry key = some row →
      row.ingestState = .completed ∨ row.response ≠ none →
        ∃ next, t.getEntry key = some next ∧ Reaches row next := by
  have checked := checked_of_reachable reach
  refine ⟨checked, fun key => ?_, fun now op => ⟨fun error t threw => ?_, fun key row found => ?_,
    fun key row vacant found => ?_⟩, fun t run key row found accepted => ?_⟩
  · unfold getSavedResponse
    cases found : s.getEntry key with
    | none => simp
    | some row =>
        by_cases unsent : row.deliveryState = .saved ∨ row.deliveryState = .failed
        · have some := (checked key row found).response_ne_none (by
            rcases unsent with saved | failed <;> simp_all)
          simp [unsent, some]
        · simp [unsent]
  · rcases lawful_perform (d := d) s now op with ⟨_, same⟩ | ⟨_, _, done, _⟩
    · exact (Prod.mk.inj (threw.symm.trans same)).2
    · simp [threw] at done
  · exact (effect_perform s now op).entry checked found
  · have creates := (effect_perform (d := d) s now op).inserted vacant found
    cases op with
    | beginInbound =>
        rw [show row = _ from creates]
        exact ⟨rfl, rfl⟩
    | _ => exact creates.elim
  · exact reaches_of_run checked run found accepted

/-- A message as an adapter may send it. -/
def hello : ValidatedMessage where
  value := .object [("messageId", .string "m1"), ("conversationKey", .string "general"),
    ("speaker", .object [("id", .string "u1"), ("displayName", .string "Ada")]),
    ("text", .string "hello"), ("attachments", .array []), ("addressed", .bool true)]
  message := ⟨"m1", "general", none, ⟨"u1", "Ada"⟩, "hello", [], true⟩
  wellFormed := by
    have speaker : (JsValue.object [("id", .string "u1"), ("displayName", .string "Ada")]).WellFormed :=
      .object (by decide) (by simp [JsValue.WellFormed.string])
    refine .object (by decide) ?_
    simp [JsValue.WellFormed.string, JsValue.WellFormed.bool, speaker,
      JsValue.WellFormed.array (l := [])]
  valid := by decide

/-- SHA-256 on the text of that message. -/
def helloDigest : PayloadDigest where
  numberText _ := []
  sha256 text :=
    if text = "\x7b\"addressed\":true,\"attachments\":[],\"conversationKey\":\"general\",\"messageId\":\"m1\",\"speaker\":\x7b\"displayName\":\"Ada\",\"id\":\"u1\"\x7d,\"text\":\"hello\"\x7d"
    then "7781a8815e968a7de891a5aa1fc43b46d75daff5dbc316d4cda23624e3e953ad"
    else text

/-- The first delivery of that message. -/
def deliverHello : Operation := .beginInbound "c1" "chat" hello.message hello.value none

/-- The row of that message meets the constraints. -/
theorem life_cycle_hello : ∃ row,
    (empty.perform helloDigest 0 deliverHello).2.getEntry ⟨"chat", "m1"⟩ = some row ∧
      row.Checked :=
  ⟨_, rfl, (life_cycle (s := (empty.perform helloDigest 0 deliverHello).2)
    ((Transition.Machine.Reachable.of_init (M := machine helloDigest) rfl).step
      (0, deliverHello) trivial rfl)).1 ⟨"chat", "m1"⟩ _ rfl⟩

/-! ### What `beginInbound` says of a message -/

/-- The object that an operation inserts a row for. -/
def Operation.value? : Operation → Option JsValue
  | .beginInbound _ _ _ value _ => some value
  | _ => none

/-- The messages of an operation have been validated. -/
def Operation.Valid : Operation → Prop
  | .beginInbound _ _ message value _ =>
      value.WellFormed ∧ validateInboundMessage value = some message
  | _ => True

/-- A message without a row gets a fresh one. -/
theorem beginInbound_vacant {uuid adapterId : String} {message : InboundMessage}
    {value : JsValue} {correlationId : Option String} (named : adapterId ≠ "")
    (identified : message.messageId ≠ "") (given : correlationId ≠ some "")
    (vacant : s.getEntry ⟨adapterId, message.messageId⟩ = none) :
    s.beginInbound d now uuid adapterId message value correlationId =
      (.ok (.created (correlationId.getD uuid)), ⟨s.rows.set ⟨adapterId, message.messageId⟩
        (newRow now message.conversationKey (correlationId.getD uuid)
          (canonicalPayloadHash d value))⟩) := by
  rw [beginInbound, if_neg named, if_neg identified, if_neg given]
  simp only [vacant]

/-- A message with a row is compared with it. -/
theorem beginInbound_found {uuid adapterId : String} {message : InboundMessage}
    {value : JsValue} {correlationId : Option String} (named : adapterId ≠ "")
    (identified : message.messageId ≠ "") (given : correlationId ≠ some "")
    {row : IdempotencyRow} (found : s.getEntry ⟨adapterId, message.messageId⟩ = some row) :
    s.beginInbound d now uuid adapterId message value correlationId =
      if row.payloadHash ≠ canonicalPayloadHash d value then
        (.error (.idempotencyConflict adapterId message.messageId (canonicalPayloadHash d value)
          row.payloadHash), s)
      else (.ok (classifyExisting row), s) := by
  rw [beginInbound, if_neg named, if_neg identified, if_neg given]
  simp only [found]

end IdempotencyStore

/-- A store, and the message that each of its rows was created with, of
which the store keeps the hash only. -/
structure RecordedStore where
  store : IdempotencyStore
  recorded : MessageKey → Option JsValue

namespace RecordedStore

open IdempotencyStore

variable {d : PayloadDigest} {r : RecordedStore} {now : ℤ}

/-- Call an operation, and remember the message of a row that it inserts. -/
def perform (d : PayloadDigest) (r : RecordedStore) (now : ℤ) (op : Operation) : RecordedStore :=
  let t := (r.store.perform d now op).2
  ⟨t, fun key =>
    if (t.getEntry key).isNone then none
    else if (r.store.getEntry key).isNone then op.value?
    else r.recorded key⟩

/-- A recorded message was recorded before, or is that of the operation. -/
theorem recorded_perform {op : Operation} {key : MessageKey} {value : JsValue}
    (known : (r.perform d now op).recorded key = some value) :
    op.value? = some value ∨ r.recorded key = some value := by
  simp only [perform] at known
  split at known
  · simp at known
  · split at known
    · exact .inl known
    · exact .inr known

/-- The store as a machine that remembers the messages. -/
def machine (d : PayloadDigest) : Transition.Machine RecordedStore (ℤ × Operation) where
  init r := r = ⟨.empty, fun _ => none⟩
  step r a := some (r.perform d a.1 a.2)

/-- Every operation is called with validated messages. -/
def Valid (_ : RecordedStore) (a : ℤ × Operation) : Prop := a.2.Valid

/-- Every row has the hash of its message. -/
structure Faithful (d : PayloadDigest) (r : RecordedStore) : Prop where
  checked : r.store.Checked
  hash : ∀ key row, r.store.getEntry key = some row → ∃ value, r.recorded key = some value ∧
    value.Plain ∧ row.payloadHash = canonicalPayloadHash d value

theorem Faithful.perform (faithful : r.Faithful d) {op : Operation} (valid : op.Valid) :
    (r.perform d now op).Faithful d := by
  have effect := effect_perform (d := d) r.store now op
  refine ⟨effect.checked faithful.checked fun _ creates => creates.checked,
    fun key row found => ?_⟩
  have found : (r.store.perform d now op).2.getEntry key = some row := found
  simp only [RecordedStore.perform, found, Option.isNone_some, Bool.false_eq_true, if_false]
  cases before : r.store.getEntry key with
  | none =>
      have creates := effect.inserted before found
      cases op with
      | beginInbound uuid adapterId message value correlationId =>
          rw [show row = _ from creates]
          exact ⟨value, rfl, (ValidatedMessage.mk value message valid.1 valid.2).plain, rfl⟩
      | _ => exact creates.elim
  | some old =>
      obtain ⟨value, known, plain, hash⟩ := faithful.hash key old before
      rcases effect.entry faithful.checked before with ⟨gone, -⟩ | ⟨next, later, moves⟩
      · simp [found] at gone
      · obtain rfl := Option.some.inj (later.symm.trans found)
        exact ⟨value, known, plain, moves.payloadHash.trans hash⟩

theorem faithful_of_reachable (reach : (machine d).Reachable Valid r) : r.Faithful d := by
  refine reach.invariant ?_ fun s a t faithful valid taken => ?_
  · rintro r rfl
    refine ⟨fun key row found => ?_, fun key row found => ?_⟩ <;>
      simp [IdempotencyStore.empty, getEntry] at found
  · obtain rfl := Option.some.inj taken
    exact faithful.perform valid

/-- The correlation of a row that is classified is the row's. -/
theorem classifyExisting_spec (row : IdempotencyRow) :
    (classifyExisting row).correlationId = row.correlationId ∧
      ∀ correlationId, classifyExisting row ≠ .created correlationId := by
  unfold classifyExisting
  split <;> exact ⟨rfl, by simp⟩

/-- `beginInbound` creates a row exactly if there is none; for a row that is
there, the message counts as the recorded one exactly if it is equal to it
up to the order of properties and undefined ones, and nothing is changed in
either case. What identifies a row never changes. -/
theorem begin_classifies (reach : (machine d).Reachable Valid r) (uuid adapterId : String)
    (m : ValidatedMessage) (correlationId : Option String) (named : adapterId ≠ "")
    (given : correlationId ≠ some "")
    (injective : ∀ key value, r.recorded key = some value →
      d.sha256 (d.canonicalText value) = d.sha256 (d.canonicalText m.value) →
        d.canonicalText value = d.canonicalText m.value) :
    let key : MessageKey := ⟨adapterId, m.message.messageId⟩
    let begun := r.store.beginInbound d now uuid adapterId m.message m.value correlationId
    (r.store.getEntry key = none ↔ ∃ c, begun.1 = .ok (.created c)) ∧
    (r.store.getEntry key = none → begun.1 = .ok (.created (correlationId.getD uuid)) ∧
      begun.2.getEntry key = some (newRow now m.message.conversationKey (correlationId.getD uuid)
        (canonicalPayloadHash d m.value)) ∧
      ∀ other, other ≠ key → begun.2.getEntry other = r.store.getEntry other) ∧
    (∀ row, r.store.getEntry key = some row → begun.2 = r.store ∧
      ∃ value, r.recorded key = some value ∧
        (value.Similar m.value → ∃ result, begun.1 = .ok result ∧
          result.correlationId = row.correlationId) ∧
        (¬ value.Similar m.value → begun.1 = .error (.idempotencyConflict adapterId
          m.message.messageId (canonicalPayloadHash d m.value) row.payloadHash))) ∧
    ∀ time op other row next, r.store.getEntry other = some row →
      (r.perform d time op).store.getEntry other = some next →
        next.correlationId = row.correlationId ∧ next.conversationKey = row.conversationKey ∧
          next.payloadHash = row.payloadHash := by
  have faithful := faithful_of_reachable reach
  have identified := m.messageId_ne
  intro key begun
  refine ⟨⟨fun vacant => ?_, fun created => ?_⟩, fun vacant => ?_, fun row found => ?_,
    fun time op other row next before after => ?_⟩
  · exact ⟨_, by rw [show begun = _ from beginInbound_vacant named identified given vacant]⟩
  · obtain ⟨c, created⟩ := created
    cases found : r.store.getEntry key with
    | none => rfl
    | some row =>
        rw [show begun = _ from beginInbound_found named identified given found] at created
        split at created
        · simp at created
        · exact absurd (Except.ok.inj created) ((classifyExisting_spec row).2 c)
  · rw [show begun = _ from beginInbound_vacant named identified given vacant]
    refine ⟨rfl, by simp [getEntry, key], fun other apart => ?_⟩
    rw [getEntry, OrderedMap.get_set, if_neg (Ne.symm apart)]
    rfl
  · obtain ⟨value, known, plain, hash⟩ := faithful.hash key row found
    have same : value.Similar m.value ↔ row.payloadHash = canonicalPayloadHash d m.value := by
      rw [← plain.stringify_canonicalize_iff d.numberText m.plain, hash]
      exact ⟨congrArg d.sha256, injective key value known⟩
    rw [show begun = _ from beginInbound_found named identified given found]
    refine ⟨by split <;> rfl, value, known, fun similar => ?_, fun different => ?_⟩
    · rw [if_neg (not_not.mpr (same.mp similar))]
      exact ⟨_, rfl, (classifyExisting_spec row).1⟩
    · rw [if_pos fun equal => different (same.mpr equal)]
  · have effect := effect_perform (d := d) r.store time op
    rcases effect.entry faithful.checked before with ⟨gone, -⟩ | ⟨later, present, moves⟩
    · have after : (r.store.perform d time op).2.getEntry other = some next := after
      simp [gone] at after
    · obtain rfl := Option.some.inj (present.symm.trans after)
      exact ⟨moves.correlationId, moves.conversationKey, moves.payloadHash⟩

/-- A replay of it gets the correlation of the first delivery. -/
theorem begin_classifies_hello : ∃ result,
    ((RecordedStore.perform helloDigest ⟨.empty, fun _ => none⟩ 0 deliverHello).store.beginInbound
      helloDigest 1 "c2" "chat" hello.message hello.value none).1 = .ok result ∧
        result.correlationId = "c1" := by
  have reach : (machine helloDigest).Reachable Valid
      (RecordedStore.perform helloDigest ⟨.empty, fun _ => none⟩ 0 deliverHello) :=
    (Transition.Machine.Reachable.of_init rfl).step (0, deliverHello)
      ⟨hello.wellFormed, hello.valid⟩ rfl
  have classified := @begin_classifies _ _ 1 reach "c2" "chat" hello none (by decide)
    (by decide) fun key value known _ => by
      rcases recorded_perform known with here | before
      · rw [← Option.some.inj here]
      · simp at before
  obtain ⟨-, value, known, replay, -⟩ := classified.2.2.1 _ rfl
  obtain rfl : hello.value = value := Option.some.inj known
  exact replay (.refl _)

end RecordedStore

end OmpBundler.Core
