import Mathlib.Data.Rat.Defs
import Mathlib.Algebra.Order.Ring.Rat
import OmpBundler.Contracts
import OmpBundler.Core.AdapterRegistry
import OmpBundler.Library.OrderedMap

/-!
The buffer of ambient messages, and the window in which they start turns.

Each conversation has a backlog, the deadline of its engagement window and
the time of its last arrival. An arrival is kept in the backlog or releases
it, and a sweep releases the backlogs of the conversations that have gone
quiet. A window that has expired is closed when somebody looks at it.

The clock is an argument, read once for each call; it may go backwards.
-/

namespace OmpBundler.Core

open Library

/-- The options that the constructor accepts, in milliseconds. -/
structure IngestBufferOptions where
  engagementWindowMs : ℚ
  /-- Zero disables holding. -/
  quietPeriodMs : ℚ
  engagementWindowMs_pos : 0 < engagementWindowMs
  quietPeriodMs_nonneg : 0 ≤ quietPeriodMs

/-- How the supervisor is to start a turn. -/
inductive ActivationMode where
  | prompt
  | steer
  | followUp
  deriving DecidableEq, Repr

/-- An arrival, with the identity of its message. -/
structure BufferedRecord where
  adapterId : String
  conversationKey : String
  messageId : String
  speaker : Speaker
  text : String
  attachments : List WorkspaceAttachment
  addressed : Bool
  receivedAt : ℚ
  deriving DecidableEq, Repr

/-- The conversation that a record belongs to. -/
def BufferedRecord.conversation (record : BufferedRecord) : Conversation :=
  ⟨record.adapterId, record.conversationKey⟩

/-- What becomes of an arrival. -/
inductive IngestResult where
  | buffered (record : BufferedRecord) (backlogDepth : ℕ)
  | activate (mode : ActivationMode) (records : List BufferedRecord) (prompt : String)
  deriving DecidableEq, Repr

/-- What can be seen of a conversation. -/
structure ConversationStatus where
  active : Bool
  backlogDepth : ℕ
  windowDeadline : Option ℚ
  deriving DecidableEq, Repr

/-- A backlog that is released because the conversation has gone quiet. -/
structure SettledActivation where
  adapterId : String
  conversationKey : String
  records : List BufferedRecord
  prompt : String
  deriving DecidableEq, Repr

/-! ### Rendering -/

/-- A part of a line that is there if its text is present and not empty. -/
def renderOptional (label : String) : Option String → String
  | none => ""
  | some text => if text = "" then "" else " [" ++ label ++ ": " ++ text ++ "]"

/-- The line of an attachment. -/
def renderAttachment (attachment : WorkspaceAttachment) : String :=
  "  - " ++ attachment.path ++ renderOptional "name" attachment.name
    ++ renderOptional "mediaType" attachment.mediaType

/-- One record as text, with the identity of its speaker. -/
def renderRecord (record : BufferedRecord) : String :=
  "\n".intercalate
    ([record.speaker.displayName ++ " (id: " ++ record.speaker.id ++ ")"]
      ++ (if record.text = "" then [] else [record.text])
      ++ record.attachments.map renderAttachment)

/-- Several records as one prompt. -/
def renderPrompt (records : List BufferedRecord) : String :=
  "\n\n".intercalate (records.map renderRecord)

/-! ### The state -/

/-- The state of one conversation. -/
structure ConversationState where
  backlog : List BufferedRecord
  /-- The deadline of the open window, none when it is closed. -/
  windowDeadline : Option ℚ
  lastArrivalAt : ℚ
  deriving DecidableEq, Repr

/-- Whether an unexpired window is open. -/
def ConversationState.isActive (state : ConversationState) (now : ℚ) : Bool :=
  state.windowDeadline.any (now < ·)

/-- The conversations by their storage key. -/
structure IngestBuffer where
  states : OrderedMap String ConversationState

/-- The record of an arrival. -/
def toRecord (adapterId : String) (message : InboundMessage) (receivedAt : ℚ) :
    BufferedRecord where
  adapterId := adapterId
  conversationKey := message.conversationKey
  messageId := message.messageId
  speaker := message.speaker
  text := message.text
  attachments := message.attachments
  addressed := message.addressed
  receivedAt := receivedAt

namespace IngestBuffer

/-- No conversation is known yet. -/
def empty : IngestBuffer := ⟨.empty⟩

/-- The state of a conversation, a fresh one if there is none. -/
def stateFor (b : IngestBuffer) (key : String) : ConversationState :=
  (b.states.get key).getD ⟨[], none, 0⟩

/-- Store the state of a conversation. -/
def setState (b : IngestBuffer) (key : String) (state : ConversationState) : IngestBuffer :=
  ⟨b.states.set key state⟩

/-- The backlog of a conversation. -/
def backlog (b : IngestBuffer) (conversation : Conversation) : List BufferedRecord :=
  (b.stateFor conversation.id).backlog

variable (o : IngestBufferOptions)

/-- Ingest one message and decide whether it starts a turn. -/
def ingest (b : IngestBuffer) (now : ℚ) (adapterId : String) (message : InboundMessage)
    (streaming : Bool) : IngestResult × IngestBuffer :=
  let key := conversationStorageKey adapterId message.conversationKey
  let record := toRecord adapterId message now
  let state := b.stateFor key
  let sinceLastArrival := now - state.lastArrivalAt
  let records := state.backlog ++ [record]
  -- the turn takes the whole backlog along and opens the window anew
  let activate (mode : ActivationMode) : IngestResult × IngestBuffer :=
    (.activate mode records (renderPrompt records),
      b.setState key ⟨[], some (now + o.engagementWindowMs), now⟩)
  if message.addressed then activate (if streaming then .steer else .prompt)
  else if state.isActive now then
    -- people who are talking to each other are not interrupted
    if 0 < o.quietPeriodMs ∧ sinceLastArrival < o.quietPeriodMs then
      (.buffered record records.length,
        b.setState key { state with backlog := records, lastArrivalAt := now })
    else activate (if streaming then .followUp else .prompt)
  else (.buffered record records.length, b.setState key ⟨records, none, now⟩)

/-- The loop of the sweep over the conversations that it has left. -/
def sweepEntries (now : ℚ) : IngestBuffer → List (String × ConversationState) →
    List SettledActivation × IngestBuffer
  | b, [] => ([], b)
  | b, (key, state) :: rest =>
      match state.backlog with
      | [] => b.sweepEntries now rest
      | first :: more =>
          if now - state.lastArrivalAt < o.quietPeriodMs then b.sweepEntries now rest
          else if state.isActive now then
            let records := first :: more
            let swept := (b.setState key { state with
              backlog := [], windowDeadline := some (now + o.engagementWindowMs) }).sweepEntries
                now rest
            (⟨first.adapterId, first.conversationKey, records, renderPrompt records⟩ :: swept.1,
              swept.2)
          -- outside the window a backlog is context, and no turn of its own
          else b.sweepEntries now rest

/-- Release the backlogs of the conversations that have gone quiet. -/
def sweepSettled (b : IngestBuffer) (now : ℚ) : List SettledActivation × IngestBuffer :=
  if o.quietPeriodMs ≤ 0 then ([], b) else b.sweepEntries o now b.states.entries

/-- Close the window of a conversation; its backlog stays. -/
def dismiss (b : IngestBuffer) (now : ℚ) (adapterId conversationKey : String) :
    Bool × IngestBuffer :=
  let key := conversationStorageKey adapterId conversationKey
  match b.states.get key with
  | none => (false, b)
  | some state =>
      if state.windowDeadline = none then (false, b)
      else (state.isActive now, b.setState key { state with windowDeadline := none })

/-- Extend the window of a conversation that is engaged. -/
def recordInteraction (b : IngestBuffer) (now : ℚ) (adapterId conversationKey : String) :
    Bool × IngestBuffer :=
  let key := conversationStorageKey adapterId conversationKey
  match b.states.get key with
  | none => (false, b)
  | some state =>
      if state.isActive now then
        (true, b.setState key { state with windowDeadline := some (now + o.engagementWindowMs) })
      else (false, b)

/-- The status of a conversation; a stale deadline is pruned. -/
def inspect (b : IngestBuffer) (now : ℚ) (adapterId conversationKey : String) :
    ConversationStatus × IngestBuffer :=
  let key := conversationStorageKey adapterId conversationKey
  match b.states.get key with
  | none => (⟨false, 0, none⟩, b)
  | some state =>
      let active := state.isActive now
      (⟨active, state.backlog.length, if active then state.windowDeadline else none⟩,
        if !active && state.windowDeadline.isSome then
          b.setState key { state with windowDeadline := none }
        else b)

/-! ### Sequences of calls -/

/-- A call of one of the methods. -/
inductive Call where
  | ingest (adapterId : String) (message : InboundMessage) (streaming : Bool)
  | sweepSettled
  | dismiss (adapterId conversationKey : String)
  | recordInteraction (adapterId conversationKey : String)
  | inspect (adapterId conversationKey : String)
  deriving DecidableEq, Repr

/-- What a call returns. -/
inductive Outcome where
  | ingested (result : IngestResult)
  | swept (due : List SettledActivation)
  | dismissed (closed : Bool)
  | recorded (extended : Bool)
  | inspected (status : ConversationStatus)
  deriving DecidableEq, Repr

/-- A call, with the reading of the clock. -/
structure TimedCall where
  now : ℚ
  call : Call
  deriving DecidableEq, Repr

/-- Make a call. -/
def perform (b : IngestBuffer) (c : TimedCall) : Outcome × IngestBuffer :=
  match c.call with
  | .ingest adapterId message streaming =>
      (b.ingest o c.now adapterId message streaming).map .ingested id
  | .sweepSettled => (b.sweepSettled o c.now).map .swept id
  | .dismiss adapterId conversationKey =>
      (b.dismiss c.now adapterId conversationKey).map .dismissed id
  | .recordInteraction adapterId conversationKey =>
      (b.recordInteraction o c.now adapterId conversationKey).map .recorded id
  | .inspect adapterId conversationKey =>
      (b.inspect c.now adapterId conversationKey).map .inspected id

/-- Make one call after the other; what each of them returns is listed with
the call. -/
def run : IngestBuffer → List TimedCall → List (TimedCall × Outcome) × IngestBuffer
  | b, [] => ([], b)
  | b, c :: rest =>
      let performed := b.perform o c
      let later := performed.2.run rest
      ((c, performed.1) :: later.1, later.2)

/-- The records that a call ingests for a conversation. -/
def TimedCall.ingests (conversation : Conversation) (c : TimedCall) : List BufferedRecord :=
  match c.call with
  | .ingest adapterId message _ =>
      if (⟨adapterId, message.conversationKey⟩ : Conversation) = conversation then
        [toRecord adapterId message c.now]
      else []
  | _ => []

/-- The records of a sweep's activations for a conversation. -/
def settledRecords (conversation : Conversation) (due : List SettledActivation) :
    List BufferedRecord :=
  due.flatMap fun a =>
    if (⟨a.adapterId, a.conversationKey⟩ : Conversation) = conversation then a.records else []

/-- The records that a call returns in activations of a conversation. -/
def releases (conversation : Conversation) : TimedCall × Outcome → List BufferedRecord
  | (⟨_, .ingest adapterId message _⟩, .ingested (.activate _ records _)) =>
      if (⟨adapterId, message.conversationKey⟩ : Conversation) = conversation then records else []
  | (_, .swept due) => settledRecords conversation due
  | _ => []

/-! ### Every record is kept until it is released -/

variable {o} {b : IngestBuffer} {now : ℚ} {adapterId conversationKey key : String}
  {conversation : Conversation}

/-- Every backlog holds records of its own conversation only. -/
def Sorted (b : IngestBuffer) : Prop :=
  ∀ key state, b.states.get key = some state → ∀ r ∈ state.backlog, r.conversation.id = key

theorem sorted_empty : Sorted .empty := by
  intro key state found
  simp [empty] at found

theorem stateFor_of_get {state : ConversationState} (found : b.states.get key = some state) :
    b.stateFor key = state := by
  rw [stateFor, found, Option.getD_some]

theorem Sorted.stateFor (h : b.Sorted) (key : String) :
    ∀ r ∈ (b.stateFor key).backlog, r.conversation.id = key := by
  intro r mem
  cases found : b.states.get key with
  | none => simp [IngestBuffer.stateFor, found] at mem
  | some state =>
      rw [stateFor_of_get found] at mem
      exact h key state found r mem

theorem Sorted.setState (h : b.Sorted) {state : ConversationState}
    (own : ∀ r ∈ state.backlog, r.conversation.id = key) : (b.setState key state).Sorted := by
  intro other found
  simp only [IngestBuffer.setState, OrderedMap.get_set]
  split
  · rintro same r mem
    case isTrue here =>
      obtain rfl := Option.some.inj same
      exact here ▸ own r mem
  · exact h other found

theorem stateFor_setState (b : IngestBuffer) (key other : String) (state : ConversationState) :
    (b.setState key state).stateFor other = if key = other then state else b.stateFor other := by
  rw [stateFor, setState, OrderedMap.get_set]
  split <;> rfl

theorem backlog_setState (b : IngestBuffer) (key : String) (state : ConversationState) :
    (b.setState key state).backlog conversation =
      if key = conversation.id then state.backlog else b.backlog conversation := by
  rw [backlog, stateFor_setState]
  split <;> rfl

/-- A new state with the old backlog changes no backlog. -/
theorem backlog_setState_same {state : ConversationState}
    (same : state.backlog = (b.stateFor key).backlog) :
    (b.setState key state).backlog conversation = b.backlog conversation := by
  rw [backlog_setState]
  split
  · case isTrue here => rw [same, here, backlog]
  · rfl

/-- The key of a call's conversation. -/
theorem key_eq_id_iff : conversationStorageKey adapterId conversationKey = conversation.id ↔
    (⟨adapterId, conversationKey⟩ : Conversation) = conversation :=
  Conversation.id_injective.eq_iff (a := ⟨adapterId, conversationKey⟩) (b := conversation)

/-- What a call has to keep: it releases the front of what was there and
what it has ingested, and the rest of it stays. -/
structure Conserves (b : IngestBuffer) (c : TimedCall) (performed : Outcome × IngestBuffer) :
    Prop where
  records : ∀ conversation, releases conversation (c, performed.1) ++
    performed.2.backlog conversation = b.backlog conversation ++ c.ingests conversation
  sorted : performed.2.Sorted

theorem conserves_ingest (sorted : b.Sorted) (message : InboundMessage) (streaming : Bool) :
    Conserves b ⟨now, .ingest adapterId message streaming⟩
      ((b.ingest o now adapterId message streaming).map .ingested id) := by
  let key := conversationStorageKey adapterId message.conversationKey
  let records := (b.stateFor key).backlog ++ [toRecord adapterId message now]
  have own : ∀ r ∈ records, r.conversation.id = key := by
    intro r mem
    rcases List.mem_append.mp mem with old | new
    · exact sorted.stateFor key r old
    · obtain rfl := List.mem_singleton.mp new
      rfl
  -- the backlog of the conversation, with the new record
  have whole (conversation : Conversation) :
      b.backlog conversation ++ TimedCall.ingests conversation
        ⟨now, .ingest adapterId message streaming⟩ =
      if key = conversation.id then records else b.backlog conversation := by
    show b.backlog conversation ++ (if (⟨adapterId, message.conversationKey⟩ : Conversation)
      = conversation then [toRecord adapterId message now] else []) = _
    by_cases here : key = conversation.id
    · rw [if_pos here, if_pos (key_eq_id_iff.mp here), backlog, ← here]
    · rw [if_neg here, if_neg fun same => here (key_eq_id_iff.mpr same), List.append_nil]
  have held (state : ConversationState) (kept : state.backlog = records) (depth : ℕ) :
      Conserves b ⟨now, .ingest adapterId message streaming⟩
        (.ingested (.buffered (toRecord adapterId message now) depth), b.setState key state) := by
    refine ⟨fun conversation => ?_, sorted.setState (kept ▸ own)⟩
    rw [whole, backlog_setState, kept]
    rfl
  have released (mode : ActivationMode) (state : ConversationState) (none : state.backlog = []) :
      Conserves b ⟨now, .ingest adapterId message streaming⟩
        (.ingested (.activate mode records (renderPrompt records)), b.setState key state) := by
    refine ⟨fun conversation => ?_, sorted.setState (by simp [none])⟩
    rw [whole, backlog_setState, none, releases]
    by_cases here : key = conversation.id
    · rw [if_pos here, if_pos here, if_pos (key_eq_id_iff.mp here), List.append_nil]
    · rw [if_neg here, if_neg here, if_neg fun same => here (key_eq_id_iff.mpr same),
        List.nil_append]
  unfold IngestBuffer.ingest
  dsimp only
  split
  · exact released _ _ rfl
  split
  · split
    · exact held _ rfl _
    · exact released _ _ rfl
  · exact held _ rfl _

/-- What the sweep takes out of the backlogs it returns. -/
theorem sweepEntries_conserves (o : IngestBufferOptions) (now : ℚ)
    (entries : List (String × ConversationState)) :
    ∀ b : IngestBuffer, b.Sorted → (entries.map Prod.fst).Nodup →
      (∀ e ∈ entries, b.states.get e.1 = some e.2) →
      (∀ conversation, settledRecords conversation (b.sweepEntries o now entries).1 ++
        (b.sweepEntries o now entries).2.backlog conversation = b.backlog conversation) ∧
      (b.sweepEntries o now entries).2.Sorted := by
  induction entries with
  | nil => exact fun b sorted _ _ => ⟨fun _ => rfl, sorted⟩
  | cons entry rest ih =>
      obtain ⟨key, state⟩ := entry
      intro b sorted distinct current
      obtain ⟨fresh, distinct⟩ := List.nodup_cons.mp distinct
      have found : b.states.get key = some state := current _ List.mem_cons_self
      have later : ∀ e ∈ rest, b.states.get e.1 = some e.2 := fun e mem =>
        current e (List.mem_cons_of_mem _ mem)
      have skipped := ih b sorted distinct later
      unfold IngestBuffer.sweepEntries
      split
      · exact skipped
      case h_2 first more backlog =>
          split
          · exact skipped
          split
          case isFalse => exact skipped
          case isTrue =>
              -- the first record says whose backlog it is
              have owner : first.conversation.id = key :=
                sorted key state found first (by rw [backlog]; exact List.mem_cons_self)
              obtain ⟨conserved, sorted'⟩ := ih
                (b.setState key { state with
                  backlog := [], windowDeadline := some (now + o.engagementWindowMs) })
                (sorted.setState (by simp)) distinct (fun e mem => by
                  have listed : e.1 ∈ rest.map Prod.fst := List.mem_map_of_mem mem
                  have other : key ≠ e.1 := fun same => fresh (same ▸ listed)
                  rw [setState, OrderedMap.get_set, if_neg other]
                  exact later e mem)
              refine ⟨fun conversation => ?_, sorted'⟩
              have split := conserved conversation
              rw [backlog_setState] at split
              show ((if first.conversation = conversation then first :: more else []) ++
                settledRecords conversation _) ++ _ = _
              rw [List.append_assoc, split]
              by_cases here : key = conversation.id
              · have same : first.conversation = conversation :=
                  Conversation.id_injective (owner.trans here)
                rw [if_pos here, List.append_nil, if_pos same, IngestBuffer.backlog, ← here,
                  stateFor_of_get found, backlog]
              · have other : first.conversation ≠ conversation := fun same =>
                  here (owner ▸ congrArg Conversation.id same)
                rw [if_neg here, if_neg other, List.nil_append]

/-- A call that neither ingests nor releases, and leaves the backlogs alone. -/
theorem conserves_of_backlog {c : TimedCall} {outcome : Outcome} {later : IngestBuffer}
    (idle : ∀ conversation, c.ingests conversation = [])
    (silent : ∀ conversation, releases conversation (c, outcome) = [])
    (sorted : later.Sorted) (same : ∀ conversation, later.backlog conversation =
      b.backlog conversation) : Conserves b c (outcome, later) :=
  ⟨fun conversation => by rw [silent, idle, List.nil_append, List.append_nil, same], sorted⟩

theorem conserves_perform (sorted : b.Sorted) (c : TimedCall) :
    Conserves b c (b.perform o c) := by
  obtain ⟨now, call⟩ := c
  have window {key : String} {state : ConversationState} (found : b.states.get key = some state)
      (deadline : Option ℚ) :
      (b.setState key { state with windowDeadline := deadline }).Sorted ∧
        ∀ conversation, (b.setState key { state with windowDeadline := deadline }).backlog
          conversation = b.backlog conversation :=
    ⟨sorted.setState (sorted key state found), fun _ =>
      backlog_setState_same (by rw [stateFor_of_get found])⟩
  cases call with
  | ingest adapterId message streaming => exact conserves_ingest sorted message streaming
  | sweepSettled =>
      simp only [perform, IngestBuffer.sweepSettled]
      split
      · exact ⟨fun _ => by simp [releases, settledRecords, TimedCall.ingests], sorted⟩
      · obtain ⟨records, sorted'⟩ := sweepEntries_conserves o now
          b.states.entries b sorted b.states.nodup fun e mem => b.states.mem_entries.mp mem
        refine ⟨fun conversation => ?_, sorted'⟩
        rw [TimedCall.ingests, List.append_nil]
        exact records conversation
  | dismiss adapterId conversationKey =>
      simp only [perform, IngestBuffer.dismiss]
      split
      · exact conserves_of_backlog (fun _ => rfl) (fun _ => rfl) sorted fun _ => rfl
      case h_2 state found =>
          split
          · exact conserves_of_backlog (fun _ => rfl) (fun _ => rfl) sorted fun _ => rfl
          · obtain ⟨sorted', same⟩ := window found none
            exact conserves_of_backlog (fun _ => rfl) (fun _ => rfl) sorted' same
  | recordInteraction adapterId conversationKey =>
      simp only [perform, IngestBuffer.recordInteraction]
      split
      · exact conserves_of_backlog (fun _ => rfl) (fun _ => rfl) sorted fun _ => rfl
      case h_2 state found =>
          split
          · obtain ⟨sorted', same⟩ := window found (some (now + o.engagementWindowMs))
            exact conserves_of_backlog (fun _ => rfl) (fun _ => rfl) sorted' same
          · exact conserves_of_backlog (fun _ => rfl) (fun _ => rfl) sorted fun _ => rfl
  | inspect adapterId conversationKey =>
      simp only [perform, IngestBuffer.inspect]
      split
      · exact conserves_of_backlog (fun _ => rfl) (fun _ => rfl) sorted fun _ => rfl
      case h_2 state found =>
          obtain ⟨sorted', same⟩ := window found none
          refine conserves_of_backlog (fun _ => rfl) (fun _ => rfl) ?_ ?_
          · show (ite _ _ _ : IngestBuffer).Sorted
            split
            · exact sorted'
            · exact sorted
          · intro conversation
            show (ite _ _ _ : IngestBuffer).backlog conversation = _
            split
            · exact same conversation
            · rfl

theorem run_conserves (calls : List TimedCall) : ∀ b : IngestBuffer, b.Sorted →
    ∀ conversation, (b.run o calls).1.flatMap (releases conversation) ++
      (b.run o calls).2.backlog conversation =
        b.backlog conversation ++ calls.flatMap (TimedCall.ingests conversation) := by
  induction calls with
  | nil => simp [run]
  | cons c rest ih =>
      intro b sorted conversation
      have step := conserves_perform (o := o) sorted c
      rw [run, List.flatMap_cons, List.flatMap_cons, List.append_assoc,
        ih _ step.sorted conversation, ← List.append_assoc, step.records conversation,
        List.append_assoc]

/-- A status that is not active shows no deadline. -/
theorem inspect_inactive (b : IngestBuffer) (now : ℚ) (adapterId conversationKey : String)
    (inactive : (b.inspect now adapterId conversationKey).1.active = false) :
    (b.inspect now adapterId conversationKey).1.windowDeadline = none := by
  unfold IngestBuffer.inspect at *
  dsimp only at *
  split
  · rfl
  case h_2 state found =>
      simp only [found] at inactive
      simp [inactive]

theorem status_of_run (calls : List TimedCall) : ∀ (b : IngestBuffer) (c : TimedCall)
    (status : ConversationStatus), (c, .inspected status) ∈ (b.run o calls).1 →
      status.active = false → status.windowDeadline = none := by
  induction calls with
  | nil => simp [run]
  | cons c rest ih =>
      intro b d status mem inactive
      rw [run] at mem
      rcases List.mem_cons.mp mem with here | later
      · obtain ⟨-, outcome⟩ := Prod.mk.inj here
        obtain ⟨now, call⟩ := c
        cases call with
        | inspect adapterId conversationKey =>
            obtain rfl := Outcome.inspected.inj outcome
            exact inspect_inactive b now adapterId conversationKey inactive
        | _ => simp [perform, Prod.map] at outcome
      · exact ih _ d status later inactive

/-- The records that the activations of a conversation have released,
followed by its backlog, are those that were ingested for it, in order; and
an inactive conversation shows no deadline. -/
theorem records_conserved (o : IngestBufferOptions) (calls : List TimedCall) :
    (∀ conversation, (run o .empty calls).1.flatMap (releases conversation) ++
      (run o .empty calls).2.backlog conversation =
        calls.flatMap (TimedCall.ingests conversation)) ∧
    ∀ c status, (c, .inspected status) ∈ (run o .empty calls).1 → status.active = false →
      status.windowDeadline = none := by
  refine ⟨fun conversation => ?_, status_of_run calls .empty⟩
  exact run_conserves calls .empty sorted_empty conversation

end IngestBuffer

end OmpBundler.Core
