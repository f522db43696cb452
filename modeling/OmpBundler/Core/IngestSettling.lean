import Mathlib.Tactic.Linarith
import OmpBundler.Core.IngestBuffer

/-!
When a backlog that is held back is released.

A message that arrives while the people are talking to each other is kept,
and a sweep releases it as soon as the conversation has been quiet for the
period. The window is looked at once more then, and the messages that are
kept do not extend it: a conversation that settles after the window has
expired keeps its backlog.
-/

namespace OmpBundler.Core

open Library

namespace IngestBuffer

/-- The call brings a message of the conversation. -/
def TimedCall.arrives (conversation : Conversation) (c : TimedCall) : Bool :=
  match c.call with
  | .ingest adapterId message _ =>
      decide ((⟨adapterId, message.conversationKey⟩ : Conversation) = conversation)
  | _ => false

/-- The call records an interaction of the agent in the conversation. -/
def TimedCall.interacts (conversation : Conversation) (c : TimedCall) : Bool :=
  match c.call with
  | .recordInteraction adapterId conversationKey =>
      decide ((⟨adapterId, conversationKey⟩ : Conversation) = conversation)
  | _ => false

/-- The time of the last arrival, after one at `t`. -/
def lastArrival (conversation : Conversation) : ℚ → List TimedCall → ℚ
  | t, [] => t
  | t, c :: rest => lastArrival conversation (if c.arrives conversation then c.now else t) rest

/-- The deadline of a window that only interactions extend, as long as it is
open. -/
def windowAfter (o : IngestBufferOptions) (conversation : Conversation) : ℚ → List TimedCall → ℚ
  | deadline, [] => deadline
  | deadline, c :: rest =>
      windowAfter o conversation
        (if c.interacts conversation ∧ c.now < deadline then c.now + o.engagementWindowMs
          else deadline) rest

/-- The message is ambient, and held back because the conversation is busy. -/
structure HeldBack (o : IngestBufferOptions) (b : IngestBuffer) (c : TimedCall)
    (adapterId : String) (message : InboundMessage) : Prop where
  call : ∃ streaming, c.call = .ingest adapterId message streaming
  ambient : message.addressed = false
  active : (b.stateFor (conversationStorageKey adapterId message.conversationKey)).isActive c.now
  busy : c.now -
    (b.stateFor (conversationStorageKey adapterId message.conversationKey)).lastArrivalAt <
      o.quietPeriodMs

/-- The call neither activates nor dismisses the conversation, and it is no
sweep of a conversation that has been quiet since `last`. -/
def Passes (o : IngestBufferOptions) (conversation : Conversation) (last : ℚ) :
    TimedCall × Outcome → Prop
  | (⟨_, .ingest adapterId message _⟩, .ingested (.activate ..)) =>
      (⟨adapterId, message.conversationKey⟩ : Conversation) ≠ conversation
  | (⟨_, .dismiss adapterId conversationKey⟩, _) =>
      (⟨adapterId, conversationKey⟩ : Conversation) ≠ conversation
  | (⟨now, .sweepSettled⟩, _) => now < last + o.quietPeriodMs
  | _ => True

/-- All the calls are such. -/
def Waits (o : IngestBufferOptions) (conversation : Conversation) :
    ℚ → List (TimedCall × Outcome) → Prop
  | _, [] => True
  | last, r :: rest =>
      Passes o conversation last r ∧
        Waits o conversation (lastArrival conversation last [r.1]) rest

variable {o : IngestBufferOptions} {b : IngestBuffer} {now last deadline clock : ℚ}
  {conversation : Conversation} {record : BufferedRecord} {key : String}

/-! ### Sweeps -/

/-- The sweep visits every conversation once, and the ones that it does not
visit keep their state. -/
theorem stateFor_sweepEntries_of_notMem (o : IngestBufferOptions) (now : ℚ)
    (entries : List (String × ConversationState)) (b : IngestBuffer)
    (absent : key ∉ entries.map Prod.fst) :
    (b.sweepEntries o now entries).2.stateFor key = b.stateFor key := by
  induction entries generalizing b with
  | nil => rfl
  | cons entry rest ih =>
    obtain ⟨other, state⟩ := entry
    rw [List.map_cons, List.mem_cons, not_or] at absent
    rw [sweepEntries]
    split
    · exact ih b absent.2
    · split_ifs
      · exact ih b absent.2
      · exact (ih _ absent.2).trans (by rw [stateFor_setState, if_neg (Ne.symm absent.1)])
      · exact ih b absent.2

/-- What a sweep makes of a conversation: it empties the backlog of one that
has gone quiet inside its window. -/
theorem stateFor_sweepEntries (o : IngestBufferOptions) (now : ℚ)
    (entries : List (String × ConversationState)) (b : IngestBuffer)
    (distinct : (entries.map Prod.fst).Nodup) {state : ConversationState}
    (listed : (key, state) ∈ entries) (current : b.stateFor key = state) :
    (b.sweepEntries o now entries).2.stateFor key =
      if state.backlog ≠ [] ∧ ¬ now - state.lastArrivalAt < o.quietPeriodMs ∧ state.isActive now
      then { state with backlog := [], windowDeadline := some (now + o.engagementWindowMs) }
      else state := by
  induction entries generalizing b with
  | nil => exact absurd listed List.not_mem_nil
  | cons entry rest ih =>
    obtain ⟨other, state'⟩ := entry
    obtain ⟨fresh, distinct⟩ := List.nodup_cons.mp distinct
    rcases List.mem_cons.mp listed with here | later
    · obtain ⟨rfl, rfl⟩ := Prod.mk.inj here
      rw [sweepEntries]
      split
      case h_1 empty =>
        rw [if_neg fun released => released.1 empty,
          stateFor_sweepEntries_of_notMem o now rest b fresh, current]
      case h_2 first more backlog =>
        by_cases early : now - state.lastArrivalAt < o.quietPeriodMs
        · rw [if_pos early, if_neg fun released => released.2.1 early,
            stateFor_sweepEntries_of_notMem o now rest b fresh, current]
        · rw [if_neg early]
          by_cases active : state.isActive now = true
          · rw [if_pos active, if_pos ⟨by rw [backlog]; simp, early, active⟩]
            dsimp only
            rw [stateFor_sweepEntries_of_notMem o now rest _ fresh, stateFor_setState, if_pos rfl]
          · rw [if_neg active, if_neg fun released => active released.2.2,
              stateFor_sweepEntries_of_notMem o now rest b fresh, current]
    · have listed_later : key ∈ rest.map Prod.fst := List.mem_map_of_mem (f := Prod.fst) later
      have other_key : other ≠ key := fun same => fresh (by rw [← same] at listed_later; exact listed_later)
      have skipped := ih b distinct later current
      rw [sweepEntries]
      split
      · exact skipped
      · by_cases early : now - state'.lastArrivalAt < o.quietPeriodMs
        · rw [if_pos early]
          exact skipped
        · rw [if_neg early]
          by_cases active : state'.isActive now = true
          · rw [if_pos active]
            exact ih _ distinct later (by rw [stateFor_setState, if_neg other_key, current])
          · rw [if_neg active]
            exact skipped

/-! ### A record that waits -/

/-- The record waits in the backlog of its conversation, whose last arrival
was at `last` and whose window closes at the deadline, or has been closed
after it. -/
structure Waiting (conversation : Conversation) (record : BufferedRecord)
    (last deadline clock : ℚ) (b : IngestBuffer) : Prop where
  record : record ∈ b.backlog conversation
  last : (b.stateFor conversation.id).lastArrivalAt = last
  window : (b.stateFor conversation.id).windowDeadline = some deadline ∨
    (b.stateFor conversation.id).windowDeadline = none ∧ deadline ≤ clock

theorem Waiting.get (waiting : Waiting conversation record last deadline clock b) :
    b.states.get conversation.id = some (b.stateFor conversation.id) := by
  cases found : b.states.get conversation.id with
  | none =>
    have mem := waiting.record
    rw [backlog, stateFor, found] at mem
    exact absurd mem List.not_mem_nil
  | some state => rw [stateFor, found, Option.getD_some]

theorem Waiting.isActive_iff (waiting : Waiting conversation record last deadline clock b)
    (onward : clock ≤ now) :
    (b.stateFor conversation.id).isActive now = true ↔ now < deadline := by
  rw [ConversationState.isActive]
  rcases waiting.window with opened | ⟨closed, expired⟩
  · rw [opened, Option.any_some, decide_eq_true_iff]
  · rw [closed, Option.any_none]
    simpa using expired.trans onward

/-- Nothing changes for the conversation. -/
theorem Waiting.of_same (waiting : Waiting conversation record last deadline clock b)
    (onward : clock ≤ now) {b' : IngestBuffer}
    (same : b'.stateFor conversation.id = b.stateFor conversation.id) :
    Waiting conversation record last deadline now b' where
  record := by rw [backlog, same]; exact waiting.record
  last := by rw [same]; exact waiting.last
  window := by
    rw [same]
    exact waiting.window.imp_right fun closed => ⟨closed.1, closed.2.trans onward⟩

/-- A window that has expired is closed. -/
theorem Waiting.close (waiting : Waiting conversation record last deadline clock b) (expired : deadline ≤ now) :
    Waiting conversation record last deadline now
      (b.setState conversation.id { b.stateFor conversation.id with windowDeadline := none }) where
  record := by rw [backlog, stateFor_setState, if_pos rfl]; exact waiting.record
  last := by rw [stateFor_setState, if_pos rfl]; exact waiting.last
  window := by rw [stateFor_setState, if_pos rfl]; exact .inr ⟨rfl, expired⟩

/-- A window that is open is extended. -/
theorem Waiting.extend (waiting : Waiting conversation record last deadline clock b)
    (deadline' now : ℚ) :
    Waiting conversation record last deadline' now
      (b.setState conversation.id
        { b.stateFor conversation.id with windowDeadline := some deadline' }) where
  record := by rw [backlog, stateFor_setState, if_pos rfl]; exact waiting.record
  last := by rw [stateFor_setState, if_pos rfl]; exact waiting.last
  window := by rw [stateFor_setState, if_pos rfl]; exact .inl rfl

/-- An arrival that starts no turn. -/
theorem Waiting.arrive (waiting : Waiting conversation record last deadline clock b)
    (onward : clock ≤ now) {adapterId : String} {message : InboundMessage} {streaming : Bool}
    (here : (⟨adapterId, message.conversationKey⟩ : Conversation) = conversation)
    (kept : ∀ mode records prompt,
      (b.ingest o now adapterId message streaming).1 ≠ .activate mode records prompt) :
    Waiting conversation record now deadline now
      (b.ingest o now adapterId message streaming).2 := by
  subst here
  have active := waiting.isActive_iff onward
  have there := waiting.record
  have window := waiting.window
  rw [backlog] at there
  unfold IngestBuffer.ingest at kept ⊢
  dsimp only at kept ⊢
  rw [show conversationStorageKey adapterId message.conversationKey =
    Conversation.id ⟨adapterId, message.conversationKey⟩ from rfl] at kept ⊢
  have held : record ∈ (b.stateFor (Conversation.id ⟨adapterId, message.conversationKey⟩)).backlog ++
      [toRecord adapterId message now] := List.mem_append_left _ there
  by_cases addressed : message.addressed = true
  · rw [if_pos addressed] at kept
    exact absurd rfl (kept _ _ _)
  rw [if_neg addressed] at kept ⊢
  by_cases engaged : (b.stateFor (Conversation.id ⟨adapterId, message.conversationKey⟩)).isActive now
  · rw [if_pos engaged] at kept ⊢
    by_cases busy : 0 < o.quietPeriodMs ∧ now - (b.stateFor (Conversation.id ⟨adapterId,
        message.conversationKey⟩)).lastArrivalAt < o.quietPeriodMs
    · rw [if_pos busy]
      refine ⟨?_, ?_, ?_⟩
      · rw [backlog, stateFor_setState, if_pos rfl]
        exact held
      · rw [stateFor_setState, if_pos rfl]
      · rw [stateFor_setState, if_pos rfl]
        exact window.imp_right fun closed => ⟨closed.1, closed.2.trans onward⟩
    · rw [if_neg busy] at kept
      exact absurd rfl (kept _ _ _)
  · rw [if_neg engaged]
    refine ⟨?_, ?_, ?_⟩
    · rw [backlog, stateFor_setState, if_pos rfl]
      exact held
    · rw [stateFor_setState, if_pos rfl]
    · rw [stateFor_setState, if_pos rfl]
      exact .inr ⟨rfl, not_lt.mp fun before => engaged (active.mpr before)⟩

/-- A new state of another conversation. -/
theorem stateFor_setState_of_ne {adapterId conversationKey : String}
    (other : (⟨adapterId, conversationKey⟩ : Conversation) ≠ conversation)
    (b : IngestBuffer) (state : ConversationState) :
    (b.setState (conversationStorageKey adapterId conversationKey) state).stateFor conversation.id =
      b.stateFor conversation.id := by
  rw [stateFor_setState, if_neg fun same => other (key_eq_id_iff.mp same)]

theorem stateFor_ingest_of_ne {adapterId : String} {message : InboundMessage}
    (other : (⟨adapterId, message.conversationKey⟩ : Conversation) ≠ conversation)
    (streaming : Bool) :
    (b.ingest o now adapterId message streaming).2.stateFor conversation.id =
      b.stateFor conversation.id := by
  unfold IngestBuffer.ingest
  dsimp only
  split_ifs <;> exact stateFor_setState_of_ne other _ _

/-- The sweep comes too early for the conversation. -/
theorem Waiting.sweep (waiting : Waiting conversation record last deadline clock b)
    (onward : clock ≤ now) (early : now < last + o.quietPeriodMs) :
    Waiting conversation record last deadline now (b.sweepSettled o now).2 := by
  rw [sweepSettled]
  split_ifs
  · exact waiting.of_same onward rfl
  · refine waiting.of_same onward ?_
    rw [stateFor_sweepEntries o now b.states.entries b b.states.nodup
      (b.states.mem_entries.mpr waiting.get) rfl, if_neg]
    rintro ⟨-, due, -⟩
    rw [waiting.last] at due
    exact due (by linarith)

theorem Waiting.record_interaction (waiting : Waiting conversation record last deadline clock b)
    (onward : clock ≤ now) (adapterId conversationKey : String) :
    Waiting conversation record last
      (windowAfter o conversation deadline [⟨now, .recordInteraction adapterId conversationKey⟩]) now
      (b.recordInteraction o now adapterId conversationKey).2 := by
  by_cases here : (⟨adapterId, conversationKey⟩ : Conversation) = conversation
  · subst here
    have active := waiting.isActive_iff onward
    have found := waiting.get
    rw [show (Conversation.id ⟨adapterId, conversationKey⟩) =
      conversationStorageKey adapterId conversationKey from rfl] at active found
    simp only [IngestBuffer.recordInteraction, found]
    by_cases opened : now < deadline
    · rw [if_pos (active.mpr opened)]
      simp only [windowAfter, TimedCall.interacts, decide_true, opened, and_self, if_true]
      exact waiting.extend _ now
    · rw [if_neg fun also => opened (active.mp also)]
      simp only [windowAfter, opened, and_false, if_false]
      exact waiting.of_same onward rfl
  · have unchanged : windowAfter o conversation deadline
        [⟨now, .recordInteraction adapterId conversationKey⟩] = deadline := by
      simp only [windowAfter, TimedCall.interacts, here, decide_false, Bool.false_eq_true,
        false_and, if_false]
    rw [unchanged]
    refine waiting.of_same onward ?_
    unfold IngestBuffer.recordInteraction
    dsimp only
    split
    · rfl
    · split_ifs
      · exact stateFor_setState_of_ne here _ _
      · rfl

theorem Waiting.inspect (waiting : Waiting conversation record last deadline clock b)
    (onward : clock ≤ now) (adapterId conversationKey : String) :
    Waiting conversation record last deadline now (b.inspect now adapterId conversationKey).2 := by
  by_cases here : (⟨adapterId, conversationKey⟩ : Conversation) = conversation
  · subst here
    have active := waiting.isActive_iff onward
    have found := waiting.get
    rw [show (Conversation.id ⟨adapterId, conversationKey⟩) =
      conversationStorageKey adapterId conversationKey from rfl] at active found
    simp only [IngestBuffer.inspect, found]
    by_cases opened : now < deadline
    · rw [active.mpr opened]
      exact waiting.of_same onward rfl
    · split_ifs
      · exact waiting.close (not_lt.mp opened)
      · exact waiting.of_same onward rfl
  · refine waiting.of_same onward ?_
    unfold IngestBuffer.inspect
    dsimp only
    split
    · rfl
    · dsimp only
      split_ifs
      · exact stateFor_setState_of_ne here _ _
      · rfl

theorem Waiting.dismiss_other (waiting : Waiting conversation record last deadline clock b)
    (onward : clock ≤ now) {adapterId conversationKey : String}
    (other : (⟨adapterId, conversationKey⟩ : Conversation) ≠ conversation) :
    Waiting conversation record last deadline now (b.dismiss now adapterId conversationKey).2 := by
  refine waiting.of_same onward ?_
  unfold IngestBuffer.dismiss
  dsimp only
  split
  · rfl
  · split_ifs
    · rfl
    · exact stateFor_setState_of_ne other _ _

/-- One call: the record goes on waiting. -/
theorem Waiting.perform {c : TimedCall} (waiting : Waiting conversation record last deadline clock b)
    (onward : clock ≤ c.now) (passes : Passes o conversation last (c, (b.perform o c).1)) :
    Waiting conversation record (lastArrival conversation last [c])
      (windowAfter o conversation deadline [c]) c.now (b.perform o c).2 := by
  obtain ⟨now, call⟩ := c
  cases call with
  | ingest adapterId message streaming =>
    by_cases here : (⟨adapterId, message.conversationKey⟩ : Conversation) = conversation
    · have arrived : lastArrival conversation last [⟨now, .ingest adapterId message streaming⟩] =
          now := by
        simp only [lastArrival, TimedCall.arrives, here, decide_true, if_true]
      rw [arrived]
      refine waiting.arrive onward here fun mode records prompt activated => ?_
      have outcome : (b.perform o ⟨now, .ingest adapterId message streaming⟩).1 =
          .ingested (b.ingest o now adapterId message streaming).1 := rfl
      rw [outcome, activated] at passes
      exact passes here
    · have arrived : lastArrival conversation last [⟨now, .ingest adapterId message streaming⟩] =
          last := by
        simp only [lastArrival, TimedCall.arrives, here, decide_false, Bool.false_eq_true, if_false]
      rw [arrived]
      exact waiting.of_same onward (stateFor_ingest_of_ne here streaming)
  | sweepSettled => exact waiting.sweep onward passes
  | dismiss adapterId conversationKey => exact waiting.dismiss_other onward passes
  | recordInteraction adapterId conversationKey =>
    exact waiting.record_interaction onward adapterId conversationKey
  | inspect adapterId conversationKey => exact waiting.inspect onward adapterId conversationKey

/-! ### Runs -/

theorem sorted_run (o : IngestBufferOptions) (calls : List TimedCall) (b : IngestBuffer)
    (sorted : b.Sorted) : (b.run o calls).2.Sorted := by
  induction calls generalizing b with
  | nil => exact sorted
  | cons c rest ih => exact ih _ (conserves_perform sorted c).sorted

theorem Waiting.run {calls : List TimedCall}
    (waiting : Waiting conversation record last deadline clock b)
    (clocks : calls.Pairwise fun c d => c.now ≤ d.now) (onward : ∀ c ∈ calls, clock ≤ c.now)
    (upTo : ∀ c ∈ calls, c.now ≤ now) (start : clock ≤ now)
    (waits : Waits o conversation last (b.run o calls).1) :
    Waiting conversation record (lastArrival conversation last calls)
      (windowAfter o conversation deadline calls) now (b.run o calls).2 := by
  induction calls generalizing b last deadline clock with
  | nil => exact waiting.of_same start rfl
  | cons c rest ih =>
    rw [List.pairwise_cons] at clocks
    rw [List.forall_mem_cons] at onward upTo
    exact ih (waiting.perform onward.1 waits.1) clocks.2 clocks.1 upTo.2 upTo.1 waits.2

/-- A message that is held back waits. -/
theorem HeldBack.waiting {c : TimedCall} {adapterId : String} {message : InboundMessage}
    (held : HeldBack o b c adapterId message) (quiet : 0 < o.quietPeriodMs) :
    Waiting ⟨adapterId, message.conversationKey⟩ (toRecord adapterId message c.now) c.now
      ((b.stateFor (conversationStorageKey adapterId message.conversationKey)).windowDeadline.getD 0)
      c.now (b.perform o c).2 := by
  obtain ⟨now, call⟩ := c
  obtain ⟨⟨streaming, rfl⟩, ambient, active, busy⟩ := held
  have opened : ∃ deadline, (b.stateFor (conversationStorageKey adapterId
      message.conversationKey)).windowDeadline = some deadline := by
    rw [ConversationState.isActive, Option.any_eq_true] at active
    obtain ⟨deadline, given, -⟩ := active
    exact ⟨deadline, given⟩
  obtain ⟨deadline, opened⟩ := opened
  show Waiting _ _ _ _ _ (b.ingest o now adapterId message streaming).2
  rw [opened, Option.getD_some]
  unfold IngestBuffer.ingest
  dsimp only
  rw [ambient, if_neg (by decide), if_pos active, if_pos ⟨quiet, busy⟩]
  refine ⟨?_, ?_, ?_⟩
  · rw [backlog, show Conversation.id ⟨adapterId, message.conversationKey⟩ =
      conversationStorageKey adapterId message.conversationKey from rfl, stateFor_setState, if_pos rfl]
    exact List.mem_append_right _ (List.mem_singleton_self _)
  · rw [show Conversation.id ⟨adapterId, message.conversationKey⟩ =
      conversationStorageKey adapterId message.conversationKey from rfl, stateFor_setState, if_pos rfl]
  · rw [show Conversation.id ⟨adapterId, message.conversationKey⟩ =
      conversationStorageKey adapterId message.conversationKey from rfl, stateFor_setState, if_pos rfl]
    exact .inl opened

/-- A sweep of a conversation that has been quiet releases the record if and
only if the window is open. -/
theorem Waiting.swept (waiting : Waiting conversation record last deadline clock b)
    (sorted : b.Sorted) (quiet : 0 < o.quietPeriodMs) (onward : clock ≤ now)
    (due : last + o.quietPeriodMs ≤ now) :
    record ∈ releases conversation
      (⟨now, .sweepSettled⟩, (b.perform o ⟨now, .sweepSettled⟩).1) ↔ now < deadline := by
  have conserved := (conserves_perform (o := o) sorted ⟨now, .sweepSettled⟩).records conversation
  rw [TimedCall.ingests, List.append_nil] at conserved
  have nonempty : (b.stateFor conversation.id).backlog ≠ [] := fun empty => by
    have mem := waiting.record
    rw [backlog, empty] at mem
    exact absurd mem List.not_mem_nil
  have late : ¬ now - (b.stateFor conversation.id).lastArrivalAt < o.quietPeriodMs := by
    rw [waiting.last]
    linarith
  have after : (b.perform o ⟨now, .sweepSettled⟩).2.stateFor conversation.id =
      (b.sweepEntries o now b.states.entries).2.stateFor conversation.id := by
    show (b.sweepSettled o now).2.stateFor _ = _
    rw [sweepSettled, if_neg (not_le.mpr quiet)]
  rw [stateFor_sweepEntries o now b.states.entries b b.states.nodup
    (b.states.mem_entries.mpr waiting.get) rfl] at after
  by_cases opened : now < deadline
  · rw [if_pos ⟨nonempty, late, (waiting.isActive_iff onward).mpr opened⟩] at after
    rw [backlog, after, List.append_nil] at conserved
    rw [conserved]
    exact iff_of_true waiting.record opened
  · rw [if_neg fun released => opened ((waiting.isActive_iff onward).mp released.2.2)] at after
    rw [backlog, after] at conserved
    rw [List.append_left_eq_self.mp conserved]
    exact iff_of_false List.not_mem_nil opened

/-- A message that is held back is released by the first sweep after the
quiet period if and only if the window, which only the interactions of the
agent have extended since, is still open then. -/
theorem held_record_released_iff (o : IngestBufferOptions) (before middle : List TimedCall)
    (hold sweep : TimedCall) (adapterId : String) (message : InboundMessage)
    (quiet : 0 < o.quietPeriodMs)
    (clocks : (before ++ hold :: (middle ++ [sweep])).Pairwise fun c d => c.now ≤ d.now)
    (sweeping : sweep.call = .sweepSettled) :
    let conversation : Conversation := ⟨adapterId, message.conversationKey⟩
    let b := (run o .empty before).2
    let held := (b.perform o hold).2
    HeldBack o b hold adapterId message →
    Waits o conversation hold.now (held.run o middle).1 →
    lastArrival conversation hold.now middle + o.quietPeriodMs ≤ sweep.now →
      (toRecord adapterId message hold.now ∈
          releases conversation (sweep, ((held.run o middle).2.perform o sweep).1) ↔
        sweep.now < windowAfter o conversation ((b.stateFor conversation.id).windowDeadline.getD 0)
          middle) := by
  intro conversation b held holding waits due
  obtain ⟨now, call⟩ := sweep
  obtain rfl : call = .sweepSettled := sweeping
  have later := (List.pairwise_append.mp clocks).2.1
  rw [List.pairwise_cons] at later
  obtain ⟨onward, rest⟩ := later
  have ordered := List.pairwise_append.mp rest
  have upTo : ∀ c ∈ middle, c.now ≤ now := fun c mem =>
    ordered.2.2 c mem ⟨now, .sweepSettled⟩ (List.mem_singleton_self _)
  have waiting := (holding.waiting quiet).run ordered.1
    (fun c mem => onward c (List.mem_append_left _ mem)) upTo
    (onward _ (List.mem_append_right _ (List.mem_singleton_self _))) waits
  have sorted := sorted_run o middle held
    (conserves_perform (sorted_run o before .empty sorted_empty) hold).sorted
  exact waiting.swept sorted quiet le_rfl due

/-! ### Three messages -/

/-- A message in a room. -/
def roomMessage (messageId : String) (addressed : Bool) : InboundMessage where
  messageId := messageId
  conversationKey := "room"
  parentConversationKey := none
  speaker := ⟨"u1", "Ada"⟩
  text := "Any news?"
  attachments := []
  addressed := addressed

/-- A window of a hundred milliseconds, and a quiet period of fifty. -/
def shortWindow : IngestBufferOptions where
  engagementWindowMs := 100
  quietPeriodMs := 50
  engagementWindowMs_pos := by decide +kernel
  quietPeriodMs_nonneg := by decide +kernel

/-- The agent is addressed. -/
def addressedCall : TimedCall := ⟨0, .ingest "chat" (roomMessage "m1" true) false⟩

def ambientCall (now : ℚ) (messageId : String) : TimedCall :=
  ⟨now, .ingest "chat" (roomMessage messageId false) false⟩

theorem ambientCall_held : HeldBack shortWindow (run shortWindow .empty [addressedCall]).2
    (ambientCall 40 "m2") "chat" (roomMessage "m2" false) :=
  ⟨⟨false, rfl⟩, rfl, by decide +kernel, by decide +kernel⟩

/-- Messages that keep the room busy for eighty milliseconds, and then
nothing for fifty: the window has expired by then. -/
theorem settled_after_the_window :
    ¬ ∀ (o : IngestBufferOptions) (before middle : List TimedCall) (hold sweep : TimedCall)
        (adapterId : String) (message : InboundMessage), 0 < o.quietPeriodMs →
      (before ++ hold :: (middle ++ [sweep])).Pairwise (fun c d => c.now ≤ d.now) →
      sweep.call = .sweepSettled →
      let conversation : Conversation := ⟨adapterId, message.conversationKey⟩
      let b := (run o .empty before).2
      let held := (b.perform o hold).2
      HeldBack o b hold adapterId message →
      Waits o conversation hold.now (held.run o middle).1 →
      lastArrival conversation hold.now middle + o.quietPeriodMs ≤ sweep.now →
      toRecord adapterId message hold.now ∈
        releases conversation (sweep, ((held.run o middle).2.perform o sweep).1) := by
  intro literal
  have kept : (((run shortWindow .empty [addressedCall]).2.perform shortWindow
      (ambientCall 40 "m2")).2.perform shortWindow (ambientCall 80 "m3")).1 =
      .ingested (.buffered (toRecord "chat" (roomMessage "m3" false) 80) 2) := by decide +kernel
  have passes : Passes shortWindow ⟨"chat", "room"⟩ 40 (ambientCall 80 "m3",
      (((run shortWindow .empty [addressedCall]).2.perform shortWindow
        (ambientCall 40 "m2")).2.perform shortWindow (ambientCall 80 "m3")).1) := by
    rw [kept]
    trivial
  have released := literal shortWindow [addressedCall] [ambientCall 80 "m3"] (ambientCall 40 "m2")
    ⟨130, .sweepSettled⟩ "chat" (roomMessage "m2" false) (by decide +kernel) (by decide +kernel) rfl
    ambientCall_held ⟨passes, trivial⟩ (by decide +kernel)
  exact absurd released (by decide +kernel)

/-- A sweep while the window is still open. -/
theorem held_record_released_shortWindow :
    toRecord "chat" (roomMessage "m2" false) 40 ∈ releases ⟨"chat", "room"⟩
        (⟨95, .sweepSettled⟩, (((((run shortWindow .empty [addressedCall]).2.perform shortWindow
          (ambientCall 40 "m2")).2.run shortWindow []).2.perform shortWindow
            ⟨95, .sweepSettled⟩).1)) ↔
      (95 : ℚ) < windowAfter shortWindow ⟨"chat", "room"⟩
        (((run shortWindow .empty [addressedCall]).2.stateFor
          (Conversation.id ⟨"chat", "room"⟩)).windowDeadline.getD 0) [] :=
  held_record_released_iff shortWindow [addressedCall] [] (ambientCall 40 "m2") ⟨95, .sweepSettled⟩
    "chat" (roomMessage "m2" false) (by decide +kernel) (by decide +kernel) rfl ambientCall_held
    trivial (by decide +kernel)

end IngestBuffer

end OmpBundler.Core
