import OmpBundler.Core.EmitterCalls

/-!
The grammar of the events of a turn.

`Phase` is an automaton for it: how far the turn has come, and which events
may follow. A list that the automaton accepts, and whose numbers increase,
has the properties that the contract states of the list. Most methods of an
emitter keep to the automaton; the ones that do not, and when, are
`Disorderly`.
-/

namespace OmpBundler.Core

/-- How far a turn has come. -/
structure Phase where
  started : Bool
  ended : Bool
  deriving DecidableEq, Repr

namespace Phase

/-- Before the first event. -/
def fresh : Phase := ⟨false, false⟩

/-- The turn after one more event, if the event may come now. -/
def next (p : Phase) (body : EventBody) : Option Phase :=
  if p.ended then none
  else if body = .turnStarted then if p.started then none else some ⟨true, false⟩
  else if body.needsStart && !p.started then none
  else some ⟨p.started, body.isTerminal⟩

/-- The turn after a list of events. -/
def run : Phase → List EventBody → Option Phase
  | p, [] => some p
  | p, body :: rest => (p.next body).bind fun q => run q rest

variable {p q : Phase} {body : EventBody} {bodies more : List EventBody}

theorem run_append (p : Phase) (bodies more : List EventBody) :
    p.run (bodies ++ more) = (p.run bodies).bind fun q => q.run more := by
  induction bodies generalizing p with
  | nil => rfl
  | cons body rest ih =>
      simp only [List.cons_append, run, Option.bind_assoc]
      exact Option.bind_congr fun q _ => ih q

theorem next_eq (step : p.next body = some q) :
    p.ended = false ∧ (body = .turnStarted → p.started = false) ∧
      (body.needsStart → p.started = true) ∧
      q = ⟨p.started || body = .turnStarted, body.isTerminal⟩ := by
  unfold next at step
  split at step
  · simp at step
  · case isFalse going =>
      split at step
      · case isTrue start =>
          split at step
          · simp at step
          · case isFalse fresh =>
              obtain rfl := Option.some.inj step
              subst start
              simp_all [EventBody.needsStart, EventBody.isTerminal]
      · case isFalse other =>
          split at step
          · simp at step
          · case isFalse needs =>
              obtain rfl := Option.some.inj step
              simp_all

theorem run_cons (accepted : p.run (body :: bodies) = some q) :
    ∃ r, p.next body = some r ∧ r.run bodies = some q :=
  Option.bind_eq_some_iff.mp accepted

theorem run_of_append (accepted : p.run (bodies ++ more) = some q) :
    ∃ r, p.run bodies = some r ∧ r.run more = some q := by
  rw [run_append] at accepted
  exact Option.bind_eq_some_iff.mp accepted

/-- Nothing follows the end. -/
theorem nil_of_ended (ended : p.ended = true) (accepted : p.run bodies = some q) : bodies = [] := by
  cases bodies with
  | nil => rfl
  | cons body rest =>
      obtain ⟨r, step, -⟩ := run_cons accepted
      simp [(next_eq step).1] at ended

theorem started_iff (accepted : p.run bodies = some q) :
    q.started = true ↔ p.started = true ∨ .turnStarted ∈ bodies := by
  induction bodies generalizing p with
  | nil =>
      obtain rfl := Option.some.inj accepted
      simp
  | cons body rest ih =>
      obtain ⟨r, step, accepted⟩ := run_cons accepted
      obtain ⟨-, -, -, rfl⟩ := next_eq step
      rw [ih accepted]
      simp only [Bool.or_eq_true, decide_eq_true_eq, List.mem_cons, or_assoc,
        eq_comm (a := EventBody.turnStarted)]

theorem ended_iff (accepted : p.run bodies = some q) :
    q.ended = true ↔ p.ended = true ∨ ∃ body ∈ bodies, body.isTerminal = true := by
  induction bodies generalizing p with
  | nil =>
      obtain rfl := Option.some.inj accepted
      simp
  | cons body rest ih =>
      obtain ⟨r, step, accepted⟩ := run_cons accepted
      obtain ⟨going, -, -, rfl⟩ := next_eq step
      rw [ih accepted]
      simp [going]

/-- A turn starts once. -/
theorem notMem_of_started (started : p.started = true) (accepted : p.run bodies = some q) :
    .turnStarted ∉ bodies := by
  induction bodies generalizing p with
  | nil => simp
  | cons body rest ih =>
      obtain ⟨r, step, accepted⟩ := run_cons accepted
      obtain ⟨-, once, -, rfl⟩ := next_eq step
      have other : body ≠ .turnStarted := fun same => by simp [once same] at started
      simp only [List.mem_cons, not_or]
      exact ⟨other.symm, ih (by simp [started]) accepted⟩

/-- Events that do not start the turn may also come once it has started. -/
theorem run_started (accepted : p.run bodies = some q) (other : .turnStarted ∉ bodies) :
    (Phase.mk true p.ended).run bodies = some ⟨true, q.ended⟩ := by
  induction bodies generalizing p with
  | nil =>
      obtain rfl := Option.some.inj accepted
      rfl
  | cons body rest ih =>
      obtain ⟨r, step, accepted⟩ := run_cons accepted
      obtain ⟨going, -, -, rfl⟩ := next_eq step
      simp only [List.mem_cons, not_or] at other
      have here : (Phase.mk true p.ended).next body = some ⟨true, body.isTerminal⟩ := by
        simp [next, going, Ne.symm other.1]
      rw [run, here]
      exact ih accepted other.2

end Phase

/-- What the contract says of the events of a correlation. -/
structure Grammatical (events : List OutboundEvent) : Prop where
  startedOnce : (events.filter (·.body = .turnStarted)).length ≤ 1
  startedFirst : ∀ event ∈ events, event.body.needsStart →
    ∃ start ∈ events, start.body = .turnStarted ∧ start.sequence < event.sequence
  terminalOnce : (events.filter (·.isTerminal)).length ≤ 1
  terminalLast : ∀ terminal ∈ events, terminal.isTerminal → ∀ event ∈ events,
    event.sequence ≤ terminal.sequence

/-! ### Accepted lists -/

section Accepted

variable {events : List OutboundEvent} {q : Phase} {event other : OutboundEvent}

theorem split_of_mem (mem : event ∈ events) (accepted : Phase.fresh.run (events.map (·.body)) = some q)
    (increasing : events.Pairwise fun earlier later => earlier.sequence < later.sequence) :
    ∃ earlier later r r', events = earlier ++ event :: later ∧
      Phase.fresh.run (earlier.map (·.body)) = some r ∧ r.next event.body = some r' ∧
      r'.run (later.map (·.body)) = some q ∧
      (∀ e ∈ earlier, e.sequence < event.sequence) ∧ ∀ e ∈ later, event.sequence < e.sequence := by
  obtain ⟨earlier, later, rfl⟩ := List.append_of_mem mem
  rw [List.map_append] at accepted
  obtain ⟨r, before, rest⟩ := Phase.run_of_append accepted
  obtain ⟨r', step, after⟩ := Phase.run_cons rest
  obtain ⟨-, tail, cross⟩ := List.pairwise_append.mp increasing
  exact ⟨earlier, later, r, r', rfl, before, step, after,
    fun e mem => cross e mem event (List.mem_cons_self ..), (List.pairwise_cons.mp tail).1⟩

/-- Everything comes before a terminal. -/
theorem le_terminal (accepted : Phase.fresh.run (events.map (·.body)) = some q)
    (increasing : events.Pairwise fun earlier later => earlier.sequence < later.sequence)
    (mem : event ∈ events) (terminal : event.isTerminal = true) (mem' : other ∈ events) :
    other = event ∨ other.sequence < event.sequence := by
  obtain ⟨earlier, later, r, r', rfl, -, step, after, less, -⟩ :=
    split_of_mem mem accepted increasing
  obtain ⟨-, -, -, rfl⟩ := Phase.next_eq step
  have none := Phase.nil_of_ended (by exact terminal) after
  rw [List.map_eq_nil_iff] at none
  subst none
  rcases List.mem_append.mp mem' with old | same
  · exact .inr (less other old)
  · exact .inl (List.mem_singleton.mp same)

/-- There is only one start. -/
theorem started_unique (accepted : Phase.fresh.run (events.map (·.body)) = some q)
    (increasing : events.Pairwise fun earlier later => earlier.sequence < later.sequence)
    (mem : event ∈ events) (start : event.body = .turnStarted) (mem' : other ∈ events)
    (start' : other.body = .turnStarted) : other = event := by
  obtain ⟨earlier, later, r, r', rfl, before, step, after, -, -⟩ :=
    split_of_mem mem accepted increasing
  obtain ⟨-, once, -, rfl⟩ := Phase.next_eq step
  rcases List.mem_append.mp mem' with old | rest
  · have started := (Phase.started_iff before).mpr
      (.inr (List.mem_map.mpr ⟨other, old, start'⟩))
    simp [once start] at started
  · rcases List.mem_cons.mp rest with same | new
    · exact same
    · have none := Phase.notMem_of_started (by simp [start]) after
      exact absurd (List.mem_map.mpr ⟨other, new, start'⟩) none

/-- The start comes before what needs it. -/
theorem start_before (accepted : Phase.fresh.run (events.map (·.body)) = some q)
    (increasing : events.Pairwise fun earlier later => earlier.sequence < later.sequence)
    (mem : event ∈ events) (needs : event.body.needsStart = true) :
    ∃ start ∈ events, start.body = .turnStarted ∧ start.sequence < event.sequence := by
  obtain ⟨earlier, later, r, r', rfl, before, step, after, less, -⟩ :=
    split_of_mem mem accepted increasing
  obtain ⟨-, -, started, -⟩ := Phase.next_eq step
  rcases (Phase.started_iff before).mp (started needs) with fresh | mem
  · simp [Phase.fresh] at fresh
  · obtain ⟨start, old, same⟩ := List.mem_map.mp mem
    exact ⟨start, List.mem_append_left _ old, same, less start old⟩

end Accepted

namespace OutboundEmitter

/-! ### Calls -/

/-- How far the turn has come for the emitter. -/
def phase (e : OutboundEmitter) : Phase := ⟨e.startedEmitted, e.terminalEmitted⟩

/-- Calls that hand over an event that may not come now. Presence, progress
and the start of the turn do not look for a terminal, and a direct reply does
not look for the start. -/
def Disorderly (e : OutboundEmitter) (now : ℤ) : Call → Prop
  | .emitPresence presence => e.terminalEmitted = true ∧ e.presence ≠ some presence
  | .ingest .turnStart => e.terminalEmitted = true ∧ e.startedEmitted = false
  | .ingest (.subagent _ _ _) =>
      e.terminalEmitted = true ∧ (e.progressThresholdMs : ℤ) ≤ now - e.lastProgressAt
  | .flushProgress =>
      e.terminalEmitted = true ∧ e.pendingProgress.isSome = true ∧
        (e.progressThresholdMs : ℤ) ≤ now - e.lastProgressAt
  | .emitDirectReply _ =>
      e.closed = false ∧ e.terminalEmitted = false ∧ e.startedEmitted = false
  | _ => False

instance (e : OutboundEmitter) (now : ℤ) (m : Call) : Decidable (e.Disorderly now m) := by
  unfold Disorderly; split <;> infer_instance

/-- `e'` is `e` after it has handed over these events, which may come now. -/
structure Follows (e e' : OutboundEmitter) (bodies : List EventBody) : Prop where
  drafts : e'.drafts.map (·.body) = e.drafts.map (·.body) ++ bodies
  accepted : e.phase.run bodies = some e'.phase
  startFirst : .turnStarted ∉ bodies.tail
  opened : ∀ body ∈ bodies, body.needsStart = true → e.closed = false

variable {e e' : OutboundEmitter} {now : ℤ}

/-- Nothing is handed over. -/
theorem Follows.nothing (drafts : e'.drafts = e.drafts)
    (phase : e'.phase = e.phase) : Follows e e' [] :=
  ⟨by simp [drafts], by rw [phase]; rfl, by simp, by simp⟩

/-- One event, or the event and what follows from it. -/
theorem Follows.one {body : EventBody} (drafts : e'.drafts.map (·.body) =
      e.drafts.map (·.body) ++ [body]) (accepted : e.phase.next body = some e'.phase)
    (opened : body.needsStart = true → e.closed = false) : Follows e e' [body] :=
  ⟨drafts, by rw [Phase.run, accepted]; rfl, by simp,
    fun other mem => List.mem_singleton.mp mem ▸ opened⟩

theorem bodies_emit (e : OutboundEmitter) (body : EventBody) :
    (e.emit body).drafts.map (·.body) = e.drafts.map (·.body) ++ [body] := by
  simp [emit]

theorem follows_handleTurnStart (orderly : e.startedEmitted = true ∨ e.terminalEmitted = false) :
    ∃ bodies, Follows e (e.handleTurnStart now) bodies := by
  rw [handleTurnStart]
  split
  · exact ⟨[], .nothing rfl rfl⟩
  · case isFalse fresh =>
      have going := orderly.resolve_left fresh
      refine ⟨[.turnStarted], .one (bodies_emit ..) ?_ (by simp [EventBody.needsStart])⟩
      simp [Phase.next, phase, emit, going, fresh]

/-- A terminal that comes after the start, which comes first if need be. -/
theorem follows_startedTerminal {body : EventBody} (going : e.terminalEmitted = false)
    (opened : e.closed = false) (other : body ≠ .turnStarted) (terminal : body.isTerminal = true) :
    ∃ bodies, Follows e ((e.ensureStarted now).emitTerminal body) bodies := by
  by_cases started : e.startedEmitted = true
  · have same : e.ensureStarted now = e := by simp [ensureStarted, handleTurnStart, started]
    rw [same]
    refine ⟨[body], .one (by simp [emitTerminal, emit]) ?_ fun _ => opened⟩
    simp [Phase.next, phase, emitTerminal, emit, going, started, other, terminal]
  · have bodies : ((e.ensureStarted now).emitTerminal body).drafts.map (·.body) =
        e.drafts.map (·.body) ++ [.turnStarted, body] := by
      simp [ensureStarted, handleTurnStart, started, emitTerminal, emit]
    refine ⟨[.turnStarted, body], bodies, ?_, by simp [Ne.symm other], fun _ _ _ => opened⟩
    simp [Phase.run, Phase.next, phase, ensureStarted, handleTurnStart, emitTerminal, emit, going,
      started, other, terminal]

theorem follows_emitProviderError (code message : String) (retryable : Bool) :
    ∃ bodies, Follows e (e.emitProviderError now code message retryable) bodies := by
  rw [emitProviderError]
  split
  · exact ⟨[], .nothing rfl rfl⟩
  · case isFalse guard =>
      simp only [Bool.or_eq_true, not_or, Bool.not_eq_true] at guard
      exact follows_startedTerminal guard.2 guard.1 (by simp) rfl

theorem follows_progress (going : e.terminalEmitted = false) (message : String) :
    e.phase.next (.turnProgress message) = some e.phase := by
  simp [Phase.next, phase, going, EventBody.needsStart, EventBody.isTerminal]

theorem follows_flushProgress (e : OutboundEmitter) (now : ℤ)
    (orderly : e.terminalEmitted = false ∨ e.pendingProgress = none ∨
      ¬ (e.progressThresholdMs : ℤ) ≤ now - e.lastProgressAt) :
    (e.flushProgress now).drafts = e.drafts ∧ (e.flushProgress now).phase = e.phase ∨
      e.terminalEmitted = false ∧ ∃ message, (e.flushProgress now).drafts.map (·.body) =
        e.drafts.map (·.body) ++ [.turnProgress message] ∧ (e.flushProgress now).phase = e.phase := by
  rw [flushProgress]
  split
  · exact .inl ⟨rfl, rfl⟩
  · case h_2 message pending =>
      split
      · case isTrue elapsed =>
          have going : e.terminalEmitted = false := by simpa [pending, elapsed] using orderly
          exact .inr ⟨going, message, by simp [emitProgress, emit], rfl⟩
      · exact .inl ⟨rfl, rfl⟩

theorem follows_handleProgressCandidate (e : OutboundEmitter) (now : ℤ) (message : String)
    (orderly : e.terminalEmitted = false ∨
      ¬ (e.progressThresholdMs : ℤ) ≤ now - e.lastProgressAt) :
    ∃ bodies, Follows e (e.handleProgressCandidate now message) bodies ∧
      .turnStarted ∉ bodies := by
  rcases follows_flushProgress { e with pendingProgress := some message } now
    (orderly.imp_right .inr) with ⟨drafts, phase⟩ | ⟨going, text, drafts, phase⟩
  · exact ⟨[], .nothing drafts phase, by simp⟩
  · refine ⟨[.turnProgress text], .one drafts ?_ (by simp [EventBody.needsStart]), by simp⟩
    exact (follows_progress going text).trans (congrArg some phase.symm)

theorem follows_handleMessageUpdate (delta : Option String) :
    ∃ bodies, Follows e (e.handleMessageUpdate now delta) bodies := by
  cases delta with
  | none => exact ⟨[], .nothing rfl rfl⟩
  | some text =>
      simp only [handleMessageUpdate]
      split
      · exact ⟨[], .nothing rfl rfl⟩
      · split
        · exact ⟨[], .nothing rfl rfl⟩
        · case isFalse guard =>
            simp only [Bool.or_eq_true, not_or, Bool.not_eq_true] at guard
            let e' : OutboundEmitter :=
              { e with replyText := e.replyText ++ text }.emit (.turnDelta text)
            have first : e.phase.next (.turnDelta text) = some e.phase := by
              simp [Phase.next, phase, guard.2, EventBody.needsStart, EventBody.isTerminal]
            obtain ⟨bodies, rest, other⟩ := follows_handleProgressCandidate e' now text
              (.inl guard.2)
            refine ⟨.turnDelta text :: bodies, ?_, ?_, other, fun _ _ _ => guard.1⟩
            · rw [rest.drafts]
              simp [e', emit]
            · rw [Phase.run, first]
              exact rest.accepted

theorem follows_handleAgentEnd (messages : List AgentMessage) :
    ∃ bodies, Follows e (e.handleAgentEnd now messages) bodies := by
  rw [handleAgentEnd]
  split
  · exact ⟨[], .nothing rfl rfl⟩
  · case isFalse guard =>
      simp only [Bool.or_eq_true, not_or, Bool.not_eq_true] at guard
      split
      · exact follows_emitProviderError ..
      · split
        · exact follows_startedTerminal guard.2 guard.1 (by simp) rfl
        · split
          · exact follows_emitProviderError ..
          · exact follows_startedTerminal guard.2 guard.1 (by simp) rfl

theorem follows_handleToolExecutionEnd (toolName : String) (isError : Bool)
    (marker : Option WorkspaceAttachment) :
    Follows e (e.handleToolExecutionEnd toolName isError marker) [] := by
  rw [handleToolExecutionEnd]
  cases extractDeliveryAttachment toolName isError marker with
  | none => dsimp only; split <;> exact .nothing rfl rfl
  | some attachment => dsimp only; split <;> split <;> exact .nothing rfl rfl

theorem follows_ingest {frame : RpcEventFrame} (orderly : ¬ e.Disorderly now (.ingest frame)) :
    ∃ bodies, Follows e (e.ingest now frame) bodies := by
  cases frame with
  | turnStart =>
      refine follows_handleTurnStart ?_
      simp only [Disorderly, not_and, Bool.not_eq_false] at orderly
      by_cases going : e.terminalEmitted = true
      · exact .inl (orderly going)
      · exact .inr (by simpa using going)
  | messageUpdate delta => exact follows_handleMessageUpdate delta
  | toolExecutionEnd toolName isError marker =>
      exact ⟨[], follows_handleToolExecutionEnd toolName isError marker⟩
  | turnEnd usage => cases usage <;> exact ⟨[], .nothing rfl rfl⟩
  | agentEnd messages => exact follows_handleAgentEnd messages
  | subagent kind id name =>
      simp only [Disorderly, not_and] at orderly
      obtain ⟨bodies, follows, -⟩ := follows_handleProgressCandidate e now
        (describeSubagentFrame kind id name) (by
          by_cases going : e.terminalEmitted = true
          · exact .inr (orderly going)
          · exact .inl (by simpa using going))
      exact ⟨bodies, follows⟩
  | other => exact ⟨[], .nothing rfl rfl⟩

/-- A call that is not disorderly hands over what may come now. -/
theorem follows_call {m : Call} (orderly : ¬ e.Disorderly now m) :
    ∃ bodies, Follows e (e.call now m) bodies := by
  cases m with
  | ingest frame => exact follows_ingest orderly
  | emitProviderError code message retryable => exact follows_emitProviderError ..
  | emitPresence presence =>
      simp only [call, emitPresence]
      split
      · exact ⟨[], .nothing rfl rfl⟩
      · case isFalse changed =>
          have going : e.terminalEmitted = false := by simpa [Disorderly, changed] using orderly
          refine ⟨[.presenceChanged presence], .one (bodies_emit ..) ?_
            (by simp [EventBody.needsStart])⟩
          simp [Phase.next, phase, emit, going, EventBody.needsStart, EventBody.isTerminal]
  | emitCancelled =>
      simp only [call, emitCancelled]
      split
      · exact ⟨[], .nothing rfl rfl⟩
      · case isFalse guard =>
          simp only [Bool.or_eq_true, not_or, Bool.not_eq_true] at guard
          refine ⟨[.turnCancelled], .one (bodies_emit ..) ?_ fun _ => guard.1⟩
          simp [Phase.next, phase, emitTerminal, emit, guard.2, EventBody.needsStart,
            EventBody.isTerminal]
  | emitDirectReply text =>
      simp only [call, emitDirectReply]
      split
      · exact ⟨[], .nothing rfl rfl⟩
      · case isFalse guard =>
          simp only [Bool.or_eq_true, not_or, Bool.not_eq_true] at guard
          have started : e.startedEmitted = true := by
            simpa [Disorderly, guard.1, guard.2] using orderly
          refine ⟨[.turnReply text [] noUsage], .one (bodies_emit ..) ?_ fun _ => guard.1⟩
          simp [Phase.next, phase, emitTerminal, emit, guard.2, started, EventBody.isTerminal]
  | flushProgress =>
      simp only [Disorderly, not_and] at orderly
      rcases follows_flushProgress e now (by
        by_cases going : e.terminalEmitted = true
        · by_cases pending : e.pendingProgress = none
          · exact .inr (.inl pending)
          · exact .inr (.inr (orderly going (by simpa [Option.isSome_iff_ne_none] using pending)))
        · exact .inl (by simpa using going)) with ⟨drafts, phase⟩ | ⟨going, text, drafts, phase⟩
      · exact ⟨[], .nothing drafts phase⟩
      · refine ⟨[.turnProgress text], .one drafts ?_ (by simp [EventBody.needsStart])⟩
        exact (follows_progress going text).trans (congrArg some phase.symm)

end OutboundEmitter

end OmpBundler.Core
