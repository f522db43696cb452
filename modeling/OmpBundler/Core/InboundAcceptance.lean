import OmpBundler.Core.IdempotencyLaws
import OmpBundler.Core.SupervisorSteps

/-!
How calls of `processInbound` end whose message is new.

Such a call has inserted a row, and the caller is to hear that the message is
accepted. The row's ingest is completed by two parties: by the call when the
child has acknowledged the message, and by the terminal of the correlation
that the message has joined. A prompt and a follow-up look whether the
terminal has come first; a passive append does not, and then the call is
rejected.
-/

namespace OmpBundler.Core

open Library

/-! ### The completion of the ingest -/

namespace IdempotencyStore

variable {s : IdempotencyStore} {now : ℤ} {key : MessageKey}

/-- The update of one row throws unless the row is there and pending. -/
theorem markIngestComplete_isOk : (s.markIngestComplete now key).1 = .ok () ↔
    (s.getEntry key).map (·.ingestState) = some .pending := by
  have counted : ((s.rows.entries.filter fun e => e.1 = key && e.2.ingestState = .pending).length
      = 0) ↔ (s.getEntry key).map (·.ingestState) ≠ some .pending := by
    rw [List.length_eq_zero_iff, List.filter_eq_nil_iff]
    constructor
    · intro none_pending pending
      obtain ⟨row, found, state⟩ := Option.map_eq_some_iff.mp pending
      exact none_pending (key, row) (s.rows.mem_entries.mpr found) (by simp [state])
    · rintro other ⟨k, row⟩ mem meets
      simp only [Bool.and_eq_true, decide_eq_true_eq] at meets
      obtain ⟨rfl, state⟩ := meets
      have found : s.getEntry k = some row := s.rows.mem_entries.mp mem
      exact other (by rw [found, Option.map_some, state])
  simp only [markIngestComplete, requireChange, updateWhere]
  split_ifs with none_changed
  · simpa using counted.mp none_changed
  · simpa using fun other => none_changed (counted.mpr other)

end IdempotencyStore

/-- Unless it is still waiting, the caller has heard that the message is
accepted. -/
def InboundCall.Accepted (c : InboundCall) : Prop :=
  match c.stage with
  | .resolved result => result = .accepted c.correlationId
  | .rejected _ => False
  | _ => True

namespace Supervisor

variable {o : SupervisorOptions} {s t : Supervisor} {i : ℕ} {c : InboundCall}

/-- Every message that was new is accepted. -/
def Accepts (s : Supervisor) : Prop :=
  ∀ i c, s.callOf i = some c → c.origin = .processInbound → c.created = true → c.Accepted

/-- When a passive append is acknowledged the ingest of the message is still
pending: no terminal of the correlation that it has joined was saved before. -/
def AppendsFirst (s : Supervisor) : Action → Prop
  | .appended i _ .done => ∀ c, s.callOf i = some c → c.origin = .processInbound →
      c.created = true → (∃ lease, c.stage = .appending lease) →
      (s.idempotency.getEntry c.key).map (·.ingestState) = some .pending
  | _ => True

/-! ### Acceptance -/

theorem accepted_of_onward {stage : Stage} (onward : c.Onward stage)
    (origin : c.origin = .processInbound) : ({ c with stage } : InboundCall).Accepted := by
  cases onward with
  | begun begun => cases begun <;> trivial
  | accepted => rfl
  | dropped settled => simp [origin] at settled

theorem accepted_of_turned {a : Action} {c' : InboundCall} (orderly : s.Orderly)
    (first : s.AppendsFirst a) (acts : s.Acts a i) (known : s.callOf i = some c)
    (turned : Turned s a c c') (origin : c'.origin = .processInbound)
    (created : c'.created = true) : c'.Accepted := by
  have old (early : c.stage.Early) : c.created = false := orderly.early i c known early
  cases turned with
  | supersedes | superseded | waits | flushes => trivial
  | ended ready => simp [old (.ready ready)] at created
  | redelivers ready => simp [old (.ready ready)] at created
  | redelivered was => simp [old (was ▸ .flushing _ _)] at created
  | fails early => simp [old early] at created
  | begun ready onward => exact accepted_of_onward onward origin
  | settled ready settled onward => simp [settled] at origin
  | onward begun onward => exact accepted_of_onward onward origin
  | refused appending refusal =>
      obtain same | ⟨other, -⟩ := acts
      · obtain rfl := Option.some.inj same
        have pending := first c known origin created ⟨_, appending⟩
        rw [IdempotencyStore.markIngestComplete_isOk.mpr pending] at refusal
        cases refusal
      · cases other

/-- One step keeps the property exactly if it meets the condition. -/
theorem accepts_step_iff {a : Action} (orderly : s.Orderly) (accepts : s.Accepts)
    (taken : s.step o a = some t) : t.Accepts ↔ s.AppendsFirst a := by
  constructor
  · intro still
    cases a with
    | appended i now answer =>
        cases answer with
        | failed error => trivial
        | done =>
            rintro c known origin created ⟨lease, stage⟩
            simp only [step, Option.ite_none_right_eq_some, react, known, Option.bind_some, stage,
              Option.some.injEq] at taken
            obtain ⟨-, rfl⟩ := taken
            refine (@IdempotencyStore.markIngestComplete_isOk _ now _).mp ?_
            cases performed : (s.idempotency.markIngestComplete now c.key).1 with
            | ok u => rfl
            | error error =>
                have rejected : (s.completeAppend i c now).callOf i =
                    some { c with stage := .rejected (.store error) } := by
                  rw [completeAppend]
                  split
                  · case h_1 store done => simp [done] at performed
                  · case h_2 error' store done =>
                      rw [done] at performed
                      obtain rfl := Except.error.inj performed
                      exact Function.update_self ..
                exact (still i _ rejected origin created).elim
    | _ => trivial
  · intro first j c' found origin created
    rcases turns_step orderly taken with ⟨-, rfl⟩ | turns
    · simp [crash] at found
    · rcases turns.call found with old | ⟨c, known, acts, turned⟩ | fresh
      · exact accepts j c' old origin created
      · exact accepted_of_turned orderly first acts known turned origin created
      · simp [fresh.2] at created

/-- In exactly those runs every message that was new is accepted in which no
passive append is acknowledged after the terminal of its correlation. -/
theorem new_messages_are_accepted_iff (o : SupervisorOptions) (as : List Action) :
    (machine o).Throughout Accepts initial as ↔ (machine o).EachStep AppendsFirst initial as :=
  Transition.Machine.throughout_iff_eachStep orderly_initial
    (fun i c found => by simp [initial] at found) (fun _ _ _ h taken => h.step taken)
    fun _ _ _ orderly accepts taken => accepts_step_iff orderly accepts taken

/-- While a turn is in flight a message comes in after the window has closed,
so that it is appended passively, and the turn ends before the child has
acknowledged the append. -/
def lateAppend : List Action :=
  [.recoverPending, arrival "m1" "hi" true rfl, .start 0 0, .acquired 0 0 (.ok 7), .prompted 0 0 .done,
    arrival "m2" "aside" false rfl, .start 1 100000,
    .frame room 100000 (.messageUpdate (some "ok")), .run 0, .run 0,
    .frame room 100000 (.agentEnd []), .run 1, .run 1, .run 1, .run 1, .run 1, .run 1, .remainder,
    .appended 1 100001 .done]

/-- The message has joined the turn, and its call is rejected. -/
theorem late_append_is_rejected : ∃ s, (machine roomOptions).exec Transition.Always initial
    lateAppend = some s ∧ ¬ s.Accepts := by
  have stage : ((machine roomOptions).exec Transition.Always initial lateAppend).bind
      (fun s => (s.callOf 1).map fun c => (c.origin, c.created, c.stage)) =
        some (.processInbound, true, .rejected (.store (.invalidStateTransition "chat" "m2"
          ("expected ingest_state=pending for adapter=\"chat\" message=\"m2\" but found "
            ++ "ingest_state=completed")))) := by
    decide +kernel
  obtain ⟨s, ran, found⟩ := Option.bind_eq_some_iff.mp stage
  obtain ⟨c, known, same⟩ := Option.map_eq_some_iff.mp found
  simp only [Prod.mk.injEq] at same
  refine ⟨s, ran, fun accepts => ?_⟩
  have accepted := accepts 1 c known same.1 same.2.1
  rw [InboundCall.Accepted, same.2.2] at accepted
  exact accepted

end Supervisor

end OmpBundler.Core
