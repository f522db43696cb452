import OmpBundler.Core.SupervisorPieces

/-!
The calls of one conversation are processed one after the other.

A call of `processInbound` begins when every earlier call of its conversation
is over and the recovery of the conversation has ended. The chain of a
conversation holds exactly the calls that are not over, in the order in which
they have come in, and a call is at its head when it begins.
-/

namespace OmpBundler.Core

open Library

namespace Supervisor

variable {o : SupervisorOptions} {s t : Supervisor} {i j k : ℕ} {c d : InboundCall} {now : ℤ}

/-! ### Recoveries -/

theorem Primitive.recoveries (update : Primitive o s t) :
    t.recoveryChains = s.recoveryChains ∧ t.recovered = s.recovered := by
  cases update with
  | aside kept => exact ⟨kept.recoveryChains, kept.recovered⟩
  | correlation | register | cleanup => exact ⟨rfl, rfl⟩
  | emit active now m =>
      rw [Supervisor.emit]
      split <;> exact ⟨rfl, rfl⟩
  | redeliver i active event =>
      rw [Supervisor.redeliver]
      split <;> exact ⟨rfl, rfl⟩

theorem Piece.recoveries (piece : Piece o s t) :
    t.recoveryChains = s.recoveryChains ∧ t.recovered = s.recovered := by
  induction piece with
  | refl => exact ⟨rfl, rfl⟩
  | tail _ update ih => exact ⟨update.recoveries.1.trans ih.1, update.recoveries.2.trans ih.2⟩

/-- No conversation is left with a recovery that had none. -/
structure Recovers (s t : Supervisor) : Prop where
  recovered : t.recovered = s.recovered
  chains : ∀ conversation, s.recoveryChains conversation = [] →
    t.recoveryChains conversation = []

theorem Recovers.of_eq (chains : t.recoveryChains = s.recoveryChains)
    (recovered : t.recovered = s.recovered) : Recovers s t :=
  ⟨recovered, fun conversation empty => by rw [chains, empty]⟩

theorem closeEmitter_recoveries :
    (s.closeEmitter k).recoveryChains = s.recoveryChains ∧
      (s.closeEmitter k).recovered = s.recovered := by
  rw [closeEmitter]
  split <;> exact ⟨rfl, rfl⟩

theorem recovers_setRecovery (conversation : Conversation) (stage : RecoveryStage) :
    Recovers s (s.setRecovery conversation stage) := by
  refine ⟨rfl, fun other empty => ?_⟩
  by_cases same : other = conversation
  · subst same
    simp [setRecovery, empty]
  · simpa [setRecovery, Function.update_of_ne same] using empty

theorem recovers_endRecovery (conversation : Conversation) (k : ℕ) :
    Recovers s (s.endRecovery conversation k) := by
  refine ⟨closeEmitter_recoveries.2, fun other empty => ?_⟩
  by_cases same : other = conversation
  · subst same
    simp [endRecovery, empty]
  · simpa [endRecovery, Function.update_of_ne same] using empty

theorem recovers_resumeRecovery {conversation : Conversation}
    (taken : s.resumeRecovery conversation = some t) : Recovers s t := by
  obtain ⟨r, -, taken⟩ := Option.bind_eq_some_iff.mp taken
  split at taken
  · simp at taken
  · obtain ⟨fulfilled, -, rfl⟩ := Option.map_eq_some_iff.mp taken
    split_ifs
    · exact recovers_setRecovery conversation _
    · exact recovers_endRecovery conversation _
  · obtain ⟨fulfilled, -, rfl⟩ := Option.map_eq_some_iff.mp taken
    exact recovers_endRecovery conversation _

theorem recovers_awaitRedelivery (how : Redelivery) (who : Waiting) :
    Recovers s (s.awaitRedelivery k how who) := by
  cases who with
  | call i =>
      rw [awaitRedelivery]
      split
      · exact .of_eq rfl rfl
      · split <;> exact .of_eq rfl rfl
  | recovery conversation =>
      rw [awaitRedelivery]
      split
      · exact recovers_setRecovery conversation _
      · exact recovers_endRecovery conversation k

theorem Reacts.recoveries (reacts : Reacts o s t) :
    s.recovered = false ∧ t.recovered = true ∧ t.callOf = s.callOf ∨ Recovers s t := by
  cases reacts with
  | piece piece => exact .inr (.of_eq piece.recoveries.1 piece.recoveries.2)
  | recovers first => exact .inl ⟨first, rfl, rfl⟩
  | begins conversation head =>
      refine .inr ?_
      simp only [beginRecovery]
      split
      · rw [redeliver]
        split <;> exact .of_eq rfl rfl
      · split <;> exact .of_eq rfl rfl
  | resumes taken => exact .inr (recovers_resumeRecovery taken)
  | redelivered known named =>
      refine .inr ?_
      simp only [endRedelivery, resolve, finish]
      split
      · exact .of_eq closeEmitter_recoveries.1 closeEmitter_recoveries.2
      · exact .of_eq rfl rfl
  | delivers taken => exact .inr (.of_eq rfl rfl)
  | closes mem => exact .inr (.of_eq closeEmitter_recoveries.1 closeEmitter_recoveries.2)

/-- `recoverPending` finds no call, and after it no recovery is added. -/
theorem recoveries_step {a : Action} (taken : s.step o a = some t) :
    t = s.crash ∨ (s.recovered = false ∧ t.recovered = true ∧ t.callOf = s.callOf) ∨
      Recovers s t := by
  rcases step_cases taken with ⟨-, rfl⟩ | ⟨now, -, ran⟩ | ⟨x, rest, -, -, -, rfl⟩ |
      ⟨-, -, reacted⟩
  · exact .inl rfl
  · refine .inr (.inr ?_)
    rw [runEmitter] at ran
    split at ran
    · simp at ran
    · obtain ⟨e, -, ran⟩ := Option.bind_eq_some_iff.mp ran
      obtain ⟨out, -, rfl⟩ := Option.map_eq_some_iff.mp ran
      exact .of_eq rfl rfl
  · refine .inr (.inr ?_)
    cases x with
    | flush k => exact .of_eq rfl rfl
    | await who k how =>
        have recovers := @recovers_awaitRedelivery { s with agenda := rest } k how who
        exact ⟨recovers.recovered, recovers.chains⟩
  · exact .inr (react_cases reacted).recoveries

/-! ### What a step does to one call -/

/-- A call that is over stays as it is. -/
theorem Turned.going {a : Action} (turned : Turned s a c d) : ¬ c.stage.Final := by
  cases turned with
  | supersedes queued => exact (Stage.Early.ready (queued ▸ .queued)).not_final
  | superseded was => exact (was ▸ Stage.Early.superseding _ : c.stage.Early).not_final
  | ended ready | redelivers ready | waits ready | begun ready | settled ready =>
      exact (Stage.Early.ready ready).not_final
  | flushes was => exact (was ▸ Stage.Early.redelivering _ _ : c.stage.Early).not_final
  | redelivered was => exact (was ▸ Stage.Early.flushing _ _ : c.stage.Early).not_final
  | fails early => exact early.not_final
  | onward begun => exact begun.not_final
  | refused was => exact (was ▸ Stage.Begun.appending _ : c.stage.Begun).not_final

theorem Turned.origin {a : Action} (turned : Turned s a c d) : d.origin = c.origin := by
  cases turned <;> rfl

theorem Turned.conversation {a : Action} (turned : Turned s a c d) :
    d.conversation = c.conversation := by
  cases turned <;> rfl

/-! ### The chains -/

/-- The call belongs to the chain of the conversation and is not over. -/
def Queues (s : Supervisor) (conversation : Conversation) (i : ℕ) : Prop :=
  ∃ c, s.callOf i = some c ∧ c.origin = .processInbound ∧ c.conversation = conversation ∧
    ¬ c.stage.Final

/-- When the call of a conversation has begun, the earlier ones are over, and
so is the recovery of the conversation. -/
def TakesTurns (s : Supervisor) : Prop :=
  ∀ j d, s.callOf j = some d → d.origin = .processInbound → d.stage ≠ .queued →
    s.recoveryChains d.conversation = [] ∧
      ∀ i c, i < j → s.callOf i = some c → c.origin = .processInbound →
        c.conversation = d.conversation → c.stage.Final

/-- Calls are numbered as they come in; the chain of a conversation holds
those that are not over. -/
structure Chained (s : Supervisor) : Prop where
  orderly : s.Orderly
  numbered : ∀ i c, s.callOf i = some c → i < s.nextCall
  sorted : ∀ conversation, (s.inboundChains conversation).Pairwise (· < ·)
  chained : ∀ conversation i, i ∈ s.inboundChains conversation ↔ s.Queues conversation i
  waits : s.recovered = false → ∀ i c, s.callOf i = some c → c.origin ≠ .processInbound
  takesTurns : s.TakesTurns

theorem chained_initial : Chained initial where
  orderly := orderly_initial
  numbered i c found := by simp [initial] at found
  sorted _ := List.Pairwise.nil
  chained conversation i := by simp [initial, Queues]
  waits _ i c found := by simp [initial] at found
  takesTurns j d found := by simp [initial] at found

/-- A call that may start has nobody before it. -/
theorem Chained.first (h : s.Chained) (inbound : c.origin = .processInbound)
    (may : s.mayStart i c = true) :
    s.recoveryChains c.conversation = [] ∧ ∀ j d, j < i → s.callOf j = some d →
      d.origin = .processInbound → d.conversation = c.conversation → d.stage.Final := by
  simp only [mayStart, inbound, Bool.and_eq_true, decide_eq_true_eq] at may
  refine ⟨may.2, fun j d earlier known origin same => ?_⟩
  by_contra going
  have mem : j ∈ s.inboundChains c.conversation := (h.chained _ j).mpr ⟨d, known, origin, same, going⟩
  obtain ⟨rest, chain⟩ := List.head?_eq_some_iff.mp may.1
  have sorted := h.sorted c.conversation
  rw [chain, List.pairwise_cons] at sorted
  rw [chain, List.mem_cons] at mem
  rcases mem with rfl | later
  · exact lt_irrefl _ earlier
  · exact lt_asymm earlier (sorted.1 j later)

/-! ### Steps that move one call -/

section Turned

variable {a : Action} (h : s.Chained) (known : s.callOf i = some c)
  (moved : t.calls = s.calls.put i d) (turned : Turned s a c d)

include moved in
theorem callOf_put : t.callOf = Function.update s.callOf i (some d) := by
  rw [show t.callOf = t.calls.callOf from rfl, moved, Calls.put_callOf]
  rfl

include moved in
/-- The call leaves its chain when it is over. -/
theorem chains_put (conversation : Conversation) :
    (d.stage.Final ∧ conversation = d.conversation ∧
        t.inboundChains conversation = (s.inboundChains conversation).filter (· ≠ i)) ∨
      (¬ (d.stage.Final ∧ conversation = d.conversation) ∧
        t.inboundChains conversation = s.inboundChains conversation) := by
  rw [show t.inboundChains = t.calls.inboundChains from rfl, moved]
  by_cases final : d.stage.Final
  · have put : (s.calls.put i d).inboundChains = Function.update s.inboundChains d.conversation
        ((s.inboundChains d.conversation).filter (· ≠ i)) := by
      rw [Calls.put]
      cases stage : d.stage with
      | resolved | rejected => rfl
      | _ => exact absurd (stage ▸ final) (by rintro ⟨⟩)
    by_cases same : conversation = d.conversation
    · subst same
      exact .inl ⟨final, rfl, by rw [put, Function.update_self]⟩
    · exact .inr ⟨fun both => same both.2, by rw [put, Function.update_of_ne same]⟩
  · exact .inr ⟨fun both => final both.1, by rw [Calls.put_of_not_final _ _ final]; rfl⟩

include moved in
theorem chains_sublist (conversation : Conversation) :
    (t.inboundChains conversation).Sublist (s.inboundChains conversation) := by
  rcases chains_put moved conversation with ⟨-, -, chain⟩ | ⟨-, chain⟩
  · rw [chain]
    exact List.filter_sublist
  · rw [chain]

include known turned in
theorem queues_turned (conversation : Conversation) :
    s.Queues conversation i ↔ c.origin = .processInbound ∧ c.conversation = conversation := by
  constructor
  · rintro ⟨c', known', origin, same, -⟩
    obtain rfl := Option.some.inj (known.symm.trans known')
    exact ⟨origin, same⟩
  · exact fun both => ⟨c, known, both.1, both.2, turned.going⟩

include h known moved turned in
theorem Chained.queues_put (conversation : Conversation) (j : ℕ) :
    j ∈ t.inboundChains conversation ↔ t.Queues conversation j := by
  by_cases here : j = i
  · subst here
    have queues : t.Queues conversation j ↔ s.Queues conversation j ∧ ¬ d.stage.Final := by
      rw [queues_turned known turned, Queues, callOf_put moved]
      simp [turned.origin, turned.conversation, and_assoc]
    rw [queues, ← h.chained]
    rcases chains_put moved conversation with ⟨final, -, chain⟩ | ⟨apart, chain⟩
    · simp [chain, final]
    · rw [chain]
      refine ⟨fun mem => ⟨mem, fun final => apart ⟨final, ?_⟩⟩, And.left⟩
      have queued := (queues_turned known turned conversation).mp ((h.chained _ j).mp mem)
      rw [← queued.2, turned.conversation]
  · have queues : t.Queues conversation j ↔ s.Queues conversation j := by
      rw [Queues, callOf_put moved, Function.update_of_ne here]
      rfl
    rw [queues, ← h.chained]
    rcases chains_put moved conversation with ⟨-, -, chain⟩ | ⟨-, chain⟩
    · simp [chain, here]
    · rw [chain]

include h known moved turned in
theorem Chained.takesTurns_put (mayStart : c.stage = .queued → s.mayStart i c = true)
    (recovers : Recovers s t) : t.TakesTurns := by
  -- what is over stays over
  have final {j : ℕ} {c' : InboundCall} (found : t.callOf j = some c')
      (was : ∀ c₀, s.callOf j = some c₀ → c₀.origin = c'.origin →
        c₀.conversation = c'.conversation → c₀.stage.Final) : c'.stage.Final := by
    rw [callOf_put moved] at found
    by_cases here : j = i
    · subst here
      rw [Function.update_self] at found
      obtain rfl := Option.some.inj found
      exact absurd (was c known turned.origin.symm turned.conversation.symm) turned.going
    · rw [Function.update_of_ne here] at found
      exact was c' found rfl rfl
  intro j e found inbound begun
  rw [callOf_put moved] at found
  by_cases here : j = i
  · subst here
    rw [Function.update_self] at found
    obtain rfl := Option.some.inj found
    have first : s.recoveryChains c.conversation = [] ∧ ∀ i c', i < j → s.callOf i = some c' →
        c'.origin = .processInbound → c'.conversation = c.conversation → c'.stage.Final := by
      by_cases queued : c.stage = .queued
      · exact h.first (turned.origin ▸ inbound) (mayStart queued)
      · exact h.takesTurns j c known (turned.origin ▸ inbound) queued
    rw [turned.conversation]
    refine ⟨recovers.chains _ first.1, fun i c' earlier there origin same => ?_⟩
    exact final there fun c₀ known₀ origin₀ same₀ =>
      first.2 i c₀ earlier known₀ (origin₀.trans origin) (same₀.trans same)
  · rw [Function.update_of_ne here] at found
    obtain ⟨empty, earlier⟩ := h.takesTurns j e found inbound begun
    refine ⟨recovers.chains _ empty, fun i c' before there origin same => ?_⟩
    exact final there fun c₀ known₀ origin₀ same₀ =>
      earlier i c₀ before known₀ (origin₀.trans origin) (same₀.trans same)

omit turned in
include h known moved in
theorem Chained.numbered_put {j : ℕ} {c' : InboundCall} (found : t.callOf j = some c') :
    j < t.nextCall := by
  have same : t.nextCall = s.nextCall := by
    rw [show t.nextCall = t.calls.nextCall from rfl, moved, Calls.put]
    split <;> rfl
  rw [same]
  rw [callOf_put moved] at found
  by_cases here : j = i
  · exact here ▸ h.numbered i c known
  · rw [Function.update_of_ne here] at found
    exact h.numbered j c' found

end Turned

/-! ### Steps that bring calls -/

section Arrivals

variable {news : List InboundCall} (h : s.Chained) (fresh : ∀ c ∈ news, c.Fresh)
  (calls : t.callOf = (s.addCalls news).callOf)

include calls in
/-- The numbers of the new calls follow those of the old ones. -/
theorem callOf_arrivals (found : t.callOf i = some c) :
    (i < s.nextCall ∧ s.callOf i = some c) ∨
      (s.nextCall ≤ i ∧ i < s.nextCall + news.length ∧ c ∈ news) := by
  rw [calls] at found
  simp only [addCalls] at found
  split_ifs at found with old
  · exact .inl ⟨old, found⟩
  · have bound := (List.getElem?_eq_some_iff.mp found).1
    exact .inr ⟨by omega, by omega, List.mem_of_getElem? found⟩

include calls in
theorem callOf_of_lt (old : i < s.nextCall) : t.callOf i = s.callOf i := by
  rw [calls]
  exact if_pos old

include h fresh calls in
/-- A new call is queued, and comes after all others. -/
theorem Chained.takesTurns_arrivals (recovers : Recovers s t) : t.TakesTurns := by
  intro j d found inbound begun
  rcases callOf_arrivals calls found with ⟨old, known⟩ | ⟨-, -, mem⟩
  · obtain ⟨empty, earlier⟩ := h.takesTurns j d known inbound begun
    refine ⟨recovers.chains _ empty, fun i c before there => ?_⟩
    rw [callOf_of_lt calls (before.trans old)] at there
    exact earlier i c before there
  · exact absurd (fresh d mem).1 begun

include h calls in
theorem Chained.queues_arrivals {conversation : Conversation}
    (inChain : ∀ i, i ∈ t.inboundChains conversation ↔
      i ∈ s.inboundChains conversation ∨ s.nextCall ≤ i ∧ t.Queues conversation i) (i : ℕ) :
    i ∈ t.inboundChains conversation ↔ t.Queues conversation i := by
  rw [inChain, h.chained]
  constructor
  · rintro (⟨c, known, rest⟩ | new)
    · exact ⟨c, by rwa [callOf_of_lt calls (h.numbered i c known)], rest⟩
    · exact new.2
  · rintro ⟨c, found, rest⟩
    rcases callOf_arrivals calls found with ⟨old, known⟩ | ⟨new, -, mem⟩
    · exact .inl ⟨c, known, rest⟩
    · exact .inr ⟨new, c, found, rest⟩

end Arrivals

/-- The new call is put at the end of the chain of its conversation. -/
theorem inboundChains_processInbound (adapterId : String) (m : ValidatedMessage)
    (conversation : Conversation) :
    (s.processInbound adapterId m).inboundChains conversation =
      s.inboundChains conversation ++
        if conversation = ⟨adapterId, m.message.conversationKey⟩ then [s.nextCall] else [] := by
  simp only [processInbound, InboundCall.conversation]
  by_cases same : conversation = ⟨adapterId, m.message.conversationKey⟩
  · subst same
    simp
  · simp [same]

theorem callOf_processInbound (adapterId : String) (m : ValidatedMessage) :
    (s.processInbound adapterId m).callOf s.nextCall =
      some ⟨.processInbound, adapterId, m.message, m.value, "", false, .queued⟩ := by
  simp [Supervisor.processInbound, addCalls]

theorem Chained.processInbound (h : s.Chained) (adapterId : String) (m : ValidatedMessage)
    (orderly : (s.processInbound adapterId m).Orderly) (recovered : s.recovered = true) :
    (s.processInbound adapterId m).Chained := by
  refine ⟨orderly, fun i c found => ?_, fun conversation => ?_, fun conversation => ?_,
    fun waits => ?_,
    h.takesTurns_arrivals (by simp [InboundCall.Fresh]) rfl (.of_eq rfl rfl)⟩
  · rcases callOf_arrivals rfl found with ⟨old, -⟩ | ⟨-, new, -⟩
    · exact old.trans (Nat.lt_succ_self _)
    · exact new
  · rw [inboundChains_processInbound]
    refine List.pairwise_append.mpr ⟨h.sorted conversation, by split <;> simp, ?_⟩
    intro i mem j last
    obtain ⟨c, known, -⟩ := (h.chained conversation i).mp mem
    split at last
    · obtain rfl := List.mem_singleton.mp last
      exact h.numbered i c known
    · simp at last
  · refine Chained.queues_arrivals (t := s.processInbound adapterId m) h rfl fun i => ?_
    rw [inboundChains_processInbound, List.mem_append]
    refine or_congr_right ⟨fun mem => ?_, ?_⟩
    · split at mem
      · case isTrue same =>
        obtain rfl := List.mem_singleton.mp mem
        exact ⟨le_rfl, _, callOf_processInbound adapterId m, rfl, same.symm,
          (Stage.Early.ready .queued).not_final⟩
      · simp at mem
    · rintro ⟨new, c, found, -, same, -⟩
      rcases callOf_arrivals rfl found with ⟨old, -⟩ | ⟨-, bound, mem⟩
      · omega
      · obtain rfl := List.mem_singleton.mp mem
        have last : i = s.nextCall := by
          simp only [List.length_singleton] at bound
          omega
        rw [if_pos (by exact same.symm), last]
        exact List.mem_singleton_self _
  · rw [show (s.processInbound adapterId m).recovered = s.recovered from rfl, recovered] at waits
    cases waits

theorem Chained.flushSettled (h : s.Chained) (orderly : (s.flushSettled o now).Orderly) :
    (s.flushSettled o now).Chained := by
  have settled : ∀ c ∈ (s.buffer.sweepSettled o.buffer now).1.filterMap settledCall,
      c.Fresh ∧ c.origin = .flushSettled := by
    intro c mem
    obtain ⟨settled, -, made⟩ := List.mem_filterMap.mp mem
    refine ⟨fresh_of_settledCall made, ?_⟩
    obtain ⟨last, -, rfl⟩ := Option.map_eq_some_iff.mp made
    rfl
  refine ⟨orderly, fun i c found => ?_, h.sorted, fun conversation => ?_, fun waits i c found => ?_,
    h.takesTurns_arrivals (fun c mem => (settled c mem).1) rfl (.of_eq rfl rfl)⟩
  · rcases callOf_arrivals rfl found with ⟨old, -⟩ | ⟨-, new, -⟩
    · exact old.trans_le (Nat.le_add_right _ _)
    · exact new
  · refine Chained.queues_arrivals (t := s.flushSettled o now) h rfl fun i =>
      ⟨.inl, fun mem => mem.elim id ?_⟩
    rintro ⟨new, c, found, origin, -⟩
    rcases callOf_arrivals rfl found with ⟨old, -⟩ | ⟨-, -, mem⟩
    · exact absurd old (Nat.not_lt.mpr new)
    · simp [(settled c mem).2] at origin
  · rcases callOf_arrivals rfl found with ⟨-, known⟩ | ⟨-, -, mem⟩
    · exact h.waits waits i c known
    · simp [(settled c mem).2]

/-! ### The machine -/

theorem Chained.step {a : Action} (h : s.Chained) (taken : s.step o a = some t) : t.Chained := by
  have orderly := h.orderly.step taken
  have died (same : t = s.crash) : t.Chained :=
    ⟨orderly, by simp [same, crash], by simp [same, crash], by simp [same, crash, Queues],
      by simp [same, crash], by simp [same, crash, TakesTurns]⟩
  rcases recoveries_step taken with crashed | recoveries
  · exact died crashed
  rcases turns_step h.orderly taken with ⟨-, crashed⟩ | turns
  · exact died crashed
  cases turns with
  | arrives action recovered moved =>
      subst moved
      exact h.processInbound _ _ orderly recovered
  | sweeps action moved =>
      subst moved
      exact h.flushSettled orderly
  | same kept =>
      have calls : t.callOf = s.callOf := congrArg Calls.callOf kept
      have chains : t.inboundChains = s.inboundChains := congrArg Calls.inboundChains kept
      refine ⟨orderly, ?_, by simpa [chains] using h.sorted, ?_, fun waits => ?_, ?_⟩
      · rw [calls, show t.nextCall = s.nextCall from congrArg Calls.nextCall kept]
        exact h.numbered
      · intro conversation i
        rw [chains, h.chained, Queues, Queues, calls]
      · rw [calls]
        rcases recoveries with ⟨first, -, -⟩ | recovers
        · exact h.waits first
        · exact h.waits (recovers.recovered ▸ waits)
      · rcases recoveries with ⟨first, -, -⟩ | recovers
        · intro j d found inbound
          rw [calls] at found
          exact absurd inbound (h.waits first j d found)
        · intro j d found inbound begun
          rw [calls] at found ⊢
          obtain ⟨empty, earlier⟩ := h.takesTurns j d found inbound begun
          exact ⟨recovers.chains _ empty, earlier⟩
  | @turned i c d acts known mayStart moved turned =>
      refine ⟨orderly, fun j c' => h.numbered_put known moved, fun conversation => ?_,
        h.queues_put known moved turned, fun waits j c' found => ?_, ?_⟩
      · exact (h.sorted conversation).sublist (chains_sublist moved conversation)
      · have before : s.recovered = false := by
          rcases recoveries with ⟨first, -, -⟩ | recovers
          · exact first
          · exact recovers.recovered ▸ waits
        rw [callOf_put moved] at found
        by_cases here : j = i
        · subst here
          rw [Function.update_self] at found
          obtain rfl := Option.some.inj found
          exact turned.origin ▸ h.waits before j c known
        · rw [Function.update_of_ne here] at found
          exact h.waits before j c' found
      · rcases recoveries with ⟨first, -, same⟩ | recovers
        · intro j e found inbound
          rw [same] at found
          exact absurd inbound (h.waits first j e found)
        · exact h.takesTurns_put known moved turned mayStart recovers

/-- In every run, whatever the pool, the children and the adapters do and
whenever the process dies, the messages of a conversation are processed in
the order in which they have come in, one at a time, and not before the
recovery of the conversation has ended. -/
theorem inbound_calls_take_turns (o : SupervisorOptions) (as : List Action) :
    (machine o).Throughout TakesTurns initial as :=
  Transition.Machine.throughout_of_invariant chained_initial (fun _ h => h.takesTurns)
    (fun _ _ _ h taken => h.step taken) as

end Supervisor

end OmpBundler.Core
