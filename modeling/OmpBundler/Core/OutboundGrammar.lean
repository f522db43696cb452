import OmpBundler.Core.OutboundFinality
import OmpBundler.Core.OutboundSequence
import OmpBundler.Core.TurnGrammar

/-!
When the events of a correlation obey the grammar of a turn.

Of what was said before it was made an emitter knows only whether a terminal
is persisted; it does not know whether the turn was started. For itself it
keeps to the grammar, as long as none of the calls is disorderly. So the
whole list obeys it if the emitter has not been overtaken and starts the turn
only when nobody before it has. The adapter sees the start if the prepared
hook lets it through.
-/

namespace OmpBundler.Core

open Library

/-- The event of an entry that lets an event of the correlation out. -/
def Entry.output? (adapterId correlationId : String) : Entry → Option OutboundEvent
  | .out _ owner event =>
      if owner = adapterId ∧ event.correlationId = correlationId then some event else none
  | _ => none

/-- The event of an entry that generates one, with its adapter. -/
def Entry.utterance? : Entry → Option (String × OutboundEvent)
  | .generated _ adapterId event => some (adapterId, event)
  | _ => none

namespace Outbound

/-- The outbound events of a correlation. -/
def outputs (log : List Entry) (adapterId correlationId : String) : List OutboundEvent :=
  log.filterMap (·.output? adapterId correlationId)

/-! ### The condition -/

/-- No call is disorderly, and each event is generated by an emitter that has
not been overtaken. The start of a turn is accepted by the prepared hook, and
comes from an emitter that was made before the turn was started. -/
def Orderly (s : Outbound) : Action → Prop
  | .call k now m => ∀ e ∈ s.emitterOf k, ¬ e.Disorderly now m
  | .run hook =>
      match s.todo with
      | .emit k event :: _ => ∀ e ∈ s.emitterOf k, s.Continues k e ∧
          (event.body = .turnStarted → hook = .ok () ∧
            ∀ g ∈ generations (before k s.log) e.adapterId e.correlationId,
              g.2.body ≠ .turnStarted)
      | _ => True
  | _ => True

instance (s : Outbound) (a : Action) : Decidable (s.Orderly a) :=
  a.casesOn (motive := fun a => Decidable (s.Orderly a)) (fun _ _ _ => isTrue trivial)
    (fun k now m => inferInstanceAs (Decidable (∀ e ∈ s.emitterOf k, ¬ e.Disorderly now m)))
    (fun _ => isTrue trivial) (fun _ _ => isTrue trivial) (fun _ _ => isTrue trivial)
    (fun _ => isTrue trivial)
    (fun hook => decidableNext s.todo fun k event => ∀ e ∈ s.emitterOf k, s.Continues k e ∧
      (event.body = .turnStarted → hook = .ok () ∧
        ∀ g ∈ generations (before k s.log) e.adapterId e.correlationId, g.2.body ≠ .turnStarted))
    (fun _ => isTrue trivial) (fun _ => isTrue trivial) (fun _ _ => isTrue trivial)
    (isTrue trivial)

/-! ### The invariants -/

/-- The identifiers that have been drawn, in order. -/
def names (s : Outbound) : List String :=
  (s.log.filterMap Entry.utterance?).map (·.2.eventId) ++ (emissions s.todo).map (·.2.eventId)

/-- No identifier is drawn twice. -/
structure Named (o : EmitterOptions) (s : Outbound) : Prop where
  known : ∀ name ∈ s.names, ∃ n < s.nextEvent, name = o.uuid n
  nodup : s.names.Nodup

/-- What the emitter has said and is about to say. -/
def own (s : Outbound) (k : ℕ) (e : OutboundEmitter) : List EventBody :=
  ((generations s.log e.adapterId e.correlationId).filter (·.1 = k) ++
    (emissions s.todo).filter (·.1 = k)).map (·.2.body)

/-- The emitter has read a terminal. -/
def HasRead (s : Outbound) (k : ℕ) (e : OutboundEmitter) : Prop :=
  ∃ event ∈ persisted (before k s.log) e.adapterId e.correlationId, event.isTerminal = true

/-- An emitter keeps to the grammar for itself. -/
structure Keeping (s : Outbound) (k : ℕ) (e : OutboundEmitter) : Prop where
  foreign : ∀ g ∈ generations (before k s.log) e.adapterId e.correlationId, g.1 ≠ k
  silent : s.HasRead k e → s.own k e = [] ∧ e.phase = ⟨true, true⟩
  accepted : ¬ s.HasRead k e → ∃ q, Phase.fresh.run (s.own k e) = some q ∧
    q.started = e.startedEmitted ∧ (q.ended = true → e.terminalEmitted = true)
  opened : ∀ g ∈ emissions s.todo, g.1 = k → g.2.body.needsStart = true → e.closed = false

/-- The turns and what has been let out of them. -/
structure Turning (s : Outbound) : Prop where
  emitters : ∀ k e, s.emitterOf k = some e → s.Keeping k e
  startFirst : ∀ op ∈ s.todo.tail, ∀ k event, op = .emit k event → event.body ≠ .turnStarted
  accepted : ∀ adapterId correlationId, ∃ q, Phase.fresh.run
    ((generations s.log adapterId correlationId).map (·.2.body)) = some q
  kept : ∀ key ∈ s.outbox.keys, ∃ k, .out k key.1 key.2 ∈ s.log
  nodup : ∀ adapterId correlationId, (outputs s.log adapterId correlationId).Nodup
  generated : ∀ k adapterId event, .out k adapterId event ∈ s.log → s.Generated adapterId event
  /-- A start comes out before anything else is said. -/
  starts : ∀ k adapterId event, .generated k adapterId event ∈ s.log →
    event.body = .turnStarted → ∀ e, s.emitterOf k = some e → e.closed = false →
      (∃ j, .out j adapterId event ∈ s.log) ∨ ∃ rest, s.todo = .insert k event :: rest
  started : ∀ k adapterId event, .generated k adapterId event ∈ s.log →
    event.body.needsStart = true → ∃ j start, .out j adapterId start ∈ s.log ∧
      start.correlationId = event.correlationId ∧ start.body = .turnStarted ∧
      start.sequence < event.sequence

variable {o : EmitterOptions} {s t : Outbound} {k : ℕ} {e : OutboundEmitter}
  {log more : List Entry} {adapterId correlationId : String}

theorem Orderly.sequential {a : Action} (orderly : s.Orderly a) : s.Sequential a := by
  unfold Sequential
  split
  · split
    · case h_1 todo =>
        simp only [Orderly, todo] at orderly
        exact fun e found => (orderly e found).1
    · trivial
  · trivial

/-! ### Identifiers -/

theorem Named.frame (h : Named o s) (names : t.names.Sublist s.names)
    (next : s.nextEvent = t.nextEvent) : Named o t :=
  ⟨fun name mem => next ▸ h.known name (names.subset mem), h.nodup.sublist names⟩

theorem names_sublist (log : t.log.filterMap Entry.utterance? = s.log.filterMap Entry.utterance?)
    (todo : (emissions t.todo).Sublist (emissions s.todo)) : t.names.Sublist s.names := by
  rw [names, names, log]
  exact (List.Sublist.refl _).append (todo.map _)

theorem utterances_append (more : List Entry) (quiet : ∀ entry ∈ more, entry.utterance? = none) :
    (log ++ more).filterMap Entry.utterance? = log.filterMap Entry.utterance? := by
  rw [List.filterMap_append, List.filterMap_eq_nil_iff.mpr quiet, List.append_nil]

/-- Events with one identifier are the same. -/
theorem Named.event_eq (h : Named o s) {owner : String} {event other : OutboundEvent}
    (mem : s.Generated adapterId event) (mem' : s.Generated owner other)
    (same : event.eventId = other.eventId) : adapterId = owner ∧ event = other := by
  obtain ⟨i, mem⟩ := mem
  obtain ⟨j, mem'⟩ := mem'
  have nodup : ((s.log.filterMap Entry.utterance?).map (·.2.eventId)).Nodup :=
    (List.nodup_append.mp h.nodup).1
  have pair : (adapterId, event) = (owner, other) := by
    refine List.inj_on_of_nodup_map nodup ?_ ?_ same
    · exact List.mem_filterMap.mpr ⟨_, mem, rfl⟩
    · exact List.mem_filterMap.mpr ⟨_, mem', rfl⟩
  exact Prod.mk.inj pair

theorem names_of_eventsOf {n : ℕ} {drafts : List Draft} {name : String}
    (mem : name ∈ (eventsOf o e n drafts).map (·.eventId)) :
    ∃ m, n ≤ m ∧ m < n + drafts.length ∧ name = o.uuid m := by
  induction drafts generalizing n with
  | nil => simp [eventsOf] at mem
  | cons draft rest ih =>
      rw [List.length_cons]
      rcases List.mem_cons.mp mem with rfl | later
      · exact ⟨n, le_refl n, by omega, rfl⟩
      · obtain ⟨m, low, high, same⟩ := ih later
        exact ⟨m, by omega, by omega, same⟩

theorem nodup_eventsOf (n : ℕ) (drafts : List Draft) :
    ((eventsOf o e n drafts).map (·.eventId)).Nodup := by
  induction drafts generalizing n with
  | nil => exact List.nodup_nil
  | cons draft rest ih =>
      refine List.nodup_cons.mpr ⟨fun mem => ?_, ih (n + 1)⟩
      obtain ⟨m, low, -, same⟩ := names_of_eventsOf mem
      have := o.uuid.injective same
      omega

theorem Named.quiet (h : Named o s) (quiet : Quiet s t) : Named o t := by
  obtain ⟨reports, log, all⟩ := quiet.log
  obtain ⟨ends, todo, alone⟩ := quiet.todo
  refine h.frame (names_sublist ?_ ?_) quiet.nextEvent.symm
  · rw [log]
    refine utterances_append _ fun entry mem => ?_
    have := all entry mem
    cases entry <;> simp_all [Entry.isReport, Entry.utterance?]
  · rw [todo, emissions_append, emissions_of_ends alone, List.append_nil]

theorem Named.call (h : Named o s) (ready : s.todo = []) (e : OutboundEmitter) (now : ℤ)
    (m : OutboundEmitter.Call) : Named o (s.call o k e now m) := by
  have split : (s.call o k e now m).names = s.names ++
      (eventsOf o (e.call now m) s.nextEvent (e.call now m).drafts).map (·.eventId) := by
    simp only [names, Outbound.call, ready, List.nil_append, emissions_map_emit, List.map_map]
    simp [emissions, Function.comp_def]
  refine ⟨fun name mem => ?_, ?_⟩
  · rw [split] at mem
    rcases List.mem_append.mp mem with old | new
    · obtain ⟨n, less, same⟩ := h.known name old
      exact ⟨n, Nat.lt_of_lt_of_le less (Nat.le_add_right _ _), same⟩
    · obtain ⟨n, -, less, same⟩ := names_of_eventsOf new
      exact ⟨n, less, same⟩
  · rw [split]
    refine List.nodup_append.mpr ⟨h.nodup, nodup_eventsOf .., ?_⟩
    rintro name old _ new rfl
    obtain ⟨n, less, same⟩ := h.known name old
    obtain ⟨m, low, -, same'⟩ := names_of_eventsOf new
    have := o.uuid.injective (same.symm.trans same')
    omega

theorem emissions_insert (event : OutboundEvent) :
    (emissions (s.insert k e event).todo).Sublist (emissions s.todo) ∧
      (s.insert k e event).nextEvent = s.nextEvent ∧
      ∃ more, (s.insert k e event).log = s.log ++ more ∧
        ∀ entry ∈ more, entry = .out k e.adapterId event := by
  rw [Outbound.insert]
  split
  · exact ⟨List.nil_sublist _, rfl, [], by simp⟩
  · split
    · split
      · exact ⟨List.Sublist.refl _, rfl, [], by simp⟩
      · exact ⟨List.nil_sublist _, rfl, [], by simp⟩
    · exact ⟨List.Sublist.refl _, rfl, [.out k e.adapterId event], rfl, by simp⟩

theorem Named.run (h : Named o s) {op : Op} {rest : List Op} (todo : s.todo = op :: rest)
    (hook : Except String Unit) : Named o ((s.setTodo rest).runOp o e hook op) := by
  have taken : Named o (s.setTodo rest) := by
    refine h.frame (names_sublist rfl ?_) rfl
    rw [todo]
    exact (List.sublist_cons_self op rest).filterMap _
  -- `deliverDurable` draws no identifier
  have deliver {u : Outbound} (named : Named o u) (k : ℕ) (event : OutboundEvent) :
      Named o (u.deliverDurable k event hook) := by
    cases hook <;> exact named.frame (names_sublist rfl (List.Sublist.refl _)) rfl
  cases op with
  | emit k event =>
      have generated : Named o ((s.setTodo rest).note (.generated k e.adapterId event)) := by
        refine h.frame ?_ rfl
        simp only [names, todo, note_log, setTodo_log, note_todo, setTodo_todo,
          List.filterMap_append, List.map_append, List.append_assoc]
        exact List.Sublist.refl _
      show Named o (if _ then _ else _)
      split
      · exact generated.frame (names_sublist (utterances_append
          [.out k e.adapterId event] (by simp [Entry.utterance?])) (List.Sublist.refl _)) rfl
      · exact deliver generated k event
  | deliver k event => exact deliver taken k event
  | insert k event =>
      obtain ⟨todo, next, more, log, all⟩ :=
        emissions_insert (s := s.setTodo rest) (k := k) (e := e) event
      refine taken.frame (names_sublist ?_ todo) next.symm
      show ((s.setTodo rest).insert k e event).log.filterMap _ = _
      rw [log]
      exact utterances_append _ fun entry mem => by simp [all entry mem, Entry.utterance?]
  | confirm k event => exact taken
  | prepareRetry k event =>
      cases hook with
      | error message => exact taken
      | ok u => exact taken.frame (names_sublist rfl (List.Sublist.refl _)) rfl
  | retry k event => exact taken.frame (names_sublist rfl (List.Sublist.refl _)) rfl
  | delivered k event => exact taken.quiet (quiet_afterDelivered event hook)
  | failed k event error => exact taken.quiet (quiet_settle _ k _)

theorem Named.step {a : Action} (h : Named o s) (taken : step o s a = some t) : Named o t := by
  cases step_cases taken with
  | nothing => exact h
  | create ready adapterId conversationKey correlationId =>
      exact h.frame (names_sublist (utterances_append
        [.born s.nextEmitter adapterId correlationId] (by simp [Entry.utterance?]))
        (List.Sublist.refl _)) rfl
  | call ready found now m => exact h.call ready _ now m
  | redrive ready found idle asked =>
      exact h.frame (names_sublist (by simp) (by simp)) (by simp)
  | prepareRetry a ready found mem own failure =>
      exact h.frame (names_sublist rfl (List.nil_sublist _)) rfl
  | deliver ready found saved => exact h.frame (names_sublist rfl (List.nil_sublist _)) rfl
  | confirm ready found => exact h.frame (names_sublist rfl (List.nil_sublist _)) rfl
  | close ready found => exact h.frame (names_sublist rfl (List.Sublist.refl _)) rfl
  | drive a ready found head driven => exact h.quiet driven.quiet
  | recorded a ready found head eventId attempts error driven =>
      exact (h.quiet (quiet_record s eventId attempts error)).quiet driven.quiet
  | run todo found hook => exact h.run todo hook
  | crash => exact h.frame (names_sublist rfl (List.nil_sublist _)) rfl

/-! ### Outputs -/

theorem mem_outputs {event : OutboundEvent} :
    event ∈ outputs log adapterId correlationId ↔
      ∃ k, .out k adapterId event ∈ log ∧ event.correlationId = correlationId := by
  rw [outputs, List.mem_filterMap]
  constructor
  · rintro ⟨entry, mem, found⟩
    cases entry with
    | out k owner event =>
        simp only [Entry.output?, Option.ite_none_right_eq_some, Option.some.injEq] at found
        obtain ⟨⟨rfl, same⟩, rfl⟩ := found
        exact ⟨k, mem, same⟩
    | _ => simp [Entry.output?] at found
  · rintro ⟨k, mem, same⟩
    exact ⟨_, mem, by simp [Entry.output?, same]⟩

theorem outputs_append (log more : List Entry) (adapterId correlationId : String) :
    outputs (log ++ more) adapterId correlationId =
      outputs log adapterId correlationId ++ outputs more adapterId correlationId :=
  List.filterMap_append

/-- An event that has not come out comes out. -/
theorem nodup_outputs (nodup : (outputs log adapterId correlationId).Nodup)
    {event : OutboundEvent} {owner : String} (new : ∀ j, .out j owner event ∉ log) :
    (outputs (log ++ [.out k owner event]) adapterId correlationId).Nodup := by
  rw [outputs_append]
  refine List.nodup_append.mpr ⟨nodup, ?_, ?_⟩
  · rw [outputs, List.filterMap_cons, List.filterMap_nil]
    cases Entry.output? adapterId correlationId (.out k owner event) <;> simp
  · rintro other old _ mem rfl
    obtain ⟨i, mem⟩ := mem_outputs.mp mem
    obtain ⟨j, old⟩ := mem_outputs.mp old
    obtain ⟨-, rfl, rfl⟩ := Entry.out.inj (List.mem_singleton.mp mem.1)
    exact new j old.1

/-! ### What an emitter says -/

theorem Keeping.of_own (h : s.Keeping k e) (own : t.own k e = s.own k e)
    (before : before k t.log = before k s.log)
    (todo : ∀ g ∈ emissions t.todo, g.1 = k → g ∈ emissions s.todo) : t.Keeping k e := by
  refine ⟨before ▸ h.foreign, fun read => ?_, fun unread => ?_,
    fun g mem same => h.opened g (todo g mem same) same⟩
  · rw [HasRead, before] at read
    rw [own]
    exact h.silent read
  · rw [HasRead, before] at unread
    rw [own]
    exact h.accepted unread

/-- What an emitter was about to say is dropped, and it is not the start. -/
theorem Keeping.drop (h : s.Keeping k e)
    (other : ∀ g ∈ emissions s.todo, g.2.body ≠ .turnStarted)
    (log : t.log = s.log) (todo : emissions t.todo = []) : t.Keeping k e := by
  have own : s.own k e = t.own k e ++ ((emissions s.todo).filter (·.1 = k)).map (·.2.body) := by
    simp [Outbound.own, log, todo]
  have read : t.HasRead k e ↔ s.HasRead k e := by rw [HasRead, HasRead, log]
  refine ⟨log ▸ h.foreign, fun hasRead => ?_, fun unread => ?_, by simp [todo]⟩
  · obtain ⟨none, phase⟩ := h.silent (read.mp hasRead)
    rw [own] at none
    exact ⟨(List.append_eq_nil_iff.mp none).1, phase⟩
  · obtain ⟨q, accepted, started, ended⟩ := h.accepted (fun hasRead => unread (read.mpr hasRead))
    rw [own] at accepted
    obtain ⟨r, first, rest⟩ := Phase.run_of_append accepted
    refine ⟨r, first, ?_, fun done => ended ((Phase.ended_iff rest).mpr (.inl done))⟩
    rw [← started, Bool.eq_iff_iff, Phase.started_iff rest]
    refine ⟨.inl, fun h => h.resolve_right fun mem => ?_⟩
    obtain ⟨g, mem, start⟩ := List.mem_map.mp mem
    exact other g (List.mem_filter.mp mem).1 start

theorem own_generate {event : OutboundEvent} {rest : List Op} (todo : s.todo = .emit k event :: rest)
    (correlation : event.correlationId = e.correlationId)
    (log : ∀ a c, generations t.log a c =
      generations s.log a c ++ generations [.generated k e.adapterId event] a c)
    (left : emissions t.todo = emissions rest) {j : ℕ} {e' : OutboundEmitter}
    (same : j = k → e' = e) : t.own j e' = s.own j e' := by
  have head : emissions s.todo = (k, event) :: emissions rest := by rw [todo]; rfl
  simp only [own, log, generations_generated, left, head]
  by_cases here : j = k
  · obtain rfl := same here
    simp [here, correlation]
  · have gone : (if e.adapterId = e'.adapterId ∧ event.correlationId = e'.correlationId
        then [(k, event)] else []).filter (·.1 = j) = [] := by
      split <;> simp [Ne.symm here]
    rw [List.filter_append, gone, List.append_nil, List.filter_cons_of_neg (by simp [Ne.symm here])]

/-- What the emitter says next is accepted after what it has said. -/
theorem Keeping.alone (h : s.Keeping k e) {event : OutboundEvent} {rest : List Op}
    (todo : s.todo = .emit k event :: rest) :
    ¬ s.HasRead k e ∧ ∃ q, Phase.fresh.run
      (((generations s.log e.adapterId e.correlationId).filter (·.1 = k)).map (·.2.body) ++
        [event.body]) = some q := by
  have own : s.own k e = (((generations s.log e.adapterId e.correlationId).filter
      (·.1 = k)).map (·.2.body) ++ [event.body]) ++
        ((emissions rest).filter (·.1 = k)).map (·.2.body) := by
    have head : emissions s.todo = (k, event) :: emissions rest := by rw [todo]; rfl
    simp [Outbound.own, head]
  have unread : ¬ s.HasRead k e := fun read => by
    have none := (h.silent read).1
    rw [own] at none
    simp at none
  obtain ⟨q, whole, -⟩ := h.accepted unread
  rw [own] at whole
  obtain ⟨mine, alone, -⟩ := Phase.run_of_append whole
  exact ⟨unread, mine, alone⟩

/-- The emitter has not been overtaken: all that was said before it was made
comes first, and then what it said itself. -/
theorem generations_split (keeping : s.Keeping k e) (continues : s.Continues k e) :
    generations s.log e.adapterId e.correlationId =
      generations (before k s.log) e.adapterId e.correlationId ++
        (generations s.log e.adapterId e.correlationId).filter (·.1 = k) := by
  have split : generations s.log e.adapterId e.correlationId =
      generations (before k s.log) e.adapterId e.correlationId ++
        generations (since k s.log) e.adapterId e.correlationId := by
    rw [← generations_append, before_append_since]
  have mine : (generations s.log e.adapterId e.correlationId).filter (·.1 = k) =
      generations (since k s.log) e.adapterId e.correlationId := by
    rw [split, List.filter_append, List.filter_eq_nil_iff.mpr, List.nil_append,
      List.filter_eq_self.mpr]
    · exact fun g mem => by simpa using continues.alone g mem
    · exact fun g mem => by simpa using keeping.foreign g mem
  rw [mine]
  exact split

/-- What comes next is accepted after all that has been said. -/
theorem accepted_next (turning : Turning s) (counting : Counting s) (found : s.emitterOf k = some e) (continues : s.Continues k e)
    {event : OutboundEvent} {rest : List Op} (todo : s.todo = .emit k event :: rest)
    (unstarted : event.body = .turnStarted →
      ∀ g ∈ generations (before k s.log) e.adapterId e.correlationId, g.2.body ≠ .turnStarted) :
    ∃ q, Phase.fresh.run
      ((generations s.log e.adapterId e.correlationId).map (·.2.body) ++ [event.body]) = some q := by
  have keeping := turning.emitters k e found
  have increasing := counting.increasing e.adapterId e.correlationId
  obtain ⟨all, accepted⟩ := turning.accepted e.adapterId e.correlationId
  obtain ⟨unread, mine, alone⟩ := keeping.alone todo
  -- what was said before it was made has not ended the turn
  have split := generations_split keeping continues
  have accepted' := accepted
  rw [split, List.map_append] at accepted'
  obtain ⟨b, earlier, later⟩ := Phase.run_of_append accepted'
  have going : b.ended = false := by
    by_contra halted
    rcases (Phase.ended_iff earlier).mp (by simpa using halted) with never | ⟨body, mem, terminal⟩
    · simp [Phase.fresh] at never
    · obtain ⟨g, said, rfl⟩ := List.mem_map.mp mem
      obtain ⟨p, read, le⟩ := continues.covered g said
      obtain ⟨i, out, correlation, durable⟩ := mem_persisted.mp read
      have present : .out i e.adapterId p ∈ s.log :=
        (List.takeWhile_sublist _).subset out
      obtain ⟨j, generated⟩ := turning.generated i e.adapterId p present
      have inside : p ∈ (generations s.log e.adapterId e.correlationId).map (·.2) :=
        List.mem_map.mpr ⟨(j, p), mem_generations.mpr ⟨generated, correlation⟩, rfl⟩
      have ended : g.2 ∈ (generations s.log e.adapterId e.correlationId).map (·.2) := by
        rw [split]
        exact List.mem_map_of_mem (List.mem_append_left _ said)
      have accepted : Phase.fresh.run (((generations s.log e.adapterId e.correlationId).map
          (·.2)).map (·.body)) = some all := by
        rw [List.map_map]
        exact accepted
      rcases le_terminal accepted (List.pairwise_map.mpr increasing) ended terminal inside with
        same | less
      · exact unread ⟨p, read, same ▸ terminal⟩
      · omega
  rw [split, List.map_append, List.append_assoc, Phase.run_append, earlier]
  show ∃ q, b.run _ = some q
  obtain ⟨started, ended⟩ := b
  obtain rfl : ended = false := going
  cases started with
  | false => exact ⟨mine, alone⟩
  | true =>
      -- then the emitter does not start the turn once more
      refine ⟨_, Phase.run_started alone fun mem => ?_⟩
      rcases List.mem_append.mp mem with said | here
      · exact Phase.notMem_of_started rfl later said
      · have start : event.body = .turnStarted := (List.mem_singleton.mp here).symm
        rcases (Phase.started_iff earlier).mp rfl with never | mem
        · simp [Phase.fresh] at never
        · obtain ⟨g, mem, same⟩ := List.mem_map.mp mem
          exact unstarted start g mem same

/-! ### Steps that say nothing -/

theorem mem_log_reports {reports : List Entry} (all : ∀ entry ∈ reports, entry.isReport)
    {entry : Entry} (other : entry.isReport = false) :
    entry ∈ log ++ reports ↔ entry ∈ log := by
  refine ⟨fun mem => ?_, List.mem_append_left _⟩
  refine (List.mem_append.mp mem).resolve_right fun new => ?_
  simp [all entry new] at other

theorem generations_reports {reports : List Entry} (all : ∀ entry ∈ reports, entry.isReport)
    (log : List Entry) (adapterId correlationId : String) :
    generations (log ++ reports) adapterId correlationId =
      generations log adapterId correlationId := by
  rw [generations_append]
  have none : generations reports adapterId correlationId = [] := by
    refine List.filterMap_eq_nil_iff.mpr fun entry mem => ?_
    have := all entry mem
    cases entry <;> simp_all [Entry.isReport, Entry.generation?]
  rw [none, List.append_nil]

theorem outputs_reports {reports : List Entry} (all : ∀ entry ∈ reports, entry.isReport)
    (log : List Entry) (adapterId correlationId : String) :
    outputs (log ++ reports) adapterId correlationId = outputs log adapterId correlationId := by
  rw [outputs_append]
  have none : outputs reports adapterId correlationId = [] := by
    refine List.filterMap_eq_nil_iff.mpr fun entry mem => ?_
    have := all entry mem
    cases entry <;> simp_all [Entry.isReport, Entry.output?]
  rw [none, List.append_nil]

/-- Only deliveries go on. -/
theorem Turning.frame (h : Turning s) (counting : Counting s)
    (log : ∃ reports, t.log = s.log ++ reports ∧ ∀ entry ∈ reports, entry.isReport)
    (todo : emissions t.todo = emissions s.todo)
    (tail : ∀ op ∈ t.todo.tail, op ∈ s.todo.tail ∨ ∀ k event, op ≠ .emit k event)
    (head : ∀ k event rest, s.todo ≠ .insert k event :: rest)
    (keys : t.outbox.keys = s.outbox.keys)
    (emitters : t.emitterOf = s.emitterOf) : Turning t := by
  obtain ⟨reports, log, all⟩ := log
  have out {k : ℕ} {a : String} {x : OutboundEvent} :
      .out k a x ∈ t.log ↔ .out k a x ∈ s.log := by
    rw [log]
    exact mem_log_reports all rfl
  have said {k : ℕ} {a : String} {x : OutboundEvent} :
      .generated k a x ∈ t.log ↔ .generated k a x ∈ s.log := by
    rw [log]
    exact mem_log_reports all rfl
  refine ⟨fun j e found => ?_, fun op mem k event same => ?_, fun a c => ?_, fun key mem => ?_,
    fun a c => ?_, fun k a x mem => ?_, fun k a x mem start e found opened => ?_,
    fun k a x mem needs => ?_⟩
  · rw [emitters] at found
    have known := counting.emitters j e found
    refine (h.emitters j e found).of_own ?_ ?_ fun g mem _ => todo ▸ mem
    · rw [own, own, log, generations_reports all, todo]
    · rw [log, (before_append ⟨_, known.born, by simp [Entry.isBirthOf]⟩ reports).1]
  · exact h.startFirst op ((tail op mem).resolve_right fun none => none k event same) k event same
  · rw [log, generations_reports all]
    exact h.accepted a c
  · obtain ⟨k, mem⟩ := h.kept key (keys ▸ mem)
    exact ⟨k, out.mpr mem⟩
  · rw [log, outputs_reports all]
    exact h.nodup a c
  · obtain ⟨j, mem⟩ := h.generated k a x (out.mp mem)
    exact ⟨j, said.mpr mem⟩
  · rcases h.starts k a x (said.mp mem) start e (emitters ▸ found) opened with ⟨j, mem⟩ | ⟨rest, same⟩
    · exact .inl ⟨j, out.mpr mem⟩
    · exact absurd same (head k x rest)
  · obtain ⟨j, start, mem, facts⟩ := h.started k a x (said.mp mem) needs
    exact ⟨j, start, out.mpr mem, facts⟩

theorem Turning.quiet (h : Turning s) (counting : Counting s) (quiet : Quiet s t)
    (head : ∀ k event rest, s.todo ≠ .insert k event :: rest) : Turning t := by
  obtain ⟨ends, todo, alone⟩ := quiet.todo
  refine h.frame counting quiet.log ?_ (fun op mem => ?_) head quiet.keys quiet.emitterOf
  · rw [todo, emissions_append, emissions_of_ends alone, List.append_nil]
  · rw [todo] at mem
    cases same : s.todo with
    | nil =>
        rw [same, List.nil_append] at mem
        refine .inr fun k event same => ?_
        have := alone op (List.mem_of_mem_tail mem)
        simp [same, Op.isEnd] at this
    | cons first rest =>
        rw [same, List.cons_append, List.tail_cons] at mem
        rcases List.mem_append.mp mem with old | new
        · exact .inl old
        · refine .inr fun k event same => ?_
          have := alone op new
          simp [same, Op.isEnd] at this

/-! ### An event is generated -/

/-- What needs the start comes after it, and the start has come out. -/
theorem started_next (turning : Turning s) (counting : Counting s) (found : s.emitterOf k = some e)
    {event : OutboundEvent} {rest : List Op} (todo : s.todo = .emit k event :: rest)
    (needs : event.body.needsStart = true) :
    ∃ j start, .out j e.adapterId start ∈ s.log ∧ start.correlationId = e.correlationId ∧
      start.body = .turnStarted ∧ start.sequence < event.sequence := by
  have keeping := turning.emitters k e found
  have mem : (k, event) ∈ emissions s.todo := by rw [todo]; exact List.mem_cons_self ..
  obtain ⟨-, mine, alone⟩ := keeping.alone todo
  obtain ⟨r, said, next⟩ := Phase.run_of_append alone
  obtain ⟨r', step, -⟩ := Phase.run_cons next
  obtain ⟨-, -, started, -⟩ := Phase.next_eq step
  rcases (Phase.started_iff said).mp (started needs) with never | start
  · simp [Phase.fresh] at never
  · obtain ⟨g, own, start⟩ := List.mem_map.mp start
    obtain ⟨inside, same⟩ := List.mem_filter.mp own
    have same : g.1 = k := by simpa using same
    obtain ⟨generated, correlation⟩ := mem_generations.mp inside
    have opened := keeping.opened (k, event) mem rfl needs
    rcases turning.starts g.1 _ g.2 generated start e (same ▸ found) opened with
      ⟨j, out⟩ | ⟨rest', insert⟩
    · obtain ⟨-, above, -⟩ := (counting.emitters k e found).emissions event mem
      exact ⟨j, g.2, out, correlation, start, above.drawn g inside same⟩
    · rw [todo] at insert
      simp at insert

theorem Turning.generate (h : Turning s) (counting : Counting s) (found : s.emitterOf k = some e)
    (continues : s.Continues k e) {event : OutboundEvent} {rest : List Op}
    (todo : s.todo = .emit k event :: rest)
    (unstarted : event.body = .turnStarted →
      ∀ g ∈ generations (before k s.log) e.adapterId e.correlationId, g.2.body ≠ .turnStarted)
    (more : List Entry) (log : t.log = s.log ++ .generated k e.adapterId event :: more)
    (outs : ∀ entry ∈ more, entry = .out k e.adapterId event)
    (nodup : ∀ a c, (outputs t.log a c).Nodup)
    (left : emissions t.todo = emissions rest) (tail : ∀ op ∈ t.todo.tail, op ∈ rest)
    (first : event.body = .turnStarted → ∃ rest', t.todo = .insert k event :: rest')
    (keys : t.outbox.keys = s.outbox.keys) (emitters : t.emitterOf = s.emitterOf) : Turning t := by
  have mem : (k, event) ∈ emissions s.todo := by rw [todo]; exact List.mem_cons_self ..
  obtain ⟨correlation, -, -⟩ := (counting.emitters k e found).emissions event mem
  have said (a c : String) : generations t.log a c =
      generations s.log a c ++ generations [.generated k e.adapterId event] a c := by
    have none : generations more a c = [] := by
      refine List.filterMap_eq_nil_iff.mpr fun entry mem => ?_
      rw [outs entry mem]
      rfl
    rw [log, generations_append, show Entry.generated k e.adapterId event :: more =
      [.generated k e.adapterId event] ++ more from rfl, generations_append, none, List.append_nil]
  have old_out {j : ℕ} {a : String} {x : OutboundEvent} (mem : .out j a x ∈ s.log) :
      .out j a x ∈ t.log := log ▸ List.mem_append_left _ mem
  have said_cases {j : ℕ} {a : String} {x : OutboundEvent} (mem : .generated j a x ∈ t.log) :
      .generated j a x ∈ s.log ∨ j = k ∧ a = e.adapterId ∧ x = event := by
    rw [log] at mem
    rcases List.mem_append.mp mem with old | new
    · exact .inl old
    · rcases List.mem_cons.mp new with same | none
      · exact .inr (Entry.generated.inj same)
      · simpa using outs _ none
  refine ⟨fun j e' found' => ?_, fun op mem j x same => ?_, fun a c => ?_, fun key mem => ?_,
    nodup, fun j a x mem => ?_, fun j a x mem start e' found' opened => ?_,
    fun j a x mem needs => ?_⟩
  · rw [emitters] at found'
    have known := counting.emitters j e' found'
    refine (h.emitters j e' found').of_own (own_generate todo correlation said left ?_) ?_ ?_
    · rintro rfl
      exact Option.some.inj (found'.symm.trans found)
    · rw [log, (before_append ⟨_, known.born, by simp [Entry.isBirthOf]⟩ _).1]
    · intro g mem _
      rw [left] at mem
      rw [todo]
      exact List.mem_cons_of_mem _ mem
  · exact h.startFirst op (by rw [todo]; exact tail op mem) j x same
  · rw [said, generations_generated]
    split
    · case isTrue here =>
        rw [List.map_append]
        have next := accepted_next h counting found continues todo unstarted
        rw [← here.1, ← here.2, correlation]
        exact next
    · rw [List.append_nil]
      exact h.accepted a c
  · obtain ⟨j, mem⟩ := h.kept key (keys ▸ mem)
    exact ⟨j, old_out mem⟩
  · rw [log] at mem
    rcases List.mem_append.mp mem with old | new
    · exact (h.generated j a x old).append log
    · rcases List.mem_cons.mp new with same | out
      · simp at same
      · obtain ⟨-, rfl, rfl⟩ := Entry.out.inj (outs _ out)
        exact ⟨k, log ▸ List.mem_append_right _ (List.mem_cons_self ..)⟩
  · rcases said_cases mem with old | ⟨rfl, -, rfl⟩
    · rcases h.starts j a x old start e' (emitters ▸ found') opened with ⟨i, out⟩ | ⟨rest', insert⟩
      · exact .inl ⟨i, old_out out⟩
      · rw [todo] at insert
        simp at insert
    · exact .inr (first start)
  · rcases said_cases mem with old | ⟨rfl, rfl, rfl⟩
    · obtain ⟨i, start, out, facts⟩ := h.started j a x old needs
      exact ⟨i, start, old_out out, facts⟩
    · obtain ⟨i, start, out, same, facts⟩ := started_next h counting found todo needs
      exact ⟨i, start, old_out out, same.trans correlation.symm, facts⟩

/-! ### An event is persisted -/

/-- The event comes out, unless it was persisted before. -/
theorem Turning.persist (h : Turning s) (counting : Counting s) (known : Known s)
    (named : Named o s) (found : s.emitterOf k = some e) {event : OutboundEvent} {rest : List Op}
    (todo : s.todo = .insert k event :: rest) (left : t.todo = rest) (more : List Entry)
    (log : t.log = s.log ++ more) (outs : ∀ entry ∈ more, entry = .out k e.adapterId event)
    (out : ∃ j, .out j e.adapterId event ∈ t.log)
    (kept : ∀ key ∈ t.outbox.keys, key ∈ s.outbox.keys ∨ key = (e.adapterId, event))
    (nodup : ∀ a c, (outputs t.log a c).Nodup) (emitters : t.emitterOf = s.emitterOf) :
    Turning t := by
  have carried : s.Generated e.adapterId event :=
    known.todo (.insert k event) (by rw [todo]; exact List.mem_cons_self ..) event rfl e found
  have emissions_eq : emissions t.todo = emissions s.todo := by rw [left, todo]; rfl
  have said (a c : String) : generations t.log a c = generations s.log a c := by
    have none : generations more a c = [] := by
      refine List.filterMap_eq_nil_iff.mpr fun entry mem => ?_
      rw [outs entry mem]
      rfl
    rw [log, generations_append, none, List.append_nil]
  have old_out {j : ℕ} {a : String} {x : OutboundEvent} (mem : .out j a x ∈ s.log) :
      .out j a x ∈ t.log := log ▸ List.mem_append_left _ mem
  have old_said {j : ℕ} {a : String} {x : OutboundEvent} (mem : .generated j a x ∈ t.log) :
      .generated j a x ∈ s.log := by
    rw [log] at mem
    exact (List.mem_append.mp mem).resolve_right fun new => by simpa using outs _ new
  refine ⟨fun j e' found' => ?_, fun op mem j x same => ?_, fun a c => ?_, fun key mem => ?_,
    nodup, fun j a x mem => ?_, fun j a x mem start e' found' opened => ?_,
    fun j a x mem needs => ?_⟩
  · rw [emitters] at found'
    have known := counting.emitters j e' found'
    refine (h.emitters j e' found').of_own ?_ ?_ fun g mem _ => emissions_eq ▸ mem
    · rw [own, own, said, emissions_eq]
    · rw [log, (before_append ⟨_, known.born, by simp [Entry.isBirthOf]⟩ _).1]
  · refine h.startFirst op ?_ j x same
    rw [todo]
    exact left ▸ List.mem_of_mem_tail mem
  · rw [said]
    exact h.accepted a c
  · rcases kept key mem with old | rfl
    · obtain ⟨j, mem⟩ := h.kept key old
      exact ⟨j, old_out mem⟩
    · exact out
  · rw [log] at mem
    rcases List.mem_append.mp mem with old | new
    · exact (h.generated j a x old).append log
    · obtain ⟨-, rfl, rfl⟩ := Entry.out.inj (outs _ new)
      exact carried.append log
  · rcases h.starts j a x (old_said mem) start e' (emitters ▸ found') opened with
      ⟨i, out⟩ | ⟨rest', insert⟩
    · exact .inl ⟨i, old_out out⟩
    · -- this is the event that comes out
      rw [todo] at insert
      obtain ⟨rfl, rfl⟩ := Op.insert.inj (List.cons.inj insert).1
      obtain ⟨rfl, -⟩ := named.event_eq ⟨k, old_said mem⟩ carried rfl
      exact .inl out
  · obtain ⟨i, start, out, facts⟩ := h.started j a x (old_said mem) needs
    exact ⟨i, start, old_out out, facts⟩

/-- The database is closed, and the code that runs ends here. -/
theorem Turning.drop (h : Turning s) (found : s.emitterOf k = some e) (closed : e.closed = true)
    {event : OutboundEvent} {rest : List Op} (todo : s.todo = .insert k event :: rest) :
    Turning (s.setTodo []) := by
  refine ⟨fun j e' found' => (h.emitters j e' found').drop ?_ rfl rfl, by simp, h.accepted, h.kept,
    h.nodup, h.generated, fun j a x mem start e' found' opened => ?_, h.started⟩
  · intro g mem
    obtain ⟨op, inside, same⟩ := List.mem_filterMap.mp mem
    cases op with
    | emit j x =>
        obtain rfl := Option.some.inj same
        rw [todo] at inside
        refine h.startFirst (.emit j x) ?_ j x rfl
        rw [todo]
        exact (List.mem_cons.mp inside).resolve_left (by simp)
    | _ => simp at same
  · rcases h.starts j a x mem start e' found' opened with out | ⟨rest', insert⟩
    · exact .inl out
    · rw [todo] at insert
      obtain ⟨rfl, rfl⟩ := Op.insert.inj (List.cons.inj insert).1
      obtain rfl := Option.some.inj (found.symm.trans found')
      simp [closed] at opened

theorem Turning.insert (h : Turning s) (counting : Counting s) (known : Known s)
    (named : Named o s) (sorted : Sorted s) (found : s.emitterOf k = some e)
    {event : OutboundEvent} {rest : List Op} (todo : s.todo = .insert k event :: rest) :
    Turning ((s.setTodo rest).insert k e event) := by
  have head : .insert k event ∈ s.todo := by rw [todo]; exact List.mem_cons_self ..
  have carried : s.Generated e.adapterId event := known.todo _ head event rfl e found
  have durable : event.body.isBestEffort = false := sorted.todo _ head k event (.inl rfl)
  rw [Outbound.insert]
  split
  · case isTrue closed => exact h.drop found closed todo
  · split
    · case h_1 row present =>
        have mem : (row.adapterId, row.event) ∈ s.outbox.keys :=
          Outbox.mem_keys.mpr ⟨row, Outbox.mem_of_row present, rfl, rfl⟩
        split
        · case isTrue same =>
            rw [same.1, same.2] at mem
            exact h.persist counting known named found todo rfl [] (by simp) (by simp)
              (h.kept _ mem) (fun _ mem => .inl mem) h.nodup rfl
        · case isFalse other =>
            -- identifiers are drawn once, so this is the same event
            exact absurd (named.event_eq (known.rows _ mem) carried (Outbox.row_eventId present))
              other
    · case h_2 absent =>
        have new (j : ℕ) : .out j e.adapterId event ∉ s.log := fun out => by
          obtain ⟨row, present, -, same⟩ :=
            Outbox.mem_keys.mp (counting.persisted j _ event out durable)
          exact Outbox.row_eq_none.mp absent row present (by rw [same])
        refine h.persist counting known named found todo rfl
          [.out k e.adapterId event] rfl (by simp)
          ⟨k, List.mem_append_right _ (List.mem_singleton.mpr rfl)⟩ (fun key mem => ?_)
          (fun a c => nodup_outputs (h.nodup a c) new) rfl
        simp only [enqueue_outbox, note_outbox, write_outbox, Outbox.keys_append] at mem
        exact (List.mem_append.mp mem).imp_right List.mem_singleton.mp

/-! ### The other steps -/

/-- Code runs that neither generates nor persists an event. -/
theorem Turning.other (h : Turning s) (counting : Counting s) {op : Op} {rest : List Op}
    (todo : s.todo = op :: rest) (noEmit : ∀ k event, op ≠ .emit k event)
    (noInsert : ∀ k event, op ≠ .insert k event)
    (log : ∃ reports, t.log = s.log ++ reports ∧ ∀ entry ∈ reports, entry.isReport)
    (left : emissions t.todo = emissions rest)
    (tail : ∀ op ∈ t.todo.tail, op ∈ rest ∨ ∀ k event, op ≠ .emit k event)
    (keys : t.outbox.keys = s.outbox.keys)
    (emitters : t.emitterOf = s.emitterOf) : Turning t := by
  refine h.frame counting log ?_ (fun op mem => by rw [todo]; exact tail op mem) ?_ keys emitters
  · rw [left, todo]
    cases op <;> first | rfl | exact absurd rfl (noEmit _ _)
  · intro k event rest' same
    rw [todo] at same
    exact noInsert k event (List.cons.inj same).1

theorem Turning.quietly (h : Turning s) (counting : Counting s) {op : Op} {rest : List Op}
    (todo : s.todo = op :: rest) (noEmit : ∀ k event, op ≠ .emit k event)
    (noInsert : ∀ k event, op ≠ .insert k event) (quiet : Quiet (s.setTodo rest) t) :
    Turning t := by
  obtain ⟨ends, left, alone⟩ := quiet.todo
  refine h.other counting todo noEmit noInsert quiet.log ?_ (fun op mem => ?_) quiet.keys
    quiet.emitterOf
  · rw [left, emissions_append, emissions_of_ends alone, List.append_nil]
    rfl
  · rw [left] at mem
    rcases List.mem_append.mp (List.mem_of_mem_tail mem) with old | new
    · exact .inl old
    · refine .inr fun k event same => ?_
      have := alone op new
      simp [same, Op.isEnd] at this

theorem Turning.emit (h : Turning s) (counting : Counting s) (named : Named o s)
    (found : s.emitterOf k = some e) {event : OutboundEvent} {rest : List Op}
    (todo : s.todo = .emit k event :: rest) {hook : Except String Unit}
    (orderly : s.Orderly (.run hook)) :
    Turning ((s.setTodo rest).runOp o e hook (.emit k event)) := by
  simp only [Orderly, todo] at orderly
  obtain ⟨continues, start⟩ := orderly e found
  have unstarted := fun same => (start same).2
  -- the identifier is new
  have new (j : ℕ) : .out j e.adapterId event ∉ s.log := fun out => by
    obtain ⟨i, generated⟩ := h.generated j _ event out
    have names : s.names = (s.log.filterMap Entry.utterance?).map (·.2.eventId) ++
        event.eventId :: (emissions rest).map (·.2.eventId) := by
      rw [names, todo]
      rfl
    have nodup := named.nodup
    rw [names] at nodup
    refine (List.nodup_append.mp nodup).2.2 event.eventId ?_ _ (List.mem_cons_self ..) rfl
    exact List.mem_map.mpr ⟨(e.adapterId, event), List.mem_filterMap.mpr ⟨_, generated, rfl⟩, rfl⟩
  have said (a c : String) (log : List Entry) :
      outputs (log ++ [.generated k e.adapterId event]) a c = outputs log a c := by
    rw [outputs_append]
    exact List.append_nil _
  show Turning (if _ then _ else _)
  split
  · case isTrue transient =>
      refine h.generate counting found continues todo unstarted
        [.out k e.adapterId event] (by simp [deliverBestEffort]) (by simp) ?_ rfl
        (fun op mem => List.mem_of_mem_tail mem) ?_ rfl rfl
      · intro a c
        have fresh := said a c s.log ▸ h.nodup a c
        exact nodup_outputs fresh fun j mem => by simp [new j] at mem
      · intro same
        simp [same, EventBody.isBestEffort] at transient
  · cases hook with
    | error message =>
        refine h.generate counting found continues todo unstarted [] rfl (by simp)
          (fun a c => said a c s.log ▸ h.nodup a c) rfl (fun op mem => List.mem_of_mem_tail mem)
          ?_ rfl rfl
        exact fun same => absurd (start same).1 (by simp)
    | ok u =>
        exact h.generate counting found continues todo unstarted [] rfl (by simp)
          (fun a c => said a c s.log ▸ h.nodup a c) rfl (fun op mem => mem)
          (fun _ => ⟨rest, rfl⟩) rfl rfl

theorem Turning.run (h : Turning s) (counting : Counting s) (known : Known s) (named : Named o s)
    (sorted : Sorted s) {op : Op} {rest : List Op} (todo : s.todo = op :: rest)
    (found : s.emitterOf op.emitter = some e) {hook : Except String Unit}
    (orderly : s.Orderly (.run hook)) : Turning ((s.setTodo rest).runOp o e hook op) := by
  have same : ∃ reports, s.log = s.log ++ reports ∧ ∀ entry ∈ reports, entry.isReport :=
    ⟨[], by simp⟩
  cases op with
  | emit k event => exact h.emit counting named found todo orderly
  | insert k event => exact h.insert counting known named sorted found todo
  | deliver k event =>
      cases hook with
      | error message =>
          exact h.other counting todo (by simp) (by simp) same rfl
            (fun op mem => .inl (List.mem_of_mem_tail mem)) rfl rfl
      | ok u =>
          exact h.other counting todo (by simp) (by simp) same rfl (fun op mem => .inl mem) rfl rfl
  | confirm k event =>
      exact h.other counting todo (by simp) (by simp) same rfl
        (fun op mem => .inl (List.mem_of_mem_tail mem)) rfl rfl
  | prepareRetry k event =>
      cases hook with
      | error message =>
          exact h.other counting todo (by simp) (by simp) same rfl
            (fun op mem => .inl (List.mem_of_mem_tail mem)) rfl rfl
      | ok u =>
          exact h.other counting todo (by simp) (by simp) same rfl (fun op mem => .inl mem) rfl rfl
  | retry k event =>
      exact h.other counting todo (by simp) (by simp) same rfl
        (fun op mem => .inl (List.mem_of_mem_tail mem)) (Outbox.keys_resetFailure ..) rfl
  | delivered k event =>
      exact h.quietly counting todo (by simp) (by simp) (quiet_afterDelivered event hook)
  | failed k event error => exact h.quietly counting todo (by simp) (by simp) (quiet_settle _ k _)

theorem Turning.create (h : Turning s) (counting : Counting s) (ready : s.todo = [])
    (adapterId conversationKey correlationId : String) :
    Turning (s.create o adapterId conversationKey correlationId) := by
  have idle : emissions s.todo = [] := by rw [ready]; rfl
  have said (a c : String) :
      generations (s.create o adapterId conversationKey correlationId).log a c =
        generations s.log a c := by
    show generations (s.log ++ _) a c = _
    rw [generations_append]
    exact List.append_nil _
  have out (a c : String) :
      outputs (s.create o adapterId conversationKey correlationId).log a c = outputs s.log a c := by
    show outputs (s.log ++ _) a c = _
    rw [outputs_append]
    exact List.append_nil _
  have old {entry : Entry} (mem : entry ∈ (s.create o adapterId conversationKey correlationId).log)
      (other : entry.isBirthOf s.nextEmitter = false) : entry ∈ s.log := by
    refine (List.mem_append.mp mem).resolve_right fun new => ?_
    simp [List.mem_singleton.mp new, Entry.isBirthOf] at other
  have new_births : ∀ entry ∈ s.log, entry.isBirthOf s.nextEmitter = false := by
    intro entry mem
    by_contra birth
    exact absurd (counting.made entry mem _ (.inl (by simpa using birth))) (lt_irrefl _)
  have emitter {j : ℕ} {e : OutboundEmitter} (other : j ≠ s.nextEmitter)
      (found : (s.create o adapterId conversationKey correlationId).emitterOf j = some e) :
      s.emitterOf j = some e := by
    rw [← found]
    exact (Function.update_of_ne other _ _).symm
  refine ⟨fun j e found => ?_, ?_, fun a c => ?_, fun key mem => ?_, fun a c => ?_,
    fun j a x mem => ?_, fun j a x mem start e found opened => ?_, fun j a x mem needs => ?_⟩
  · by_cases new : j = s.nextEmitter
    · subst new
      have made : e = .create adapterId conversationKey correlationId o.progressThresholdMs
          (s.outbox.maxSequence adapterId correlationId)
          (s.outbox.hasTerminal adapterId correlationId) := by
        rw [Outbound.create] at found
        simpa using found.symm
      subst made
      have before_eq : before s.nextEmitter (s.create o adapterId conversationKey correlationId).log =
          s.log := before_of_new new_births adapterId correlationId
      -- it has said nothing yet
      have foreign : ∀ g ∈ generations s.log adapterId correlationId, g.1 ≠ s.nextEmitter := by
        intro g mem same
        have := counting.made _ (mem_generations.mp mem).1 g.1 (.inr ⟨_, _, rfl⟩)
        omega
      have own : own (s.create o adapterId conversationKey correlationId) s.nextEmitter
          (.create adapterId conversationKey correlationId o.progressThresholdMs
            (s.outbox.maxSequence adapterId correlationId)
            (s.outbox.hasTerminal adapterId correlationId)) = [] := by
        rw [Outbound.own, said, show emissions (s.create o adapterId conversationKey
          correlationId).todo = [] from idle, List.filter_nil, List.append_nil,
          List.filter_eq_nil_iff.mpr fun g mem => by simpa using foreign g mem, List.map_nil]
      have read : s.outbox.hasTerminal adapterId correlationId = true ↔
          HasRead (s.create o adapterId conversationKey correlationId) s.nextEmitter
            (.create adapterId conversationKey correlationId o.progressThresholdMs
              (s.outbox.maxSequence adapterId correlationId)
              (s.outbox.hasTerminal adapterId correlationId)) := by
        rw [HasRead, before_eq]
        constructor
        · intro terminal
          obtain ⟨row, mem, facts⟩ := List.any_eq_true.mp terminal
          simp only [OutboxRow.isOf, Bool.and_eq_true, decide_eq_true_eq] at facts
          obtain ⟨⟨rfl, rfl⟩, ends⟩ := facts
          obtain ⟨i, out⟩ := h.kept (row.adapterId, row.event)
            (Outbox.mem_keys.mpr ⟨row, mem, rfl, rfl⟩)
          have durable : row.event.body.isBestEffort = false := by
            cases body : row.event.body <;>
              simp_all [OutboundEvent.isTerminal, EventBody.isTerminal, EventBody.isBestEffort]
          exact ⟨row.event, mem_persisted.mpr ⟨i, out, rfl, durable⟩, ends⟩
        · rintro ⟨event, mem, ends⟩
          obtain ⟨i, out, rfl, durable⟩ := mem_persisted.mp mem
          obtain ⟨row, present, owner, same⟩ :=
            Outbox.mem_keys.mp (counting.persisted i _ event out durable)
          refine List.any_eq_true.mpr ⟨row, present, ?_⟩
          simp only [OutboundEmitter.create] at owner
          simp [OutboxRow.isOf, owner, same, ends]
      refine ⟨before_eq ▸ foreign, fun hasRead => ⟨own, ?_⟩, fun unread => ?_, fun g mem => ?_⟩
      · have terminal := read.mpr hasRead
        simp only [OutboundEmitter.phase, OutboundEmitter.create, terminal]
      · rw [own]
        refine ⟨.fresh, rfl, ?_, by simp [Phase.fresh]⟩
        have none : s.outbox.hasTerminal adapterId correlationId = false := by
          by_contra terminal
          exact unread (read.mp (by simpa using terminal))
        simp only [Phase.fresh, OutboundEmitter.create, none]
      · have none : g ∈ emissions s.todo := mem
        simp [idle] at none
    · have found := emitter new found
      have known := counting.emitters j e found
      refine (h.emitters j e found).of_own ?_ ?_ (fun g mem _ => mem)
      · rw [own, own, said]
        rfl
      · exact (before_append ⟨_, known.born, by simp [Entry.isBirthOf]⟩ _).1
  · show ∀ op ∈ s.todo.tail, _
    simp [ready]
  · rw [said]
    exact h.accepted a c
  · obtain ⟨i, mem⟩ := h.kept key mem
    exact ⟨i, List.mem_append_left _ mem⟩
  · rw [out]
    exact h.nodup a c
  · exact (h.generated j a x (old mem rfl)).append rfl
  · have made := counting.made _ (old mem rfl) j (.inr ⟨_, _, rfl⟩)
    rcases h.starts j a x (old mem rfl) start e (emitter (by omega) found) opened with
      ⟨i, out⟩ | ⟨rest, insert⟩
    · exact .inl ⟨i, List.mem_append_left _ out⟩
    · simp [ready] at insert
  · obtain ⟨i, start, out, facts⟩ := h.started j a x (old mem rfl) needs
    exact ⟨i, start, List.mem_append_left _ out, facts⟩

theorem bodies_eventsOf (n : ℕ) (drafts : List Draft) :
    (eventsOf o e n drafts).map (·.body) = drafts.map (·.body) := by
  induction drafts generalizing n with
  | nil => rfl
  | cons draft rest ih =>
      show draft.body :: _ = draft.body :: _
      rw [ih]

/-- An emitter goes on with what it has to say. -/
theorem Keeping.call (h : s.Keeping k e) (ready : s.todo = []) (drafts : e.drafts = []) {now : ℤ}
    {m : OutboundEmitter.Call} {bodies : List EventBody}
    (follows : OutboundEmitter.Follows e (e.call now m) bodies) :
    Keeping (s.call o k e now m) k { e.call now m with drafts := [] } := by
  have extended := OutboundEmitter.extends_call e now m
  have said : (e.call now m).drafts.map (·.body) = bodies := by
    simpa [drafts] using follows.drafts
  have left : emissions (s.call o k e now m).todo =
      (eventsOf o (e.call now m) s.nextEvent (e.call now m).drafts).map fun event => (k, event) := by
    show emissions (s.todo ++ _) = _
    rw [ready, List.nil_append, emissions_map_emit]
  have idle : emissions s.todo = [] := by rw [ready]; rfl
  have own : own (s.call o k e now m) k { e.call now m with drafts := [] } = s.own k e ++ bodies := by
    have words : ((emissions (s.call o k e now m).todo).filter (·.1 = k)).map (·.2.body) =
        bodies := by
      rw [left, ← said, ← bodies_eventsOf (o := o) (e := e.call now m) s.nextEvent,
        List.filter_eq_self.mpr (by simp), List.map_map]
      rfl
    rw [Outbound.own, Outbound.own, List.map_append, words, idle]
    show List.map _ (List.filter _ (generations s.log (e.call now m).adapterId
      (e.call now m).correlationId)) ++ bodies = _
    rw [extended.adapterId, extended.correlationId, List.filter_nil, List.append_nil]
  have read : HasRead (s.call o k e now m) k { e.call now m with drafts := [] } ↔ s.HasRead k e := by
    show (∃ event ∈ persisted (before k s.log) (e.call now m).adapterId
      (e.call now m).correlationId, _) ↔ _
    rw [extended.adapterId, extended.correlationId]
    rfl
  have accepted := follows.accepted
  refine ⟨fun g mem => h.foreign g ?_, fun hasRead => ?_, fun unread => ?_,
    fun g mem same needs => ?_⟩
  · rw [← extended.adapterId, ← extended.correlationId]
    exact mem
  · obtain ⟨none, phase⟩ := h.silent (read.mp hasRead)
    have quiet := Phase.nil_of_ended (by rw [phase]) accepted
    rw [quiet] at accepted
    rw [own, none, quiet]
    exact ⟨rfl, (Option.some.inj accepted).symm.trans phase⟩
  · obtain ⟨q, run, started, ended⟩ := h.accepted fun hasRead => unread (read.mpr hasRead)
    rw [own, Phase.run_append, run]
    by_cases closed : e.terminalEmitted = true
    · have quiet := Phase.nil_of_ended (p := e.phase) closed accepted
      rw [quiet] at accepted ⊢
      have phase := Option.some.inj accepted
      refine ⟨q, rfl, started.trans (congrArg Phase.started phase), fun _ => ?_⟩
      exact (congrArg Phase.ended phase).symm.trans closed
    · have going : q.ended = false := by
        by_contra ends
        exact closed (ended (by simpa using ends))
      have here : q = e.phase := by
        rw [OutboundEmitter.phase, ← started, Bool.eq_false_iff.mpr closed, ← going]
      rw [here]
      exact ⟨_, accepted, rfl, id⟩
  · show (e.call now m).closed = false
    rw [extended.closed]
    refine follows.opened g.2.body ?_ needs
    rw [left] at mem
    obtain ⟨event, handed, rfl⟩ := List.mem_map.mp mem
    rw [← said, ← bodies_eventsOf (o := o) (e := e.call now m) s.nextEvent]
    exact List.mem_map_of_mem handed

theorem Turning.call (h : Turning s) (counting : Counting s) (ready : s.todo = [])
    (found : s.emitterOf k = some e) {now : ℤ} {m : OutboundEmitter.Call}
    (orderly : ¬ e.Disorderly now m) : Turning (s.call o k e now m) := by
  obtain ⟨bodies, follows⟩ := OutboundEmitter.follows_call orderly
  have idle := (counting.emitters k e found).drafts
  have said : (e.call now m).drafts.map (·.body) = bodies := by
    simpa [idle] using follows.drafts
  have extended := OutboundEmitter.extends_call e now m
  have left : (s.call o k e now m).todo =
      (eventsOf o (e.call now m) s.nextEvent (e.call now m).drafts).map (.emit k) := by
    show s.todo ++ _ = _
    rw [ready]
    rfl
  have old {j : ℕ} {e' : OutboundEmitter} (other : j ≠ k)
      (found' : (s.call o k e now m).emitterOf j = some e') : s.emitterOf j = some e' := by
    rw [← found']
    exact (Function.update_of_ne other _ _).symm
  have mine {e' : OutboundEmitter} (found' : (s.call o k e now m).emitterOf k = some e') :
      e' = { e.call now m with drafts := [] } := by
    rw [Outbound.call] at found'
    simpa using found'.symm
  refine ⟨fun j e' found' => ?_, fun op mem j event same => ?_, h.accepted, h.kept, h.nodup,
    h.generated, fun j a x mem start e' found' opened => ?_, h.started⟩
  · by_cases here : j = k
    · subst here
      obtain rfl := mine found'
      exact (h.emitters j e found).call ready idle follows
    · refine (h.emitters j e' (old here found')).of_own ?_ rfl fun g mem same => ?_
      · rw [own, own, left, emissions_map_emit, ready]
        have none : ((eventsOf o (e.call now m) s.nextEvent (e.call now m).drafts).map
            fun event => (k, event)).filter (·.1 = j) = [] := by
          simp [Ne.symm here]
        rw [none]
        rfl
      · rw [left, emissions_map_emit] at mem
        obtain ⟨_, -, rfl⟩ := List.mem_map.mp mem
        exact absurd same.symm here
  · rw [left, ← List.map_tail] at mem
    obtain ⟨other, handed, rfl⟩ := List.mem_map.mp mem
    obtain ⟨-, rfl⟩ := Op.emit.inj same
    intro start
    refine follows.startFirst ?_
    rw [← said, ← bodies_eventsOf (o := o) (e := e.call now m) s.nextEvent, ← List.map_tail]
    exact List.mem_map.mpr ⟨other, handed, start⟩
  · have same : ∃ e, s.emitterOf j = some e ∧ e.closed = false := by
      by_cases here : j = k
      · subst here
        obtain rfl := mine found'
        exact ⟨e, found, extended.closed.symm.trans opened⟩
      · exact ⟨e', old here found', opened⟩
    obtain ⟨e'', found'', opened⟩ := same
    rcases h.starts j a x mem start e'' found'' opened with out | ⟨rest, insert⟩
    · exact .inl out
    · simp [ready] at insert

theorem Turning.close (h : Turning s) (ready : s.todo = []) (found : s.emitterOf k = some e) :
    Turning (s.setEmitter k { e with closed := true }) := by
  have emitter {j : ℕ} {e' : OutboundEmitter}
      (found' : (s.setEmitter k { e with closed := true }).emitterOf j = some e') :
      j = k ∧ e' = { e with closed := true } ∨ s.emitterOf j = some e' := by
    by_cases here : j = k
    · subst here
      exact .inl ⟨rfl, by simpa using found'.symm⟩
    · refine .inr ?_
      rw [← found']
      exact (Function.update_of_ne here _ _).symm
  refine ⟨fun j e' found' => ?_, h.startFirst, h.accepted, h.kept, h.nodup, h.generated,
    fun j a x mem start e' found' opened => ?_, h.started⟩
  · rcases emitter found' with ⟨rfl, rfl⟩ | old
    · have keeping := h.emitters j e found
      refine ⟨keeping.foreign, keeping.silent, keeping.accepted, fun g mem => ?_⟩
      have none : g ∈ emissions s.todo := mem
      rw [ready] at none
      simp [emissions] at none
    · exact (h.emitters j e' old).of_own rfl rfl fun g mem _ => mem
  · rcases emitter found' with ⟨rfl, rfl⟩ | old
    · simp at opened
    · exact h.starts j a x mem start e' old opened

theorem Turning.step {a : Action} (h : Turning s) (counting : Counting s) (known : Known s)
    (named : Named o s) (sorted : Sorted s) (orderly : s.Orderly a)
    (taken : step o s a = some t) : Turning t := by
  cases step_cases taken with
  | nothing => exact h
  | create ready adapterId conversationKey correlationId => exact h.create counting ready _ _ _
  | call ready found now m => exact h.call counting ready found (orderly _ found)
  | redrive ready found idle asked =>
      exact h.frame counting ⟨[], by simp⟩ (by simp) (by simp [ready]) (by simp [ready]) (by simp)
        (by simp)
  | prepareRetry a ready found mem own failure =>
      exact h.frame counting ⟨[], by simp⟩ (by rw [ready]; rfl) (by simp) (by simp [ready]) rfl rfl
  | deliver ready found saved =>
      exact h.frame counting ⟨[], by simp⟩ (by rw [ready]; rfl) (by simp) (by simp [ready]) rfl rfl
  | confirm ready found =>
      exact h.frame counting ⟨[], by simp⟩ (by rw [ready]; rfl) (by simp) (by simp [ready]) rfl rfl
  | close ready found => exact h.close ready found
  | drive a ready found head driven => exact h.quiet counting driven.quiet (by simp [ready])
  | recorded a ready found head eventId attempts error driven =>
      exact h.quiet counting ((quiet_record s eventId attempts error).trans driven.quiet)
        (by simp [ready])
  | run todo found hook => exact h.run counting known named sorted todo found orderly
  | crash =>
      exact ⟨by simp, by simp, h.accepted, h.kept, h.nodup, h.generated, by simp, h.started⟩

/-! ### The grammar -/

theorem length_filter_le_one {α : Type*} {l : List α} {p : α → Bool} (nodup : l.Nodup)
    (unique : ∀ x ∈ l, p x = true → ∀ y ∈ l, p y = true → y = x) : (l.filter p).length ≤ 1 := by
  have nodup := nodup.filter p
  cases filtered : l.filter p with
  | nil => simp
  | cons x rest =>
      have inside {y : α} (mem : y ∈ x :: rest) : y ∈ l ∧ p y = true :=
        List.mem_filter.mp (filtered ▸ mem)
      rw [filtered] at nodup
      have first := inside (List.mem_cons_self ..)
      have none : rest = [] := by
        refine List.eq_nil_iff_forall_not_mem.mpr fun y mem => ?_
        have other := inside (List.mem_cons_of_mem _ mem)
        obtain rfl := unique x first.1 first.2 y other.1 other.2
        exact (List.nodup_cons.mp nodup).1 mem
      simp [none]

theorem Turning.grammatical (h : Turning s) (counting : Counting s)
    (adapterId correlationId : String) : Grammatical (outputs s.log adapterId correlationId) := by
  obtain ⟨q, accepted⟩ := h.accepted adapterId correlationId
  rw [← Function.comp_def (f := fun event : OutboundEvent => event.body), ← List.map_map] at accepted
  have increasing : ((generations s.log adapterId correlationId).map (·.2)).Pairwise
      fun earlier later => earlier.sequence < later.sequence :=
    List.pairwise_map.mpr (counting.increasing adapterId correlationId)
  have inside {event : OutboundEvent} (mem : event ∈ outputs s.log adapterId correlationId) :
      event ∈ (generations s.log adapterId correlationId).map (·.2) := by
    obtain ⟨i, out, same⟩ := mem_outputs.mp mem
    obtain ⟨j, generated⟩ := h.generated i adapterId event out
    exact List.mem_map.mpr ⟨(j, event), mem_generations.mpr ⟨generated, same⟩, rfl⟩
  have nodup := h.nodup adapterId correlationId
  refine ⟨length_filter_le_one nodup fun x mem start y mem' start' => ?_,
    fun event mem needs => ?_,
    length_filter_le_one nodup fun x mem terminal y mem' terminal' => ?_,
    fun terminal mem ends event mem' => ?_⟩
  · exact started_unique accepted increasing (inside mem) (by simpa using start) (inside mem')
      (by simpa using start')
  · obtain ⟨i, out, same⟩ := mem_outputs.mp mem
    obtain ⟨j, generated⟩ := h.generated i adapterId event out
    obtain ⟨i, start, out, same', facts⟩ := h.started j adapterId event generated needs
    exact ⟨start, mem_outputs.mpr ⟨i, out, same'.trans same⟩, facts⟩
  · -- each of two terminals would come before the other
    rcases le_terminal accepted increasing (inside mem) terminal (inside mem') with same | less
    · exact same
    · rcases le_terminal accepted increasing (inside mem') terminal' (inside mem) with same | less'
      · exact same.symm
      · omega
  · rcases le_terminal accepted increasing (inside mem) ends (inside mem') with rfl | less
    · exact le_refl _
    · exact le_of_lt less

/-- In an orderly run the events of each correlation obey the grammar. -/
theorem grammar_obeyed (reach : (machine o).Reachable Orderly s) (adapterId correlationId : String) :
    Grammatical (outputs s.log adapterId correlationId) := by
  have inv : Turning s ∧ Counting s ∧ Known s ∧ Named o s ∧ Sorted s := by
    refine reach.invariant (I := fun s => Turning s ∧ Counting s ∧ Known s ∧ Named o s ∧ Sorted s)
      ?_ ?_
    · rintro s rfl
      refine ⟨⟨by simp [initial], by simp [initial], fun _ _ => ⟨.fresh, rfl⟩,
        by simp [initial, Outbox.keys], fun _ _ => List.nodup_nil, by simp [initial],
        by simp [initial], by simp [initial]⟩, counting_initial, known_initial,
        ⟨by simp [names, initial, emissions], List.nodup_nil⟩, sorted_initial⟩
    · rintro s a t ⟨turning, counting, known, named, sorted⟩ orderly taken
      exact ⟨turning.step counting known named sorted orderly taken,
        counting.step orderly.sequential taken, known.step taken, named.step taken,
        sorted.step taken⟩
  exact inv.1.grammatical inv.2.1 adapterId correlationId

/-- A turn that is started, streams a delta and ends with its reply. -/
def repliedTurn : List Action :=
  [.create "pumble" "room" "turn", .call 0 0 (.ingest .turnStart), .run (.ok ()), .run (.ok ()),
    .call 0 0 (.emitPresence .active), .run (.ok ()), .run (.ok ()),
    .call 0 1 (.ingest (.messageUpdate (some "Hello"))), .run (.ok ()),
    .call 0 2 (.emitPresence .idle), .run (.ok ()), .run (.ok ()),
    .call 0 2 (.ingest (.agentEnd [])), .run (.ok ()), .run (.ok ())]

theorem repliedTurn_is_grammatical :
    ∃ s, (machine retryOnce).exec Orderly initial repliedTurn = some s ∧
      (outputs s.log "pumble" "turn").map (·.body) = [.turnStarted, .presenceChanged .active,
        .turnDelta "Hello", .presenceChanged .idle, .turnReply "Hello" [] noUsage] ∧
      Grammatical (outputs s.log "pumble" "turn") := by
  have run : ((machine retryOnce).exec Orderly initial repliedTurn).map
      (fun s => (outputs s.log "pumble" "turn").map (·.body)) =
        some [.turnStarted, .presenceChanged .active, .turnDelta "Hello", .presenceChanged .idle,
          .turnReply "Hello" [] noUsage] := by
    decide +kernel
  obtain ⟨s, run, facts⟩ := Option.map_eq_some_iff.mp run
  exact ⟨s, run, facts, grammar_obeyed (.of_exec rfl run) "pumble" "turn"⟩

/-- A turn is interrupted, and then its child reports that it is done. -/
def interruptedTurn : List Action :=
  [.create "pumble" "room" "turn", .call 0 0 (.ingest .turnStart), .run (.ok ()), .run (.ok ()),
    .call 0 0 (.emitPresence .active), .run (.ok ()), .run (.ok ()), .call 0 1 .emitCancelled,
    .run (.ok ()), .run (.ok ()), .call 0 2 (.emitPresence .idle), .run (.ok ()), .run (.ok ())]

/-- A presence follows the terminal. -/
theorem interruptedTurn_is_not_grammatical :
    ∃ s, (machine retryOnce).Reachable Transition.Always s ∧
      (outputs s.log "pumble" "turn").map (fun event => (event.sequence, event.body)) =
        [(1, .turnStarted), (2, .presenceChanged .active), (3, .turnCancelled),
          (4, .presenceChanged .idle)] ∧
      ¬ Grammatical (outputs s.log "pumble" "turn") := by
  have run : ((machine retryOnce).exec Transition.Always initial interruptedTurn).map
      (fun s => (outputs s.log "pumble" "turn").map fun event => (event.sequence, event.body)) =
        some [(1, .turnStarted), (2, .presenceChanged .active), (3, .turnCancelled),
          (4, .presenceChanged .idle)] := by
    decide +kernel
  obtain ⟨s, run, facts⟩ := Option.map_eq_some_iff.mp run
  refine ⟨s, .of_exec rfl run, facts, fun grammatical => ?_⟩
  have mem (n : ℕ) (body : EventBody) (said : (n, body) ∈ [(1, EventBody.turnStarted),
      (2, .presenceChanged .active), (3, .turnCancelled), (4, .presenceChanged .idle)]) :
      ∃ event ∈ outputs s.log "pumble" "turn", event.sequence = n ∧ event.body = body := by
    rw [← facts] at said
    obtain ⟨event, mem, same⟩ := List.mem_map.mp said
    exact ⟨event, mem, (Prod.mk.inj same).1, (Prod.mk.inj same).2⟩
  obtain ⟨cancelled, mem₃, three, terminal⟩ := mem 3 .turnCancelled (by simp)
  obtain ⟨idle, mem₄, four, -⟩ := mem 4 (.presenceChanged .idle) (by simp)
  have := grammatical.terminalLast cancelled mem₃
    (by simp [OutboundEvent.isTerminal, terminal, EventBody.isTerminal]) idle mem₄
  omega

end Outbound

end OmpBundler.Core
