import OmpBundler.Pumble.Dispatch
import OmpBundler.Pumble.Server

/-!
An acknowledged terminal event has been delivered.

The adapter answers 200, and marks an event completed, after its rendering
has returned. A rendering returns in three ways: the handler of the event has
run to its end, or the event was seen before, or the correlation is terminal.
The first two are sound. The third is not: a terminal event makes its
correlation terminal even when its handler has thrown, so a redelivery to the
same process finds the correlation closed by the failed attempt, returns at
once, and the event is acknowledged with nothing posted.

The condition `NotAbandoned` excludes exactly this return.
-/

namespace OmpBundler.Pumble

open Library Library.Proc

/-! ### Requests -/

section Requests

variable {feed : Feed} {event : OutboundEvent} {floor : Effects} {adapter : Adapter}
  {options : PumbleRendererOptions}

/-- The event has a final text or attachments. -/
def Delivers (event : OutboundEvent) : Prop :=
  finalText event.body ≠ none ∨ outputAttachments event.body ≠ []

instance (event : OutboundEvent) : Decidable (Delivers event) :=
  inferInstanceAs (Decidable (_ ∨ _))

/-- If the event's correlation is closed, it is the event that closed it. -/
def Open (event : OutboundEvent) (adapter : Adapter) : Prop :=
  Delivers event → (adapter.stateFor event).terminal = true →
    event.eventId ∈ (adapter.stateFor event).seen

/-- The event does not arrive at a process that has closed its correlation
without having applied the event. -/
def NotAbandoned (event : OutboundEvent) (adapter : Adapter) : Prop :=
  Delivers event → (adapter.stateFor event).terminal = true →
    event.eventId ∈ (adapter.stateFor event).seen ∨
      event.eventId ∈ adapter.deliveries.completed

instance (event : OutboundEvent) (adapter : Adapter) : Decidable (NotAbandoned event adapter) :=
  inferInstanceAs (Decidable (_ → _ → _ ∨ _))

theorem Delivered.of_not_delivers {effects : Effects} (h : ¬ Delivers event) :
    Delivered event effects := by
  rw [Delivers, not_or, not_not, not_not] at h
  exact .of_empty h.1 h.2

theorem Tidy.fresh {effects : Effects} : Tidy feed effects .fresh where
  seen := by simp [CorrelationState.fresh]
  untouched _ := ⟨rfl, rfl⟩

theorem Sound.stateFor (h : Sound feed adapter) :
    Tidy feed adapter.effects (adapter.stateFor event) := by
  rw [Adapter.stateFor]
  cases present : adapter.correlations.get (correlationKey event) with
  | none => exact Tidy.fresh
  | some state => exact h.tidy _ state present

theorem Durable.restart (h : Durable feed adapter) : Sound feed adapter.restart where
  backed := Records.unread h.file
  tidy key state present := by simp [Adapter.restart] at present
  answered := h.answered

theorem Sound.setDeliveries (h : Sound feed adapter) {store : DeliveryStore}
    (backed : Backed feed adapter.effects store) : Sound feed (adapter.setDeliveries store) where
  backed := backed
  tidy := h.tidy
  answered := h.answered

theorem Sound.answer (h : Sound feed adapter) {status : ℕ}
    (delivered : status = 200 → Delivered (feed.event event.eventId) adapter.effects) :
    Sound feed (adapter.answer event status) where
  backed := h.backed
  tidy := h.tidy
  answered eventId mem := by
    rcases List.mem_cons.mp mem with new | old
    · obtain ⟨rfl, rfl⟩ := Prod.mk.inj new
      exact delivered rfl
    · exact h.answered eventId old

theorem Sound.addSeen (h : Sound feed adapter)
    (delivered : Delivered (feed.event event.eventId) adapter.effects) :
    Sound feed (adapter.update event (·.addSeen event.eventId)) where
  backed := h.backed
  tidy key state present := by
    rw [Adapter.update_correlations, OrderedMap.get_set] at present
    split at present
    · obtain rfl := Option.some.inj present
      refine ⟨fun eventId mem => ?_, h.stateFor.untouched⟩
      rcases List.mem_insert_iff.mp mem with rfl | old
      · exact delivered
      · exact h.stateFor.seen eventId old
    · exact h.tidy key state present
  answered := h.answered

/-- The rendering of an event begins. -/
theorem Sound.begin (h : Sound feed adapter) {checkpoints : List String}
    (confirmed : ∀ c ∈ checkpoints, Confirmed event c adapter.effects)
    (notClosed : (adapter.stateFor event).terminal = false) :
    Working feed event [] (adapter.begin checkpoints) where
  backed := h.backed
  others key state _ := h.tidy key state
  own := by
    obtain ⟨notPosted, noneSent⟩ := h.stateFor.untouched notClosed
    exact {
      seen := h.stateFor.seen
      posted := fun posted => absurd (notPosted.symm.trans posted) (by decide)
      sent := fun index mem => absurd (noneSent ▸ mem : index ∈ []) (by simp) }
  confirmed := confirmed
  answered := h.answered
  grown := List.nil_subset _

/-- The rendering of an event is over. -/
theorem Working.sound (h : Working feed event floor adapter)
    (own : (adapter.stateFor event).terminal = true ∨ event.isTerminal = false) :
    Sound feed adapter where
  backed := h.backed
  tidy key state present := by
    by_cases same : key = correlationKey event
    · have current : adapter.stateFor event = state := by
        rw [Adapter.stateFor, ← same, present]
        rfl
      rw [← current]
      refine ⟨h.own.seen, fun notClosed => ?_⟩
      rcases own with closed | quiet
      · rw [closed] at notClosed
        contradiction
      · constructor
        · by_contra posted
          rw [(h.own.posted (by simpa using posted)).1] at quiet
          contradiction
        · rw [List.eq_nil_iff_forall_not_mem]
          intro index mem
          rw [(h.own.sent index mem).1] at quiet
          contradiction
    · exact h.others key state same present
  answered := h.answered

theorem afterDispatch_spec (known : feed.event event.eventId = event) :
    Triple (Working feed event floor) (afterDispatch options event)
      (fun _ adapter => Sound feed adapter ∧ floor ⊆ adapter.effects) (fun _ _ => False)
      (Durable feed) := by
  apply Triple.ite
  · intro _
    apply Triple.bind
    · exact (clearTerminalStatus_spec known).weaken (fun _ h => h) (fun _ _ h => h)
        (fun _ _ h => h) fun _ => Working.durable
    intro _
    apply Triple.modify
    intro adapter h
    have closed : Working feed event floor (adapter.update event CorrelationState.close) :=
      h.update ⟨h.own.seen, h.own.posted, h.own.sent⟩
    exact ⟨closed.sound (.inl (by simp)), closed.grown⟩
  · intro quiet
    exact Triple.pure () fun adapter h => ⟨h.sound (.inr (by simpa using quiet)), h.grown⟩

/-- Ready to apply the event. -/
structure Ready (feed : Feed) (event : OutboundEvent) (adapter : Adapter) : Prop where
  sound : Sound feed adapter
  confirmed : ∀ c ∈ adapter.checkpoints, Confirmed event c adapter.effects
  isOpen : Open event adapter

theorem apply_spec (known : feed.event event.eventId = event) :
    Triple (Ready feed event) (apply options event)
      (fun _ adapter => Sound feed adapter ∧ Delivered event adapter.effects)
      (fun _ => Sound feed) (Durable feed) := by
  apply Triple.of_pre
  intro start ready
  apply Triple.bind (M := fun state adapter => adapter = start ∧ state = start.stateFor event)
  · exact Triple.bind (M := fun read adapter => adapter = start ∧ read = start)
      (Triple.get fun adapter same => ⟨same, same⟩)
      fun read => Triple.pure _ fun adapter same => ⟨same.1, by rw [same.2]⟩
  intro state
  apply Triple.of_pre
  rintro _ ⟨rfl, rfl⟩
  apply Triple.ite
  · intro applied
    apply Triple.pure
    rintro _ rfl
    exact ⟨ready.sound, known ▸ ready.sound.stateFor.seen _ applied⟩
  intro notApplied
  apply Triple.ite
  · intro closed
    apply Triple.pure
    rintro _ rfl
    refine ⟨ready.sound, ?_⟩
    by_cases delivers : Delivers event
    · exact absurd (ready.isOpen delivers closed) notApplied
    · exact .of_not_delivers delivers
  intro notClosed
  apply Triple.bind (M := fun _ adapter => Sound feed adapter ∧ Delivered event adapter.effects)
  · apply Triple.tryFinally
      (M := fun _ adapter => Working feed event [] adapter ∧ Delivered event adapter.effects)
      (T := fun _ => Working feed event [])
    · apply (dispatch_spec known).weaken
      · rintro _ rfl
        exact ready.sound.begin ready.confirmed (by simpa using notClosed)
      · exact fun _ _ h => h
      · exact fun _ _ h => h
      · exact fun _ => Working.durable
    · intro _
      apply Triple.of_pre
      rintro delivered ⟨working, shown⟩
      have settled : Triple (Working feed event delivered.effects)
          (afterDispatch options event) _ _ _ := afterDispatch_spec known
      apply settled.weaken
      · rintro _ rfl
        exact working.raise
      · exact fun _ _ after => ⟨after.1, shown.mono after.2⟩
      · exact fun _ _ h => h.elim
      · exact fun _ h => h
    · exact fun _ => (afterDispatch_spec known).weaken (fun _ h => h) (fun _ _ after => after.1)
        (fun _ _ h => h.elim) fun _ h => h
  intro _
  apply Triple.modify
  rintro adapter ⟨sound, delivered⟩
  exact ⟨sound.addSeen (known.symm ▸ delivered), delivered⟩

theorem recordedCheckpoints_spec (known : feed.event event.eventId = event) :
    Triple (fun adapter => Sound feed adapter ∧ Open event adapter)
      (recordedCheckpoints options event)
      (fun cs adapter => (Sound feed adapter ∧ Open event adapter) ∧
        ∀ c ∈ cs, Confirmed event c adapter.effects)
      (fun _ => Sound feed) (Durable feed) := by
  apply Triple.ite
  · intro _
    apply Triple.focus
    rintro adapter ⟨sound, isOpen⟩
    apply (DeliveryStore.checkpointsFor_spec event.eventId).weaken
    · rintro _ rfl
      exact sound.backed
    · rintro cs store ⟨backed, confirmed⟩
      rw [known] at confirmed
      exact ⟨⟨sound.setDeliveries backed, isOpen⟩, confirmed⟩
    · exact fun _ _ => sound.setDeliveries
    · exact fun _ backed => (sound.setDeliveries backed).durable
  · intro _
    exact Triple.pure [] fun _ h => ⟨h, by simp⟩

/-- A rendering that returns has delivered its event. -/
theorem render_spec (known : feed.event event.eventId = event) :
    Triple (fun adapter => Sound feed adapter ∧ Open event adapter) (render options event)
      (fun _ adapter => Sound feed adapter ∧ Delivered event adapter.effects)
      (fun _ => Sound feed) (Durable feed) := by
  apply Triple.bind (recordedCheckpoints_spec known)
  intro checkpoints
  apply Triple.bind (M := fun _ => Ready feed event)
  · apply Triple.modify
    rintro adapter ⟨⟨sound, isOpen⟩, confirmed⟩
    exact ⟨⟨sound.backed, sound.tidy, sound.answered⟩, confirmed, isOpen⟩
  · exact fun _ => apply_spec known

theorem sendText_spec {status : ℕ} (refusal : status ≠ 200) :
    Triple (Sound feed) (sendText event status) (fun _ => Sound feed) (fun _ => Sound feed)
      (Durable feed) :=
  Triple.modify fun _ sound => sound.answer fun ok => absurd ok refusal

theorem acknowledge_spec (known : feed.event event.eventId = event) :
    Triple (fun adapter => Sound feed adapter ∧ Delivered event adapter.effects)
      (acknowledge event) (fun _ => Sound feed) (fun _ => Sound feed) (Durable feed) := by
  apply Triple.bind (M := fun _ adapter => Sound feed adapter ∧ Delivered event adapter.effects)
  · apply Triple.ite
    · intro _
      exact Triple.bind (Triple.attempt (fun _ h => h.1.durable) (fun _ _ h => h.1) fun _ _ h => h)
        fun _ => Triple.pure () fun _ h => h
    · exact fun _ => Triple.pure () fun _ h => h
  · intro _
    apply Triple.modify
    rintro adapter ⟨sound, delivered⟩
    exact sound.answer fun _ => known.symm ▸ delivered

theorem hasCompleted_spec (known : feed.event event.eventId = event) :
    Triple (fun adapter => Sound feed adapter ∧ NotAbandoned event adapter)
      (onStore (DeliveryStore.hasCompleted event.eventId))
      (fun found adapter => Sound feed adapter ∧
        if found then Delivered event adapter.effects else Open event adapter)
      (fun _ => Sound feed) (Durable feed) := by
  apply Triple.focus
  rintro adapter ⟨sound, condition⟩
  apply (DeliveryStore.hasCompleted_spec event.eventId adapter.deliveries sound.backed).weaken
  · exact fun _ h => h
  · rintro found store ⟨backed, known'⟩
    refine ⟨sound.setDeliveries backed, ?_⟩
    cases found with
    | true => exact known ▸ known'
    | false =>
        intro delivers closed
        exact (condition delivers closed).resolve_right known'
  · exact fun _ _ => sound.setDeliveries
  · exact fun _ backed => (sound.setDeliveries backed).durable

theorem markCompleted_spec (known : feed.event event.eventId = event) :
    Triple (fun adapter => Sound feed adapter ∧ Delivered event adapter.effects)
      (onStore (DeliveryStore.markCompleted event.eventId))
      (fun _ adapter => Sound feed adapter ∧ Delivered event adapter.effects)
      (fun _ => Sound feed) (Durable feed) := by
  apply Triple.focus
  rintro adapter ⟨sound, delivered⟩
  have kept : Keeps (Backed feed adapter.effects)
      (DeliveryStore.markCompleted event.eventId) := by
    apply DeliveryStore.markCompleted_keeps
    rw [known]
    exact delivered
  apply kept.weaken
  · rintro _ rfl
    exact sound.backed
  · exact fun _ _ backed => ⟨sound.setDeliveries backed, delivered⟩
  · exact fun _ _ => sound.setDeliveries
  · exact fun _ backed => (sound.setDeliveries backed).durable

theorem tryRender_spec (known : feed.event event.eventId = event) :
    Triple (fun adapter => Sound feed adapter ∧ Open event adapter) (tryRender options event)
      (fun rendered adapter => Sound feed adapter ∧
        (rendered = true → Delivered event adapter.effects))
      (fun _ => Sound feed) (Durable feed) := by
  apply Triple.tryCatch (M := fun _ => Sound feed)
  · exact Triple.bind (render_spec known) fun _ => Triple.pure true fun _ h => ⟨h.1, fun _ => h.2⟩
  · exact fun _ => Triple.pure false fun _ h => ⟨h, by simp⟩

theorem handleCoreEvents_spec (known : feed.event event.eventId = event) :
    Triple (fun adapter => Sound feed adapter ∧ NotAbandoned event adapter)
      (handleCoreEvents options event) (fun _ => Sound feed) (fun _ => Sound feed) (Durable feed) := by
  apply Triple.bind (hasCompleted_spec known)
  intro found
  cases found with
  | true => exact acknowledge_spec known
  | false =>
      apply Triple.bind (tryRender_spec known)
      intro rendered
      cases rendered with
      | true =>
          apply Triple.adapt (Triple.bind (markCompleted_spec known) fun _ =>
            acknowledge_spec known)
          · exact fun _ h => ⟨h.1, h.2 rfl⟩
          · exact fun _ _ h => h
      | false =>
          exact (sendText_spec (by decide)).adapt (fun _ h => h.1) fun _ _ h => h

/-- One delivery, whatever the environment answers. -/
theorem Sound.deliver (known : feed.event event.eventId = event) (sound : Sound feed adapter)
    (condition : NotAbandoned event adapter) (script : List Reply) :
    Sound feed (adapter.deliver options event script) := by
  have served : Triple (fun adapter => Sound feed adapter ∧ NotAbandoned event adapter)
      (serve options event) (fun _ => Sound feed) (fun _ => Sound feed) (Durable feed) :=
    Triple.tryCatch (handleCoreEvents_spec known) fun _ => sendText_spec (by decide)
  have ended := served adapter script ⟨sound, condition⟩
  rw [Adapter.deliver]
  generalize serve options event adapter script = run at ended ⊢
  obtain ⟨exit, after, rest⟩ := run
  cases exit with
  | returned _ => exact ended
  | threw _ => exact ended
  | died => exact Durable.restart ended

end Requests

/-! ### Runs -/

/-- No delivery of a run is abandoned. -/
def NoneAbandoned (feed : Feed) (adapter : Adapter) : Action → Prop
  | .deliver eventId _ => NotAbandoned (feed.event eventId) adapter
  | .restart => True

instance (feed : Feed) (adapter : Adapter) :
    ∀ action, Decidable (NoneAbandoned feed adapter action)
  | .deliver _ _ => inferInstanceAs (Decidable (NotAbandoned _ _))
  | .restart => inferInstanceAs (Decidable True)

section Runs

variable {options : PumbleRendererOptions} {feed : Feed} {adapter : Adapter}

theorem sound_fresh : Sound feed .fresh where
  backed := Records.unread (by simp)
  tidy key state present := by simp [Adapter.fresh] at present
  answered eventId mem := by simp [Adapter.fresh] at mem

theorem Sound.step {action : Action} {after : Adapter} (sound : Sound feed adapter)
    (condition : NoneAbandoned feed adapter action)
    (taken : (adapterMachine options feed).step adapter action = some after) :
    Sound feed after := by
  cases action with
  | restart =>
      obtain rfl := Option.some.inj taken
      exact sound.durable.restart
  | deliver eventId script =>
      obtain rfl := Option.some.inj taken
      have known : feed.event (feed.event eventId).eventId = feed.event eventId := by
        rw [feed.event_eventId]
      exact sound.deliver known condition script

/-- In every run in which no delivery is abandoned, an event that was
answered with 200, or is completed in the store's memory or in its file, has
been delivered as a whole. -/
theorem acknowledged_is_delivered
    (reach : (adapterMachine options feed).Reachable (NoneAbandoned feed) adapter)
    (eventId : String)
    (acknowledged : (eventId, 200) ∈ adapter.answers ∨
      eventId ∈ adapter.deliveries.completed ∨
      ∃ data ∈ adapter.deliveries.file, eventId ∈ data.completedEventIds) :
    Delivered (feed.event eventId) adapter.effects := by
  have sound : Sound feed adapter := by
    refine reach.invariant ?_ fun _ _ _ sound condition taken => sound.step condition taken
    rintro _ rfl
    exact sound_fresh
  rcases acknowledged with answered | completed | ⟨data, present, completed⟩
  · exact sound.answered eventId answered
  · exact sound.backed.memory.completed eventId completed
  · exact (sound.backed.file data present).completed eventId completed

end Runs

/-- Every event is a reply with one file. -/
def reportFeed : Feed where
  event eventId :=
    ⟨eventId, "C1", "turn-1", 4,
      .turnReply "Here it is." [⟨"report.csv", none, none⟩] ⟨12, 5, 0, 0, 0⟩⟩
  event_eventId _ := rfl

def reportTarget : ResolvedTarget := ⟨"app", "bot", "C1", "m1", none, none⟩

/-- The resolver rejects both calls of a first delivery. -/
def unresolved : List Reply :=
  [{}, { error := some "no bot token" }, { error := some "no bot token" }]

/-- The first delivery fails, the adapter is restarted, and the redelivery
finds the resolver working. -/
def retriedAfterRestart : List Action :=
  [.deliver "e1" unresolved, .restart,
    .deliver "e1" (List.replicate 30 { target := some reportTarget })]

theorem retriedAfterRestart_delivered :
    ∃ adapter, (adapterMachine serverOptions reportFeed).exec (NoneAbandoned reportFeed)
        .fresh retriedAfterRestart = some adapter ∧
      adapter.answers = [("e1", 200), ("e1", 500)] ∧
      Delivered (reportFeed.event "e1") adapter.effects := by
  have run : ((adapterMachine serverOptions reportFeed).exec (NoneAbandoned reportFeed)
      .fresh retriedAfterRestart).map (·.answers) = some [("e1", 200), ("e1", 500)] := by
    decide +kernel
  obtain ⟨adapter, run, answers⟩ := Option.map_eq_some_iff.mp run
  refine ⟨adapter, run, answers, acknowledged_is_delivered (.of_exec rfl run) "e1" (.inl ?_)⟩
  simp [answers]

/-- The same two deliveries without the restart. -/
def retriedInProcess : List Action :=
  [.deliver "e1" unresolved, .deliver "e1" (List.replicate 4 {})]

/-- The failed attempt has closed the correlation, so the redelivery is
acknowledged at once; nothing has happened in Pumble. -/
theorem retriedInProcess_posts_nothing :
    ¬ ∀ feed adapter, (adapterMachine serverOptions feed).Reachable Transition.Always adapter →
      ∀ eventId, (eventId, 200) ∈ adapter.answers →
        Delivered (feed.event eventId) adapter.effects := by
  intro claim
  have run : ((adapterMachine serverOptions reportFeed).exec Transition.Always
      .fresh retriedInProcess).map (fun adapter => (adapter.answers, adapter.effects)) =
      some ([("e1", 200), ("e1", 500)], []) := by decide +kernel
  obtain ⟨adapter, run, ended⟩ := Option.map_eq_some_iff.mp run
  obtain ⟨answers, effects⟩ := Prod.mk.inj ended
  have delivered := claim reportFeed adapter (.of_exec rfl run) "e1" (by simp [answers])
  have put : Put (reportFeed.event "e1") "Here it is." adapter.effects :=
    delivered.shown "Here it is." (by decide)
  rw [effects] at put
  simp [Put] at put

end OmpBundler.Pumble
