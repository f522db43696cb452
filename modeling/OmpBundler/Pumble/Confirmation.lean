import OmpBundler.Pumble.Renderer

/-!
What the renderer's records stand for.

A terminal event is delivered when its final text is in the channel and each
of its attachments has been handed to the sender. Three records say so, or a
part of it: the completed set, the checkpoints of the event, and the flags of
its correlation. Between requests the invariant is `Sound`: every record, in
memory or on file, has the effects it stands for. While an event is rendered
it is `Working`, in which the event's own correlation may be ahead: text and
attachments that are noted there have been delivered, while the event has
not. Both only speak of effects that have happened, so both survive whatever
happens next.
-/

namespace OmpBundler.Pumble

open Library Library.Proc

/-! ### What a terminal event has to show -/

/-- The text that the event ends its turn with. -/
def finalText : EventBody → Option String
  | .turnReply text _ _ => if text = "" then none else some text
  | .turnError _ message _ => some message
  | _ => none

/-- The attachments that come with the final text. -/
def outputAttachments : EventBody → List WorkspaceAttachment
  | .turnReply _ attachments _ => attachments
  | _ => []

/-- What has happened in Pumble, each effect with the event it is part of. -/
abbrev Effects := List (String × Effect)

/-- The event has posted the text, or edited a message into it. -/
def Put (event : OutboundEvent) (text : String) (effects : Effects) : Prop :=
  (∃ target, (event.eventId, .sendMessage target text) ∈ effects) ∨
    ∃ target messageId, (event.eventId, .editMessage target messageId text) ∈ effects

/-- The final text, when there is one, is in the channel. -/
def Shown (event : OutboundEvent) (effects : Effects) : Prop :=
  ∀ text ∈ finalText event.body, Put event text effects

/-- The attachment at `index`, when there is one, was handed to the sender. -/
def Attached (event : OutboundEvent) (index : ℕ) (effects : Effects) : Prop :=
  ∀ attachment, (outputAttachments event.body)[index]? = some attachment →
    ∃ target, (event.eventId, .sendAttachment target index attachment) ∈ effects

/-- The whole event has been delivered. -/
structure Delivered (event : OutboundEvent) (effects : Effects) : Prop where
  shown : Shown event effects
  attached : ∀ index, Attached event index effects

/-- What a checkpoint of the event stands for. -/
structure Confirmed (event : OutboundEvent) (checkpoint : String) (effects : Effects) :
    Prop where
  text : checkpoint = textCheckpoint → Shown event effects
  attachment : ∀ index, checkpoint = attachmentCheckpoint index → Attached event index effects

section Growth

variable {event : OutboundEvent} {effects grown : Effects} (more : effects ⊆ grown)

include more

theorem Put.mono {text : String} (h : Put event text effects) : Put event text grown := by
  rcases h with ⟨target, mem⟩ | ⟨target, messageId, mem⟩
  · exact .inl ⟨target, more mem⟩
  · exact .inr ⟨target, messageId, more mem⟩

theorem Shown.mono (h : Shown event effects) : Shown event grown :=
  fun text mem => (h text mem).mono more

theorem Attached.mono {index : ℕ} (h : Attached event index effects) :
    Attached event index grown := by
  intro attachment present
  obtain ⟨target, mem⟩ := h attachment present
  exact ⟨target, more mem⟩

theorem Delivered.mono (h : Delivered event effects) : Delivered event grown where
  shown := h.shown.mono more
  attached index := (h.attached index).mono more

theorem Confirmed.mono {checkpoint : String} (h : Confirmed event checkpoint effects) :
    Confirmed event checkpoint grown where
  text same := (h.text same).mono more
  attachment index same := (h.attachment index same).mono more

end Growth

/-- An event without final text and attachments has nothing to deliver. -/
theorem Delivered.of_empty {event : OutboundEvent} {effects : Effects}
    (noText : finalText event.body = none) (noFiles : outputAttachments event.body = []) :
    Delivered event effects where
  shown := by simp [Shown, noText]
  attached index := by simp [Attached, noFiles]

/-! ### Checkpoints are told apart -/

theorem toString_injective {i j : ℕ} (h : toString i = toString j) : i = j := by
  have digits : Nat.toDigits 10 i = Nat.toDigits 10 j := by
    simpa using congrArg String.toList h
  rw [← Nat.ofDigitChars_ten_toDigits (n := i), digits, Nat.ofDigitChars_ten_toDigits]

theorem attachmentCheckpoint_injective {i j : ℕ}
    (h : attachmentCheckpoint i = attachmentCheckpoint j) : i = j := by
  have chars := congrArg String.toList h
  simp only [attachmentCheckpoint, String.toList_append, List.append_cancel_left_eq] at chars
  exact toString_injective (String.toList_inj.mp chars)

section Confirmed

variable {event : OutboundEvent} {effects : Effects}

/-- A checkpoint that starts with neither of the two letters says nothing
about text and attachments. -/
theorem Confirmed.of_head {checkpoint : String} (letter : Char)
    (head : checkpoint.toList.head? = some letter) (notText : letter ≠ 't')
    (notAttachment : letter ≠ 'a') : Confirmed event checkpoint effects where
  text same := by
    subst same
    exact absurd (Option.some.inj head).symm notText
  attachment index same := by
    subst same
    have first : (attachmentCheckpoint index).toList.head? = some 'a' := by
      simp [attachmentCheckpoint]
    rw [first] at head
    exact absurd (Option.some.inj head).symm notAttachment

theorem Confirmed.reactionAdd (emoji : String) :
    Confirmed event (reactionAddCheckpoint emoji) effects :=
  .of_head 'r' (by simp [reactionAddCheckpoint]) (by decide) (by decide)

theorem Confirmed.reactionRemove (emoji : String) :
    Confirmed event (reactionRemoveCheckpoint emoji) effects :=
  .of_head 'r' (by simp [reactionRemoveCheckpoint]) (by decide) (by decide)

theorem Confirmed.unconfiguredNotice :
    Confirmed event unconfiguredNoticeCheckpoint effects :=
  .of_head 'n' (by simp [unconfiguredNoticeCheckpoint]) (by decide) (by decide)

theorem Confirmed.failedNotice (index : ℕ) :
    Confirmed event (failedNoticeCheckpoint index) effects := by
  apply Confirmed.of_head 'n' _ (by decide) (by decide)
  show ("notice:attachment:" ++ toString index ++ ":failed").toList.head? = some 'n'
  simp

theorem Confirmed.of_shown (shown : Shown event effects) :
    Confirmed event textCheckpoint effects where
  text _ := shown
  attachment index same := by
    have heads := congrArg (fun s : String => s.toList.head?) same
    simp [textCheckpoint, attachmentCheckpoint] at heads

theorem Confirmed.of_attached {index : ℕ} (attached : Attached event index effects) :
    Confirmed event (attachmentCheckpoint index) effects where
  text same := by
    have heads := congrArg (fun s : String => s.toList.head?) same
    simp [textCheckpoint, attachmentCheckpoint] at heads
  attachment other same := by
    obtain rfl := attachmentCheckpoint_injective same
    exact attached

end Confirmed

/-! ### The invariants -/

section Invariants

variable (feed : Feed)

/-- What the store's records stand for. -/
abbrev Backed (effects : Effects) : DeliveryStore → Prop :=
  Records (fun eventId => Delivered (feed.event eventId) effects)
    fun eventId checkpoint => Confirmed (feed.event eventId) checkpoint effects

/-- A correlation that no event is being rendered for. -/
structure Tidy (effects : Effects) (state : CorrelationState) : Prop where
  seen : ∀ eventId ∈ state.seen, Delivered (feed.event eventId) effects
  untouched : state.terminal = false →
    state.finalTextPosted = false ∧ state.sentAttachmentIndexes = []

/-- The correlation of the event that is being rendered. -/
structure InTurn (event : OutboundEvent) (effects : Effects) (state : CorrelationState) :
    Prop where
  seen : ∀ eventId ∈ state.seen, Delivered (feed.event eventId) effects
  posted : state.finalTextPosted = true → event.isTerminal = true ∧ Shown event effects
  sent : ∀ index ∈ state.sentAttachmentIndexes,
    event.isTerminal = true ∧ Attached event index effects

/-- Every 200 was the answer to an event that has been delivered. -/
def Answered (adapter : Adapter) : Prop :=
  ∀ eventId, (eventId, 200) ∈ adapter.answers → Delivered (feed.event eventId) adapter.effects

/-- The adapter between two requests. -/
structure Sound (adapter : Adapter) : Prop where
  backed : Backed feed adapter.effects adapter.deliveries
  tidy : ∀ key state, adapter.correlations.get key = some state →
    Tidy feed adapter.effects state
  answered : Answered feed adapter

/-- The adapter while it renders `event`; it has at least the effects
`floor`. -/
structure Working (event : OutboundEvent) (floor : Effects) (adapter : Adapter) : Prop where
  backed : Backed feed adapter.effects adapter.deliveries
  others : ∀ key state, key ≠ correlationKey event →
    adapter.correlations.get key = some state → Tidy feed adapter.effects state
  own : InTurn feed event adapter.effects (adapter.stateFor event)
  confirmed : ∀ c ∈ adapter.checkpoints, Confirmed event c adapter.effects
  answered : Answered feed adapter
  grown : floor ⊆ adapter.effects

/-- What is left when the process dies. -/
structure Durable (adapter : Adapter) : Prop where
  file : ∀ data ∈ adapter.deliveries.file,
    data.Holds (fun eventId => Delivered (feed.event eventId) adapter.effects)
      fun eventId checkpoint => Confirmed (feed.event eventId) checkpoint adapter.effects
  answered : Answered feed adapter

end Invariants

section Steps

variable {feed : Feed} {event : OutboundEvent} {floor effects grown : Effects}
  {adapter : Adapter}

@[simp] theorem stateFor_update (f : CorrelationState → CorrelationState) :
    (adapter.update event f).stateFor event = f (adapter.stateFor event) := by
  simp [Adapter.stateFor]

theorem Backed.mono (more : effects ⊆ grown) {store : DeliveryStore}
    (h : Backed feed effects store) : Backed feed grown store :=
  Records.mono h (fun _ delivered => delivered.mono more) fun _ _ confirmed => confirmed.mono more

theorem Tidy.mono (more : effects ⊆ grown) {state : CorrelationState}
    (h : Tidy feed effects state) : Tidy feed grown state where
  seen eventId mem := (h.seen eventId mem).mono more
  untouched := h.untouched

theorem InTurn.mono (more : effects ⊆ grown) {state : CorrelationState}
    (h : InTurn feed event effects state) : InTurn feed event grown state where
  seen eventId mem := (h.seen eventId mem).mono more
  posted isPosted := ⟨(h.posted isPosted).1, (h.posted isPosted).2.mono more⟩
  sent index mem := ⟨(h.sent index mem).1, (h.sent index mem).2.mono more⟩

theorem Sound.durable (h : Sound feed adapter) : Durable feed adapter :=
  ⟨h.backed.file, h.answered⟩

theorem Working.durable (h : Working feed event floor adapter) : Durable feed adapter :=
  ⟨h.backed.file, h.answered⟩

theorem Working.lower (h : Working feed event adapter.effects adapter)
    (below : floor ⊆ adapter.effects) : Working feed event floor adapter :=
  { h with grown := below }

theorem Working.raise (h : Working feed event floor adapter) :
    Working feed event adapter.effects adapter :=
  { h with grown := List.Subset.refl _ }

theorem Working.record (h : Working feed event floor adapter) (effect : Effect) :
    Working feed event floor (adapter.record event effect) := by
  have more : adapter.effects ⊆ (event.eventId, effect) :: adapter.effects :=
    List.subset_cons_self ..
  exact {
    backed := h.backed.mono more
    others := fun key state other present => (h.others key state other present).mono more
    own := h.own.mono more
    confirmed := fun c mem => (h.confirmed c mem).mono more
    answered := fun eventId mem => (h.answered eventId mem).mono more
    grown := fun _ mem => more (h.grown mem) }

theorem Working.update (h : Working feed event floor adapter)
    {f : CorrelationState → CorrelationState}
    (own : InTurn feed event adapter.effects (f (adapter.stateFor event))) :
    Working feed event floor (adapter.update event f) where
  backed := h.backed
  others key state other present := by
    rw [Adapter.update_correlations, OrderedMap.get_set, if_neg (Ne.symm other)] at present
    exact h.others key state other present
  own := by
    rw [stateFor_update]
    exact own
  confirmed := h.confirmed
  answered := h.answered
  grown := h.grown

theorem Working.addCheckpoint (h : Working feed event floor adapter) {c : String}
    (confirmed : Confirmed event c adapter.effects) :
    Working feed event floor (adapter.addCheckpoint c) where
  backed := h.backed
  others := h.others
  own := h.own
  confirmed c' mem := by
    rcases List.mem_insert_iff.mp mem with rfl | old
    · exact confirmed
    · exact h.confirmed c' old
  answered := h.answered
  grown := h.grown

theorem Working.setDeliveries (h : Working feed event floor adapter) {store : DeliveryStore}
    (backed : Backed feed adapter.effects store) :
    Working feed event floor (adapter.setDeliveries store) :=
  { h with backed := backed }

end Steps

end OmpBundler.Pumble
