import OmpBundler.Pumble.Confirmation

/-!
A handler that returns has delivered its event.

Every call of a rendering keeps the invariant `Working`, however it ends. The
invariant carries a floor, the effects that are known to have happened: a
checkpoint may be marked when the floor has what it stands for, and a fact
about the floor is still a fact when the next call returns. So the handlers
of the two events that deliver something are followed call by call, and each
call that delivers raises the floor.
-/

namespace OmpBundler.Pumble

open Library Library.Proc

/-! ### The calls of a rendering -/

section Calls

variable {feed : Feed} {event : OutboundEvent} {floor : Effects} {α : Type}
  {options : PumbleRendererOptions}

/-- To prove a triple, the effects of the start may be taken for the floor. -/
theorem Working.from_start {p : Rendering α} {F : Effects → Prop} {Q : α → Effects → Prop}
    (h : ∀ start, floor ⊆ start → F start →
      Triple (Working feed event start) p
        (fun a adapter => Working feed event start adapter ∧ Q a adapter.effects)
        (fun _ => Working feed event start) (Working feed event start)) :
    Triple (fun adapter => Working feed event floor adapter ∧ F adapter.effects) p
      (fun a adapter => Working feed event floor adapter ∧ Q a adapter.effects)
      (fun _ => Working feed event floor) (Working feed event floor) := by
  apply Triple.of_pre
  rintro start ⟨working, holds⟩
  have lower {adapter} (after : Working feed event start.effects adapter) :
      Working feed event floor adapter :=
    { after with grown := fun _ mem => after.grown (working.grown mem) }
  apply (h start.effects working.grown holds).weaken
  · rintro _ rfl
    exact working.raise
  · exact fun _ _ after => ⟨lower after.1, after.2⟩
  · exact fun _ _ => lower
  · exact fun _ => lower

theorem readState_keeps : Keeps (Working feed event floor) (readState event) :=
  Keeps.get.bind fun _ => Keeps.pure _

/-- An update that leaves the three fields of the invariant alone. -/
theorem updateState_keeps {f : CorrelationState → CorrelationState}
    (quiet : ∀ state, (f state).seen = state.seen ∧
      (f state).finalTextPosted = state.finalTextPosted ∧
      (f state).sentAttachmentIndexes = state.sentAttachmentIndexes) :
    Keeps (Working feed event floor) (updateState event f) := by
  apply Keeps.modify
  intro adapter h
  obtain ⟨seen, posted, sent⟩ := quiet (adapter.stateFor event)
  exact h.update ⟨seen ▸ h.own.seen, posted ▸ h.own.posted, sent ▸ h.own.sent⟩

theorem perform_spec (effect : Effect) :
    Triple (Working feed event floor) (perform event effect)
      (fun _ adapter => Working feed event floor adapter ∧
        (event.eventId, effect) ∈ adapter.effects)
      (fun _ => Working feed event floor) (Working feed event floor) := by
  apply Triple.bind (M := fun _ => Working feed event floor) Keeps.attempt
  intro reply
  apply Triple.bind (M := fun _ adapter => Working feed event floor adapter ∧
    (event.eventId, effect) ∈ adapter.effects)
  · exact Triple.modify fun adapter h => ⟨h.record effect, List.mem_cons_self ..⟩
  · exact fun _ => Triple.pure reply fun _ h => h

theorem perform_keeps (effect : Effect) :
    Keeps (Working feed event floor) (perform event effect) :=
  (perform_spec effect).adapt (fun _ h => h) fun _ _ h => h.1

theorem safely_keeps (effect : Effect) : Keeps (Working feed event floor) (safely event effect) :=
  ((perform_keeps effect).bind fun _ => Keeps.pure true).tryCatch fun _ => Keeps.pure false

theorem safeDeleteInterim_keeps (target : ResolvedTarget) (messageId : String) :
    Keeps (Working feed event floor) (safeDeleteInterim event target messageId) :=
  (safely_keeps _).bind fun _ => updateState_keeps fun _ => ⟨rfl, rfl, rfl⟩

theorem resolve_keeps : Keeps (Working feed event floor) (resolve event) :=
  (Keeps.attempt.bind fun _ => Keeps.pure _).tryCatch fun _ => Keeps.pure none

theorem resolveRequired_keeps : Keeps (Working feed event floor) (resolveRequired event) := by
  apply Keeps.attempt.bind
  intro reply
  cases reply.target with
  | some target => exact Keeps.pure target
  | none => exact Keeps.throw _

theorem streamingEnabled_keeps (target : ResolvedTarget) :
    Keeps (Working feed event floor) (streamingEnabled options target) :=
  Keeps.ite (fun _ => Keeps.call.bind fun _ => Keeps.pure _) fun _ => Keeps.pure false

/-- The checkpoint must stand for something that has happened. -/
theorem markCheckpoint_keeps (known : feed.event event.eventId = event) {checkpoint : String}
    (confirmed : Confirmed event checkpoint floor) :
    Keeps (Working feed event floor) (markCheckpoint options event checkpoint) := by
  apply Keeps.get.bind
  intro before
  apply Keeps.ite
  · exact fun _ => Keeps.pure ()
  intro _
  apply Keeps.bind
  · apply Keeps.ite
    · intro _
      apply Triple.focus
      intro adapter h
      have kept : Keeps (Backed feed adapter.effects)
          (DeliveryStore.markCheckpoint event.eventId checkpoint) := by
        apply DeliveryStore.markCheckpoint_keeps
        rw [known]
        exact confirmed.mono h.grown
      apply kept.weaken
      · rintro _ rfl
        exact h.backed
      · exact fun _ _ => h.setDeliveries
      · exact fun _ _ => h.setDeliveries
      · exact fun _ => h.setDeliveries
    · exact fun _ => Keeps.pure ()
  · exact fun _ => Keeps.modify fun _ h => h.addCheckpoint (confirmed.mono h.grown)

theorem addStatusReaction_keeps (known : feed.event event.eventId = event)
    (target : ResolvedTarget) (emoji : String) :
    Keeps (Working feed event floor) (addStatusReaction options event target emoji) := by
  apply readState_keeps.bind
  intro state
  apply Keeps.ite
  · exact fun _ => Keeps.pure ()
  intro _
  apply Keeps.bind (updateState_keeps (f := (·.addAttempted emoji)) fun _ => ⟨rfl, rfl, rfl⟩)
  intro _
  apply Keeps.get.bind
  intro before
  apply Keeps.ite
  · exact fun _ => updateState_keeps fun _ => ⟨rfl, rfl, rfl⟩
  intro _
  apply (safely_keeps _).bind
  intro added
  apply Keeps.ite
  · exact fun _ => Keeps.bind (updateState_keeps fun _ => ⟨rfl, rfl, rfl⟩) fun _ =>
      markCheckpoint_keeps known (.reactionAdd emoji)
  · exact fun _ => Keeps.pure ()

theorem removeStatusReaction_keeps (known : feed.event event.eventId = event)
    (target : ResolvedTarget) (emoji : String) :
    Keeps (Working feed event floor) (removeStatusReaction options event target emoji) := by
  apply Keeps.get.bind
  intro before
  apply Keeps.bind
  · apply Keeps.ite
    · exact fun _ => Keeps.pure ()
    intro _
    apply (safely_keeps _).bind
    intro removed
    apply Keeps.ite
    · exact fun _ => markCheckpoint_keeps known (.reactionRemove emoji)
    · exact fun _ => Keeps.pure ()
  · exact fun _ => updateState_keeps fun _ => ⟨rfl, rfl, rfl⟩

theorem clearStatusReactions_keeps (known : feed.event event.eventId = event)
    (target : ResolvedTarget) :
    Keeps (Working feed event floor) (clearStatusReactions options event target) :=
  Keeps.forEach fun emoji _ => removeStatusReaction_keeps known target emoji

/-- The cleanup of a terminal event does not throw. -/
theorem clearTerminalStatus_spec (known : feed.event event.eventId = event) :
    Triple (Working feed event floor) (clearTerminalStatus options event)
      (fun _ => Working feed event floor) (fun _ _ => False) (Working feed event floor) :=
  Triple.tryCatch
    (resolveRequired_keeps.bind fun target => clearStatusReactions_keeps known target)
    fun _ => Triple.pure () fun _ h => h

theorem removeInterim_keeps (target : ResolvedTarget) :
    Keeps (Working feed event floor) (removeInterim event target) := by
  apply readState_keeps.bind
  intro state
  cases state.interimMessageId with
  | none => exact Keeps.pure ()
  | some messageId => exact safeDeleteInterim_keeps target messageId

theorem sendNotice_keeps (known : feed.event event.eventId = event) (target : ResolvedTarget)
    {checkpoint : String} (silent : ∀ effects, Confirmed event checkpoint effects)
    (text : String) :
    Keeps (Working feed event floor) (sendNotice options event target checkpoint text) := by
  apply Keeps.get.bind
  intro before
  apply Keeps.ite
  · exact fun _ => Keeps.pure ()
  intro _
  apply (safely_keeps _).bind
  intro sent
  apply Keeps.ite
  · exact fun _ => markCheckpoint_keeps known (silent floor)
  · exact fun _ => Keeps.pure ()

end Calls

/-! ### Events that deliver nothing -/

section Quiet

variable {feed : Feed} {event : OutboundEvent} {floor : Effects}
  {options : PumbleRendererOptions} (known : feed.event event.eventId = event)

include known

theorem onStarted_keeps : Keeps (Working feed event floor) (onStarted options event) := by
  apply resolve_keeps.bind
  intro found
  cases found with
  | none => exact Keeps.pure ()
  | some target =>
      exact Keeps.bind (updateState_keeps fun _ => ⟨rfl, rfl, rfl⟩) fun _ =>
        Keeps.forEach fun emoji _ => addStatusReaction_keeps known target emoji

theorem swapReactions_keeps : Keeps (Working feed event floor) (swapReactions options event) := by
  apply resolve_keeps.bind
  intro found
  cases found with
  | none => exact Keeps.pure ()
  | some target =>
      exact (removeStatusReaction_keeps known target _).bind fun _ =>
        addStatusReaction_keeps known target _

omit known in
theorem showInterim_keeps (target : ResolvedTarget) (now : ℕ) :
    Keeps (Working feed event floor) (showInterim event target now) := by
  apply readState_keeps.bind
  intro state
  cases state.interimMessageId with
  | none =>
      exact Keeps.tryCatch ((perform_keeps _).bind fun _ =>
        updateState_keeps fun _ => ⟨rfl, rfl, rfl⟩) fun _ => Keeps.pure ()
  | some messageId =>
      exact Keeps.tryCatch ((perform_keeps _).bind fun _ =>
        updateState_keeps fun _ => ⟨rfl, rfl, rfl⟩) fun _ => Keeps.pure ()

theorem onDelta_keeps (text : String) :
    Keeps (Working feed event floor) (onDelta options event text) := by
  apply Keeps.bind (updateState_keeps (f := (·.appendInterim text)) fun _ => ⟨rfl, rfl, rfl⟩)
  intro _
  apply readState_keeps.bind
  intro state
  apply Keeps.bind (Keeps.ite (fun _ => Keeps.pure ()) fun _ => swapReactions_keeps known)
  intro _
  apply Keeps.call.bind
  intro clock
  apply readState_keeps.bind
  intro state
  apply Keeps.ite
  · exact fun _ => Keeps.pure ()
  intro _
  apply resolve_keeps.bind
  intro found
  cases found with
  | none => exact Keeps.pure ()
  | some target =>
      apply (streamingEnabled_keeps target).bind
      intro streaming
      exact Keeps.ite (fun _ => showInterim_keeps target clock.now) fun _ => Keeps.pure ()

omit known in
theorem onCancelled_keeps : Keeps (Working feed event floor) (onCancelled event) := by
  apply resolve_keeps.bind
  intro found
  cases found with
  | none => exact Keeps.pure ()
  | some target => exact removeInterim_keeps target

theorem onPresence_keeps (presence : Presence) :
    Keeps (Working feed event floor) (onPresence options event presence) := by
  cases presence with
  | active => exact Keeps.pure ()
  | idle => exact Keeps.pure ()
  | offline =>
      apply resolve_keeps.bind
      intro found
      cases found with
      | none => exact Keeps.pure ()
      | some target => exact clearStatusReactions_keeps known target

end Quiet

/-! ### Replies and errors -/

section Terminal

variable {feed : Feed} {event : OutboundEvent} {floor : Effects}
  {options : PumbleRendererOptions}

theorem postFinalText_spec (target : ResolvedTarget) (text : String) :
    Triple (Working feed event floor) (postFinalText event target text)
      (fun _ adapter => Working feed event floor adapter ∧ Put event text adapter.effects)
      (fun _ => Working feed event floor) (Working feed event floor) :=
  Triple.bind (perform_spec _) fun _ =>
    Triple.pure () fun _ h => ⟨h.1, .inl ⟨target, h.2⟩⟩

/-- If the final text is not in the channel afterwards, the delivery has
thrown. -/
theorem deliverFinalText_spec (target : ResolvedTarget) (text : String) :
    Triple (Working feed event floor) (deliverFinalText event target text)
      (fun _ adapter => Working feed event floor adapter ∧ Put event text adapter.effects)
      (fun _ => Working feed event floor) (Working feed event floor) := by
  apply Triple.bind readState_keeps
  intro state
  cases state.interimMessageId with
  | none => exact postFinalText_spec target text
  | some messageId =>
      apply Triple.tryCatch (M := fun _ => Working feed event floor)
      · exact Triple.bind (perform_spec _) fun _ =>
          Triple.pure () fun _ h => ⟨h.1, .inr ⟨target, messageId, h.2⟩⟩
      · exact fun _ => postFinalText_spec target text

theorem updateState_posted (terminal : event.isTerminal = true) (shown : Shown event floor) :
    Keeps (Working feed event floor) (updateState event CorrelationState.posted) := by
  apply Keeps.modify
  intro adapter h
  exact h.update ⟨h.own.seen, fun _ => ⟨terminal, shown.mono h.grown⟩, h.own.sent⟩

theorem updateState_addSent (terminal : event.isTerminal = true) {index : ℕ}
    (attached : Attached event index floor) :
    Keeps (Working feed event floor) (updateState event (·.addSent index)) := by
  apply Keeps.modify
  intro adapter h
  apply h.update
  refine ⟨h.own.seen, h.own.posted, ?_⟩
  intro index' mem
  rcases List.mem_insert_iff.mp mem with rfl | old
  · exact ⟨terminal, attached.mono h.grown⟩
  · exact h.own.sent index' old

/-- A fact about the floor holds after a program that keeps the invariant. -/
theorem Working.remember {α : Type} {p : Rendering α} {F : Effects → Prop}
    (kept : Keeps (Working feed event floor) p) (up : ∀ grown, floor ⊆ grown → F grown) :
    Triple (Working feed event floor) p
      (fun _ adapter => Working feed event floor adapter ∧ F adapter.effects)
      (fun _ => Working feed event floor) (Working feed event floor) :=
  kept.adapt (fun _ h => h) fun _ _ after => ⟨after, up _ after.grown⟩

/-- A program that first reads the state knows it to be as it should. -/
theorem Working.after_read {α : Type} {p : Adapter → Rendering α} {Q : α → Effects → Prop}
    (h : ∀ read, Working feed event read.effects read →
      Triple (Working feed event read.effects) (p read)
        (fun a adapter => Working feed event read.effects adapter ∧ Q a adapter.effects)
        (fun _ => Working feed event read.effects) (Working feed event read.effects)) :
    Triple (Working feed event floor) (Proc.get >>= p)
      (fun a adapter => Working feed event floor adapter ∧ Q a adapter.effects)
      (fun _ => Working feed event floor) (Working feed event floor) := by
  apply Triple.bind (M := fun read adapter => adapter = read ∧ Working feed event floor read)
  · exact Triple.get fun adapter working => ⟨rfl, working⟩
  intro read
  apply Triple.of_pre
  rintro _ ⟨rfl, working⟩
  rename_i read
  have lower {adapter} (after : Working feed event read.effects adapter) :
      Working feed event floor adapter :=
    { after with grown := fun _ mem => after.grown (working.grown mem) }
  apply (h read working.raise).weaken
  · rintro _ rfl
    exact working.raise
  · exact fun _ _ after => ⟨lower after.1, after.2⟩
  · exact fun _ _ => lower
  · exact fun _ => lower

theorem shown_iff_put {text : String} (same : finalText event.body = some text)
    {effects : Effects} : Shown event effects ↔ Put event text effects := by
  simp [Shown, same]

theorem deliverReplyText_spec (known : feed.event event.eventId = event)
    (terminal : event.isTerminal = true) {text : String}
    (same : finalText event.body = some text) (target : ResolvedTarget) :
    Triple (Working feed event floor) (deliverReplyText options event target text)
      (fun _ adapter => Working feed event floor adapter ∧ Shown event adapter.effects)
      (fun _ => Working feed event floor) (Working feed event floor) := by
  apply Working.after_read (Q := fun _ => Shown event)
  intro read working
  apply Triple.ite
  · intro recorded
    have shown := (working.confirmed _ recorded).text rfl
    exact Working.remember (updateState_posted terminal shown) fun _ => shown.mono
  intro _
  apply Triple.ite
  · intro posted
    have shown := (working.own.posted posted).2
    exact Working.remember (markCheckpoint_keeps known (.of_shown shown)) fun _ => shown.mono
  intro _
  apply Triple.bind (deliverFinalText_spec target text)
  intro _
  apply Working.from_start
  intro start _ put
  have shown := (shown_iff_put same).mpr put
  exact Working.remember ((updateState_posted terminal shown).bind fun _ =>
    markCheckpoint_keeps known (.of_shown shown)) fun _ => shown.mono

theorem sendAttachment_spec (known : feed.event event.eventId = event) (target : ResolvedTarget)
    {index : ℕ} {attachment : WorkspaceAttachment}
    (present : (outputAttachments event.body)[index]? = some attachment) :
    Triple (Working feed event floor) (sendAttachment options event target index attachment)
      (fun _ adapter => Working feed event floor adapter ∧ Attached event index adapter.effects)
      (fun _ => Working feed event floor) (Working feed event floor) := by
  apply Triple.tryCatch (M := fun _ => Working feed event floor)
  · apply Triple.bind (perform_spec _)
    intro _
    apply Triple.pure
    rintro adapter ⟨working, sent⟩
    refine ⟨working, fun attachment' present' => ?_⟩
    obtain rfl := Option.some.inj (present.symm.trans present')
    exact ⟨target, sent⟩
  · intro error
    apply Triple.bind (sendNotice_keeps known target (fun _ => .failedNotice index) _)
    exact fun _ => Triple.throw fun _ h => h

theorem deliverAttachment_spec (known : feed.event event.eventId = event)
    (terminal : event.isTerminal = true) (target : ResolvedTarget) {index : ℕ}
    {attachment : WorkspaceAttachment}
    (present : (outputAttachments event.body)[index]? = some attachment) :
    Triple (Working feed event floor) (deliverAttachment options event target index attachment)
      (fun _ adapter => Working feed event floor adapter ∧ Attached event index adapter.effects)
      (fun _ => Working feed event floor) (Working feed event floor) := by
  apply Working.after_read (Q := fun _ => Attached event index)
  intro read working
  apply Triple.ite
  · intro recorded
    have attached := (working.confirmed _ recorded).attachment index rfl
    exact Working.remember (updateState_addSent terminal attached) fun _ => attached.mono
  intro _
  apply Triple.ite
  · intro sent
    have attached := (working.own.sent index sent).2
    exact Working.remember (markCheckpoint_keeps known (.of_attached attached))
      fun _ => attached.mono
  intro _
  apply Triple.bind (sendAttachment_spec known target present)
  intro _
  apply Working.from_start
  intro start _ attached
  exact Working.remember ((updateState_addSent terminal attached).bind fun _ =>
    markCheckpoint_keeps known (.of_attached attached)) fun _ => attached.mono

/-- The loop over the attachments: those that are done have been sent. -/
theorem deliverAttachments_loop (known : feed.event event.eventId = event)
    (terminal : event.isTerminal = true) (target : ResolvedTarget)
    {attachments : List WorkspaceAttachment}
    (same : outputAttachments event.body = attachments) :
    Triple (Working feed event floor)
      (forEach attachments.zipIdx fun (attachment, index) =>
        deliverAttachment options event target index attachment)
      (fun _ adapter => Working feed event floor adapter ∧
        ∀ index, Attached event index adapter.effects)
      (fun _ => Working feed event floor) (Working feed event floor) := by
  apply Triple.adapt (Triple.forEach (I := fun done adapter =>
    Working feed event floor adapter ∧ ∀ p ∈ done, Attached event p.2 adapter.effects) ?_)
  · exact fun _ working => ⟨working, by simp⟩
  · rintro _ adapter ⟨working, all⟩
    refine ⟨working, fun index attachment present => ?_⟩
    rw [same] at present
    have mem := List.mk_mem_zipIdx_iff_getElem?.mpr present
    exact all _ mem attachment (same ▸ present)
  · rintro done ⟨attachment, index⟩ rest split
    have mem : (attachment, index) ∈ attachments.zipIdx := by simp [split]
    have present : (outputAttachments event.body)[index]? = some attachment := by
      rw [same]
      exact List.mk_mem_zipIdx_iff_getElem?.mp mem
    apply Working.from_start (F := fun effects => ∀ p ∈ done, Attached event p.2 effects)
      (Q := fun _ effects => ∀ p ∈ done ++ [(attachment, index)], Attached event p.2 effects)
    intro start _ before
    apply (deliverAttachment_spec known terminal target present).adapt
    · exact fun _ h => h
    · rintro _ adapter ⟨working, attached⟩
      refine ⟨working, fun p mem => ?_⟩
      rcases List.mem_append.mp mem with old | new
      · exact (before p old).mono working.grown
      · rw [List.mem_singleton.mp new]
        exact attached

theorem deliverAttachments_spec (known : feed.event event.eventId = event)
    (terminal : event.isTerminal = true) (target : ResolvedTarget)
    {attachments : List WorkspaceAttachment}
    (same : outputAttachments event.body = attachments) :
    Triple (Working feed event floor) (deliverAttachments options event target attachments)
      (fun _ adapter => Working feed event floor adapter ∧
        ∀ index, Attached event index adapter.effects)
      (fun _ => Working feed event floor) (Working feed event floor) := by
  apply Triple.ite
  · intro none
    have empty := List.length_eq_zero_iff.mp none
    apply Triple.pure
    exact fun _ working => ⟨working, by simp [Attached, same, empty]⟩
  intro _
  apply Triple.ite
  · exact fun _ => deliverAttachments_loop known terminal target same
  · intro _
    apply Triple.bind (sendNotice_keeps known target (fun _ => .unconfiguredNotice) _)
    exact fun _ => Triple.throw fun _ h => h

theorem onReply_spec (known : feed.event event.eventId = event) {text : String}
    {attachments : List WorkspaceAttachment} {usage : TurnUsage}
    (body : event.body = .turnReply text attachments usage) :
    Triple (Working feed event floor) (onReply options event text attachments)
      (fun _ adapter => Working feed event floor adapter ∧ Delivered event adapter.effects)
      (fun _ => Working feed event floor) (Working feed event floor) := by
  have terminal : event.isTerminal = true := by simp [OutboundEvent.isTerminal, body,
    EventBody.isTerminal]
  have files : outputAttachments event.body = attachments := by simp [body, outputAttachments]
  apply Triple.bind resolveRequired_keeps
  intro target
  apply Triple.bind (M := fun _ adapter =>
    Working feed event floor adapter ∧ Shown event adapter.effects)
  · apply Triple.ite
    · intro silent
      apply Working.remember (removeInterim_keeps target)
      intro _ _
      simp [Shown, body, finalText, silent]
    · intro spoken
      exact deliverReplyText_spec known terminal (by simp [body, finalText, spoken]) target
  intro _
  apply Working.from_start (Q := fun _ => Delivered event)
  intro start _ shown
  apply (deliverAttachments_spec known terminal target files).adapt
  · exact fun _ h => h
  · exact fun _ _ after => ⟨after.1, shown.mono after.1.grown, after.2⟩

theorem onError_spec (known : feed.event event.eventId = event) {code message : String}
    {retryable : Bool} (body : event.body = .turnError code message retryable) :
    Triple (Working feed event floor) (onError options event message)
      (fun _ adapter => Working feed event floor adapter ∧ Delivered event adapter.effects)
      (fun _ => Working feed event floor) (Working feed event floor) := by
  have same : finalText event.body = some message := by simp [body, finalText]
  have delivered {effects} (shown : Shown event effects) : Delivered event effects :=
    ⟨shown, fun index => by simp [Attached, body, outputAttachments]⟩
  apply Triple.bind resolveRequired_keeps
  intro target
  apply Working.after_read (Q := fun _ => Delivered event)
  intro read working
  apply Triple.ite
  · intro recorded
    have shown := (working.confirmed _ recorded).text rfl
    exact Triple.pure () fun _ after => ⟨after, delivered (shown.mono after.grown)⟩
  intro _
  apply Triple.bind (deliverFinalText_spec target message)
  intro _
  apply Working.from_start (Q := fun _ => Delivered event)
  intro start _ put
  have shown := (shown_iff_put same).mpr put
  exact Working.remember (markCheckpoint_keeps known (.of_shown shown))
    fun _ more => delivered (shown.mono more)

/-- A dispatch that returns has delivered its event. -/
theorem dispatch_spec (known : feed.event event.eventId = event) :
    Triple (Working feed event floor) (dispatch options event)
      (fun _ adapter => Working feed event floor adapter ∧ Delivered event adapter.effects)
      (fun _ => Working feed event floor) (Working feed event floor) := by
  have quiet {p : Rendering Unit} (kept : Keeps (Working feed event floor) p)
      (noText : finalText event.body = none) (noFiles : outputAttachments event.body = []) :
      Triple (Working feed event floor) p
        (fun _ adapter => Working feed event floor adapter ∧ Delivered event adapter.effects)
        (fun _ => Working feed event floor) (Working feed event floor) :=
    Working.remember kept fun _ _ => .of_empty noText noFiles
  unfold dispatch
  cases body : event.body with
  | turnStarted => exact quiet (onStarted_keeps known) (by rw [body]; rfl) (by rw [body]; rfl)
  | turnProgress => exact quiet (Keeps.pure ()) (by rw [body]; rfl) (by rw [body]; rfl)
  | turnDelta text => exact quiet (onDelta_keeps known text) (by rw [body]; rfl) (by rw [body]; rfl)
  | turnReply text attachments usage => exact onReply_spec known body
  | turnError code message retryable => exact onError_spec known body
  | turnCancelled => exact quiet onCancelled_keeps (by rw [body]; rfl) (by rw [body]; rfl)
  | presenceChanged presence =>
      exact quiet (onPresence_keeps known presence) (by rw [body]; rfl) (by rw [body]; rfl)

end Terminal

end OmpBundler.Pumble
