import Mathlib.Logic.Function.Basic
import OmpBundler.Library.Transition

/-!
The target store of the Pumble adapter, and the two sides that use it.

An inbound message saves its target under its conversation, is posted to the
core, and binds the correlation that the core answers to the target that is
saved. The messages of one conversation do so one after the other. The
events of the core resolve their target, by the correlation or else by the
conversation, and the terminal event releases the correlation. Every
operation of the store runs without interruption; nothing orders the
operations of the two sides.

The main result says what keeps both sides right: a message may only save
another target when the running correlations of its conversation are bound,
and a correlation may only be bound before it is released.
-/

namespace OmpBundler.Pumble

open Library

/-- Where the answers to a message go. -/
structure Target where
  workspaceId : String
  channelId : String
  triggerMessageId : String
  threadRootId : Option String
  direct : Option Bool
  deriving DecidableEq, Repr

structure TargetStoreData where
  /-- Written before the core is posted to. -/
  byConversation : String → Option Target
  /-- Written after the core has accepted. -/
  byCorrelation : String → Option Target

/-- How an operation of the store ends: its file may be unreadable, and then
nothing happens, or the changed data may fail to be written. -/
inductive StoreOutcome where
  | written
  | unwritten
  | unreadable
  deriving DecidableEq, Repr

namespace TargetStoreData

variable (d : TargetStoreData)

def empty : TargetStoreData := ⟨fun _ => none, fun _ => none⟩

def putByConversation (conversationKey : String) (target : Target) : TargetStoreData :=
  { d with byConversation := Function.update d.byConversation conversationKey (some target) }

/-- Nothing happens when the correlation is bound already; without a saved
target it is an error. -/
def bindCorrelation (conversationKey correlationId : String) : Option TargetStoreData :=
  if (d.byCorrelation correlationId).isSome then some d
  else
    match d.byConversation conversationKey with
    | none => none
    | some resolved =>
        some { d with
          byCorrelation := Function.update d.byCorrelation correlationId (some resolved) }

def resolve (conversationKey correlationId : String) : Option Target :=
  match d.byCorrelation correlationId with
  | some target => some target
  | none => d.byConversation conversationKey

def forgetCorrelation (correlationId : String) : TargetStoreData :=
  { d with byCorrelation := Function.update d.byCorrelation correlationId none }

end TargetStoreData

/-- Where the message is that a conversation is busy with. -/
inductive InboundStage where
  /-- Its request is on the way to the core. -/
  | posting (target : Target)
  /-- The core has accepted it, the answer is on the way back. -/
  | accepted (target : Target) (correlationId : String)
  /-- The answer is there. -/
  | binding (target : Target) (correlationId : String)
  deriving DecidableEq, Repr

def InboundStage.target : InboundStage → Target
  | posting target | accepted target _ | binding target _ => target

/-- The correlation that the core has answered with. -/
def InboundStage.correlation : InboundStage → Option String
  | posting _ => none
  | accepted _ correlationId | binding _ correlationId => some correlationId

/-- The adapter, and what the core knows of its correlations. -/
structure TargetBinding where
  data : TargetStoreData
  /-- The messages that wait for their turn, for each conversation. -/
  waiting : String → List Target
  /-- The message whose turn it is. -/
  current : String → Option InboundStage
  /-- Requests that the adapter has given up and the core may still accept. -/
  abandoned : List (String × Target)
  /-- The conversation of each correlation, and the target of the message
  that has opened it. -/
  opened : String → Option (String × Target)
  /-- The renderer has handled the terminal event. -/
  closed : String → Bool
  /-- The correlation has been released. -/
  forgotten : String → Bool
  /-- The terminal event has been acknowledged. -/
  acknowledged : String → Bool
  /-- The targets that events have been given. -/
  resolved : List (String × Option Target)

inductive TargetAction where
  /-- A message comes in. -/
  | receive (conversationKey : String) (target : Target)
  /-- The next message of a conversation saves its target. -/
  | save (conversationKey : String) (outcome : StoreOutcome)
  /-- The core accepts a message: it opens a correlation or adds the message
  to one that it knows. -/
  | accept (conversationKey correlationId : String)
  /-- The answer of the core arrives. -/
  | answer (conversationKey : String)
  /-- The request is rejected, or it fails or times out. -/
  | giveUp (conversationKey : String)
  /-- The core accepts a message after the adapter has given up. -/
  | acceptLate (conversationKey : String) (target : Target) (correlationId : String)
  | bind (conversationKey : String) (outcome : StoreOutcome)
  /-- An event asks for its target. -/
  | resolve (correlationId : String)
  /-- The renderer is done with the terminal event. -/
  | terminal (correlationId : String)
  /-- The terminal event releases its correlation. -/
  | forget (correlationId : String) (outcome : StoreOutcome)
  deriving DecidableEq, Repr

namespace TargetBinding

variable (s : TargetBinding)

def fresh : TargetBinding where
  data := .empty
  waiting _ := []
  current _ := none
  abandoned := []
  opened _ := none
  closed _ := false
  forgotten _ := false
  acknowledged _ := false
  resolved := []

def setCurrent (conversationKey : String) (stage : Option InboundStage) : TargetBinding :=
  { s with current := Function.update s.current conversationKey stage }

/-- A message opens a correlation, or joins one of its conversation. -/
def join (conversationKey correlationId : String) (target : Target) : Option TargetBinding :=
  match s.opened correlationId with
  | none =>
      some { s with
        opened := Function.update s.opened correlationId (some (conversationKey, target)) }
  | some (conversation, _) => if conversation = conversationKey then some s else none

def receive (conversationKey : String) (target : Target) : TargetBinding :=
  { s with
    waiting := Function.update s.waiting conversationKey
      (s.waiting conversationKey ++ [target]) }

/-- The next message is posted when its target is written. -/
def save (conversationKey : String) (outcome : StoreOutcome) : Option TargetBinding :=
  match s.current conversationKey, s.waiting conversationKey with
  | none, target :: rest =>
      let s := { s with waiting := Function.update s.waiting conversationKey rest }
      let put := { s with data := s.data.putByConversation conversationKey target }
      match outcome with
      | .unreadable => some s
      | .unwritten => some put
      | .written => some (put.setCurrent conversationKey (some (.posting target)))
  | _, _ => none

def accept (conversationKey correlationId : String) : Option TargetBinding :=
  match s.current conversationKey with
  | some (.posting target) =>
      (s.join conversationKey correlationId target).map fun s =>
        s.setCurrent conversationKey (some (.accepted target correlationId))
  | _ => none

def answer (conversationKey : String) : Option TargetBinding :=
  match s.current conversationKey with
  | some (.accepted target correlationId) =>
      some (s.setCurrent conversationKey (some (.binding target correlationId)))
  | _ => none

def giveUp (conversationKey : String) : Option TargetBinding :=
  match s.current conversationKey with
  | some (.posting target) =>
      some { s.setCurrent conversationKey none with
        abandoned := (conversationKey, target) :: s.abandoned }
  | some (.accepted _ _) => some (s.setCurrent conversationKey none)
  | _ => none

def acceptLate (conversationKey : String) (target : Target) (correlationId : String) :
    Option TargetBinding :=
  if (conversationKey, target) ∈ s.abandoned then s.join conversationKey correlationId target
  else none

def bind (conversationKey : String) (outcome : StoreOutcome) : Option TargetBinding :=
  match s.current conversationKey with
  | some (.binding _ correlationId) =>
      let done := s.setCurrent conversationKey none
      match outcome, s.data.bindCorrelation conversationKey correlationId with
      | .unreadable, _ | _, none => some done
      | _, some data => some { done with data := data }
  | _ => none

/-- The renderer asks for events of a correlation until it has handled the
terminal one. -/
def resolve (correlationId : String) : Option TargetBinding :=
  match s.opened correlationId with
  | some (conversationKey, _) =>
      if s.closed correlationId then none
      else
        some { s with
          resolved :=
            (correlationId, s.data.resolve conversationKey correlationId) :: s.resolved }
  | none => none

def terminal (correlationId : String) : Option TargetBinding :=
  if (s.opened correlationId).isSome then
    some { s with closed := Function.update s.closed correlationId true }
  else none

/-- The event is acknowledged when the release is written; else it comes
again. -/
def forget (correlationId : String) (outcome : StoreOutcome) : Option TargetBinding :=
  if s.closed correlationId then
    let gone := { s with
      data := s.data.forgetCorrelation correlationId
      forgotten := Function.update s.forgotten correlationId true }
    match outcome with
    | .unreadable => some s
    | .unwritten => some gone
    | .written =>
        some { gone with acknowledged := Function.update s.acknowledged correlationId true }
  else none

def step : TargetAction → Option TargetBinding
  | .receive conversationKey target => some (s.receive conversationKey target)
  | .save conversationKey outcome => s.save conversationKey outcome
  | .accept conversationKey correlationId => s.accept conversationKey correlationId
  | .answer conversationKey => s.answer conversationKey
  | .giveUp conversationKey => s.giveUp conversationKey
  | .acceptLate conversationKey target correlationId =>
      s.acceptLate conversationKey target correlationId
  | .bind conversationKey outcome => s.bind conversationKey outcome
  | .resolve correlationId => s.resolve correlationId
  | .terminal correlationId => s.terminal correlationId
  | .forget correlationId outcome => s.forget correlationId outcome

def machine : Transition.Machine TargetBinding TargetAction where
  init s := s = fresh
  step := step

/-! ### What should hold, and when -/

/-- No message waits or is being processed. -/
def Idle : Prop := ∀ conversationKey,
  s.waiting conversationKey = [] ∧ s.current conversationKey = none

/-- Events get the target of the message that has opened their correlation,
and nothing is left of an acknowledged correlation. -/
structure Addressed : Prop where
  opener : ∀ p ∈ s.resolved, ∃ conversationKey target,
    s.opened p.1 = some (conversationKey, target) ∧ p.2 = some target
  released : s.Idle → ∀ correlationId, s.acknowledged correlationId = true →
    s.data.byCorrelation correlationId = none

/-- The running correlations of a conversation that are not bound have been
opened by a message with this target. -/
def Agrees (conversationKey : String) (target : Target) : Prop :=
  ∀ correlationId opener, s.opened correlationId = some (conversationKey, opener) →
    s.closed correlationId = false → s.data.byCorrelation correlationId = none → opener = target

/-- A message saves its target when the running correlations of its
conversation are bound, no correlation is opened late after another target
has been saved, and none is bound that has been released. -/
def Timely : TargetAction → Prop
  | .save conversationKey _ =>
      ∀ target ∈ (s.waiting conversationKey).head?, s.Agrees conversationKey target
  | .acceptLate conversationKey target correlationId =>
      s.opened correlationId = none → s.data.byConversation conversationKey = some target
  | .bind conversationKey _ =>
      ∀ stage ∈ s.current conversationKey, ∀ correlationId ∈ stage.correlation,
        s.forgotten correlationId = false
  | _ => True

/-! ### Runs -/

/-- What timely steps keep. -/
structure Kept : Prop where
  /-- The message whose turn it is has saved its target last. -/
  saved : ∀ conversationKey stage, s.current conversationKey = some stage →
    s.data.byConversation conversationKey = some stage.target
  known : ∀ conversationKey stage correlationId, s.current conversationKey = some stage →
    stage.correlation = some correlationId →
    ∃ target, s.opened correlationId = some (conversationKey, target)
  bound : ∀ correlationId target, s.data.byCorrelation correlationId = some target →
    ∃ conversationKey opener, s.opened correlationId = some (conversationKey, opener) ∧
      (s.closed correlationId = false → opener = target)
  /-- The saved target serves the events of a correlation that is not
  bound. -/
  covered : ∀ correlationId conversationKey target,
    s.opened correlationId = some (conversationKey, target) → s.closed correlationId = false →
    s.data.byCorrelation correlationId = none →
    s.data.byConversation conversationKey = some target
  gone : ∀ correlationId, s.forgotten correlationId = true →
    s.data.byCorrelation correlationId = none
  released : ∀ correlationId, s.acknowledged correlationId = true →
    s.forgotten correlationId = true
  opener : ∀ p ∈ s.resolved, ∃ conversationKey target,
    s.opened p.1 = some (conversationKey, target) ∧ p.2 = some target

variable {s}

theorem Kept.toAddressed (kept : s.Kept) : s.Addressed :=
  ⟨kept.opener, fun _ _ acknowledged => kept.gone _ (kept.released _ acknowledged)⟩

theorem kept_fresh : fresh.Kept where
  saved := nofun
  known := nofun
  bound := nofun
  covered := nofun
  gone _ forgotten := nomatch forgotten
  released _ acknowledged := nomatch acknowledged
  opener := nofun

/-- What the message does next does not matter while its target is the saved
one. -/
theorem Kept.setCurrent (kept : s.Kept) {conversationKey : String} {stage : Option InboundStage}
    (saved : ∀ st ∈ stage, s.data.byConversation conversationKey = some st.target)
    (known : ∀ st ∈ stage, ∀ c ∈ st.correlation, ∃ target, s.opened c = some (conversationKey, target)) :
    (s.setCurrent conversationKey stage).Kept where
  saved conversation st there := by
    by_cases same : conversation = conversationKey
    · subst same
      exact saved st (by simpa [TargetBinding.setCurrent] using there)
    · exact kept.saved conversation st (by simpa [TargetBinding.setCurrent, same] using there)
  known conversation st c there named := by
    by_cases same : conversation = conversationKey
    · subst same
      exact known st (by simpa [TargetBinding.setCurrent] using there) c named
    · exact kept.known conversation st c (by simpa [TargetBinding.setCurrent, same] using there) named
  bound := kept.bound
  covered := kept.covered
  gone := kept.gone
  released := kept.released
  opener := kept.opener

theorem Kept.join (kept : s.Kept) {t : TargetBinding} {conversationKey c : String}
    {target : Target} (admitted : s.join conversationKey c target = some t)
    (saved : s.opened c = none → s.data.byConversation conversationKey = some target) :
    t.Kept ∧ t.data = s.data ∧ t.current = s.current ∧
      ∃ opener, t.opened c = some (conversationKey, opener) := by
  rw [TargetBinding.join] at admitted
  cases known : s.opened c with
  | some p =>
    obtain ⟨conversation, opener⟩ := p
    simp only [known] at admitted
    split_ifs at admitted with same
    obtain rfl := Option.some.inj admitted
    exact ⟨kept, rfl, rfl, opener, by rw [known, same]⟩
  | none =>
    simp only [known] at admitted
    obtain rfl := Option.some.inj admitted
    have other : ∀ {c' p}, s.opened c' = some p → c' ≠ c := by
      rintro c' p there rfl
      rw [known] at there
      cases there
    have keeps : ∀ {c' p}, s.opened c' = some p →
        Function.update s.opened c (some (conversationKey, target)) c' = some p := by
      intro c' p there
      rw [Function.update_of_ne (other there), there]
    refine ⟨⟨kept.saved, ?_, ?_, ?_, kept.gone, kept.released, ?_⟩, rfl, rfl, target,
      Function.update_self ..⟩
    · intro conversation stage c' there named
      obtain ⟨t', before⟩ := kept.known conversation stage c' there named
      exact ⟨t', keeps before⟩
    · intro c' t' there
      obtain ⟨conversation, opener, before, right⟩ := kept.bound c' t' there
      exact ⟨conversation, opener, keeps before, right⟩
    · intro c' conversation t' there running unbound
      by_cases same : c' = c
      · subst same
        obtain ⟨rfl, rfl⟩ : conversationKey = conversation ∧ target = t' := by
          simpa [Function.update_self] using there
        exact saved known
      · exact kept.covered c' conversation t' (by simpa [same] using there) running unbound
    · intro p logged
      obtain ⟨conversation, t', before, right⟩ := kept.opener p logged
      exact ⟨conversation, t', keeps before, right⟩

/-- A target may be saved between two messages. -/
theorem Kept.put (kept : s.Kept) {conversationKey : String} {target : Target}
    (idle : s.current conversationKey = none) (agrees : s.Agrees conversationKey target) :
    { s with data := s.data.putByConversation conversationKey target }.Kept where
  saved conversation stage there := by
    have other : conversation ≠ conversationKey := by
      rintro rfl
      rw [idle] at there
      cases there
    show Function.update _ _ _ conversation = _
    rw [Function.update_of_ne other]
    exact kept.saved conversation stage there
  known := kept.known
  bound := kept.bound
  covered c conversation t known running unbound := by
    show Function.update _ _ _ conversation = _
    by_cases same : conversation = conversationKey
    · subst same
      rw [Function.update_self, agrees c t known running unbound]
    · rw [Function.update_of_ne same]
      exact kept.covered c conversation t known running unbound
  gone := kept.gone
  released := kept.released
  opener := kept.opener

/-- A message binds its correlation to its own target, or leaves the binding
that there is. -/
theorem Kept.bindCorrelation (kept : s.Kept) {conversationKey c : String} {opener : Target}
    {data : TargetStoreData} (known : s.opened c = some (conversationKey, opener))
    (timely : s.forgotten c = false)
    (bound : s.data.bindCorrelation conversationKey c = some data) :
    { s with data := data }.Kept := by
  unfold TargetStoreData.bindCorrelation at bound
  split_ifs at bound with already
  · obtain rfl := Option.some.inj bound
    exact kept
  rw [Bool.not_eq_true, Option.isSome_eq_false_iff, Option.isNone_iff_eq_none] at already
  cases saved : s.data.byConversation conversationKey with
  | none =>
    rw [saved] at bound
    cases bound
  | some target =>
    rw [saved] at bound
    obtain rfl := Option.some.inj bound
    refine ⟨kept.saved, kept.known, ?_, ?_, ?_, kept.released, kept.opener⟩
    · intro c' t there
      by_cases same : c' = c
      · subst same
        obtain rfl : target = t := by simpa [Function.update_self] using there
        refine ⟨conversationKey, opener, known, fun running => ?_⟩
        have covered := kept.covered c' conversationKey opener known running already
        exact Option.some.inj (covered.symm.trans saved)
      · exact kept.bound c' t (by simpa [same] using there)
    · intro c' conversation t opened running unbound
      have other : c' ≠ c := by
        rintro rfl
        simp [Function.update_self] at unbound
      exact kept.covered c' conversation t opened running (by simpa [other] using unbound)
    · intro c' forgotten
      have other : c' ≠ c := by
        rintro rfl
        rw [timely] at forgotten
        cases forgotten
      show Function.update s.data.byCorrelation c (some target) c' = none
      rw [Function.update_of_ne other]
      exact kept.gone c' forgotten

theorem Kept.forget (kept : s.Kept) {c : String} {outcome : StoreOutcome} {t : TargetBinding}
    (taken : s.forget c outcome = some t) : t.Kept := by
  unfold TargetBinding.forget at taken
  split_ifs at taken with closed
  have gone : ({ s with
      data := s.data.forgetCorrelation c
      forgotten := Function.update s.forgotten c true } : TargetBinding).Kept := by
    refine ⟨kept.saved, kept.known, ?_, ?_, ?_, ?_, kept.opener⟩
    · intro c' target there
      have other : c' ≠ c := by
        rintro rfl
        simp [TargetStoreData.forgetCorrelation] at there
      exact kept.bound c' target (by simpa [TargetStoreData.forgetCorrelation, other] using there)
    · intro c' conversation target known running unbound
      have other : c' ≠ c := by
        rintro rfl
        rw [closed] at running
        cases running
      exact kept.covered c' conversation target known running
        (by simpa [TargetStoreData.forgetCorrelation, other] using unbound)
    · intro c' forgotten
      by_cases same : c' = c
      · subst same
        simp [TargetStoreData.forgetCorrelation]
      · simpa [TargetStoreData.forgetCorrelation, same] using
          kept.gone c' (by simpa [same] using forgotten)
    · intro c' acknowledged
      by_cases same : c' = c
      · subst same
        simp
      · simpa [same] using kept.released c' acknowledged
  cases outcome with
  | unreadable =>
    obtain rfl := Option.some.inj taken
    exact kept
  | unwritten =>
    obtain rfl := Option.some.inj taken
    exact gone
  | written =>
    obtain rfl := Option.some.inj taken
    refine ⟨gone.saved, gone.known, gone.bound, gone.covered, gone.gone, ?_, gone.opener⟩
    intro c' acknowledged
    by_cases same : c' = c
    · subst same
      simp
    · exact gone.released c' (by simpa [same] using acknowledged)

theorem Kept.terminal (kept : s.Kept) {c : String} :
    { s with closed := Function.update s.closed c true }.Kept := by
  have before : ∀ {c'}, Function.update s.closed c true c' = false → s.closed c' = false := by
    intro c' running
    by_cases same : c' = c
    · subst same
      simp at running
    · simpa [same] using running
  refine ⟨kept.saved, kept.known, ?_, ?_, kept.gone, kept.released, kept.opener⟩
  · intro c' target there
    obtain ⟨conversation, opener, known, right⟩ := kept.bound c' target there
    exact ⟨conversation, opener, known, fun running => right (before running)⟩
  · exact fun c' conversation target known running => kept.covered c' conversation target known
      (before running)

/-- A running correlation has the target of its opener, bound or not. -/
theorem Kept.resolve_eq (kept : s.Kept) {c conversationKey : String} {target : Target}
    (known : s.opened c = some (conversationKey, target)) (running : s.closed c = false) :
    s.data.resolve conversationKey c = some target := by
  unfold TargetStoreData.resolve
  cases bound : s.data.byCorrelation c with
  | none => exact kept.covered c conversationKey target known running bound
  | some t =>
    obtain ⟨conversation, opener, known', right⟩ := kept.bound c t bound
    obtain ⟨-, rfl⟩ : conversationKey = conversation ∧ target = opener := by
      simpa [known] using known'
    rw [right running]

theorem Kept.save (kept : s.Kept) {conversationKey : String} {outcome : StoreOutcome}
    {t : TargetBinding} (timely : s.Timely (.save conversationKey outcome))
    (taken : s.save conversationKey outcome = some t) : t.Kept := by
  unfold TargetBinding.save at taken
  cases idle : s.current conversationKey with
  | some stage => simp [idle] at taken
  | none =>
    cases next : s.waiting conversationKey with
    | nil => simp [idle, next] at taken
    | cons target rest =>
      have moved : ({ s with waiting := Function.update s.waiting conversationKey rest } :
          TargetBinding).Kept :=
        ⟨kept.saved, kept.known, kept.bound, kept.covered, kept.gone, kept.released, kept.opener⟩
      have put := moved.put idle (timely target (by rw [next]; rfl))
      simp only [idle, next] at taken
      cases outcome with
      | unreadable =>
        obtain rfl := Option.some.inj taken
        exact moved
      | unwritten =>
        obtain rfl := Option.some.inj taken
        exact put
      | written =>
        obtain rfl := Option.some.inj taken
        refine put.setCurrent ?_ ?_
        · rintro st ⟨⟩
          exact Function.update_self ..
        · rintro st ⟨⟩ c named
          cases named

theorem Kept.accept (kept : s.Kept) {conversationKey c : String} {t : TargetBinding}
    (taken : s.accept conversationKey c = some t) : t.Kept := by
  unfold TargetBinding.accept at taken
  split at taken
  · rename_i target posting
    obtain ⟨u, admitted, rfl⟩ := Option.map_eq_some_iff.mp taken
    have saved : s.data.byConversation conversationKey = some target :=
      kept.saved conversationKey _ posting
    obtain ⟨after, data, -, opener, known⟩ := kept.join admitted fun _ => saved
    refine after.setCurrent ?_ ?_
    · rintro st ⟨⟩
      rw [data]
      exact saved
    · rintro st ⟨⟩ c' named
      obtain rfl : c = c' := Option.some.inj named
      exact ⟨opener, known⟩
  · cases taken

theorem Kept.answer (kept : s.Kept) {conversationKey : String} {t : TargetBinding}
    (taken : s.answer conversationKey = some t) : t.Kept := by
  unfold TargetBinding.answer at taken
  split at taken
  · rename_i target c accepted
    obtain rfl := Option.some.inj taken
    refine kept.setCurrent ?_ ?_
    · rintro st ⟨⟩
      exact kept.saved conversationKey (.accepted target c) accepted
    · rintro st ⟨⟩ c' named
      exact kept.known conversationKey (.accepted target c) c' accepted named
  · cases taken

theorem Kept.finish (kept : s.Kept) (conversationKey : String) :
    (s.setCurrent conversationKey none).Kept :=
  kept.setCurrent (fun _ none => nomatch none) fun _ none => nomatch none

theorem Kept.giveUp (kept : s.Kept) {conversationKey : String} {t : TargetBinding}
    (taken : s.giveUp conversationKey = some t) : t.Kept := by
  have done := kept.finish conversationKey
  unfold TargetBinding.giveUp at taken
  split at taken
  · obtain rfl := Option.some.inj taken
    exact ⟨done.saved, done.known, done.bound, done.covered, done.gone, done.released, done.opener⟩
  · obtain rfl := Option.some.inj taken
    exact done
  · cases taken

theorem Kept.bind (kept : s.Kept) {conversationKey : String} {outcome : StoreOutcome}
    {t : TargetBinding} (timely : s.Timely (.bind conversationKey outcome))
    (taken : s.bind conversationKey outcome = some t) : t.Kept := by
  have done := kept.finish conversationKey
  unfold TargetBinding.bind at taken
  split at taken
  · rename_i target c there
    obtain ⟨opener, known⟩ := kept.known conversationKey _ c there rfl
    simp only [] at taken
    split at taken
    · obtain rfl := Option.some.inj taken
      exact done
    · obtain rfl := Option.some.inj taken
      exact done
    · rename_i bound
      obtain rfl := Option.some.inj taken
      exact done.bindCorrelation known (timely _ there c rfl) bound
  · cases taken

theorem Kept.resolve (kept : s.Kept) {c : String} {t : TargetBinding}
    (taken : s.resolve c = some t) : t.Kept := by
  unfold TargetBinding.resolve at taken
  split at taken
  · rename_i conversationKey target known
    split_ifs at taken with closed
    rw [Bool.not_eq_true] at closed
    obtain rfl := Option.some.inj taken
    refine ⟨kept.saved, kept.known, kept.bound, kept.covered, kept.gone, kept.released, ?_⟩
    intro p logged
    rcases List.mem_cons.mp logged with rfl | before
    · exact ⟨conversationKey, target, known, kept.resolve_eq known closed⟩
    · exact kept.opener p before
  · cases taken

theorem kept_step {t : TargetBinding} {a : TargetAction} (kept : s.Kept) (timely : s.Timely a)
    (taken : s.step a = some t) : t.Kept := by
  cases a with
  | receive conversationKey target =>
    obtain rfl := Option.some.inj taken
    exact ⟨kept.saved, kept.known, kept.bound, kept.covered, kept.gone, kept.released, kept.opener⟩
  | save conversationKey outcome => exact kept.save timely taken
  | accept conversationKey c => exact kept.accept taken
  | answer conversationKey => exact kept.answer taken
  | giveUp conversationKey => exact kept.giveUp taken
  | acceptLate conversationKey target c =>
    have admitted : s.acceptLate conversationKey target c = some t := taken
    unfold TargetBinding.acceptLate at admitted
    split_ifs at admitted
    exact (kept.join admitted timely).1
  | bind conversationKey outcome => exact kept.bind timely taken
  | resolve c => exact kept.resolve taken
  | terminal c =>
    have closed : s.terminal c = some t := taken
    unfold TargetBinding.terminal at closed
    split_ifs at closed
    obtain rfl := Option.some.inj closed
    exact kept.terminal
  | forget c outcome => exact kept.forget taken

/-- As long as no message overtakes the binding of a running correlation and
no binding comes after the release, events go where they belong and nothing
is left over. -/
theorem addressed (reach : machine.Reachable Timely s) : s.Addressed :=
  Kept.toAddressed (reach.invariant (fun _ start => by
    obtain rfl := start
    exact kept_fresh) fun _ _ _ kept timely taken => kept_step kept timely taken)

/-! ### Two runs -/

def sampleTarget : Target := ⟨"w", "ch", "m1", none, none⟩

/-- A run in which the first event comes before the answer of the core. -/
theorem addressed_early : ∃ s, machine.exec Transition.Always fresh
    [.receive "k" sampleTarget, .save "k" .written, .accept "k" "c", .resolve "c", .answer "k",
      .bind "k" .written, .terminal "c", .forget "c" .written] = some s ∧ s.Addressed := by
  refine ⟨_, rfl, addressed ?_⟩
  have received := Transition.Machine.Reachable.step
    (.of_init (M := machine) (C := Timely) (s := fresh) rfl) (.receive "k" sampleTarget) trivial rfl
  have saved := received.step (.save "k" .written) (fun _ _ _ _ opened => nomatch opened) rfl
  have accepted := saved.step (.accept "k" "c") trivial rfl
  have resolved := accepted.step (.resolve "c") trivial rfl
  have answered := resolved.step (.answer "k") trivial rfl
  have bound := answered.step (.bind "k" .written) (by
    rintro stage - c -
    rfl) rfl
  have closed := bound.step (.terminal "c") trivial rfl
  exact closed.step (.forget "c" .written) trivial rfl

/-- The terminal event is acknowledged before the answer of the core is
there. -/
def overtaking : List TargetAction :=
  [.receive "k" sampleTarget, .save "k" .written, .accept "k" "c", .resolve "c", .terminal "c",
    .forget "c" .written, .answer "k", .bind "k" .written]

theorem overtaking_leaves_binding :
    ¬ ∀ s, machine.Reachable Transition.Always s → s.Addressed := by
  intro all
  obtain ⟨s, run⟩ : ∃ s, machine.exec Transition.Always fresh overtaking = some s := ⟨_, rfl⟩
  have reach := Transition.Machine.Reachable.of_exec (M := machine) rfl run
  obtain rfl := Option.some.inj run
  refine absurd ((all _ reach).released ?_ "c" rfl) (by decide)
  intro conversation
  constructor <;> simp [fresh, receive, setCurrent]

end TargetBinding

end OmpBundler.Pumble
