import OmpBundler.Library.Snapshot
import OmpBundler.Library.Transition
import OmpBundler.Pumble.DeliveryStore
import OmpBundler.Pumble.TargetFile

/-!
Writes of the two stores that fail.

Both stores change memory before they write. A write that fails is reported,
but the change stays in memory: the operation is taken for done when it is
tried again, and a restart loses it. The operations are clean in a run
exactly if no write is refused after memory has changed.
-/

namespace OmpBundler.Pumble

open Library Library.Proc

/-! ### The stores as copies of their files -/

/-- A call that rejects. -/
def refuses (reply : Reply) : Bool := reply.error.isSome

/-- An answer that is refused is refused on both sides. -/
theorem related_attempt {σ δ : Type} {P R S : σ → Snapshot δ → Prop} {m : Medium δ Reply}
    (same : m.refuses = refuses) (granted : ∀ s t, P s t → R s t)
    (refused : ∀ s t, P s t → S s t) :
    Related P R S (attempt : Proc σ Reply String Reply) (Snapshot.ask m) := by
  rintro s t (_ | ⟨reply, rest⟩) related
  · exact ⟨refused s t related, rfl⟩
  have answer : m.refuses reply = reply.error.isSome := by rw [same, refuses]
  cases error : reply.error with
  | some text =>
      rw [attempt_error error, Snapshot.ask_refused (by rw [answer, error]; rfl)]
      exact ⟨refused s t related, rfl⟩
  | none =>
      rw [attempt_none error, Snapshot.ask_granted (by rw [answer, error]; rfl)]
      exact ⟨granted s t related, rfl⟩

/-! ### The delivery store -/

namespace DeliveryStore

def medium : Medium DeliveryStoreData Reply where
  blank := ⟨[], .empty⟩
  valid := isDeliveryStoreData
  refuses := Pumble.refuses

/-- The memory and the file of the store. -/
def snapshot (store : DeliveryStore) : Snapshot DeliveryStoreData :=
  ⟨store.data, store.loaded, store.file⟩

/-- The store, which holds nothing before it has read, and its copy. -/
def Shows (store : DeliveryStore) (copy : Snapshot DeliveryStoreData) : Prop :=
  copy = store.snapshot ∧ (store.loaded = false → store.data = medium.blank)

/-- The same when the store has read. -/
def Loaded (store : DeliveryStore) (copy : Snapshot DeliveryStoreData) : Prop :=
  copy = store.snapshot ∧ store.loaded = true

theorem Loaded.shows {store : DeliveryStore} {copy : Snapshot DeliveryStoreData}
    (loaded : Loaded store copy) : Shows store copy :=
  ⟨loaded.1, fun unloaded => by simp [loaded.2] at unloaded⟩

theorem load_related : Related Shows Loaded Shows load (Snapshot.load medium) := by
  apply Related.get
  rintro s _ ⟨rfl, blank⟩
  have shows : ∀ s' t', s' = s ∧ t' = s.snapshot → Shows s' t' := by
    rintro _ _ ⟨rfl, rfl⟩
    exact ⟨rfl, blank⟩
  cases loaded : s.loaded with
  | true =>
      rw [if_pos rfl, if_pos (show s.snapshot.loaded = true from loaded)]
      apply Related.pure
      rintro _ _ ⟨rfl, rfl⟩
      exact ⟨rfl, loaded⟩
  | false =>
      have unloaded : ¬s.snapshot.loaded = true := by
        rw [show s.snapshot.loaded = false from loaded]
        exact Bool.false_ne_true
      rw [if_neg Bool.false_ne_true, if_neg unloaded]
      apply Related.bind (related_attempt rfl (fun _ _ same => same) shows)
      intro _ _
      rw [show s.snapshot.file = s.file from rfl]
      cases s.file with
      | none =>
          apply Related.modify
          rintro _ _ ⟨rfl, rfl⟩
          refine ⟨?_, rfl⟩
          show Snapshot.mk medium.blank _ _ = _
          rw [← blank loaded]
          rfl
      | some data =>
          apply Related.ite (d := medium.valid data = true) (Iff.rfl)
          · apply Related.modify
            rintro _ _ ⟨rfl, rfl⟩
            exact ⟨rfl, rfl⟩
          · exact Related.throw shows

theorem write_related : Related Loaded Shows Shows write (Snapshot.write medium) := by
  have granted {P : DeliveryStore → Snapshot DeliveryStoreData → Prop}
      (kept : ∀ s t, P s t → Loaded s t) :
      Related P Loaded Shows (attempt : StoreOperation Reply) (Snapshot.ask medium) :=
    related_attempt rfl kept fun s t same => (kept s t same).shows
  apply Related.bind (granted fun _ _ same => same)
  intro _ _
  apply Related.bind (granted fun _ _ same => same)
  intro _ _
  apply Related.bind (M := Loaded)
  · apply Related.modify
    rintro s _ ⟨rfl, loaded⟩
    exact ⟨rfl, loaded⟩
  intro _ _
  apply Related.bind (granted fun _ _ same => same)
  intro _ _
  exact Related.pure fun _ _ same => same.shows

/-- The data with a checkpoint added. -/
def checkpointChange (eventId checkpoint : String) (d : DeliveryStoreData) :
    Change DeliveryStoreData :=
  if eventId ∈ d.completedEventIds then .unchanged
  else if checkpoint ∈ (d.eventCheckpoints.get eventId).getD [] then .unchanged
  else
    .changed { d with
      eventCheckpoints := d.eventCheckpoints.set eventId
        (((d.eventCheckpoints.get eventId).getD []).insert checkpoint) }

/-- The data with an event completed. -/
def completionChange (eventId : String) (d : DeliveryStoreData) : Change DeliveryStoreData :=
  if eventId ∈ d.completedEventIds then .unchanged
  else .changed ⟨d.completedEventIds.insert eventId, d.eventCheckpoints.delete eventId⟩

theorem markCheckpoint_related (eventId checkpoint : String) :
    Related Shows Shows Shows (markCheckpoint eventId checkpoint)
      (Snapshot.update medium (checkpointChange eventId checkpoint)) := by
  apply Related.bind load_related
  intro _ _
  apply Related.get
  rintro s _ ⟨rfl, loaded⟩
  have idle : Related (fun s' t' => s' = s ∧ t' = s.snapshot) Shows Shows
      (pure () : StoreOperation Unit) (Snapshot.perform medium .unchanged) := by
    apply Related.pure
    rintro _ _ ⟨rfl, rfl⟩
    exact Loaded.shows ⟨rfl, loaded⟩
  rw [checkpointChange, apply_ite (Snapshot.perform medium)]
  refine Related.ite Iff.rfl idle ?_
  rw [apply_ite (Snapshot.perform medium)]
  refine Related.ite Iff.rfl idle ?_
  apply Related.bind (M := Loaded)
  · apply Related.modify
    rintro _ _ ⟨rfl, rfl⟩
    exact ⟨rfl, loaded⟩
  exact fun _ _ => write_related

theorem markCompleted_related (eventId : String) :
    Related Shows Shows Shows (markCompleted eventId)
      (Snapshot.update medium (completionChange eventId)) := by
  apply Related.bind load_related
  intro _ _
  apply Related.get
  rintro s _ ⟨rfl, loaded⟩
  rw [completionChange, apply_ite (Snapshot.perform medium)]
  apply Related.ite Iff.rfl
  · apply Related.pure
    rintro _ _ ⟨rfl, rfl⟩
    exact Loaded.shows ⟨rfl, loaded⟩
  apply Related.bind (M := Loaded)
  · apply Related.modify
    rintro _ _ ⟨rfl, rfl⟩
    exact ⟨rfl, loaded⟩
  exact fun _ _ => write_related

/-- An operation that only looks something up. -/
theorem lookup_related {α : Type} (f : DeliveryStore → α) :
    Related Shows Shows Shows (load >>= fun _ => Proc.get >>= fun s => pure (f s))
      (Snapshot.update medium fun _ => .unchanged) := by
  apply Related.bind load_related
  intro _ _
  apply Related.get
  rintro s _ ⟨rfl, loaded⟩
  apply Related.pure
  rintro _ _ ⟨rfl, rfl⟩
  exact Loaded.shows ⟨rfl, loaded⟩

end DeliveryStore

/-! ### The target store -/

namespace TargetStore

def medium : Medium TargetRecords Reply where
  blank := .empty
  valid := isValidStoreData
  refuses := Pumble.refuses

/-- The memory and the file of the store. -/
def snapshot (store : TargetStore) : Snapshot TargetRecords :=
  ⟨store.data, store.loaded, store.file⟩

/-- The store and its copy. -/
def Shows (store : TargetStore) (copy : Snapshot TargetRecords) : Prop :=
  copy = store.snapshot

theorem attempt_related {P : TargetStore → Snapshot TargetRecords → Prop}
    (kept : ∀ s t, P s t → Shows s t) :
    Related P P Shows (attempt : Proc TargetStore Reply String Reply) (Snapshot.ask medium) :=
  related_attempt rfl (fun _ _ same => same) kept

theorem load_related : Related Shows Shows Shows load (Snapshot.load medium) := by
  apply Related.get
  rintro s _ rfl
  have shows : ∀ s' t', s' = s ∧ t' = s.snapshot → Shows s' t' := by
    rintro _ _ ⟨rfl, rfl⟩
    rfl
  apply Related.ite Iff.rfl (Related.pure shows)
  apply Related.bind (attempt_related shows)
  intro _ _
  rw [show s.snapshot.file = s.file from rfl]
  cases s.file with
  | none =>
      apply Related.modify
      rintro _ _ ⟨rfl, rfl⟩
      rfl
  | some data =>
      apply Related.ite (d := medium.valid data = true) Iff.rfl
      · apply Related.modify
        rintro _ _ ⟨rfl, rfl⟩
        rfl
      · exact Related.throw shows

theorem write_related : Related Shows Shows Shows write (Snapshot.write medium) := by
  have asked := attempt_related (P := Shows) fun _ _ same => same
  apply Related.bind asked
  intro _ _
  apply Related.bind asked
  intro _ _
  apply Related.bind (M := Shows)
  · apply Related.modify
    rintro _ _ rfl
    rfl
  intro _ _
  apply Related.bind asked
  intro _ _
  exact Related.pure fun _ _ same => same

/-- New data in memory, then the write. -/
theorem change_related {P : TargetStore → Snapshot TargetRecords → Prop}
    (kept : ∀ s t, P s t → Shows s t) (data : TargetRecords) :
    Related P Shows Shows
      (Proc.modify (·.setData data) >>= fun _ => write : Proc TargetStore Reply String Unit)
      (Snapshot.perform medium (.changed data)) := by
  apply Related.bind (M := Shows)
  · apply Related.modify
    intro s t same
    rw [kept s t same]
    rfl
  exact fun _ _ => write_related

/-- The records with a correlation bound, to the given target or the one that
is saved. -/
def bindingChange (conversationKey correlationId : String) (target : Option Target)
    (d : TargetRecords) : Change TargetRecords :=
  if (d.byCorrelation.get correlationId).isSome then .unchanged
  else
    match target.or (d.byConversation.get conversationKey) with
    | none => .refused
    | some resolved => .changed (d.setCorrelation correlationId resolved)

theorem putByConversation_related (conversationKey : String) (target : Target) :
    Related Shows Shows Shows (putByConversation conversationKey target)
      (Snapshot.update medium fun d => .changed (d.putByConversation conversationKey target)) := by
  apply Related.bind load_related
  intro _ _
  apply Related.get
  rintro s _ rfl
  apply change_related
  rintro _ _ ⟨rfl, rfl⟩
  rfl

theorem forgetCorrelation_related (correlationId : String) :
    Related Shows Shows Shows (forgetCorrelation correlationId)
      (Snapshot.update medium fun d => .changed (d.forgetCorrelation correlationId)) := by
  apply Related.bind load_related
  intro _ _
  apply Related.get
  rintro s _ rfl
  apply change_related
  rintro _ _ ⟨rfl, rfl⟩
  rfl

theorem bindCorrelation_related (conversationKey correlationId : String)
    (target : Option Target) :
    Related Shows Shows Shows (bindCorrelation conversationKey correlationId target)
      (Snapshot.update medium (bindingChange conversationKey correlationId target)) := by
  apply Related.bind load_related
  intro _ _
  apply Related.get
  rintro s _ rfl
  have shows : ∀ s' t', s' = s ∧ t' = s.snapshot → Shows s' t' := by
    rintro _ _ ⟨rfl, rfl⟩
    rfl
  rw [bindingChange, apply_ite (Snapshot.perform medium)]
  apply Related.ite Iff.rfl (Related.pure shows)
  rw [show s.snapshot.memory = s.data from rfl]
  cases target.or (s.data.byConversation.get conversationKey) with
  | none => exact Related.throw shows
  | some resolved => exact change_related shows _

/-- An operation that only looks something up. -/
theorem lookup_related {α : Type} (f : TargetStore → α) :
    Related Shows Shows Shows (load >>= fun _ => Proc.get >>= fun s => pure (f s))
      (Snapshot.update medium fun _ => .unchanged) := by
  apply Related.bind load_related
  intro _ _
  apply Related.get
  rintro s _ rfl
  apply Related.pure
  rintro _ _ ⟨rfl, rfl⟩
  rfl

end TargetStore

/-! ### The operations of a run -/

inductive DeliveryOperation where
  | hasCompleted (eventId : String)
  | checkpointsFor (eventId : String)
  | markCheckpoint (eventId checkpoint : String)
  | markCompleted (eventId : String)

namespace DeliveryOperation

def run : DeliveryOperation → StoreOperation Unit
  | hasCompleted eventId => DeliveryStore.hasCompleted eventId >>= fun _ => pure ()
  | checkpointsFor eventId => DeliveryStore.checkpointsFor eventId >>= fun _ => pure ()
  | markCheckpoint eventId checkpoint => DeliveryStore.markCheckpoint eventId checkpoint
  | markCompleted eventId => DeliveryStore.markCompleted eventId

/-- What the operation does to the contents. -/
def change : DeliveryOperation → DeliveryStoreData → Change DeliveryStoreData
  | hasCompleted _ | checkpointsFor _ => fun _ => .unchanged
  | markCheckpoint eventId checkpoint => DeliveryStore.checkpointChange eventId checkpoint
  | markCompleted eventId => DeliveryStore.completionChange eventId

/-- What the file says once the operation is done. -/
def RecordedIn : DeliveryOperation → DeliveryStoreData → Prop
  | hasCompleted _, _ | checkpointsFor _, _ => True
  | markCheckpoint eventId checkpoint, d =>
      eventId ∈ d.completedEventIds ∨ checkpoint ∈ (d.eventCheckpoints.get eventId).getD []
  | markCompleted eventId, d => eventId ∈ d.completedEventIds

theorem run_related (operation : DeliveryOperation) :
    Related DeliveryStore.Shows DeliveryStore.Shows DeliveryStore.Shows operation.run
      (Snapshot.update DeliveryStore.medium operation.change) := by
  cases operation with
  | hasCompleted eventId => exact (DeliveryStore.lookup_related _).discard
  | checkpointsFor eventId => exact (DeliveryStore.lookup_related _).discard
  | markCheckpoint eventId checkpoint =>
      exact DeliveryStore.markCheckpoint_related eventId checkpoint
  | markCompleted eventId => exact DeliveryStore.markCompleted_related eventId

theorem recordedIn_of_unchanged {operation : DeliveryOperation} {d : DeliveryStoreData}
    (unchanged : operation.change d = .unchanged) : operation.RecordedIn d := by
  cases operation with
  | hasCompleted | checkpointsFor => trivial
  | markCheckpoint eventId checkpoint =>
      rw [change, DeliveryStore.checkpointChange] at unchanged
      split_ifs at unchanged with completed present
      · exact .inl completed
      · exact .inr present
  | markCompleted eventId =>
      rw [change, DeliveryStore.completionChange] at unchanged
      split_ifs at unchanged with completed
      exact completed

theorem recordedIn_of_changed {operation : DeliveryOperation} {d d' : DeliveryStoreData}
    (changed : operation.change d = .changed d') : operation.RecordedIn d' := by
  cases operation with
  | hasCompleted | checkpointsFor => trivial
  | markCheckpoint eventId checkpoint =>
      rw [change, DeliveryStore.checkpointChange] at changed
      split_ifs at changed
      obtain rfl := Change.changed.inj changed
      refine .inr ?_
      simp
  | markCompleted eventId =>
      rw [change, DeliveryStore.completionChange] at changed
      split_ifs at changed
      obtain rfl := Change.changed.inj changed
      exact List.mem_insert_self

end DeliveryOperation

inductive TargetOperation where
  | putByConversation (conversationKey : String) (target : Target)
  | bindCorrelation (conversationKey correlationId : String) (target : Option Target)
  | resolve (conversationKey correlationId : String)
  | forgetCorrelation (correlationId : String)

namespace TargetOperation

def run : TargetOperation → Proc TargetStore Reply String Unit
  | putByConversation conversationKey target =>
      TargetStore.putByConversation conversationKey target
  | bindCorrelation conversationKey correlationId target =>
      TargetStore.bindCorrelation conversationKey correlationId target
  | resolve conversationKey correlationId =>
      TargetStore.resolve conversationKey correlationId >>= fun _ => pure ()
  | forgetCorrelation correlationId => TargetStore.forgetCorrelation correlationId

/-- What the operation does to the contents. -/
def change : TargetOperation → TargetRecords → Change TargetRecords
  | putByConversation conversationKey target =>
      fun d => .changed (d.putByConversation conversationKey target)
  | bindCorrelation conversationKey correlationId target =>
      TargetStore.bindingChange conversationKey correlationId target
  | resolve _ _ => fun _ => .unchanged
  | forgetCorrelation correlationId => fun d => .changed (d.forgetCorrelation correlationId)

/-- What the file says once the operation is done. -/
def RecordedIn : TargetOperation → TargetRecords → Prop
  | putByConversation conversationKey target, d =>
      d.byConversation.get conversationKey = some target
  | bindCorrelation _ correlationId _, d => (d.byCorrelation.get correlationId).isSome
  | resolve _ _, _ => True
  | forgetCorrelation correlationId, d => d.byCorrelation.get correlationId = none

theorem run_related (operation : TargetOperation) :
    Related TargetStore.Shows TargetStore.Shows TargetStore.Shows operation.run
      (Snapshot.update TargetStore.medium operation.change) := by
  cases operation with
  | putByConversation conversationKey target =>
      exact TargetStore.putByConversation_related conversationKey target
  | bindCorrelation conversationKey correlationId target =>
      exact TargetStore.bindCorrelation_related conversationKey correlationId target
  | resolve conversationKey correlationId => exact (TargetStore.lookup_related _).discard
  | forgetCorrelation correlationId =>
      exact TargetStore.forgetCorrelation_related correlationId

theorem recordedIn_of_unchanged {operation : TargetOperation} {d : TargetRecords}
    (unchanged : operation.change d = .unchanged) : operation.RecordedIn d := by
  cases operation with
  | putByConversation | forgetCorrelation => cases unchanged
  | resolve => trivial
  | bindCorrelation conversationKey correlationId target =>
      rw [change, TargetStore.bindingChange] at unchanged
      split_ifs at unchanged with bound
      · exact bound
      · split at unchanged <;> cases unchanged

theorem recordedIn_of_changed {operation : TargetOperation} {d d' : TargetRecords}
    (changed : operation.change d = .changed d') : operation.RecordedIn d' := by
  cases operation with
  | putByConversation conversationKey target =>
      obtain rfl := Change.changed.inj changed
      show (d.byConversation.set conversationKey target).get conversationKey = some target
      rw [OrderedMap.get_set, if_pos rfl]
  | forgetCorrelation correlationId =>
      obtain rfl := Change.changed.inj changed
      show (d.byCorrelation.delete correlationId).get correlationId = none
      rw [OrderedMap.get_delete, if_pos rfl]
  | resolve => cases changed
  | bindCorrelation conversationKey correlationId target =>
      rw [change, TargetStore.bindingChange] at changed
      split_ifs at changed
      split at changed
      · cases changed
      · obtain rfl := Change.changed.inj changed
        show ((d.byCorrelation.set correlationId _).get correlationId).isSome
        rw [OrderedMap.get_set, if_pos rfl]
        rfl

end TargetOperation

/-! ### Runs -/

/-- The two stores of the adapter. -/
structure Stores where
  deliveries : DeliveryStore
  targets : TargetStore

/-- The operations of one store are serialized, and the stores share
nothing. So an operation is one step, with the answers that its calls get. -/
inductive StoreAction where
  | delivery (operation : DeliveryOperation) (script : List Reply)
  | target (operation : TargetOperation) (script : List Reply)
  /-- The process ends and another one starts. -/
  | restart

namespace Stores

variable (s : Stores)

def restarted : Stores := ⟨s.deliveries.restart, s.targets.restart⟩

/-- The next state; a process that dies at a call is started again. -/
def step : StoreAction → Option Stores
  | .delivery operation script =>
      match operation.run s.deliveries script with
      | (.died, store, _) => some (restarted { s with deliveries := store })
      | (_, store, _) => some { s with deliveries := store }
  | .target operation script =>
      match operation.run s.targets script with
      | (.died, store, _) => some (restarted { s with targets := store })
      | (_, store, _) => some { s with targets := store }
  | .restart => some s.restarted

/-- The stores of a process that has just started. -/
def started (deliveries : Option DeliveryStoreData) (targets : Option TargetRecords) : Stores :=
  ⟨.unread deliveries, .unread targets⟩

def machine : Transition.Machine Stores StoreAction where
  init s := ∃ deliveries targets, s = started deliveries targets
  step := step

/-- An operation that rejects has left the contents of its store as they
were, one that resolves has its effect in the file, and memory is what the
file says. -/
def Clean : StoreAction → Prop
  | .delivery operation script =>
      Snapshot.Clean DeliveryStore.medium DeliveryStore.snapshot operation.RecordedIn
        s.deliveries (operation.run s.deliveries script)
  | .target operation script =>
      Snapshot.Clean TargetStore.medium TargetStore.snapshot operation.RecordedIn
        s.targets (operation.run s.targets script)
  | .restart => True

/-- The operation changes the contents in memory, and its write is refused. -/
def Spoils : StoreAction → Prop
  | .delivery operation script =>
      s.deliveries.snapshot.Spoils DeliveryStore.medium operation.change script
  | .target operation script =>
      s.targets.snapshot.Spoils TargetStore.medium operation.change script
  | .restart => False

/-- Both stores hold what their files say, and nothing if they have not been
read. -/
structure Sound : Prop where
  deliveries : s.deliveries.snapshot.Synced DeliveryStore.medium
  targets : s.targets.snapshot.Synced TargetStore.medium
  unread : s.deliveries.loaded = false → s.deliveries.data = DeliveryStore.medium.blank

variable {s}

theorem sound_started (deliveries : Option DeliveryStoreData)
    (targets : Option TargetRecords) : (started deliveries targets).Sound where
  deliveries := Snapshot.synced_of_unloaded rfl
  targets := Snapshot.synced_of_unloaded rfl
  unread _ := rfl

theorem clean_iff (sound : s.Sound) (a : StoreAction) : s.Clean a ↔ ¬s.Spoils a := by
  cases a with
  | delivery operation script =>
      have alike := operation.run_related s.deliveries s.deliveries.snapshot script
        ⟨rfl, sound.unread⟩
      rw [Clean, Snapshot.clean_iff_of_related alike (fun _ _ same => same.1)
        fun _ _ same => same.1]
      exact Snapshot.update_clean_iff (fun _ => DeliveryOperation.recordedIn_of_unchanged)
        (fun _ _ => DeliveryOperation.recordedIn_of_changed) sound.deliveries script
  | target operation script =>
      have alike := operation.run_related s.targets s.targets.snapshot script rfl
      rw [Clean, Snapshot.clean_iff_of_related alike (fun _ _ same => same) fun _ _ same => same]
      exact Snapshot.update_clean_iff (fun _ => TargetOperation.recordedIn_of_unchanged)
        (fun _ _ => TargetOperation.recordedIn_of_changed) sound.targets script
  | restart => exact ⟨fun _ => id, fun _ => trivial⟩

/-- A clean step keeps both stores sound. -/
theorem Sound.step {a : StoreAction} {t : Stores} (sound : s.Sound) (clean : s.Clean a)
    (taken : s.step a = some t) : t.Sound := by
  cases a with
  | delivery operation script =>
      have alike := operation.run_related s.deliveries s.deliveries.snapshot script
        ⟨rfl, sound.unread⟩
      rw [Stores.step] at taken
      rw [Clean] at clean
      generalize operation.run s.deliveries script = run at alike clean taken
      generalize Snapshot.update _ _ _ _ = run' at alike
      obtain ⟨exit, store, rest⟩ := run
      obtain ⟨exit', copy, rest'⟩ := run'
      cases exit <;> obtain rfl := Option.some.inj taken
      case died => exact sound_started _ _
      all_goals
        cases exit' <;> try exact alike.elim
        exact ⟨clean.1, sound.targets, alike.1.2⟩
  | target operation script =>
      rw [Stores.step] at taken
      rw [Clean] at clean
      generalize operation.run s.targets script = run at clean taken
      obtain ⟨exit, store, rest⟩ := run
      cases exit <;> obtain rfl := Option.some.inj taken
      case died => exact sound_started _ _
      all_goals exact ⟨sound.deliveries, clean.1, sound.unread⟩
  | restart =>
      obtain rfl := Option.some.inj taken
      exact sound_started _ _

/-- The operations of a run are clean exactly if none of them changes the
contents in memory and then has its write refused. -/
theorem run_clean_iff (deliveries : Option DeliveryStoreData) (targets : Option TargetRecords)
    (actions : List StoreAction) :
    machine.EachStep Clean (started deliveries targets) actions ↔
      machine.EachStep (fun s a => ¬s.Spoils a) (started deliveries targets) actions :=
  Transition.Machine.eachStep_iff (sound_started deliveries targets)
    (fun _ _ _ sound clean taken => sound.step clean taken) fun _ a sound => clean_iff sound a

/-- The file is read, and the write then finds no space. -/
def noSpace : List Reply := [{}, { error := some "ENOSPC" }]

/-- A completion that could not be written stays in memory: when it is tried
again it is taken for done without a write, and no file has it. -/
theorem retried_completion_is_lost :
    let first := DeliveryStore.markCompleted "evt" (.unread none) noSpace
    let second := DeliveryStore.markCompleted "evt" first.2.1 []
    first.1 = .threw "ENOSPC" ∧ first.2.1.completed = ["evt"] ∧
      second.1 = .returned () ∧ second.2.1.file.isNone ∧
      ¬machine.EachStep Clean (started none none) [.delivery (.markCompleted "evt") noSpace] := by
  refine ⟨rfl, rfl, rfl, rfl, fun each => ?_⟩
  have clean := (each _ rfl).1
  have same : ["evt"] = [] := congrArg DeliveryStoreData.completedEventIds clean.1
  cases same

end Stores

end OmpBundler.Pumble
