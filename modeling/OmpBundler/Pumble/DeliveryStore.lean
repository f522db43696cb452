import OmpBundler.Library.OrderedMap
import OmpBundler.Pumble.Environment

/-!
The persistent record of what the adapter has delivered.

The store keeps the ids of completed events and, for every event that is not
completed yet, the checkpoints of the side effects that Pumble has confirmed.
Both live in memory and are written to one file, which is replaced as a
whole: the new contents go to a temporary file first, a rename installs them,
and the directory is flushed after that. So a write that fails has either
changed nothing or everything, and memory is ahead of the file in the first
case. A restart forgets memory and keeps the file.

What a caller may rely on does not depend on which writes succeed. If `P`
holds of every id marked completed and `Q` of every checkpoint marked for an
event, then `Records P Q` holds: every id and every checkpoint that is found
in the store, in memory or on file, was put there by such a call.
-/

namespace OmpBundler.Pumble

open Library Library.Proc

/-- The contents of the store's file. -/
structure DeliveryStoreData where
  completedEventIds : List String
  /-- Absent in the file when empty, and read back as empty then. -/
  eventCheckpoints : OrderedMap String (List String)

/-- `isDeliveryStoreData`, for a file that is known to be of the right shape:
no id and no checkpoint is empty or occurs twice. -/
def isDeliveryStoreData (data : DeliveryStoreData) : Bool :=
  data.completedEventIds.all (· ≠ "") && decide data.completedEventIds.Nodup &&
    data.eventCheckpoints.entries.all fun (eventId, checkpoints) =>
      decide (eventId ≠ "") && checkpoints.all (· ≠ "") && decide checkpoints.Nodup

/-- The store: its memory, and its file when there is one. -/
structure DeliveryStore where
  completed : List String
  checkpoints : OrderedMap String (List String)
  loaded : Bool
  file : Option DeliveryStoreData

namespace DeliveryStore

/-- A store that has read nothing yet. -/
def unread (file : Option DeliveryStoreData) : DeliveryStore where
  completed := []
  checkpoints := .empty
  loaded := false
  file := file

/-- The process has gone and a new one has started. -/
def restart (store : DeliveryStore) : DeliveryStore := unread store.file

/-- What memory holds. -/
def data (store : DeliveryStore) : DeliveryStoreData :=
  ⟨store.completed, store.checkpoints⟩

/-- The checkpoints of an event in memory. -/
def checkpointsOf (store : DeliveryStore) (eventId : String) : List String :=
  (store.checkpoints.get eventId).getD []

@[simps]
def becomeLoaded (store : DeliveryStore) : DeliveryStore :=
  { store with loaded := true }

@[simps]
def adopt (store : DeliveryStore) (data : DeliveryStoreData) : DeliveryStore :=
  { store with
    completed := data.completedEventIds
    checkpoints := data.eventCheckpoints }

@[simps]
def addCheckpoint (store : DeliveryStore) (eventId checkpoint : String) : DeliveryStore :=
  { store with
    checkpoints := store.checkpoints.set eventId
      ((store.checkpointsOf eventId).insert checkpoint) }

@[simps]
def addCompleted (store : DeliveryStore) (eventId : String) : DeliveryStore :=
  { store with
    completed := store.completed.insert eventId
    checkpoints := store.checkpoints.delete eventId }

@[simps]
def install (store : DeliveryStore) : DeliveryStore :=
  { store with file := some store.data }

end DeliveryStore

/-- An operation of the store. -/
abbrev StoreOperation (α : Type) : Type := Proc DeliveryStore Reply String α

namespace DeliveryStore

/-- Read the file, once in the life of the process. -/
def load : StoreOperation Unit := do
  let store ← Proc.get
  if store.loaded then
    pure ()
  else
    -- A read that fails with anything but "no such file" rejects here.
    let _ ← attempt
    match store.file with
    | none => modify becomeLoaded
    | some data =>
        if isDeliveryStoreData data then
          modify (·.adopt data)
          modify becomeLoaded
        else
          Proc.throw "invalid delivery store"

/-- Replace the file by what memory holds. -/
def write : StoreOperation Unit := do
  -- The directory is made; the temporary file is written, flushed and closed.
  let _ ← attempt
  -- The rename.
  let _ ← attempt
  modify install
  -- The directory is opened and flushed.
  let _ ← attempt
  pure ()

/-- Whether the event has been completed. -/
def hasCompleted (eventId : String) : StoreOperation Bool := do
  load
  let store ← Proc.get
  pure (decide (eventId ∈ store.completed))

/-- The checkpoints recorded for the event. -/
def checkpointsFor (eventId : String) : StoreOperation (List String) := do
  load
  let store ← Proc.get
  pure (store.checkpointsOf eventId)

/-- Record a confirmed side effect of an event. -/
def markCheckpoint (eventId checkpoint : String) : StoreOperation Unit := do
  load
  let store ← Proc.get
  if eventId ∈ store.completed then
    pure ()
  else if checkpoint ∈ store.checkpointsOf eventId then
    pure ()
  else
    modify (·.addCheckpoint eventId checkpoint)
    write

/-- Record that an event has been delivered as a whole. -/
def markCompleted (eventId : String) : StoreOperation Unit := do
  load
  let store ← Proc.get
  if eventId ∈ store.completed then
    pure ()
  else
    modify (·.addCompleted eventId)
    write

end DeliveryStore

/-! ### What the store may be relied on for -/

/-- `P` holds of every completed id and `Q` of every checkpoint. -/
structure DeliveryStoreData.Holds (P : String → Prop) (Q : String → String → Prop)
    (data : DeliveryStoreData) : Prop where
  completed : ∀ id ∈ data.completedEventIds, P id
  checkpoints : ∀ id cs, data.eventCheckpoints.get id = some cs → ∀ c ∈ cs, Q id c

/-- Everything in the store, in memory and on file, is as it should be. -/
structure Records (P : String → Prop) (Q : String → String → Prop)
    (store : DeliveryStore) : Prop where
  memory : store.data.Holds P Q
  file : ∀ data ∈ store.file, data.Holds P Q
  unloaded : store.loaded = false → store.completed = []

section Records

variable {P P' : String → Prop} {Q Q' : String → String → Prop} {store : DeliveryStore}

theorem DeliveryStoreData.Holds.mono {data : DeliveryStoreData} (h : data.Holds P Q)
    (ids : ∀ id, P id → P' id) (effects : ∀ id c, Q id c → Q' id c) : data.Holds P' Q' where
  completed id mem := ids id (h.completed id mem)
  checkpoints id cs present c mem := effects id c (h.checkpoints id cs present c mem)

theorem Records.mono (h : Records P Q store) (ids : ∀ id, P id → P' id)
    (effects : ∀ id c, Q id c → Q' id c) : Records P' Q' store where
  memory := h.memory.mono ids effects
  file data present := (h.file data present).mono ids effects
  unloaded := h.unloaded

theorem Records.unread {file : Option DeliveryStoreData} (h : ∀ data ∈ file, data.Holds P Q) :
    Records P Q (DeliveryStore.unread file) where
  memory := ⟨by simp [DeliveryStore.data, DeliveryStore.unread],
    by simp [DeliveryStore.data, DeliveryStore.unread]⟩
  file := h
  unloaded _ := rfl

theorem Records.checkpointsOf (h : Records P Q store) {id c : String}
    (mem : c ∈ store.checkpointsOf id) : Q id c := by
  rw [DeliveryStore.checkpointsOf] at mem
  cases present : store.checkpoints.get id with
  | none => simp [present] at mem
  | some cs =>
      rw [present] at mem
      exact h.memory.checkpoints id cs present c mem

theorem Records.becomeLoaded (h : Records P Q store) : Records P Q store.becomeLoaded where
  memory := h.memory
  file := h.file
  unloaded := by simp

theorem Records.adopt (h : Records P Q store) {data : DeliveryStoreData}
    (present : store.file = some data) : Records P Q (store.adopt data).becomeLoaded where
  memory := h.file data present
  file := h.file
  unloaded := by simp

theorem Records.addCheckpoint (h : Records P Q store) {id c : String} (confirmed : Q id c) :
    Records P Q (store.addCheckpoint id c) where
  memory := by
    refine ⟨h.memory.completed, ?_⟩
    intro id' cs present c' mem
    simp only [DeliveryStore.data, DeliveryStore.addCheckpoint_checkpoints,
      OrderedMap.get_set] at present
    split at present
    · rename_i same
      subst same
      obtain rfl := Option.some.inj present
      rcases List.mem_insert_iff.mp mem with rfl | old
      · exact confirmed
      · exact h.checkpointsOf old
    · exact h.memory.checkpoints id' cs present c' mem
  file := h.file
  unloaded := h.unloaded

theorem Records.addCompleted (h : Records P Q store) {id : String} (isLoaded : store.loaded = true)
    (delivered : P id) : Records P Q (store.addCompleted id) where
  memory := by
    refine ⟨?_, ?_⟩
    · intro id' mem
      rcases List.mem_insert_iff.mp mem with rfl | old
      · exact delivered
      · exact h.memory.completed id' old
    · intro id' cs present c mem
      simp only [DeliveryStore.data, DeliveryStore.addCompleted_checkpoints,
        OrderedMap.get_delete] at present
      split at present
      · simp at present
      · exact h.memory.checkpoints id' cs present c mem
  file := h.file
  unloaded := by simp [isLoaded]

theorem Records.install (h : Records P Q store) : Records P Q store.install where
  memory := h.memory
  file := by
    intro data present
    obtain rfl := Option.some.inj present
    exact h.memory
  unloaded := h.unloaded

/-! ### The operations -/

namespace DeliveryStore

/-- A load that returns has the store loaded, and a store that was loaded
before is as it was. -/
theorem load_spec (before : DeliveryStore) (h : Records P Q before) :
    Triple (fun store => store = before) load
      (fun _ store => Records P Q store ∧ store.loaded = true ∧
        (before.loaded = true → store = before))
      (fun _ => Records P Q) (Records P Q) := by
  apply Triple.bind (M := fun read store => read = store ∧ store = before)
  · exact Triple.get fun store same => ⟨rfl, same⟩
  intro read
  apply Triple.of_pre
  rintro _ ⟨rfl, rfl⟩
  apply Triple.ite
  · intro isLoaded
    exact Triple.pure () fun store same => by subst same; exact ⟨h, isLoaded, fun _ => rfl⟩
  intro notLoaded
  apply Triple.bind (M := fun _ store => store = read)
  · exact Triple.attempt (by rintro _ rfl; exact h) (by rintro _ _ rfl; exact h)
      fun _ _ same => same
  intro _
  cases present : read.file with
  | none =>
      apply Triple.modify
      rintro _ rfl
      exact ⟨h.becomeLoaded, rfl, fun isLoaded => absurd isLoaded notLoaded⟩
  | some data =>
      apply Triple.ite
      · intro _
        apply Triple.bind (M := fun _ store => store = read.adopt data)
        · exact Triple.modify fun store same => by rw [same]
        intro _
        apply Triple.modify
        rintro _ rfl
        exact ⟨h.adopt present, rfl, fun isLoaded => absurd isLoaded notLoaded⟩
      · intro _
        exact Triple.throw fun store same => same ▸ h

theorem load_keeps :
    Triple (Records P Q) load (fun _ store => Records P Q store ∧ store.loaded = true)
      (fun _ => Records P Q) (Records P Q) :=
  Triple.of_pre fun before h => (load_spec before h).weaken (fun _ same => same)
    (fun _ _ loaded => ⟨loaded.1, loaded.2.1⟩) (fun _ _ h => h) fun _ h => h

theorem write_keeps : Keeps (Records P Q) write :=
  Keeps.attempt.bind fun _ => Keeps.attempt.bind fun _ =>
    (Keeps.modify fun _ h => h.install).bind fun _ =>
      Keeps.attempt.bind fun _ => Keeps.pure ()

/-- A completed event has been marked so. One that is not completed was not
so before either, unless the store had still to be read. -/
theorem hasCompleted_spec (id : String) (before : DeliveryStore) (h : Records P Q before) :
    Triple (fun store => store = before) (hasCompleted id)
      (fun found store => Records P Q store ∧
        if found then P id else id ∉ before.completed)
      (fun _ => Records P Q) (Records P Q) := by
  apply Triple.bind (load_spec before h)
  intro _
  apply Triple.bind (M := fun read store => read = store ∧ Records P Q store ∧
    (before.loaded = true → store = before))
  · exact Triple.get fun store loaded => ⟨rfl, loaded.1, loaded.2.2⟩
  intro read
  apply Triple.pure
  rintro _ ⟨rfl, holds, kept⟩
  refine ⟨holds, ?_⟩
  split
  · rename_i found
    exact holds.memory.completed id (of_decide_eq_true found)
  · rename_i missing
    cases wasLoaded : before.loaded with
    | true =>
        rw [kept wasLoaded] at missing
        exact fun mem => missing (decide_eq_true mem)
    | false => simp [h.unloaded wasLoaded]

theorem checkpointsFor_spec (id : String) :
    Triple (Records P Q) (checkpointsFor id)
      (fun cs store => Records P Q store ∧ ∀ c ∈ cs, Q id c) (fun _ => Records P Q) (Records P Q) := by
  apply Triple.bind load_keeps
  intro _
  apply Triple.bind (M := fun read store => read = store ∧ Records P Q store)
  · exact Triple.get fun store loaded => ⟨rfl, loaded.1⟩
  intro read
  apply Triple.pure
  rintro _ ⟨rfl, holds⟩
  exact ⟨holds, fun c mem => holds.checkpointsOf mem⟩

theorem markCheckpoint_keeps {id c : String} (confirmed : Q id c) :
    Keeps (Records P Q) (markCheckpoint id c) := by
  apply Triple.bind load_keeps
  intro _
  apply Triple.bind (M := fun _ => Records P Q)
  · exact Triple.get fun store loaded => loaded.1
  intro read
  apply Keeps.ite
  · exact fun _ => Keeps.pure ()
  intro _
  apply Keeps.ite
  · exact fun _ => Keeps.pure ()
  intro _
  exact (Keeps.modify fun store h => h.addCheckpoint confirmed).bind fun _ => write_keeps

theorem markCompleted_keeps {id : String} (delivered : P id) :
    Keeps (Records P Q) (markCompleted id) := by
  apply Triple.bind load_keeps
  intro _
  apply Triple.bind (M := fun _ store => Records P Q store ∧ store.loaded = true)
  · exact Triple.get fun store loaded => loaded
  intro read
  apply Triple.ite
  · exact fun _ => Triple.pure () fun store loaded => loaded.1
  intro _
  apply Triple.bind (M := fun _ => Records P Q)
  · exact Triple.modify fun store loaded => loaded.1.addCompleted loaded.2 delivered
  exact fun _ => write_keeps

end DeliveryStore

end Records

end OmpBundler.Pumble
