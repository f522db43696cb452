import OmpBundler.Library.OrderedMap
import OmpBundler.Pumble.Environment
import OmpBundler.Pumble.TargetStore

/-!
The target store and its file.

`TargetStoreData` says what the store answers; here is how it keeps that in
memory and in a file. The file is read once and replaced as a whole at each
change, as the file of the deliveries is.
-/

namespace OmpBundler.Pumble

open Library Library.Proc

/-- The contents of the store's file. -/
structure TargetRecords where
  byConversation : OrderedMap String Target
  byCorrelation : OrderedMap String Target

/-- The store: its memory, and its file when there is one. -/
structure TargetStore where
  data : TargetRecords
  loaded : Bool
  file : Option TargetRecords

/-- `isValidTarget`, for an entry whose fields are of the right types. -/
def isValidTarget (target : Target) : Bool :=
  target.workspaceId ≠ "" && target.channelId ≠ "" && target.triggerMessageId ≠ ""

/-- `isTargetMap`. -/
def isTargetMap (targets : OrderedMap String Target) : Bool :=
  targets.entries.all fun (_, target) => isValidTarget target

/-- `isValidStoreData`, for a file that is known to be of the right shape. -/
def isValidStoreData (data : TargetRecords) : Bool :=
  isTargetMap data.byConversation && isTargetMap data.byCorrelation

namespace TargetRecords

variable (d : TargetRecords)

def empty : TargetRecords := ⟨.empty, .empty⟩

def putByConversation (conversationKey : String) (target : Target) : TargetRecords :=
  { d with byConversation := d.byConversation.set conversationKey target }

def setCorrelation (correlationId : String) (target : Target) : TargetRecords :=
  { d with byCorrelation := d.byCorrelation.set correlationId target }

def forgetCorrelation (correlationId : String) : TargetRecords :=
  { d with byCorrelation := d.byCorrelation.delete correlationId }

/-- What the records answer. -/
def answers : TargetStoreData := ⟨d.byConversation.get, d.byCorrelation.get⟩

theorem answers_putByConversation (conversationKey : String) (target : Target) :
    (d.putByConversation conversationKey target).answers =
      d.answers.putByConversation conversationKey target := by
  rw [answers, TargetStoreData.putByConversation]
  congr 1
  funext key
  show (d.byConversation.set conversationKey target).get key = _
  rw [OrderedMap.get_set, Function.update_apply]
  simp only [answers, eq_comm]

theorem answers_forgetCorrelation (correlationId : String) :
    (d.forgetCorrelation correlationId).answers =
      d.answers.forgetCorrelation correlationId := by
  rw [answers, TargetStoreData.forgetCorrelation]
  congr 1
  funext key
  show (d.byCorrelation.delete correlationId).get key = _
  rw [OrderedMap.get_delete, Function.update_apply]
  simp only [answers, eq_comm]

/-- A correlation that is not bound yet is bound to the saved target. -/
theorem answers_setCorrelation {conversationKey correlationId : String} {target : Target}
    (unbound : d.byCorrelation.get correlationId = none)
    (saved : d.byConversation.get conversationKey = some target) :
    d.answers.bindCorrelation conversationKey correlationId =
      some (d.setCorrelation correlationId target).answers := by
  have free : (d.answers.byCorrelation correlationId).isSome = false := by
    show (d.byCorrelation.get correlationId).isSome = false
    rw [unbound]
    rfl
  have resolved : d.answers.byConversation conversationKey = some target := saved
  rw [TargetStoreData.bindCorrelation, free, resolved]
  refine congrArg some ?_
  rw [answers]
  congr 1
  funext key
  show _ = (d.byCorrelation.set correlationId target).get key
  rw [OrderedMap.get_set, Function.update_apply]
  simp only [eq_comm]

end TargetRecords

namespace TargetStore

/-- A store that has read nothing yet. -/
def unread (file : Option TargetRecords) : TargetStore where
  data := .empty
  loaded := false
  file := file

/-- The process has gone and a new one has started. -/
def restart (store : TargetStore) : TargetStore := unread store.file

@[simps]
def adopt (store : TargetStore) (data : TargetRecords) : TargetStore :=
  { store with data, loaded := true }

@[simps]
def setData (store : TargetStore) (data : TargetRecords) : TargetStore := { store with data }

@[simps]
def install (store : TargetStore) : TargetStore := { store with file := some store.data }

/-- Read the file, once in the life of the process. -/
def load : Proc TargetStore Reply String Unit := do
  let store ← Proc.get
  if store.loaded then
    pure ()
  else
    -- A file that cannot be read, or is not JSON, rejects here.
    let _ ← attempt
    match store.file with
    | none => modify (·.adopt .empty)
    | some data =>
        if isValidStoreData data then
          modify (·.adopt data)
        else
          Proc.throw "corrupt target store"

/-- Replace the file by what memory holds. -/
def write : Proc TargetStore Reply String Unit := do
  -- The directory is made; the temporary file is written, flushed and closed.
  let _ ← attempt
  -- The rename.
  let _ ← attempt
  modify install
  -- The directory is opened and flushed.
  let _ ← attempt
  pure ()

/-- Persist a target under its conversation. -/
def putByConversation (conversationKey : String) (target : Target) :
    Proc TargetStore Reply String Unit := do
  load
  let store ← Proc.get
  modify (·.setData (store.data.putByConversation conversationKey target))
  write

/-- Bind a correlation to the given target, or to the one that is saved. -/
def bindCorrelation (conversationKey correlationId : String) (target : Option Target) :
    Proc TargetStore Reply String Unit := do
  load
  let store ← Proc.get
  if (store.data.byCorrelation.get correlationId).isSome then
    pure ()
  else
    match target.or (store.data.byConversation.get conversationKey) with
    | none => Proc.throw "no target found for conversationKey"
    | some resolved =>
        modify (·.setData (store.data.setCorrelation correlationId resolved))
        write

/-- The target of an event. -/
def resolve (conversationKey correlationId : String) :
    Proc TargetStore Reply String (Option Target) := do
  load
  let store ← Proc.get
  pure (store.data.answers.resolve conversationKey correlationId)

/-- Remove a binding. -/
def forgetCorrelation (correlationId : String) : Proc TargetStore Reply String Unit := do
  load
  let store ← Proc.get
  modify (·.setData (store.data.forgetCorrelation correlationId))
  write

end TargetStore

end OmpBundler.Pumble
