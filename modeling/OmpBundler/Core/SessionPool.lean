import OmpBundler.Core.PoolShutdown
import OmpBundler.Core.PoolSteps
import OmpBundler.Core.SessionRegistry

/-!
The pool together with the session registry it claims its children in.

The pool asks the registry for three things: the session of a new child
(`getOrCreate`), the ownership of its row (`claimOwnership`, when the
session is there) and the release of that ownership (once the child is
dead). The answers, which the pool alone leaves open, are the registry's
here. A reset of a session retires the child of its conversation and then
drops the row, as two pieces of code with an `await` between them.

Three records have no counterpart in the source: what the callers of
`acquire` have named as parent, the sessions that were created, and what
was done to the owners of rows. The database itself does not fail.
-/

namespace OmpBundler.Core

open Library

/-- Where `getOrCreate` stands for a child. -/
inductive Attachment where
  /-- Waiting for the child to switch to the session file. -/
  | switching (sessionFile : String)
  /-- Waiting for a session that another child creates. -/
  | sharing (creator : ChildId)
  /-- Waiting for the child to create the session. -/
  | creating (parentSessionFile : Option String)
  /-- `create` is over, its `finally` callback has not run. -/
  | created (result : Reply)
  /-- The promise of the creation has settled. -/
  | settled (result : Reply)
  deriving DecidableEq, Repr

/-- A call of `new_session`: the caller of `acquire` it is made for, the
parent it names, and the registry as it was at the time. -/
structure NewSession where
  caller : Option Waiter
  conversation : Conversation
  parentSessionFile : Option String
  registry : SessionRegistry

/-- A change of a row's owner: the child it was made for, the owner that was
recorded before, and what had become of the children at the time. -/
structure OwnerChange where
  child : ChildId
  previousOwner : Option Owner
  childOf : ChildId → ChildStatus

/-- A reset of a session that has not dropped the row yet. -/
structure Reset where
  conversation : Conversation
  /-- The child whose retirement it waits for. -/
  retiring : Option ChildId
  deriving DecidableEq, Repr

/-- The pool and the session registry. -/
structure SessionPool where
  manager : ClosablePool
  registry : SessionRegistry
  attachmentOf : ChildId → Option Attachment
  resets : List Reset
  /-- The parent that each call of `acquire` has named. -/
  asked : List (Option String)
  sessions : List NewSession
  claims : List OwnerChange
  /-- What each teardown has released: the owner that it took off the row. -/
  releases : List (ChildId × Option Owner)
  /-- The owners whose rows were dropped, and the children at the time. -/
  dropped : List (Option Owner × (ChildId → ChildStatus))

/-- The first caller that waits for the creation: the one that has started
it. -/
def PoolManager.creator (s : PoolManager) (k : ChildId) : Option Continuation :=
  (s.continuations.find? fun x => x.1 = k).map (·.2)

namespace SessionPool

/-- A new pool over the registry of an earlier process. -/
def initial (maxChildren : ℕ) (rows : Conversation → Option SessionRecord) : SessionPool where
  manager := .initial maxChildren
  registry := ⟨rows, fun _ => none⟩
  attachmentOf _ := none
  resets := []
  asked := []
  sessions := []
  claims := []
  releases := []
  dropped := []

/-- The pool manager. -/
abbrev pool (s : SessionPool) : PoolManager := s.manager.pool

/-- Record where `getOrCreate` stands for a child. -/
@[simps]
def attach (s : SessionPool) (k : ChildId) (a : Attachment) : SessionPool :=
  { s with attachmentOf := Function.update s.attachmentOf k (some a) }

/-- `getOrCreate` up to its first `await`. -/
def getOrCreate (s : SessionPool) (k : ChildId) (conversation : Conversation)
    (parentConversationKey : Option String) : SessionPool :=
  match s.registry.getRaw conversation with
  | some existing => s.attach k (.switching existing.sessionFile)
  | none =>
      match s.registry.inflight conversation with
      | some creator => s.attach k (.sharing creator)
      | none =>
          let parentSessionFile :=
            s.registry.parentSessionFile conversation.adapterId parentConversationKey
          { s.attach k (.creating parentSessionFile) with
            registry := s.registry.list conversation k
            sessions := s.sessions ++
              [⟨(s.pool.creator k).map (·.caller), conversation, parentSessionFile,
                s.registry⟩] }

/-- `create` after the child has answered `new_session` and `get_state`, with
the session file or an error. -/
def finishCreate (s : SessionPool) (k : ChildId) (conversation : Conversation) :
    Except String String → SessionPool
  | .error error => s.attach k (.created (.failed error))
  | .ok sessionFile =>
      match s.registry.insert conversation sessionFile with
      | some registry => { s with registry }.attach k (.created .done)
      | none =>
          s.attach k (.created (.failed ("session already exists for adapter=\""
            ++ conversation.adapterId ++ "\" key=\"" ++ conversation.conversationKey
            ++ "\" (race)")))

/-- What `getOrCreate` comes back with; `answer` is that of a child that was
asked to switch to an existing session. -/
def attached (s : SessionPool) (k : ChildId) (answer : Reply) : Option Reply :=
  match s.attachmentOf k with
  | some (.switching _) => some answer
  | some (.settled result) => some result
  | some (.sharing creator) =>
      match s.attachmentOf creator with
      | some (.settled result) => some result
      | _ => none
  | _ => none

/-- Claim the row for a child that has its session. -/
def claim (s : SessionPool) (k : ChildId) (conversation : Conversation) :
    Except String SessionPool :=
  match s.registry.claimOwnership conversation k with
  | .error error => .error error
  | .ok registry =>
      .ok { s with
        registry
        claims := s.claims ++ [⟨k, s.registry.ownerOf conversation, s.pool.childOf⟩] }

/-- `releaseOwnership`, with the error it returns. -/
def releaseOwnership (s : SessionPool) (c : ChildId) : SessionPool × Option RegistryError :=
  let conversation := (s.pool.entryOf c).conversation
  match s.registry.release conversation (.child c) with
  | .ok registry =>
      ({ s with registry, releases := s.releases ++ [(c, s.registry.ownerOf conversation)] }, none)
  | .error error => ({ s with releases := s.releases ++ [(c, none)] }, some error)

/-- `teardownEntry` after its child has answered `close`. -/
def teardown (s : SessionPool) (c : ChildId) : Reply → SessionPool × TeardownResult
  | .failed error => (s, .closeFailed error)
  | .done =>
      let released := s.releaseOwnership c
      (released.1,
        match released.2 with
        | none => .childClosed
        | some error => .releaseFailed error.message)

/-- `retireConversation` up to its first `await`, called by a reset. -/
def retireConversation (s : SessionPool) (conversation : Conversation) : SessionPool :=
  match s.pool.entries.get conversation.id with
  | none => { s with resets := s.resets ++ [⟨conversation, none⟩] }
  | some c =>
      if (s.pool.entryOf c).retiring then
        { s with resets := s.resets ++ [⟨conversation, none⟩] }
      else
        { s with
          manager := { s.manager with pool := s.pool.retireChild conversation c }
          resets := s.resets ++ [⟨conversation, some c⟩] }

/-- Let the resets that wait for the retirement of a child know how it went;
one whose child has not closed is given up. -/
def retired (resets : List Reset) (c : ChildId) : EvictOutcome → List Reset
  | .ok => resets.map fun x => if x.retiring = some c then { x with retiring := none } else x
  | .closeFailed _ => resets.filter fun x => x.retiring ≠ some c

/-- One uninterrupted piece of code. -/
inductive Action where
  | acquire (conversation : Conversation) (parentConversationKey : Option String)
  /-- The factory answers the creation. -/
  | spawned (creation : ChildId) (reply : Reply)
  /-- The child that creates a session has answered. -/
  | sessionCreated (creation : ChildId) (answer : Except String String)
  /-- The `finally` callback of the creation of a session. -/
  | unlisted (creation : ChildId)
  /-- `getOrCreate` comes back. -/
  | attached (creation : ChildId) (answer : Reply)
  /-- The child of an eviction answers `close`. -/
  | childClosed (purpose : Purpose) (id : String) (child : ChildId) (answer : Reply)
  /-- The child of a teardown of `close` answers. -/
  | closeTornDown (child : ChildId) (answer : Reply)
  | exit (child : ChildId)
  /-- A reset of the conversation begins. -/
  | reset (conversation : Conversation)
  /-- A reset drops the row. -/
  | forget (conversation : Conversation)
  /-- A retirement has returned to its caller. -/
  | retired (id : String) (child : ChildId) (outcome : EvictOutcome)
  /-- Code that has nothing to do with the registry. -/
  | plain (action : ClosablePool.Action)
  deriving DecidableEq

/-- Whether an action of the pool asks nothing of the registry, and answers
no reset. -/
def isPlain : ClosablePool.Action → Bool
  | .pool (.acquire _ _) | .pool (.spawned _ _) | .pool (.attached _ _)
  | .pool (.tornDown _ _ _ _) | .pool (.exit _) | .tornDown _ _
  | .pool (.advance (.evict .retire _ _ (.returned _))) => false
  | _ => true

/-- Let the pool take a step. -/
def move (s : SessionPool) (a : ClosablePool.Action) : Option SessionPool :=
  (s.manager.step a).map fun manager => { s with manager }

/-- What an action does; `none` when nothing waits for it. -/
def step (s : SessionPool) : Action → Option SessionPool
  | .acquire conversation parentConversationKey =>
      { s with asked := s.asked ++ [parentConversationKey] }.move
        (.pool (.acquire conversation parentConversationKey))
  | .spawned k reply => do
      let cr ← s.pool.creationOf k
      let s ← s.move (.pool (.spawned k reply))
      match reply with
      | .done => some (s.getOrCreate k cr.conversation cr.parentConversationKey)
      | .failed _ => some s
  | .sessionCreated k answer => do
      let cr ← s.pool.creationOf k
      match s.attachmentOf k with
      | some (.creating _) => some (s.finishCreate k cr.conversation answer)
      | _ => none
  | .unlisted k => do
      let cr ← s.pool.creationOf k
      match s.attachmentOf k with
      | some (.created result) =>
          some ({ s with registry := s.registry.unlist cr.conversation }.attach k (.settled result))
      | _ => none
  | .attached k answer => do
      let cr ← s.pool.creationOf k
      match ← s.attached k answer with
      | .failed error => s.move (.pool (.attached k (.failed error)))
      | .done =>
          match s.claim k cr.conversation with
          | .ok s' => s'.move (.pool (.attached k .done))
          | .error error => s.move (.pool (.attached k (.failed error)))
  | .childClosed purpose id c answer =>
      match s.teardown c answer with
      | (s', result) => s'.move (.pool (.tornDown purpose id c result))
  | .closeTornDown c answer =>
      match s.teardown c answer with
      | (s', result) => s'.move (.tornDown c result)
  | .exit c => do
      let cr ← s.pool.creationOf c
      if s.pool.entries.get cr.conversation.id = some c then
        (s.releaseOwnership c).1.move (.pool (.exit c))
      else s.move (.pool (.exit c))
  | .reset conversation => some (s.retireConversation conversation)
  | .forget conversation =>
      if ⟨conversation, none⟩ ∈ s.resets then
        some { s with
          resets := s.resets.erase ⟨conversation, none⟩
          registry := s.registry.forget conversation
          dropped := s.dropped ++ [(s.registry.ownerOf conversation, s.pool.childOf)] }
      else none
  | .retired id c outcome =>
      { s with resets := retired s.resets c outcome }.move
        (.pool (.advance (.evict .retire id c (.returned outcome))))
  | .plain a => if isPlain a then s.move a else none

/-- The pool and its registry as a machine. The registry may hold any rows,
but no child of this process is recorded in it yet. -/
def machine : Transition.Machine SessionPool Action where
  init s := ∃ maxChildren rows, 0 < maxChildren ∧
    (∀ conversation row, rows conversation = some row → ∀ c, row.currentOwner ≠ some (.child c)) ∧
    s = initial maxChildren rows
  step := step

/-! ### What a step can do -/

theorem move_eq_some {s t : SessionPool} {a : ClosablePool.Action} :
    s.move a = some t ↔ ∃ manager, s.manager.step a = some manager ∧ { s with manager } = t :=
  Option.map_eq_some_iff

/-- One constructor for each way a step can go, with what the step has
checked. -/
inductive Stepped (s : SessionPool) : Action → SessionPool → Prop
  | acquire {conversation : Conversation} {parent : Option String} {manager : ClosablePool}
      (moved : s.manager.step (.pool (.acquire conversation parent)) = some manager) :
      Stepped s (.acquire conversation parent) { s with manager, asked := s.asked ++ [parent] }
  | spawned {k : ChildId} {cr : Creation} {manager : ClosablePool}
      (known : s.pool.creationOf k = some cr)
      (moved : s.manager.step (.pool (.spawned k .done)) = some manager) :
      Stepped s (.spawned k .done)
        ({ s with manager }.getOrCreate k cr.conversation cr.parentConversationKey)
  | spawnFailed {k : ChildId} {error : String} {manager : ClosablePool}
      (moved : s.manager.step (.pool (.spawned k (.failed error))) = some manager) :
      Stepped s (.spawned k (.failed error)) { s with manager }
  | sessionCreated {k : ChildId} {cr : Creation} {parent : Option String}
      (answer : Except String String) (known : s.pool.creationOf k = some cr)
      (waits : s.attachmentOf k = some (.creating parent)) :
      Stepped s (.sessionCreated k answer) (s.finishCreate k cr.conversation answer)
  | unlisted {k : ChildId} {cr : Creation} {result : Reply}
      (known : s.pool.creationOf k = some cr)
      (waits : s.attachmentOf k = some (.created result)) :
      Stepped s (.unlisted k)
        ({ s with registry := s.registry.unlist cr.conversation }.attach k (.settled result))
  | attached {k : ChildId} {cr : Creation} {answer : Reply} {s' : SessionPool}
      {manager : ClosablePool} (known : s.pool.creationOf k = some cr)
      (came : s.attached k answer = some .done) (claimed : s.claim k cr.conversation = .ok s')
      (moved : s.manager.step (.pool (.attached k .done)) = some manager) :
      Stepped s (.attached k answer) { s' with manager }
  | attachFailed {k : ChildId} {answer : Reply} {error : String} {manager : ClosablePool}
      (moved : s.manager.step (.pool (.attached k (.failed error))) = some manager) :
      Stepped s (.attached k answer) { s with manager }
  | childClosed {purpose : Purpose} {id : String} {c : ChildId} (answer : Reply)
      {manager : ClosablePool}
      (moved : s.manager.step (.pool (.tornDown purpose id c (s.teardown c answer).2)) =
        some manager) :
      Stepped s (.childClosed purpose id c answer) { (s.teardown c answer).1 with manager }
  | closeTornDown {c : ChildId} (answer : Reply) {manager : ClosablePool}
      (moved : s.manager.step (.tornDown c (s.teardown c answer).2) = some manager) :
      Stepped s (.closeTornDown c answer) { (s.teardown c answer).1 with manager }
  | exit {c : ChildId} {cr : Creation} {manager : ClosablePool}
      (known : s.pool.creationOf c = some cr)
      (there : s.pool.entries.get cr.conversation.id = some c)
      (moved : s.manager.step (.pool (.exit c)) = some manager) :
      Stepped s (.exit c) { (s.releaseOwnership c).1 with manager }
  | exitElsewhere {c : ChildId} {cr : Creation} {manager : ClosablePool}
      (known : s.pool.creationOf c = some cr)
      (elsewhere : s.pool.entries.get cr.conversation.id ≠ some c)
      (moved : s.manager.step (.pool (.exit c)) = some manager) :
      Stepped s (.exit c) { s with manager }
  | reset (conversation : Conversation) :
      Stepped s (.reset conversation) (s.retireConversation conversation)
  | forget {conversation : Conversation} (due : ⟨conversation, none⟩ ∈ s.resets) :
      Stepped s (.forget conversation)
        { s with
          resets := s.resets.erase ⟨conversation, none⟩
          registry := s.registry.forget conversation
          dropped := s.dropped ++ [(s.registry.ownerOf conversation, s.pool.childOf)] }
  | retired {id : String} {c : ChildId} {outcome : EvictOutcome} {manager : ClosablePool}
      (moved : s.manager.step (.pool (.advance (.evict .retire id c (.returned outcome)))) =
        some manager) :
      Stepped s (.retired id c outcome)
        { s with manager, resets := retired s.resets c outcome }
  | plain {a : ClosablePool.Action} {manager : ClosablePool} (isPlain : isPlain a = true)
      (moved : s.manager.step a = some manager) : Stepped s (.plain a) { s with manager }

theorem releaseOwnership_manager (s : SessionPool) (c : ChildId) :
    (s.releaseOwnership c).1.manager = s.manager := by
  simp only [releaseOwnership]
  cases s.registry.release (s.pool.entryOf c).conversation (.child c) <;> rfl

theorem teardown_manager (s : SessionPool) (c : ChildId) (answer : Reply) :
    (s.teardown c answer).1.manager = s.manager := by
  cases answer with
  | failed error => rfl
  | done => exact releaseOwnership_manager s c

theorem releaseOwnership_asked (s : SessionPool) (c : ChildId) :
    (s.releaseOwnership c).1.asked = s.asked ∧ (s.releaseOwnership c).1.sessions = s.sessions := by
  simp only [releaseOwnership]
  cases s.registry.release (s.pool.entryOf c).conversation (.child c) <;> exact ⟨rfl, rfl⟩

theorem teardown_asked (s : SessionPool) (c : ChildId) (answer : Reply) :
    (s.teardown c answer).1.asked = s.asked ∧ (s.teardown c answer).1.sessions = s.sessions := by
  cases answer with
  | failed error => exact ⟨rfl, rfl⟩
  | done => exact releaseOwnership_asked s c

theorem claim_manager {s t : SessionPool} {k : ChildId} {conversation : Conversation}
    (claimed : s.claim k conversation = .ok t) : t.manager = s.manager := by
  unfold claim at claimed
  split at claimed
  · simp at claimed
  · obtain rfl := Except.ok.inj claimed
    rfl

theorem step_cases {s t : SessionPool} {a : Action} (taken : step s a = some t) :
    Stepped s a t := by
  cases a with
  | acquire conversation parent =>
      obtain ⟨manager, moved, rfl⟩ := move_eq_some.mp taken
      exact .acquire moved
  | spawned k reply =>
      simp only [step, Option.bind_eq_bind, Option.bind_eq_some_iff] at taken
      obtain ⟨cr, known, s', moved, taken⟩ := taken
      obtain ⟨manager, went, rfl⟩ := move_eq_some.mp moved
      cases reply with
      | done => exact Option.some.inj taken ▸ .spawned known went
      | failed error => exact Option.some.inj taken ▸ .spawnFailed went
  | sessionCreated k answer =>
      simp only [step, Option.bind_eq_bind, Option.bind_eq_some_iff] at taken
      obtain ⟨cr, known, taken⟩ := taken
      split at taken
      case h_2 => simp at taken
      case h_1 parent waits => exact Option.some.inj taken ▸ .sessionCreated answer known waits
  | unlisted k =>
      simp only [step, Option.bind_eq_bind, Option.bind_eq_some_iff] at taken
      obtain ⟨cr, known, taken⟩ := taken
      split at taken
      case h_2 => simp at taken
      case h_1 result waits => exact Option.some.inj taken ▸ .unlisted known waits
  | attached k answer =>
      simp only [step, Option.bind_eq_bind, Option.bind_eq_some_iff] at taken
      obtain ⟨cr, known, reply, came, taken⟩ := taken
      cases reply with
      | failed error =>
          obtain ⟨manager, moved, rfl⟩ := move_eq_some.mp taken
          exact .attachFailed moved
      | done =>
          simp only at taken
          split at taken
          case h_1 s' claimed =>
              obtain ⟨manager, moved, rfl⟩ := move_eq_some.mp taken
              exact .attached known came claimed (claim_manager claimed ▸ moved)
          case h_2 error failed =>
              obtain ⟨manager, moved, rfl⟩ := move_eq_some.mp taken
              exact .attachFailed moved
  | childClosed purpose id c answer =>
      obtain ⟨manager, moved, rfl⟩ := move_eq_some.mp taken
      exact .childClosed answer (teardown_manager s c answer ▸ moved)
  | closeTornDown c answer =>
      obtain ⟨manager, moved, rfl⟩ := move_eq_some.mp taken
      exact .closeTornDown answer (teardown_manager s c answer ▸ moved)
  | exit c =>
      simp only [step, Option.bind_eq_bind, Option.bind_eq_some_iff] at taken
      obtain ⟨cr, known, taken⟩ := taken
      split at taken
      case isTrue there =>
          obtain ⟨manager, moved, rfl⟩ := move_eq_some.mp taken
          exact .exit known there (releaseOwnership_manager s c ▸ moved)
      case isFalse elsewhere =>
          obtain ⟨manager, moved, rfl⟩ := move_eq_some.mp taken
          exact .exitElsewhere known elsewhere moved
  | reset conversation =>
      obtain rfl := Option.some.inj taken
      exact .reset conversation
  | forget conversation =>
      simp only [step] at taken
      split at taken
      case isFalse => simp at taken
      case isTrue due => exact Option.some.inj taken ▸ .forget due
  | retired id c outcome =>
      obtain ⟨manager, moved, rfl⟩ := move_eq_some.mp taken
      exact .retired moved
  | plain a =>
      simp only [step] at taken
      split at taken
      case isFalse => simp at taken
      case isTrue isPlain =>
          obtain ⟨manager, moved, rfl⟩ := move_eq_some.mp taken
          exact .plain isPlain moved

end SessionPool

end OmpBundler.Core
