import Mathlib.Logic.Function.Basic
import OmpBundler.Core.PoolManager

/-!
The session registry: which session file a conversation uses, and which
child may write to it.

A row of the table is written by compare-and-set: `setOwner` and `release`
succeed only if the row records the owner that the caller expects. The
owner of a row is a child of this process or a token that an earlier
process has left. The columns `created_at` and `last_active` are not
modelled: the pool reads neither.
-/

namespace OmpBundler.Core

/-- What the column `current_owner` can hold. -/
inductive Owner where
  | child (c : ChildId)
  /-- A token of an earlier process. -/
  | previous (token : String)
  deriving DecidableEq, Repr

/-- The text of a token; the number of a child is its token. -/
def Owner.token : Owner → String
  | .child c => toString c
  | .previous token => token

/-- A row of the registry. -/
structure SessionRecord where
  sessionFile : String
  currentOwner : Option Owner
  deriving DecidableEq, Repr

/-- What the registry throws at its callers. -/
inductive RegistryError where
  | ownerMismatch (conversation : Conversation) (expected : Option Owner)
  | noMapping (conversation : Conversation)
  deriving DecidableEq, Repr

/-- The text of an error. -/
def RegistryError.message : RegistryError → String
  | .ownerMismatch conversation expected =>
      "owner mismatch for adapter=\"" ++ conversation.adapterId ++ "\" key=\""
        ++ conversation.conversationKey ++ "\" (expected owner="
        ++ (expected.map Owner.token).getD "null" ++ ")"
  | .noMapping conversation =>
      "no session mapping for adapter=\"" ++ conversation.adapterId ++ "\" key=\""
        ++ conversation.conversationKey ++ "\""

/-- The table and the sessions that are being created. -/
structure SessionRegistry where
  rows : Conversation → Option SessionRecord
  /-- The child that creates the session of a conversation. -/
  inflight : Conversation → Option ChildId

namespace SessionRegistry

variable (r : SessionRegistry)

/-- Read the row of a conversation. -/
def getRaw (conversation : Conversation) : Option SessionRecord := r.rows conversation

/-- The recorded owner of a conversation. -/
def ownerOf (conversation : Conversation) : Option Owner :=
  (r.rows conversation).bind (·.currentOwner)

/-- Compare-and-set ownership of a conversation. -/
def setOwner (conversation : Conversation) (currentOwner newOwner : Option Owner) :
    Except RegistryError SessionRegistry :=
  match r.rows conversation with
  | some row =>
      if row.currentOwner = currentOwner then
        .ok { r with
          rows := Function.update r.rows conversation
            (some { row with currentOwner := newOwner }) }
      else .error (.ownerMismatch conversation currentOwner)
  | none => .error (.ownerMismatch conversation currentOwner)

/-- Release ownership of a conversation, if the caller is its owner. -/
def release (conversation : Conversation) (owner : Owner) : Except RegistryError SessionRegistry :=
  match r.rows conversation with
  | some row =>
      if row.currentOwner = some owner then
        .ok { r with
          rows := Function.update r.rows conversation (some { row with currentOwner := none }) }
      else .error (.ownerMismatch conversation (some owner))
  | none => .error (.noMapping conversation)

/-- The last step of `create`: insert the row of a new session, without an
owner; a row that has come in meanwhile stays. -/
def insert (conversation : Conversation) (sessionFile : String) : Option SessionRegistry :=
  match r.rows conversation with
  | some _ => none
  | none =>
      some { r with rows := Function.update r.rows conversation (some ⟨sessionFile, none⟩) }

/-- Note that a child creates the session of a conversation. -/
def list (conversation : Conversation) (c : ChildId) : SessionRegistry :=
  { r with inflight := Function.update r.inflight conversation (some c) }

/-- Forget that a session is being created. -/
def unlist (conversation : Conversation) : SessionRegistry :=
  { r with inflight := Function.update r.inflight conversation none }

/-- Drop the mapping of a conversation; its session file stays. -/
def forget (conversation : Conversation) : SessionRegistry :=
  match r.rows conversation with
  | none => r
  | some _ => { r with rows := Function.update r.rows conversation none }.unlist conversation

/-- The session file that `getOrCreate` looks up for a parent: an empty key
counts as none. -/
def parentSessionFile (adapterId : String) : Option String → Option String
  | none => none
  | some parent =>
      if parent = "" then none else (r.getRaw ⟨adapterId, parent⟩).map (·.sessionFile)

/-- Step 3 of `doCreate`: take a row that records no owner, and else take it
over from whatever owner it records. -/
def claimOwnership (conversation : Conversation) (c : ChildId) :
    Except String SessionRegistry :=
  match r.setOwner conversation none (some (.child c)) with
  | .ok r' => .ok r'
  | .error _ =>
      match (r.getRaw conversation).bind (·.currentOwner) with
      | some staleOwner =>
          match r.setOwner conversation (some staleOwner) (some (.child c)) with
          | .ok r' => .ok r'
          | .error _ =>
              .error ("could not claim ownership for adapter=\"" ++ conversation.adapterId
                ++ "\" key=\"" ++ conversation.conversationKey
                ++ "\" (owner changed during transfer)")
      | none =>
          .error ("registry row disappeared for adapter=\"" ++ conversation.adapterId
            ++ "\" key=\"" ++ conversation.conversationKey ++ "\"")

/-! ### What the operations leave in the table -/

variable {r} {r' : SessionRegistry} {conversation other : Conversation}

theorem setOwner_ok {current new : Option Owner}
    (ok : r.setOwner conversation current new = .ok r') :
    r.ownerOf conversation = current ∧ r'.ownerOf conversation = new ∧
      ∀ other ≠ conversation, r'.ownerOf other = r.ownerOf other := by
  unfold setOwner at ok
  split at ok
  case h_2 => simp at ok
  case h_1 row there =>
      split at ok
      case isFalse => simp at ok
      case isTrue same =>
          obtain rfl := Except.ok.inj ok
          refine ⟨by simp [ownerOf, there, same], by simp [ownerOf], fun other ne => ?_⟩
          simp [ownerOf, Function.update_of_ne ne]

theorem setOwner_known {current new : Option Owner} {row : SessionRecord}
    (there : r.rows conversation = some row) (same : row.currentOwner = current) :
    (r.setOwner conversation current new).isOk = true := by
  simp only [setOwner, there]
  rw [if_pos same]
  rfl

theorem release_ok {owner : Owner} (ok : r.release conversation owner = .ok r') :
    r.ownerOf conversation = some owner ∧ r'.ownerOf conversation = none ∧
      ∀ other ≠ conversation, r'.ownerOf other = r.ownerOf other := by
  unfold release at ok
  split at ok
  case h_2 => simp at ok
  case h_1 row there =>
      split at ok
      case isFalse => simp at ok
      case isTrue same =>
          obtain rfl := Except.ok.inj ok
          refine ⟨by simp [ownerOf, there, same], by simp [ownerOf], fun other ne => ?_⟩
          simp [ownerOf, Function.update_of_ne ne]

/-- The owner of a row can release it. -/
theorem release_of_owner {owner : Owner} (owned : r.ownerOf conversation = some owner) :
    ∃ r', r.release conversation owner = .ok r' := by
  obtain ⟨row, there, same⟩ := Option.bind_eq_some_iff.mp owned
  unfold release
  simp only [there]
  rw [if_pos same]
  exact ⟨_, rfl⟩

/-- A claim that succeeds leaves the child as the owner of its row, and the
other rows as they were. -/
theorem claimOwnership_ok {c : ChildId} (ok : r.claimOwnership conversation c = .ok r') :
    r'.ownerOf conversation = some (.child c) ∧
      ∀ other ≠ conversation, r'.ownerOf other = r.ownerOf other := by
  unfold claimOwnership at ok
  split at ok
  case h_1 r₁ first =>
      obtain rfl := Except.ok.inj ok
      exact (setOwner_ok first).2
  case h_2 =>
      split at ok
      case h_2 => simp at ok
      case h_1 staleOwner =>
          split at ok
          case h_2 => simp at ok
          case h_1 r₁ second =>
              obtain rfl := Except.ok.inj ok
              exact (setOwner_ok second).2

/-- A claim fails only for want of a row. -/
theorem claimOwnership_isOk_iff {c : ChildId} :
    (r.claimOwnership conversation c).isOk = true ↔ (r.rows conversation).isSome = true := by
  unfold claimOwnership
  cases there : r.rows conversation with
  | none => simp [setOwner, there, getRaw, Except.isOk, Except.toBool]
  | some row =>
      cases owner : row.currentOwner with
      | none => simp [setOwner, there, owner, Except.isOk, Except.toBool]
      | some o => simp [setOwner, there, owner, getRaw, Except.isOk, Except.toBool]

theorem ownerOf_insert {sessionFile : String} (ok : r.insert conversation sessionFile = some r') :
    r'.ownerOf other = r.ownerOf other := by
  unfold insert at ok
  split at ok
  case h_1 => simp at ok
  case h_2 absent =>
      obtain rfl := Option.some.inj ok
      by_cases same : other = conversation
      · subst same
        simp [ownerOf, absent]
      · simp [ownerOf, Function.update_of_ne same]

@[simp] theorem ownerOf_list (c : ChildId) : (r.list conversation c).ownerOf other = r.ownerOf other :=
  rfl

@[simp] theorem ownerOf_unlist : (r.unlist conversation).ownerOf other = r.ownerOf other := rfl

theorem ownerOf_forget_self : (r.forget conversation).ownerOf conversation = none := by
  unfold forget
  split
  case h_1 absent => simp [ownerOf, absent]
  case h_2 => simp [ownerOf, unlist]

theorem ownerOf_forget_of_ne (ne : other ≠ conversation) :
    (r.forget conversation).ownerOf other = r.ownerOf other := by
  unfold forget
  split
  · rfl
  · simp [ownerOf, unlist, Function.update_of_ne ne]

end SessionRegistry

end OmpBundler.Core
