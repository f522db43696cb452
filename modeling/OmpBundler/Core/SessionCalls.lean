import OmpBundler.Core.SessionRegistry
import OmpBundler.Library.Transition

/-!
Calls of `getOrCreate` that run beside each other.

A call attaches its child to the session of the conversation: it lets the
child switch to the recorded file, or create a session and report its file.
A call that finds a creation under way waits for it instead, and does not
touch its own child. The commands of a child are carried out one after the
other, but a call learns of it later; between any two pieces of the code
another call may run, or a `forget`.

A creation under way is listed by the number of the call that has started
it.
-/

namespace OmpBundler.Core

open Library Library.Transition

/-- Where a call stands. -/
inductive AttachStage where
  /-- `switch_session` is on its way to the child. -/
  | switching (row : SessionRecord)
  | switched (row : SessionRecord)
  /-- Waiting for the creation that another call has started. -/
  | sharing (creation : ℕ)
  /-- `new_session` is on its way to the child. -/
  | creating (parentSessionFile : Option String)
  | forked
  /-- `get_state` is on its way to the child. -/
  | asking
  /-- The child has reported its session file. -/
  | told (sessionFile : Option String)
  /-- `create` is over, its `finally` callback has not run. -/
  | created (result : Option SessionRecord)
  /-- The promise of the creation has settled. -/
  | settled (result : Option SessionRecord)
  deriving DecidableEq, Repr

/-- The stages of a creation that is listed. -/
def AttachStage.isListed : AttachStage → Bool
  | .creating _ | .forked | .asking | .told _ | .created _ => true
  | _ => false

/-- The stages in which nothing is left to do but to come back. -/
def AttachStage.isDone : AttachStage → Bool
  | .switched _ | .sharing _ | .settled _ => true
  | _ => false

/-- A call of `getOrCreate`. -/
structure SessionCall where
  child : ChildId
  conversation : Conversation
  stage : AttachStage
  /-- Its promise has settled for the caller. -/
  returned : Bool
  deriving DecidableEq, Repr

/-- The registry, the children and the calls. -/
structure SessionCalls where
  registry : SessionRegistry
  /-- The session file that a child has open. -/
  session : ChildId → Option String
  calls : List SessionCall

namespace SessionCalls

/-- A new call. -/
@[simps]
def start (s : SessionCalls) (c : ChildId) (conversation : Conversation) (stage : AttachStage) :
    SessionCalls :=
  { s with calls := s.calls ++ [⟨c, conversation, stage, false⟩] }

/-- The next stage of a call. -/
@[simps]
def moveTo (s : SessionCalls) (k : ℕ) (stage : AttachStage) : SessionCalls :=
  { s with calls := s.calls.modify k fun call => { call with stage } }

/-- A child opens a session. -/
@[simps]
def opens (s : SessionCalls) (c : ChildId) (sessionFile : String) : SessionCalls :=
  { s with session := Function.update s.session c (some sessionFile) }

/-- `create` up to its first `await`: an empty id or key is refused. -/
def create (s : SessionCalls) (conversation : Conversation)
    (parentConversationKey : Option String) : AttachStage :=
  if conversation.adapterId = "" ∨ conversation.conversationKey = "" then .created none
  else .creating (s.registry.parentSessionFile conversation.adapterId parentConversationKey)

/-- `getOrCreate` up to its first `await`. -/
def getOrCreate (s : SessionCalls) (c : ChildId) (conversation : Conversation)
    (parentConversationKey : Option String) : SessionCalls :=
  match s.registry.getRaw conversation with
  | some existing => s.start c conversation (.switching existing)
  | none =>
      match s.registry.inflight conversation with
      | some creation => s.start c conversation (.sharing creation)
      | none =>
          { s.start c conversation (s.create conversation parentConversationKey) with
            registry := s.registry.list conversation s.calls.length }

/-- The child carries out the command of a call; a new session gets the
file. -/
def answer (s : SessionCalls) (k : ℕ) (call : SessionCall) (sessionFile : String) :
    Option SessionCalls :=
  match call.stage with
  | .switching row => some ((s.opens call.child row.sessionFile).moveTo k (.switched row))
  | .creating _ => some ((s.opens call.child sessionFile).moveTo k .forked)
  | .asking => some (s.moveTo k (.told (s.session call.child)))
  | _ => none

/-- `create` goes on with the answer of the child, and its `finally` callback
when it is over. -/
def resume (s : SessionCalls) (k : ℕ) (call : SessionCall) : Option SessionCalls :=
  match call.stage with
  | .forked => some (s.moveTo k .asking)
  | .told none => some (s.moveTo k (.created none))
  | .told (some sessionFile) =>
      if sessionFile = "" then some (s.moveTo k (.created none))
      else
        match s.registry.insert call.conversation sessionFile with
        | some registry =>
            some ({ s with registry }.moveTo k (.created (some ⟨sessionFile, none⟩)))
        | none => some (s.moveTo k (.created none))
  | .created result =>
      some ({ s with registry := s.registry.unlist call.conversation }.moveTo k (.settled result))
  | _ => none

/-- What a call comes back with, once its promise has settled: a record, or
none for an error. -/
def outcome (s : SessionCalls) (call : SessionCall) : Option (Option SessionRecord) :=
  match call.stage with
  | .switched row => some (some row)
  | .settled result => some result
  | .sharing creation =>
      match s.calls[creation]? with
      | some ⟨_, _, .settled result, _⟩ => some result
      | _ => none
  | _ => none

/-- One uninterrupted piece of code, or of the work of a child. -/
inductive Action where
  | getOrCreate (c : ChildId) (conversation : Conversation) (parentConversationKey : Option String)
  | answer (k : ℕ) (sessionFile : String)
  | resume (k : ℕ)
  /-- A call comes back. -/
  | comeBack (k : ℕ)
  | forget (conversation : Conversation)
  deriving DecidableEq, Repr

/-- What an action does; `none` when nothing waits for it. -/
def step (s : SessionCalls) : Action → Option SessionCalls
  | .getOrCreate c conversation parent => some (s.getOrCreate c conversation parent)
  | .answer k sessionFile => s.calls[k]?.bind fun call => s.answer k call sessionFile
  | .resume k => s.calls[k]?.bind fun call => s.resume k call
  | .comeBack k => do
      let call ← s.calls[k]?
      let _ ← s.outcome call
      if call.returned then none
      else some { s with calls := s.calls.modify k fun call => { call with returned := true } }
  | .forget conversation => some { s with registry := s.registry.forget conversation }

/-- The calls as a machine: any table, and children that have any sessions
open. -/
def machine : Transition.Machine SessionCalls Action where
  init s := s.registry.inflight = (fun _ => none) ∧ s.calls = []
  step := step

/-- The call comes back with a record: its child has the session of the
record open, and the record is the row of the conversation. -/
def BacksUp (s : SessionCalls) : Action → Prop
  | .comeBack k => ∀ call row, s.calls[k]? = some call → s.outcome call = some (some row) →
      s.session call.child = some row.sessionFile ∧ s.registry.getRaw call.conversation = some row
  | _ => True

/-- A call shares a creation only with a call of the same child, a child is
in no calls for two conversations, and no row is dropped that a call is
about. -/
def Apart (s : SessionCalls) : Action → Prop
  | .getOrCreate c conversation _ =>
      (∀ call ∈ s.calls, call.returned = false → call.child = c →
        call.conversation = conversation) ∧
      (s.registry.getRaw conversation = none →
        ∀ creation ∈ s.registry.inflight conversation, ∀ call ∈ s.calls[creation]?, call.child = c)
  | .forget conversation =>
      s.registry.getRaw conversation = none ∨
        ∀ call ∈ s.calls, call.returned = false → call.conversation ≠ conversation
  | _ => True

/-! ### What the calls rely on -/

/-- The row of a conversation, with its session open in the child. -/
def Open (s : SessionCalls) (c : ChildId) (conversation : Conversation) (row : SessionRecord) :
    Prop :=
  s.registry.rows conversation = some row ∧ s.session c = some row.sessionFile

/-- The creation of a session is listed for the call, and there is no row. -/
def Creates (s : SessionCalls) (k : ℕ) (conversation : Conversation) : Prop :=
  s.registry.rows conversation = none ∧ s.registry.inflight conversation = some k

/-- A creation that others may share: of the same child and conversation. When
it has settled with a record, the session is open. -/
def Shares (s : SessionCalls) (c : ChildId) (conversation : Conversation) (creation : ℕ) : Prop :=
  ∃ call, s.calls[creation]? = some call ∧ call.child = c ∧ call.conversation = conversation ∧
    ∀ row, call.stage = .settled (some row) → s.Open c conversation row

/-- What a call that has not come back relies on. -/
def Stands (s : SessionCalls) (k : ℕ) (call : SessionCall) : Prop :=
  match call.stage with
  | .switching row => s.registry.rows call.conversation = some row
  | .switched row => s.Open call.child call.conversation row
  | .sharing creation => s.Shares call.child call.conversation creation
  | .creating _ | .forked | .asking => s.Creates k call.conversation
  | .told sessionFile =>
      s.Creates k call.conversation ∧ s.session call.child = sessionFile
  | .created none => s.registry.inflight call.conversation = some k
  | .created (some row) =>
      s.registry.inflight call.conversation = some k ∧ s.Open call.child call.conversation row
  | .settled none => True
  | .settled (some row) => s.Open call.child call.conversation row

/-- What a call may rely on is there in `t`, apart from other calls. -/
structure Leaves (s t : SessionCalls) (k : ℕ) (c : ChildId) (conversation : Conversation) :
    Prop where
  row : ∀ row, s.registry.rows conversation = some row → t.registry.rows conversation = some row
  opened : ∀ row, s.Open c conversation row → t.Open c conversation row
  listed : s.registry.inflight conversation = some k → t.registry.inflight conversation = some k
  creates : s.Creates k conversation → t.Creates k conversation ∧ t.session c = s.session c

/-- And the creations that it may share are. -/
structure Keeps (s t : SessionCalls) (k : ℕ) (c : ChildId) (conversation : Conversation) : Prop
    extends Leaves s t k c conversation where
  shares : ∀ creation, s.Shares c conversation creation → t.Shares c conversation creation

variable {s t : SessionCalls} {k : ℕ} {call : SessionCall} {c : ChildId}
  {conversation : Conversation}

theorem Stands.mono (stands : s.Stands k call) (keeps : Keeps s t k call.child call.conversation) :
    t.Stands k call := by
  unfold Stands at *
  split
  · next row stage =>
    rw [stage] at stands
    exact keeps.row row stands
  · next row stage =>
    rw [stage] at stands
    exact keeps.opened row stands
  · next creation stage =>
    rw [stage] at stands
    exact keeps.shares creation stands
  · next stage =>
    rw [stage] at stands
    exact (keeps.creates stands).1
  · next stage =>
    rw [stage] at stands
    exact (keeps.creates stands).1
  · next stage =>
    rw [stage] at stands
    exact (keeps.creates stands).1
  · next stage =>
    rw [stage] at stands
    exact ⟨(keeps.creates stands.1).1, (keeps.creates stands.1).2.trans stands.2⟩
  · next stage =>
    rw [stage] at stands
    exact keeps.listed stands
  · next row stage =>
    rw [stage] at stands
    exact ⟨keeps.listed stands.1, keeps.opened row stands.2⟩
  · trivial
  · next row stage =>
    rw [stage] at stands
    exact keeps.opened row stands

/-- What the calls of a state have in common: a child is in no calls for two
conversations, every call has what it relies on, and a creation that is
listed goes on. -/
structure Sound (s : SessionCalls) : Prop where
  together : ∀ (j k : ℕ) (d e : SessionCall), s.calls[j]? = some d → s.calls[k]? = some e → d.returned = false →
    e.returned = false → d.child = e.child → d.conversation = e.conversation
  stands : ∀ (k : ℕ) (call : SessionCall), s.calls[k]? = some call → call.returned = false → s.Stands k call
  listed : ∀ (conversation : Conversation) (k : ℕ), s.registry.inflight conversation = some k →
    ∃ call : SessionCall, s.calls[k]? = some call ∧ call.conversation = conversation ∧
      call.stage.isListed = true
  done : ∀ (k : ℕ) (call : SessionCall), s.calls[k]? = some call → call.returned = true → call.stage.isDone = true

/-- A call that has something to do has not come back. -/
theorem Sound.waits (sound : s.Sound) (there : s.calls[k]? = some call)
    (busy : call.stage.isDone = false) : call.returned = false := by
  cases back : call.returned with
  | false => rfl
  | true => exact absurd (sound.done k call there back) (by rw [busy]; decide)

/-! ### New calls -/

theorem getElem?_start {stage : AttachStage} {j : ℕ} {d : SessionCall}
    (there : (s.start c conversation stage).calls[j]? = some d) :
    s.calls[j]? = some d ∨ j = s.calls.length ∧ d = ⟨c, conversation, stage, false⟩ := by
  rw [start_calls] at there
  by_cases old : j < s.calls.length
  · rw [List.getElem?_append_left old] at there
    exact .inl there
  · rw [List.getElem?_append_right (by omega)] at there
    rw [List.getElem?_singleton] at there
    by_cases last : j - s.calls.length = 0
    · rw [if_pos last] at there
      exact .inr ⟨by omega, (Option.some.inj there).symm⟩
    · rw [if_neg last] at there
      cases there

theorem getElem?_start_of_some {stage : AttachStage} {j : ℕ} {d : SessionCall}
    (there : s.calls[j]? = some d) : (s.start c conversation stage).calls[j]? = some d := by
  rw [start_calls, List.getElem?_append_left (List.getElem?_eq_some_iff.mp there).1]
  exact there

/-- A new call that has what it relies on. The creation that it starts is
listed, if it starts one. -/
theorem Sound.start (sound : s.Sound) {stage : AttachStage}
    (apart : ∀ call ∈ s.calls, call.returned = false → call.child = c →
      call.conversation = conversation)
    {inflight : Conversation → Option ChildId}
    (same : inflight = s.registry.inflight ∨ s.registry.inflight conversation = none ∧
      stage.isListed = true ∧
      inflight = Function.update s.registry.inflight conversation (some s.calls.length))
    (stands : Stands ⟨⟨s.registry.rows, inflight⟩, s.session,
      s.calls ++ [⟨c, conversation, stage, false⟩]⟩ s.calls.length ⟨c, conversation, stage, false⟩) :
    Sound ⟨⟨s.registry.rows, inflight⟩, s.session, s.calls ++ [⟨c, conversation, stage, false⟩]⟩ := by
  have kept : ∀ v k, s.registry.inflight v = some k → inflight v = some k := by
    intro v k listed
    rcases same with rfl | ⟨vacant, -, rfl⟩
    · exact listed
    · by_cases here : v = conversation
      · rw [here, vacant] at listed
        cases listed
      · rw [Function.update_of_ne here]
        exact listed
  have older : ∀ {k : ℕ} {d : SessionCall}, s.calls[k]? = some d →
      (s.calls ++ [⟨c, conversation, stage, false⟩])[k]? = some d := by
    intro k d there
    rw [List.getElem?_append_left (List.getElem?_eq_some_iff.mp there).1]
    exact there
  refine ⟨fun j k d e first second runs runs' one => ?_, fun k call there waits => ?_,
    fun v k listed => ?_, fun k call there back => ?_⟩
  · rcases getElem?_start first with old | ⟨rfl, rfl⟩
    · rcases getElem?_start second with old' | ⟨rfl, rfl⟩
      · exact sound.together j k d e old old' runs runs' one
      · exact apart d (List.mem_of_getElem? old) runs one
    · rcases getElem?_start second with old' | ⟨rfl, rfl⟩
      · exact (apart e (List.mem_of_getElem? old') runs' one.symm).symm
      · rfl
  · rcases getElem?_start there with old | ⟨rfl, rfl⟩
    · refine (sound.stands k call old waits).mono ⟨⟨fun row => id, fun row => id, kept _ k,
        fun creates => ⟨⟨creates.1, kept _ k creates.2⟩, rfl⟩⟩, ?_⟩
      rintro creation ⟨d, there', child, same', opened⟩
      exact ⟨d, older there', child, same', opened⟩
    · exact stands
  · have listed : inflight v = some k := listed
    rcases same with rfl | ⟨vacant, isListed, rfl⟩
    · obtain ⟨d, there, own, stage⟩ := sound.listed v k listed
      exact ⟨d, older there, own, stage⟩
    · by_cases here : v = conversation
      · subst here
        rw [Function.update_self] at listed
        obtain rfl := Option.some.inj listed
        refine ⟨⟨c, v, stage, false⟩, ?_, rfl, isListed⟩
        rw [List.getElem?_append_right (Nat.le_refl _), Nat.sub_self]
        rfl
      · rw [Function.update_of_ne here] at listed
        obtain ⟨d, there, own, stage⟩ := sound.listed v k listed
        exact ⟨d, older there, own, stage⟩
  · rcases getElem?_start there with old | ⟨rfl, rfl⟩
    · exact sound.done k call old back
    · cases back

/-- `getOrCreate` up to its first `await`. -/
theorem Sound.getOrCreate (sound : s.Sound) (parent : Option String)
    (apart : s.Apart (.getOrCreate c conversation parent)) :
    (s.getOrCreate c conversation parent).Sound := by
  obtain ⟨alone, sharing⟩ := apart
  unfold SessionCalls.getOrCreate
  split
  · next row there => exact sound.start alone (.inl rfl) there
  · next vacant =>
    split
    · next creation listed =>
      obtain ⟨d, there, own, stage⟩ := sound.listed conversation creation listed
      refine sound.start alone (.inl rfl) ?_
      have child := sharing vacant creation listed d there
      exact ⟨d, getElem?_start_of_some there, child, own, fun row settled => by
        rw [settled] at stage
        cases stage⟩
    · next unlisted =>
      rw [create]
      have listed : Function.update s.registry.inflight conversation (some s.calls.length)
          conversation = some s.calls.length := Function.update_self ..
      split_ifs with empty
      · exact sound.start alone (.inr ⟨unlisted, rfl, rfl⟩) listed
      · exact sound.start alone (.inr ⟨unlisted, rfl, rfl⟩) ⟨vacant, listed⟩

/-! ### The next stage of a call -/

theorem getElem?_moveTo {stage : AttachStage} {j : ℕ} {d : SessionCall}
    (there : (s.moveTo k stage).calls[j]? = some d) :
    ∃ old, s.calls[j]? = some old ∧ d.child = old.child ∧ d.conversation = old.conversation ∧
      d.returned = old.returned ∧ (k = j → d.stage = stage) ∧ (k ≠ j → d = old) := by
  rw [moveTo_calls, List.getElem?_modify] at there
  obtain ⟨old, was, rfl⟩ := Option.map_eq_some_iff.mp there
  refine ⟨old, was, ?_⟩
  by_cases here : k = j
  · rw [if_pos here]
    exact ⟨rfl, rfl, rfl, fun _ => rfl, fun other => absurd here other⟩
  · rw [if_neg here]
    exact ⟨rfl, rfl, rfl, fun same => absurd same here, fun _ => rfl⟩

theorem getElem?_moveTo_of_some {stage : AttachStage} {j : ℕ} {d : SessionCall}
    (there : s.calls[j]? = some d) :
    ∃ d', (s.moveTo k stage).calls[j]? = some d' ∧ d'.child = d.child ∧
      d'.conversation = d.conversation ∧ (k = j → d'.stage = stage) ∧ (k ≠ j → d' = d) := by
  refine ⟨_, by rw [moveTo_calls, List.getElem?_modify, there]; rfl, ?_⟩
  dsimp only
  by_cases here : k = j
  · rw [if_pos here]
    exact ⟨rfl, rfl, fun _ => rfl, fun other => absurd here other⟩
  · rw [if_neg here]
    exact ⟨rfl, rfl, fun same => absurd same here, fun _ => rfl⟩

/-- A call that goes on: it has what it relies on then, the others keep it,
and it is listed as long as it has to be. -/
theorem Sound.moveTo (sound : s.Sound) (there : s.calls[k]? = some call)
    (waits : call.returned = false) (stage : AttachStage) (calls : t.calls = s.calls)
    (leaves : ∀ j other, k ≠ j → s.calls[j]? = some other → other.returned = false →
      Leaves s t j other.child other.conversation)
    (stands : Stands (t.moveTo k stage) k { call with stage })
    (settles : ∀ row, stage = .settled (some row) → t.Open call.child call.conversation row)
    (listed : ∀ v j, t.registry.inflight v = some j →
      s.registry.inflight v = some j ∧ (k = j → stage.isListed = true)) :
    (t.moveTo k stage).Sound := by
  have back {j : ℕ} {d : SessionCall} (mem : (t.moveTo k stage).calls[j]? = some d) :
      ∃ old, s.calls[j]? = some old ∧ d.child = old.child ∧ d.conversation = old.conversation ∧
        d.returned = old.returned ∧ (k = j → d.stage = stage) ∧ (k ≠ j → d = old) := by
    rw [← calls]
    exact getElem?_moveTo mem
  have onward {j : ℕ} {d : SessionCall} (mem : s.calls[j]? = some d) :
      ∃ d', (t.moveTo k stage).calls[j]? = some d' ∧ d'.child = d.child ∧
        d'.conversation = d.conversation ∧ (k = j → d'.stage = stage) ∧ (k ≠ j → d' = d) := by
    rw [← calls] at mem
    exact getElem?_moveTo_of_some mem
  refine ⟨fun j i d e first second runs runs' one => ?_, fun j d mem runs => ?_,
    fun v j isListed => ?_, fun j d mem returned => ?_⟩
  · obtain ⟨old, was, child, own, ran, -, -⟩ := back first
    obtain ⟨old', was', child', own', ran', -, -⟩ := back second
    rw [own, own']
    exact sound.together j i old old' was was' (ran ▸ runs) (ran' ▸ runs')
      (by rw [← child, ← child', one])
  · obtain ⟨old, was, child, own, ran, here, other⟩ := back mem
    by_cases same : k = j
    · subst same
      obtain rfl : call = old := Option.some.inj (there.symm.trans was)
      have moved : d = { call with stage } := by
        cases d
        cases call
        simp_all
      rw [moved]
      exact stands
    · obtain rfl := other same
      have left := leaves j d same was runs
      refine (sound.stands j d was runs).mono
        ⟨⟨left.row, left.opened, left.listed, left.creates⟩, ?_⟩
      rintro creation ⟨e, mem', child', own', opened⟩
      obtain ⟨e', mem'', child'', own'', here', other'⟩ := onward mem'
      refine ⟨e', mem'', child''.trans child', own''.trans own', fun row settled => ?_⟩
      by_cases created : k = creation
      · subst created
        obtain rfl : call = e := Option.some.inj (there.symm.trans mem')
        have opens := settles row ((here' rfl).symm.trans settled)
        rw [child', own'] at opens
        exact opens
      · obtain rfl := other' created
        exact left.opened row (opened row settled)
  · obtain ⟨was, still⟩ := listed v j isListed
    obtain ⟨d, mem, own, stage'⟩ := sound.listed v j was
    obtain ⟨d', mem', -, own', here, other⟩ := onward mem
    refine ⟨d', mem', own'.trans own, ?_⟩
    by_cases same : k = j
    · rw [here same]
      exact still same
    · rw [other same]
      exact stage'
  · obtain ⟨old, was, child, own, ran, here, other⟩ := back mem
    by_cases same : k = j
    · subst same
      obtain rfl : call = old := Option.some.inj (there.symm.trans was)
      rw [← ran, returned] at waits
      cases waits
    · obtain rfl := other same
      exact sound.done j d was returned

theorem Leaves.refl (s : SessionCalls) (k : ℕ) (c : ChildId) (conversation : Conversation) :
    Leaves s s k c conversation :=
  ⟨fun _ => id, fun _ => id, id, fun creates => ⟨creates, rfl⟩⟩

/-- A step that changes nothing but the stage of a call. -/
theorem Sound.moveTo_same (sound : s.Sound) (there : s.calls[k]? = some call)
    (waits : call.returned = false) (stage : AttachStage)
    (stands : Stands (s.moveTo k stage) k { call with stage })
    (settles : ∀ row, stage = .settled (some row) → s.Open call.child call.conversation row)
    (listed : stage.isListed = true) : (s.moveTo k stage).Sound :=
  sound.moveTo there waits stage rfl (fun _ _ _ _ _ => .refl ..) stands settles
    fun _ _ isListed => ⟨isListed, fun _ => listed⟩

/-- A child opens the session of a call: the other calls of the child are for
the same conversation. -/
theorem Sound.leaves_opens (sound : s.Sound) (there : s.calls[k]? = some call)
    (waits : call.returned = false) {sessionFile : String}
    (own : (∀ row, s.registry.rows call.conversation = some row → row.sessionFile = sessionFile))
    (alone : ∀ j, k ≠ j → ¬ s.Creates j call.conversation) (j : ℕ) (other : SessionCall)
    (ne : k ≠ j) (mem : s.calls[j]? = some other) (runs : other.returned = false) :
    Leaves s (s.opens call.child sessionFile) j other.child other.conversation := by
  by_cases same : other.child = call.child
  · have one := sound.together j k other call mem there runs waits same
    refine ⟨fun _ => id, fun row opened => ?_, id, fun creates => ?_⟩
    · rw [one] at opened ⊢
      refine ⟨opened.1, ?_⟩
      rw [opens_session, same, Function.update_self, own row opened.1]
    · rw [one] at creates
      exact absurd creates (alone j ne)
  · have untouched : (s.opens call.child sessionFile).session other.child =
        s.session other.child := by
      rw [opens_session, Function.update_of_ne same]
    exact ⟨fun _ => id, fun row opened => ⟨opened.1, untouched.trans opened.2⟩, id,
      fun creates => ⟨creates, untouched⟩⟩

/-- The child carries out the command of a call. -/
theorem Sound.answer (sound : s.Sound) (there : s.calls[k]? = some call) {sessionFile : String}
    (taken : s.answer k call sessionFile = some t) : t.Sound := by
  unfold SessionCalls.answer at taken
  split at taken
  · next row stage =>
    obtain rfl := Option.some.inj taken
    have waits := sound.waits there (by rw [stage]; rfl)
    have stands := sound.stands k call there waits
    rw [Stands, stage] at stands
    refine sound.moveTo there waits _ rfl (sound.leaves_opens there waits ?_ ?_) ?_ nofun ?_
    · intro row' known
      rw [stands] at known
      rw [Option.some.inj known]
    · rintro j - ⟨vacant, -⟩
      rw [stands] at vacant
      cases vacant
    · exact ⟨stands, Function.update_self ..⟩
    · intro v j listed
      refine ⟨listed, fun same => ?_⟩
      obtain ⟨d, mem, -, isListed⟩ := sound.listed v j listed
      rw [← same, there] at mem
      rw [← Option.some.inj mem, stage] at isListed
      cases isListed
  · next parent stage =>
    obtain rfl := Option.some.inj taken
    have waits := sound.waits there (by rw [stage]; rfl)
    have stands := sound.stands k call there waits
    rw [Stands, stage] at stands
    refine sound.moveTo there waits _ rfl (sound.leaves_opens there waits ?_ ?_) stands nofun
      fun _ _ listed => ⟨listed, fun _ => rfl⟩
    · intro row known
      rw [stands.1] at known
      cases known
    · rintro j ne ⟨-, listed⟩
      rw [stands.2] at listed
      exact ne (Option.some.inj listed)
  · next stage =>
    obtain rfl := Option.some.inj taken
    have waits := sound.waits there (by rw [stage]; rfl)
    have stands := sound.stands k call there waits
    rw [Stands, stage] at stands
    exact sound.moveTo_same there waits _ ⟨stands, rfl⟩ nofun rfl
  · cases taken

/-- The row of a new session comes in. -/
theorem leaves_insert (creates : s.Creates k call.conversation) {row : SessionRecord} (j : ℕ)
    (other : SessionCall) (ne : k ≠ j) :
    Leaves s { s with registry := { s.registry with
      rows := Function.update s.registry.rows call.conversation (some row) } }
      j other.child other.conversation := by
  obtain ⟨vacant, listed⟩ := creates
  by_cases same : other.conversation = call.conversation
  · rw [same]
    refine ⟨fun row known => ?_, fun row opened => ?_, id, fun creates => ?_⟩
    · rw [vacant] at known
      cases known
    · rw [Open, vacant] at opened
      cases opened.1
    · rw [Creates, listed] at creates
      exact absurd (Option.some.inj creates.2) ne
  · have untouched : Function.update s.registry.rows call.conversation (some row)
        other.conversation = s.registry.rows other.conversation := Function.update_of_ne same _ _
    exact ⟨fun _ known => untouched.trans known, fun _ opened => ⟨untouched.trans opened.1, opened.2⟩,
      id, fun creates => ⟨⟨untouched.trans creates.1, creates.2⟩, rfl⟩⟩

/-- A creation is not listed any more. -/
theorem leaves_unlist (listed : s.registry.inflight conversation = some k) (j : ℕ)
    (other : SessionCall) (ne : k ≠ j) :
    Leaves s { s with registry := s.registry.unlist conversation } j other.child
      other.conversation := by
  have kept : s.registry.inflight other.conversation = some j →
      Function.update s.registry.inflight conversation none other.conversation = some j := by
    intro own
    by_cases same : other.conversation = conversation
    · rw [same, listed] at own
      exact absurd (Option.some.inj own) ne
    · rw [Function.update_of_ne same]
      exact own
  exact ⟨fun _ => id, fun _ => id, kept, fun creates => ⟨⟨creates.1, kept creates.2⟩, rfl⟩⟩

/-- `create` goes on. -/
theorem Sound.resume (sound : s.Sound) (there : s.calls[k]? = some call)
    (taken : s.resume k call = some t) : t.Sound := by
  unfold SessionCalls.resume at taken
  split at taken
  · next stage =>
    obtain rfl := Option.some.inj taken
    have waits := sound.waits there (by rw [stage]; rfl)
    have stands := sound.stands k call there waits
    rw [Stands, stage] at stands
    exact sound.moveTo_same there waits _ stands nofun rfl
  · next stage =>
    obtain rfl := Option.some.inj taken
    have waits := sound.waits there (by rw [stage]; rfl)
    have stands := sound.stands k call there waits
    rw [Stands, stage] at stands
    exact sound.moveTo_same there waits _ stands.1.2 nofun rfl
  · next sessionFile stage =>
    have waits := sound.waits there (by rw [stage]; rfl)
    have stands := sound.stands k call there waits
    rw [Stands, stage] at stands
    obtain ⟨creates, opened⟩ := stands
    split_ifs at taken with empty
    · obtain rfl := Option.some.inj taken
      exact sound.moveTo_same there waits _ creates.2 nofun rfl
    · rw [SessionRegistry.insert, creates.1] at taken
      obtain rfl := Option.some.inj taken
      refine sound.moveTo there waits _ rfl
        (fun j other ne _ _ => leaves_insert creates j other ne) ?_ nofun
        fun _ _ listed => ⟨listed, fun _ => rfl⟩
      exact ⟨creates.2, Function.update_self .., opened⟩
  · next result stage =>
    obtain rfl := Option.some.inj taken
    have waits := sound.waits there (by rw [stage]; rfl)
    have stands := sound.stands k call there waits
    have listed : s.registry.inflight call.conversation = some k := by
      rw [Stands, stage] at stands
      cases result with
      | none => exact stands
      | some row => exact stands.1
    have opened : ∀ row, result = some row → s.Open call.child call.conversation row := by
      rintro row rfl
      rw [Stands, stage] at stands
      exact stands.2
    refine sound.moveTo there waits _ rfl
      (fun j other ne _ _ => leaves_unlist listed j other ne) ?_ ?_ ?_
    · cases result with
      | none => trivial
      | some row => exact opened row rfl
    · rintro row settled
      exact opened row (AttachStage.settled.inj settled)
    · intro v j still
      have still : Function.update s.registry.inflight call.conversation none v = some j := still
      by_cases same : v = call.conversation
      · rw [same, Function.update_self] at still
        cases still
      · rw [Function.update_of_ne same] at still
        refine ⟨still, fun own => ?_⟩
        obtain ⟨d, mem, here, -⟩ := sound.listed v j still
        rw [← own, there] at mem
        exact absurd (here.symm.trans (congrArg SessionCall.conversation (Option.some.inj mem.symm)))
          same
  · cases taken

/-- A call comes back. -/
theorem Sound.comeBack (sound : s.Sound) (there : s.calls[k]? = some call)
    (comes : (s.outcome call).isSome = true) :
    Sound { s with calls := s.calls.modify k fun call => { call with returned := true } } := by
  have finished : call.stage.isDone = true := by
    unfold outcome at comes
    split at comes
    · next stage => rw [stage]; rfl
    · next stage => rw [stage]; rfl
    · next stage => rw [stage]; rfl
    · cases comes
  have back {j : ℕ} {d : SessionCall}
      (mem : (s.calls.modify k fun call => { call with returned := true })[j]? = some d) :
      ∃ old, s.calls[j]? = some old ∧ d.child = old.child ∧ d.conversation = old.conversation ∧
        d.stage = old.stage ∧ (d.returned = false → d = old) ∧ (k ≠ j → d = old) := by
    rw [List.getElem?_modify] at mem
    obtain ⟨old, was, rfl⟩ := Option.map_eq_some_iff.mp mem
    refine ⟨old, was, ?_⟩
    by_cases here : k = j
    · rw [if_pos here]
      exact ⟨rfl, rfl, rfl, nofun, fun other => absurd here other⟩
    · rw [if_neg here]
      exact ⟨rfl, rfl, rfl, fun _ => rfl, fun _ => rfl⟩
  have onward {j : ℕ} {d : SessionCall} (mem : s.calls[j]? = some d) :
      ∃ d', (s.calls.modify k fun call => { call with returned := true })[j]? = some d' ∧
        d'.child = d.child ∧ d'.conversation = d.conversation ∧ d'.stage = d.stage := by
    refine ⟨_, by rw [List.getElem?_modify, mem]; rfl, ?_⟩
    dsimp only
    split_ifs <;> exact ⟨rfl, rfl, rfl⟩
  refine ⟨fun j i d e first second runs runs' one => ?_, fun j d mem runs => ?_,
    fun v j isListed => ?_, fun j d mem returned => ?_⟩
  · obtain ⟨old, was, -, -, -, same, -⟩ := back first
    obtain ⟨old', was', -, -, -, same', -⟩ := back second
    obtain rfl := same runs
    obtain rfl := same' runs'
    exact sound.together j i d e was was' runs runs' one
  · obtain ⟨old, was, -, -, -, same, -⟩ := back mem
    obtain rfl := same runs
    refine (sound.stands j d was runs).mono
      ⟨⟨fun _ => id, fun _ => id, id, fun creates => ⟨creates, rfl⟩⟩, ?_⟩
    rintro creation ⟨e, mem', child, own, opened⟩
    obtain ⟨e', mem'', child', own', stage⟩ := onward mem'
    exact ⟨e', mem'', child'.trans child, own'.trans own, fun row settled =>
      opened row (stage ▸ settled)⟩
  · obtain ⟨d, mem, own, stage⟩ := sound.listed v j isListed
    obtain ⟨d', mem', -, own', stage'⟩ := onward mem
    exact ⟨d', mem', own'.trans own, by rw [stage', stage]⟩
  · obtain ⟨old, was, -, -, stage, -, other⟩ := back mem
    by_cases here : k = j
    · subst here
      obtain rfl : call = old := Option.some.inj (there.symm.trans was)
      rw [stage]
      exact finished
    · obtain rfl := other here
      exact sound.done j d was returned

/-- A row is dropped that no call is about. -/
theorem Sound.forget (sound : s.Sound) (apart : s.Apart (.forget conversation)) :
    Sound { s with registry := s.registry.forget conversation } := by
  rw [SessionRegistry.forget]
  split
  · exact sound
  · next row known =>
    have free : ∀ call ∈ s.calls, call.returned = false → call.conversation ≠ conversation := by
      rcases apart with vacant | free
      · rw [SessionRegistry.getRaw, known] at vacant
        cases vacant
      · exact free
    have rows {v : Conversation} (ne : v ≠ conversation) :
        Function.update s.registry.rows conversation none v = s.registry.rows v :=
      Function.update_of_ne ne _ _
    have inflight {v : Conversation} (ne : v ≠ conversation) :
        Function.update s.registry.inflight conversation none v = s.registry.inflight v :=
      Function.update_of_ne ne _ _
    refine ⟨sound.together, fun j d mem runs => ?_, fun v j isListed => ?_, sound.done⟩
    · have ne := free d (List.mem_of_getElem? mem) runs
      refine (sound.stands j d mem runs).mono ⟨⟨fun _ known => (rows ne).trans known,
        fun _ opened => ⟨(rows ne).trans opened.1, opened.2⟩,
        fun listed => (inflight ne).trans listed,
        fun creates => ⟨⟨(rows ne).trans creates.1, (inflight ne).trans creates.2⟩, rfl⟩⟩, ?_⟩
      rintro creation ⟨e, mem', child, own, opened⟩
      exact ⟨e, mem', child, own, fun row settled =>
        ⟨(rows ne).trans (opened row settled).1, (opened row settled).2⟩⟩
    · have isListed : Function.update s.registry.inflight conversation none v = some j := isListed
      by_cases here : v = conversation
      · rw [here, Function.update_self] at isListed
        cases isListed
      · rw [inflight here] at isListed
        exact sound.listed v j isListed

/-! ### Runs -/

theorem Sound.step {a : Action} (sound : s.Sound) (apart : s.Apart a) (taken : s.step a = some t) :
    t.Sound := by
  cases a with
  | getOrCreate c conversation parent =>
    obtain rfl := Option.some.inj taken
    exact sound.getOrCreate parent apart
  | answer k sessionFile =>
    obtain ⟨call, there, taken⟩ := Option.bind_eq_some_iff.mp taken
    exact sound.answer there taken
  | resume k =>
    obtain ⟨call, there, taken⟩ := Option.bind_eq_some_iff.mp taken
    exact sound.resume there taken
  | comeBack k =>
    obtain ⟨call, there, taken⟩ := Option.bind_eq_some_iff.mp taken
    obtain ⟨result, comes, taken⟩ := Option.bind_eq_some_iff.mp taken
    split_ifs at taken
    obtain rfl := Option.some.inj taken
    exact sound.comeBack there (by rw [comes]; rfl)
  | forget conversation =>
    obtain rfl := Option.some.inj taken
    exact sound.forget apart

theorem sound_of_reachable (reach : machine.Reachable Apart s) : s.Sound := by
  refine reach.invariant (fun s initial => ?_) fun s a t sound apart taken => sound.step apart taken
  obtain ⟨unlisted, none⟩ := initial
  refine ⟨?_, ?_, ?_, ?_⟩
  · intro j k d e first
    rw [none] at first
    cases first
  · intro k call there
    rw [none] at there
    cases there
  · intro conversation k listed
    rw [unlisted] at listed
    cases listed
  · intro k call there
    rw [none] at there
    cases there

/-- In a run in which the calls are apart, a call that comes back with a
record has attached its own child to the session of the record, and the
record is the row of the conversation. -/
theorem getOrCreate_attaches (s : SessionCalls) (reach : machine.Reachable Apart s) (a : Action)
    (t : SessionCalls) (taken : s.step a = some t) : s.BacksUp a := by
  have sound := sound_of_reachable reach
  cases a with
  | comeBack k =>
    intro call row there comes
    obtain ⟨call', there', taken⟩ := Option.bind_eq_some_iff.mp taken
    obtain ⟨result, -, taken⟩ := Option.bind_eq_some_iff.mp taken
    obtain rfl : call = call' := Option.some.inj (there.symm.trans there')
    have waits : call.returned = false := by
      cases back : call.returned with
      | false => rfl
      | true =>
        rw [back] at taken
        cases taken
    have stands := sound.stands k call there waits
    have opened : s.Open call.child call.conversation row := by
      unfold outcome at comes
      unfold Stands at stands
      split at comes
      · next stage =>
        rw [stage] at stands
        obtain rfl := Option.some.inj (Option.some.inj comes)
        exact stands
      · next stage =>
        rw [stage] at stands
        obtain rfl := Option.some.inj comes
        exact stands
      · next creation stage =>
        rw [stage] at stands
        obtain ⟨d, mem, child, own, opened⟩ := stands
        rw [mem] at comes
        obtain ⟨c, v, stage', returned⟩ := d
        split at comes
        · next settled =>
          obtain rfl := Option.some.inj comes
          obtain ⟨-, -, rfl, -⟩ := SessionCall.mk.inj (Option.some.inj settled)
          exact opened row rfl
        · cases comes
      · cases comes
    exact ⟨opened.2, opened.1⟩
  | _ => trivial

/-! ### Two calls for one room -/

instance (s : SessionCalls) (a : Action) : Decidable (s.Apart a) :=
  match a with
  | .getOrCreate _ _ _ => inferInstanceAs (Decidable (_ ∧ _))
  | .forget _ => inferInstanceAs (Decidable (_ ∨ _))
  | .answer _ _ | .resume _ | .comeBack _ => inferInstanceAs (Decidable True)

/-- No rows, and no sessions. -/
def emptyRegistry : SessionCalls := ⟨⟨fun _ => none, fun _ => none⟩, fun _ => none, []⟩

/-- The first call creates the session, and a second one with the given child
waits for it. -/
def secondCall (c : ChildId) : List Action :=
  [.getOrCreate 0 ⟨"chat", "room"⟩ none, .getOrCreate c ⟨"chat", "room"⟩ none,
    .answer 0 "room.jsonl", .resume 0, .answer 0 "", .resume 0, .resume 0]

/-- The record that the second call comes back with, and the session of its
child then. -/
def secondResult (s : SessionCalls) : Option (Option SessionRecord × Option String × Bool) :=
  s.calls[1]?.bind fun call => (s.outcome call).map fun result =>
    (result, s.session call.child, (s.step (.comeBack 1)).isSome)

/-- The second child has no session open. -/
theorem shared_creation_attaches_one_child :
    ¬ ∀ s, machine.Reachable Always s → ∀ a t, s.step a = some t → s.BacksUp a := by
  intro literal
  have run : ((machine.exec Always emptyRegistry (secondCall 1)).bind secondResult) =
      some (some ⟨"room.jsonl", none⟩, none, true) := by decide +kernel
  obtain ⟨s, reached, second⟩ := Option.bind_eq_some_iff.mp run
  obtain ⟨call, there, second⟩ := Option.bind_eq_some_iff.mp second
  obtain ⟨result, comes, same⟩ := Option.map_eq_some_iff.mp second
  obtain ⟨rfl, unopened, back⟩ : result = some ⟨"room.jsonl", none⟩ ∧
      s.session call.child = none ∧ (s.step (.comeBack 1)).isSome = true := by
    simpa using same
  obtain ⟨t, taken⟩ := Option.isSome_iff_exists.mp back
  have opened := (literal s (.of_exec ⟨rfl, rfl⟩ reached) _ t taken call _ there comes).1
  rw [unopened] at opened
  cases opened

/-- With the same child, the second call is attached too. -/
theorem getOrCreate_attaches_sameChild :
    ∃ s, machine.Reachable Apart s ∧ s.BacksUp (.comeBack 1) ∧
      s.secondResult = some (some ⟨"room.jsonl", none⟩, some "room.jsonl", true) := by
  have run : ((machine.exec Apart emptyRegistry (secondCall 0)).bind secondResult) =
      some (some ⟨"room.jsonl", none⟩, some "room.jsonl", true) := by decide +kernel
  obtain ⟨s, reached, second⟩ := Option.bind_eq_some_iff.mp run
  have reach : machine.Reachable Apart s := .of_exec ⟨rfl, rfl⟩ reached
  refine ⟨s, reach, ?_, second⟩
  obtain ⟨call, there, second⟩ := Option.bind_eq_some_iff.mp second
  obtain ⟨result, comes, same⟩ := Option.map_eq_some_iff.mp second
  have back : (s.step (.comeBack 1)).isSome = true := (Prod.mk.inj (Prod.mk.inj same).2).2
  obtain ⟨t, taken⟩ := Option.isSome_iff_exists.mp back
  exact getOrCreate_attaches s reach _ t taken

end SessionCalls

end OmpBundler.Core
