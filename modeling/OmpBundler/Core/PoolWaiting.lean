import OmpBundler.Core.PoolCapacity
import OmpBundler.Core.PoolHolding

/-!
Who will serve the wait queue.

The queue is served by `drainWaiters` only, which the code calls at the end
of some operations and not of others. Whoever waits is therefore safe as
long as one of three things holds: an operation that ends with such a call
is under way (`drainPending`), the caller at the head waits for the child
of its own conversation, whose release serves the queue, or there is no
slot to be had (`full`): every slot is taken, and every child in the map is
in use or about to be handed to a caller.

`Watched` says that one of them holds. Serving the queue establishes it, and
`Timely` names what each of the operations that do not serve the queue has
to find in order to keep it.
-/

namespace OmpBundler.Core

open Library

/-- The caller of an eviction for capacity. -/
def Task.caller : Task → Option EvictCaller
  | .evict (.capacity caller _ _) _ _ _ => some caller
  | .evict .idle _ _ _ | .evict .retire _ _ _ => none
  | .decided caller _ => some caller
  | .drainTail => none

/-- Whether a suspended operation ends with serving the wait queue. All do
but an eviction that `acquire` has asked for. -/
def Task.drains (x : Task) : Bool :=
  match x.caller with
  | some (.acquire _ _) => false
  | _ => true

/-- Whether a suspended operation belongs to the wait queue's own eviction. -/
def Task.ownEviction (x : Task) : Bool := x.caller = some .drain || x = .drainTail

/-- Whether a slot has been freed for an `acquire` that has not taken it. -/
def Task.promisesSlot : Task → Bool
  | .evict (.capacity (.acquire _ _) _ _) _ _ (.returned .ok) => true
  | .decided (.acquire _ _) .ok => true
  | _ => false

/-- Whether the code after a creation serves the wait queue. -/
def Continuation.drains : Continuation → Bool
  | .acquireNew _ | .acquireInflight _ => false
  | .drainNew _ | .drainInflight _ => true

theorem Task.drains_of_ownEviction {x : Task} (own : x.ownEviction = true) :
    x.drains = true := by
  simp only [Task.ownEviction, Bool.or_eq_true, decide_eq_true_eq] at own
  rcases own with caller | rfl
  · simp [Task.drains, caller]
  · rfl

namespace PoolManager

/-- Something that ends with serving the wait queue is under way. -/
def drainPending (s : PoolManager) : Bool :=
  s.tasks.any Task.drains || s.continuations.any fun x => x.2.drains

/-- The conversation of a caller has its child in the map, in use. -/
def usesOwn (s : PoolManager) (w : Waiter) : Bool :=
  (s.entries.get w.conversation.id).any fun c => (s.entryOf c).inUse

/-- A caller waits for the creation of this child. -/
def pledged (s : PoolManager) (c : ChildId) : Bool := s.continuations.any fun x => x.1 = c

/-- The child is in use, or about to be handed to a caller. -/
def spoken (s : PoolManager) (c : ChildId) : Bool := (s.entryOf c).inUse || s.pledged c

/-- The slots that are occupied or promised. -/
def slotsTaken (s : PoolManager) : ℕ := s.occupiedSlots + s.tasks.countP Task.promisesSlot

/-- There is no slot to be had. -/
def full (s : PoolManager) : Bool :=
  s.maxChildren ≤ s.slotsTaken && s.entries.values.all s.spoken

/-- The head of the wait queue will be served by an operation under way or
by the release of its own conversation's child. -/
def attended (s : PoolManager) : Bool := s.drainPending || s.waiters.head?.all s.usesOwn

/-- A caller that joins the wait queue now is in time to be served. -/
def joins (s : PoolManager) (w : Waiter) : Bool :=
  !s.waiters.isEmpty || s.drainPending || s.usesOwn w || s.full

/-- What the operations that do not serve the wait queue have to find. -/
def Timely (s : PoolManager) : Action → Prop
  | .resume k (.acquireInflight w) => ∀ cr ∈ s.creationOf k, cr.phase = .resolved →
      s.closed = false → (s.entryOf k).inUse = true → s.joins w = true
  | .advance (.decided (.acquire w _) .allInUse) => s.closed = false ∧ s.joins w = true
  | .advance (.decided (.acquire w _) .ok) => s.closed = false →
      (s.inflight.get w.conversation.id).isSome → s.attended = true ∨ s.maxChildren < s.slotsTaken
  | .advance (.evict (.capacity (.acquire _ _) _ _) id c (.tornDown (.closeFailed _))) =>
      s.drainPending = true ∨
        (s.pledged c = true ∧ s.full = true ∧ s.entries.get id = none) ∨
          ∀ w ∈ s.waiters.head?, s.usesOwn w = true ∧ w.conversation.id ≠ id
  | .attached k .done => ∀ cr ∈ s.creationOf k, s.drainPending = true ∨ s.full = true ∨
      ∀ w ∈ s.waiters.head?, w.conversation.id ≠ cr.conversation.id
  | .finished _ => s.attended = true ∨ s.maxChildren < s.slotsTaken
  | a => s.closed = false → a.failsToRetire = false

instance (s : PoolManager) (a : Action) : Decidable (s.Timely a) := by
  unfold Timely
  split <;> infer_instance

variable {s t : PoolManager}

theorem full_iff : s.full = true ↔ s.maxChildren ≤ s.slotsTaken ∧
    ∀ id c, s.entries.get id = some c → s.spoken c = true := by
  simp only [full, Bool.and_eq_true, decide_eq_true_eq, List.all_eq_true, OrderedMap.values,
    List.mem_map, Prod.exists, exists_eq_right, OrderedMap.mem_entries]
  refine and_congr_right fun _ => ⟨fun all id c there => all c ⟨id, there⟩, ?_⟩
  rintro all c ⟨id, there⟩
  exact all id c there

theorem usesOwn_iff {w : Waiter} : s.usesOwn w = true ↔
    ∃ c, s.entries.get w.conversation.id = some c ∧ (s.entryOf c).inUse = true := by
  simp [usesOwn, Option.any_eq_true]

/-- The wait queue's eviction is under way when its flag says so. -/
def Flagged (s : PoolManager) : Prop :=
  s.drainEviction = true → ∃ x ∈ s.tasks, x.ownEviction = true

/-- The flag is right, and the head of the queue waits for something. -/
structure Watched (s : PoolManager) : Prop where
  flag : s.Flagged
  head : s.attended = true ∨ s.full = true

theorem drainPending_of_task {x : Task} (mem : x ∈ s.tasks) (drains : x.drains = true) :
    s.drainPending = true := by
  simp only [drainPending, Bool.or_eq_true, List.any_eq_true]
  exact .inl ⟨x, mem, drains⟩

theorem drainPending_of_continuation (k : ChildId) (rest : Continuation)
    (mem : (k, rest) ∈ s.continuations) (drains : rest.drains = true) :
    s.drainPending = true := by
  simp only [drainPending, Bool.or_eq_true, List.any_eq_true]
  exact .inr ⟨_, mem, drains⟩

theorem attended_of_pending (pending : s.drainPending = true) : s.attended = true := by
  simp [attended, pending]

theorem attended_iff : s.attended = true ↔
    s.drainPending = true ∨ ∀ w ∈ s.waiters.head?, s.usesOwn w = true := by
  simp [attended, Option.all_eq_true]

theorem Flagged.frame (h : Flagged s) (flag : t.drainEviction = s.drainEviction)
    (tasks : ∀ x ∈ s.tasks, x.ownEviction = true → ∃ y ∈ t.tasks, y.ownEviction = true) :
    Flagged t := by
  intro set
  obtain ⟨x, mem, own⟩ := h (flag ▸ set)
  exact tasks x mem own

/-- Updates that end no operation which serves the queue, free no slot and
take no child out of use. -/
theorem full_frame (h : s.full = true) (bound : t.maxChildren = s.maxChildren)
    (slots : s.slotsTaken ≤ t.slotsTaken)
    (spoken : ∀ id c, t.entries.get id = some c → t.spoken c = true ∨
      ∃ i, s.entries.get i = some c ∧ (s.spoken c = true → t.spoken c = true)) :
    t.full = true := by
  obtain ⟨le, all⟩ := full_iff.mp h
  refine full_iff.mpr ⟨by omega, fun id c there => ?_⟩
  rcases spoken id c there with now | ⟨i, before, kept⟩
  · exact now
  · exact kept (all i c before)

theorem Watched.frame (h : Watched s)
    (same : t.drainEviction = s.drainEviction ∧ t.maxChildren = s.maxChildren ∧
      t.waiters = s.waiters)
    (tasks : ∀ x ∈ s.tasks, ∃ y ∈ t.tasks, (x.ownEviction = true → y.ownEviction = true) ∧
      (x.drains = true → y.drains = true))
    (continuations : ∀ x ∈ s.continuations, x ∈ t.continuations)
    (slots : s.slotsTaken ≤ t.slotsTaken)
    (own : ∀ w ∈ s.waiters.head?, s.usesOwn w = true → t.usesOwn w = true)
    (spoken : ∀ id c, t.entries.get id = some c → t.spoken c = true ∨
      ∃ i, s.entries.get i = some c ∧ (s.spoken c = true → t.spoken c = true)) :
    Watched t := by
  obtain ⟨flag, bound, waiters⟩ := same
  constructor
  case flag =>
      refine h.flag.frame flag fun x mem own => ?_
      obtain ⟨y, mem', kept⟩ := tasks x mem
      exact ⟨y, mem', kept.1 own⟩
  case head =>
      rcases h.head with attended | full
      · left
        rcases attended_iff.mp attended with pending | uses
        · refine attended_of_pending ?_
          simp only [drainPending, Bool.or_eq_true, List.any_eq_true] at pending
          rcases pending with ⟨x, mem, drains⟩ | ⟨x, mem, drains⟩
          · obtain ⟨y, mem', kept⟩ := tasks x mem
            exact drainPending_of_task mem' (kept.2 drains)
          · exact drainPending_of_continuation _ _ (continuations x mem) drains
        · refine attended_iff.mpr (.inr fun w mem => ?_)
          rw [waiters] at mem
          exact own w mem (uses w mem)
      · exact .inr (full_frame full bound slots spoken)

/-! ### Evictions for capacity -/

/-- The candidates end in a decision, or one of them leaves the map. -/
inductive Evicting (s : PoolManager) (caller : EvictCaller) : PoolManager → Prop
  | decided (outcome : EvictForCapacityOutcome) :
      Evicting s caller (s.suspend (.decided caller outcome))
  | begun (rest : List (String × ChildId)) (closeError : Option String) (id : String)
      (c : ChildId) (present : s.entries.get id = some c)
      (idle : (s.entryOf c).inUse = false) :
      Evicting s caller (s.beginEvict (.capacity caller rest closeError) id c)

theorem evictNext_cases (s : PoolManager) (caller : EvictCaller) (closeError : Option String)
    (candidates : List (String × ChildId)) :
    Evicting s caller (s.evictNext caller closeError candidates) := by
  induction candidates with
  | nil =>
      unfold evictNext
      split
      · exact .decided _
      · split <;> exact .decided _
  | cons candidate rest ih =>
      obtain ⟨id, c⟩ := candidate
      unfold evictNext
      split
      case isTrue h => exact .begun rest closeError id c h.1 h.2
      case isFalse => exact ih

theorem evictIdleForCapacity_cases (s : PoolManager) (caller : EvictCaller) :
    Evicting s caller (s.evictIdleForCapacity caller) := by
  unfold evictIdleForCapacity
  split
  · exact .decided _
  · exact evictNext_cases s caller none _

/-- The eviction is a new operation of its caller. -/
theorem Evicting.task {caller : EvictCaller} (evicting : Evicting s caller t) :
    t.drainEviction = s.drainEviction ∧
      ∃ x, x.caller = some caller ∧ t.tasks = s.tasks ++ [x] := by
  cases evicting with
  | decided outcome => exact ⟨rfl, _, rfl, rfl⟩
  | begun rest closeError id c => exact ⟨rfl, _, rfl, rfl⟩

/-- An idle child that leaves the map keeps its slot for the time being. -/
theorem Watched.beginEvict (h : Watched s) (purpose : Purpose) {id : String} {c : ChildId}
    (present : s.entries.get id = some c) (idle : (s.entryOf c).inUse = false) :
    Watched (s.beginEvict purpose id c) := by
  have used (d : ChildId) : ((s.beginEvict purpose id c).entryOf d).inUse =
      (s.entryOf d).inUse := by
    by_cases here : d = c
    · subst here
      simp [PoolManager.beginEvict]
    · simp [PoolManager.beginEvict, here]
  refine h.frame ⟨rfl, rfl, rfl⟩
    (fun x mem => ⟨x, List.mem_append_left _ mem, fun own => own, fun drains => drains⟩)
    (fun _ mem => mem) ?_ (fun w _ uses => ?_) fun i d there => ?_
  · have removed := OrderedMap.size_delete s.entries id
    simp only [present, Option.isSome_some, if_true] at removed
    simp only [slotsTaken, occupiedSlots, PoolManager.beginEvict, suspend_entries,
      suspend_pendingCreations, suspend_closing, suspend_tasks, setEntry_pendingCreations,
      setEntry_tasks, List.countP_append]
    omega
  · obtain ⟨d, own, inUse⟩ := usesOwn_iff.mp uses
    have apart : id ≠ w.conversation.id := by
      rintro rfl
      obtain rfl := Option.some.inj (present.symm.trans own)
      simp [idle] at inUse
    refine usesOwn_iff.mpr ⟨d, ?_, (used d).trans inUse⟩
    simpa [PoolManager.beginEvict, apart] using own
  · simp only [PoolManager.beginEvict, suspend_entries, OrderedMap.get_delete] at there
    split at there
    case isTrue => simp at there
    case isFalse =>
        refine .inr ⟨i, there, fun spoken => ?_⟩
        simp only [PoolManager.spoken, used]
        exact spoken

theorem Watched.suspend (h : Watched s) (x : Task) : Watched (s.suspend x) := by
  refine h.frame ⟨rfl, rfl, rfl⟩ (fun y mem => ⟨y, List.mem_append_left _ mem, id, id⟩)
    (fun _ mem => mem) ?_ (fun _ _ uses => uses) fun i _ there => .inr ⟨i, there, id⟩
  simp only [slotsTaken, occupiedSlots, suspend_tasks, List.countP_append]
  exact Nat.add_le_add_left (Nat.le_add_right _ _) _

theorem Watched.evicting (h : Watched s) {caller : EvictCaller}
    (evicting : Evicting s caller t) : Watched t := by
  cases evicting with
  | decided outcome => exact h.suspend _
  | begun rest closeError id c present idle => exact h.beginEvict _ present idle

/-! ### Serving the queue -/

/-- Whatever state it starts from, serving the queue leaves nobody at its
head who waits for nothing. -/
theorem drain_watched (s : PoolManager) (queue : List Waiter) (flagged : Flagged s) :
    Watched (s.drain queue) := by
  induction queue generalizing s with
  | nil => exact ⟨flagged, .inl (attended_iff.mpr (.inr (by simp [drain])))⟩
  | cons w rest ih =>
      unfold drain
      split
      case h_1 c present =>
          split
          case isTrue => exact ih _ flagged
          case isFalse =>
              split
              case isTrue => exact ih _ flagged
              case isFalse used =>
                  refine ⟨flagged, .inl (attended_iff.mpr (.inr fun v head => ?_))⟩
                  obtain rfl := Option.some.inj head
                  exact usesOwn_iff.mpr ⟨c, present, by simpa using used⟩
      case h_2 absent =>
          split
          case h_1 k inflight =>
              refine ⟨flagged, .inl (attended_of_pending ?_)⟩
              exact drainPending_of_continuation k (.drainInflight w)
                (List.mem_append_right _ (by simp)) rfl
          case h_2 alone =>
              split
              case isTrue occupied =>
                  split
                  case isTrue all =>
                      refine ⟨flagged, .inr (full_iff.mpr
                        ⟨Nat.le_trans occupied (Nat.le_add_right _ _), fun id c there => ?_⟩)⟩
                      have mem : c ∈ s.entries.values :=
                        List.mem_map.mpr ⟨(id, c), s.entries.mem_entries.mpr there, rfl⟩
                      have used := List.all_eq_true.mp all c mem
                      simp only [spoken, Bool.or_eq_true]
                      exact .inl used
                  split
                  case isTrue set =>
                      obtain ⟨x, mem, own⟩ := flagged set
                      exact ⟨flagged, .inl (attended_of_pending
                        (drainPending_of_task mem (Task.drains_of_ownEviction own)))⟩
                  case isFalse =>
                      obtain ⟨-, x, caller, tasks⟩ := (evictIdleForCapacity_cases
                        { s with waiters := w :: rest, drainEviction := true } .drain).task
                      have own : x.ownEviction = true := by simp [Task.ownEviction, caller]
                      have mem : x ∈ ({ s with
                          waiters := w :: rest, drainEviction := true }.evictIdleForCapacity
                            .drain).tasks := by simp [tasks]
                      exact ⟨fun _ => ⟨x, mem, own⟩, .inl (attended_of_pending
                        (drainPending_of_task mem (Task.drains_of_ownEviction own)))⟩
              case isFalse =>
                  have created : PoolManager.createEntry { s with waiters := rest }
                      w.conversation none (.drainNew w) = ({ s with waiters := rest }.startCreation
                        w.conversation none (.drainNew w)) := by simp [createEntry, alone]
                  rw [created]
                  refine ⟨flagged, .inl (attended_of_pending ?_)⟩
                  exact drainPending_of_continuation s.nextChild (.drainNew w)
                    (List.mem_append_right _ (by simp)) rfl

theorem Flagged.drainWaiters (flagged : Flagged s) : Watched s.drainWaiters :=
  drain_watched s s.waiters flagged

/-! ### Updates that keep the head attended -/

/-- A slot is added, or a caller waits for one more creation. -/
theorem Watched.extend (h : Watched s)
    (same : t.drainEviction = s.drainEviction ∧ t.maxChildren = s.maxChildren ∧
      t.waiters = s.waiters)
    (rest : t.tasks = s.tasks ∧ t.entries = s.entries ∧ t.entryOf = s.entryOf)
    (continuations : ∀ x ∈ s.continuations, x ∈ t.continuations)
    (occupied : s.occupiedSlots ≤ t.occupiedSlots) : Watched t := by
  obtain ⟨tasks, entries, objects⟩ := rest
  refine h.frame same (fun x mem => ⟨x, tasks ▸ mem, fun own => own, fun drains => drains⟩)
    continuations ?_ (fun w _ uses => ?_) fun i c there => .inr ⟨i, entries ▸ there, fun spoken => ?_⟩
  · simp only [slotsTaken, tasks]
    omega
  · rw [usesOwn_iff] at uses ⊢
    rw [entries, objects]
    exact uses
  · simp only [PoolManager.spoken, pledged, Bool.or_eq_true, List.any_eq_true, objects] at spoken ⊢
    exact spoken.imp_right fun ⟨x, mem, same⟩ => ⟨x, continuations x mem, same⟩

theorem Watched.await (h : Watched s) (k : ChildId) (rest : Continuation) :
    Watched (s.await k rest) :=
  h.extend ⟨rfl, rfl, rfl⟩ ⟨rfl, rfl, rfl⟩ (fun _ mem => List.mem_append_left _ mem) (Nat.le_refl _)

theorem Watched.startCreation (h : Watched s) (conversation : Conversation)
    (parent : Option String) (rest : Continuation) :
    Watched (s.startCreation conversation parent rest) := by
  refine h.extend ⟨rfl, rfl, rfl⟩ ⟨rfl, rfl, rfl⟩ (fun _ mem => List.mem_append_left _ mem) ?_
  rw [occupiedSlots_startCreation]
  exact Nat.le_succ _

theorem Watched.createEntry (h : Watched s) (conversation : Conversation)
    (parent : Option String) (rest : Continuation) :
    Watched (s.createEntry conversation parent rest) := by
  unfold PoolManager.createEntry
  split
  · exact h.await _ _
  · exact h.startCreation _ _ _

/-- An entry object changes, and no child goes out of use. -/
theorem Watched.setEntry (h : Watched s) (c : ChildId) (f : PoolEntry → PoolEntry)
    (used : ∀ e, e.inUse = true → (f e).inUse = true) : Watched (s.setEntry c f) := by
  have kept {d : ChildId} (before : (s.entryOf d).inUse = true) :
      ((s.setEntry c f).entryOf d).inUse = true := by
    by_cases here : d = c
    · subst here
      simpa using used _ before
    · simpa [here] using before
  refine h.frame ⟨rfl, rfl, rfl⟩
    (fun x mem => ⟨x, mem, fun own => own, fun drains => drains⟩) (fun _ mem => mem)
    (Nat.le_refl _) (fun w _ uses => ?_) fun i d there => .inr ⟨i, there, fun spoken => ?_⟩
  · obtain ⟨d, own, inUse⟩ := usesOwn_iff.mp uses
    exact usesOwn_iff.mpr ⟨d, own, kept inUse⟩
  · simp only [PoolManager.spoken, Bool.or_eq_true] at spoken ⊢
    exact spoken.imp_left kept

theorem Watched.touchLru (h : Watched s) (id : String) : Watched (s.touchLru id) := by
  refine h.frame ⟨rfl, rfl, rfl⟩
    (fun x mem => ⟨x, mem, fun own => own, fun drains => drains⟩) (fun _ mem => mem) ?_
    (fun w _ uses => ?_) fun i d there => .inr ⟨i, by simpa using there, fun spoken => spoken⟩
  · simp [slotsTaken, occupiedSlots]
  · rw [usesOwn_iff] at uses ⊢
    simpa using uses

theorem Watched.grant (h : Watched s) (w : Waiter) (c : ChildId) : Watched (s.grant w c) := by
  have moved := (h.setEntry c (fun e => { e with inUse := true }) fun _ _ => rfl).touchLru
    w.conversation.id
  exact ⟨moved.flag, moved.head⟩

/-- Whoever joins in time waits for something. -/
theorem Watched.enqueueWaiter (h : Watched s) {w : Waiter} (joins : s.joins w = true) :
    Watched (s.enqueueWaiter w) := by
  refine ⟨h.flag, ?_⟩
  simp only [PoolManager.joins, Bool.or_eq_true, Bool.not_eq_true', List.isEmpty_eq_false_iff]
    at joins
  rcases joins with ((queued | pending) | uses) | full
  · have head : (s.waiters ++ [w]).head? = s.waiters.head? := by
      cases queue : s.waiters with
      | nil => exact absurd queue queued
      | cons v rest => rfl
    refine h.head.imp_left fun attended => ?_
    unfold PoolManager.attended at attended ⊢
    simp only [PoolManager.enqueueWaiter, head]
    exact attended
  · exact .inl (attended_of_pending pending)
  · rcases h.head with attended | full
    · rcases attended_iff.mp attended with pending | all
      · exact .inl (attended_of_pending pending)
      · refine .inl (attended_iff.mpr (.inr fun v head => ?_))
        cases queue : s.waiters with
        | nil =>
            obtain rfl : w = v := by simpa [PoolManager.enqueueWaiter, queue] using head
            exact uses
        | cons u rest =>
            refine all v ?_
            simpa [PoolManager.enqueueWaiter, queue] using head
    · exact .inr full
  · exact .inr full

/-- A caller that does not serve the queue runs on: the child it waited for
is in use by now, or not in the map. -/
theorem Watched.eraseContinuation (h : Watched s) (k : ChildId) (rest : Continuation)
    (quiet : rest.drains = false)
    (settled : (s.entryOf k).inUse = true ∨ ∀ id, s.entries.get id ≠ some k) :
    Watched { s with continuations := s.continuations.erase (k, rest) } := by
  refine ⟨h.flag, ?_⟩
  rcases h.head with attended | full
  · refine .inl (attended_iff.mpr ((attended_iff.mp attended).imp_left fun pending => ?_))
    simp only [drainPending, Bool.or_eq_true, List.any_eq_true] at pending ⊢
    refine pending.imp_right fun ⟨x, mem, drains⟩ => ⟨x, ?_, drains⟩
    refine (List.mem_erase_of_ne ?_).mpr mem
    rintro rfl
    simp [quiet] at drains
  · refine .inr (full_frame full rfl (Nat.le_refl _) fun id c there => ?_)
    by_cases here : c = k
    · subst here
      rcases settled with used | absent
      · exact .inl (by simp [PoolManager.spoken, used])
      · exact absurd there (absent id)
    · refine .inr ⟨id, there, fun spoken => ?_⟩
      simp only [PoolManager.spoken, pledged, Bool.or_eq_true, List.any_eq_true,
        decide_eq_true_eq] at spoken ⊢
      refine spoken.imp_right fun ⟨x, mem, same⟩ => ⟨x, ?_, same⟩
      refine (List.mem_erase_of_ne ?_).mpr mem
      rintro rfl
      exact here same.symm

/-- What a suspended operation that moves on stands for is not lost. -/
theorem found_replaceTask {x y : Task}
    (kept : (x.ownEviction = true → y.ownEviction = true) ∧
      (x.drains = true → y.drains = true)) (z : Task) (mem : z ∈ s.tasks) :
    ∃ v ∈ s.tasks.erase x ++ [y],
      (z.ownEviction = true → v.ownEviction = true) ∧ (z.drains = true → v.drains = true) := by
  by_cases here : z = x
  · exact ⟨y, by simp, here ▸ kept⟩
  · exact ⟨z, List.mem_append_left _ ((List.mem_erase_of_ne here).mpr mem), fun own => own,
      fun drains => drains⟩

/-- A suspended operation moves on, to one for the same caller. -/
theorem Watched.replaceTask (h : Watched s) {x y : Task} (tasks : t.tasks = s.tasks.erase x ++ [y])
    (same : t.drainEviction = s.drainEviction ∧ t.maxChildren = s.maxChildren ∧
      t.waiters = s.waiters ∧ t.continuations = s.continuations)
    (rest : t.entries = s.entries ∧ t.entryOf = s.entryOf)
    (kept : (x.ownEviction = true → y.ownEviction = true) ∧
      (x.drains = true → y.drains = true))
    (slots : s.slotsTaken ≤ t.slotsTaken ∨ y.drains = true) : Watched t := by
  obtain ⟨flag, bound, waiters, continuations⟩ := same
  obtain ⟨entries, objects⟩ := rest
  have found (z : Task) (mem : z ∈ s.tasks) := tasks ▸ found_replaceTask kept z mem
  rcases slots with slots | drains
  · refine h.frame ⟨flag, bound, waiters⟩ found (fun x mem => continuations ▸ mem) slots
      (fun w _ uses => ?_) fun i c there => .inr ⟨i, entries ▸ there, fun spoken => ?_⟩
    · rw [usesOwn_iff] at uses ⊢
      rw [entries, objects]
      exact uses
    · simp only [PoolManager.spoken, pledged, objects, continuations] at spoken ⊢
      exact spoken
  · refine ⟨h.flag.frame flag fun z mem own => ?_, .inl (attended_of_pending ?_)⟩
    · obtain ⟨v, there, kept⟩ := found z mem
      exact ⟨v, there, kept.1 own⟩
    · exact drainPending_of_task (by simp [tasks]) drains

/-- The promise of a slot goes with the operation that carries it. -/
theorem slotsTaken_eraseTask {x : Task} (mem : x ∈ s.tasks) :
    slotsTaken { s with tasks := s.tasks.erase x } + (if x.promisesSlot then 1 else 0) =
      s.slotsTaken := by
  simp only [slotsTaken, occupiedSlots, List.countP_erase]
  by_cases promised : x.promisesSlot
  · have : 0 < s.tasks.countP Task.promisesSlot := List.countP_pos_iff.mpr ⟨x, mem, promised⟩
    simp only [mem, promised, and_self, if_true]
    omega
  · simp [promised]

/-- An operation that serves nobody ends. -/
theorem Watched.eraseTask (h : Watched s) {x : Task} (mem : x ∈ s.tasks)
    (quiet : x.drains = false)
    (slots : x.promisesSlot = false ∨ s.attended = true ∨ s.maxChildren < s.slotsTaken) :
    Watched { s with tasks := s.tasks.erase x } := by
  have other {z : Task} (there : z ∈ s.tasks) (drains : z.drains = true) :
      z ∈ s.tasks.erase x := by
    refine (List.mem_erase_of_ne ?_).mpr there
    rintro rfl
    simp [quiet] at drains
  have kept (attended : s.attended = true) :
      PoolManager.attended { s with tasks := s.tasks.erase x } = true := by
    refine attended_iff.mpr ((attended_iff.mp attended).imp_left fun pending => ?_)
    simp only [drainPending, Bool.or_eq_true, List.any_eq_true] at pending ⊢
    exact pending.imp_left fun ⟨z, there, drains⟩ => ⟨z, other there drains, drains⟩
  have freed := slotsTaken_eraseTask mem
  refine ⟨h.flag.frame rfl fun z there own => ⟨z, ?_, own⟩, ?_⟩
  · exact other there (Task.drains_of_ownEviction own)
  · rcases h.head with attended | full
    · exact .inl (kept attended)
    · obtain ⟨le, all⟩ := full_iff.mp full
      rcases slots with none | attended | spare
      · simp only [none, Bool.false_eq_true, if_false] at freed
        exact .inr (full_iff.mpr ⟨by simp only; omega, all⟩)
      · exact .inl (kept attended)
      · refine .inr (full_iff.mpr ⟨?_, all⟩)
        split at freed <;> (simp only; omega)

/-! ### Creations in progress are waited for -/

/-- Somebody waits for every creation in progress, and nobody for anything
else. -/
structure Awaited (s : PoolManager) : Prop where
  pledged : ∀ k cr, s.creationOf k = some cr → cr.phase.active = true → s.pledged k = true
  known : ∀ x ∈ s.continuations, (s.creationOf x.1).isSome

theorem Awaited.frame (h : Awaited s)
    (creations : ∀ k cr, t.creationOf k = some cr → cr.phase.active = true →
      ∃ cr', s.creationOf k = some cr' ∧ cr'.phase.active = true)
    (continuations : ∀ k cr, s.creationOf k = some cr → cr.phase.active = true →
      ∀ rest, (k, rest) ∈ s.continuations → (k, rest) ∈ t.continuations)
    (known : ∀ k, (s.creationOf k).isSome → (t.creationOf k).isSome)
    (waiting : ∀ x ∈ t.continuations, x ∈ s.continuations ∨ (t.creationOf x.1).isSome) :
    Awaited t where
  pledged k cr there active := by
    obtain ⟨cr', there', active'⟩ := creations k cr there active
    have before := h.pledged k cr' there' active'
    simp only [PoolManager.pledged, List.any_eq_true, decide_eq_true_eq] at before ⊢
    obtain ⟨⟨_, rest⟩, mem, rfl⟩ := before
    exact ⟨_, continuations _ cr' there' active' rest mem, rfl⟩
  known x mem := (waiting x mem).elim (fun old => known x.1 (h.known x old)) id

theorem Awaited.createEntry (h : Awaited s) (acc : Accounted s) (conversation : Conversation)
    (parent : Option String) (rest : Continuation) :
    Awaited (s.createEntry conversation parent rest) := by
  unfold PoolManager.createEntry
  split
  case h_1 k inflight =>
      obtain ⟨cr, known, -⟩ := acc.inflight _ k inflight
      refine h.frame (fun _ cr known active => ⟨cr, known, active⟩)
        (fun _ _ _ _ _ mem => List.mem_append_left _ mem) (fun _ => id) fun x mem => ?_
      refine (List.mem_append.mp mem).imp_right fun new => ?_
      obtain rfl := List.mem_singleton.mp new
      exact Option.isSome_iff_exists.mpr ⟨cr, known⟩
  case h_2 =>
      constructor
      · intro k cr known active
        simp only [PoolManager.pledged, startCreation_continuations, List.any_append,
          Bool.or_eq_true]
        by_cases new : k = s.nextChild
        · subst new
          right
          simp
        · simp only [startCreation_creationOf, Function.update_of_ne new] at known
          exact .inl (h.pledged k cr known active)
      · intro x mem
        rcases List.mem_append.mp mem with old | new
        · by_cases here : x.1 = s.nextChild
          · simp [here]
          · simpa [here] using h.known x old
        · simp [List.mem_singleton.mp new]

theorem Awaited.move (h : Awaited s) (acc : Accounted s) (move : Move s t) : Awaited t := by
  cases move with
  | queue | suspend | grant | evict => exact ⟨h.pledged, h.known⟩
  | await id k rest inflight =>
      obtain ⟨cr, known, -⟩ := acc.inflight id k inflight
      refine h.frame (fun _ cr known active => ⟨cr, known, active⟩)
        (fun _ _ _ _ _ mem => List.mem_append_left _ mem) (fun _ there => there) fun x mem => ?_
      refine (List.mem_append.mp mem).imp_right fun new => ?_
      obtain rfl := List.mem_singleton.mp new
      exact Option.isSome_iff_exists.mpr ⟨cr, known⟩
  | create conversation parent rest => exact h.createEntry acc conversation parent rest

theorem Awaited.moves (h : Awaited s) (acc : Accounted s) (moves : Moves s t) : Awaited t :=
  (moves.preserve (I := fun s => Accounted s ∧ Awaited s) ⟨acc, h⟩
    fun _ _ ⟨acc, h⟩ move => ⟨acc.move move, h.move acc move⟩).2

theorem Awaited.setPhase (h : Awaited s) {k : ChildId} {cr : Creation}
    (known : s.creationOf k = some cr) (phase : CreationPhase)
    (before : cr.phase.active = true) : Awaited (s.setPhase k phase) := by
  refine h.frame (fun c cr' known' active => ?_) (fun _ _ _ _ _ mem => mem) (fun c there => ?_)
    fun x mem => .inl mem
  · by_cases here : c = k
    · exact ⟨cr, here ▸ known, before⟩
    · exact ⟨cr', by simpa [here] using known', active⟩
  · by_cases here : c = k
    · subst here
      simp [known]
    · simpa [here] using there

theorem Awaited.eraseContinuation (h : Awaited s) {k : ChildId} {cr : Creation}
    (known : s.creationOf k = some cr) (settled : cr.phase.active = false)
    (rest : Continuation) :
    Awaited { s with continuations := s.continuations.erase (k, rest) } := by
  refine h.frame (fun _ cr known active => ⟨cr, known, active⟩)
    (fun c cr' known' active rest' mem => (List.mem_erase_of_ne ?_).mpr mem) (fun _ => id)
    fun x mem => .inl (List.mem_of_mem_erase mem)
  rintro same
  obtain rfl := (Prod.mk.injEq ..).mp same |>.1
  obtain rfl := Option.some.inj (known.symm.trans known')
  simp [settled] at active

theorem Awaited.release (h : Awaited s) (acc : Accounted s) (l : ℕ) (lease : Lease) :
    Awaited (s.release l lease) := by
  have marked : Accounted { s with
      leaseOf := Function.update s.leaseOf l (some { lease with released := true }) } :=
    acc.frame ⟨rfl, rfl, rfl, rfl, rfl, rfl, rfl⟩ (fun _ => rfl) fun _ _ there => there
  unfold PoolManager.release releaseEntry
  split
  · exact h
  dsimp only
  split
  · exact ⟨h.pledged, h.known⟩
  split
  · exact ⟨h.pledged, h.known⟩
  split
  · exact ⟨h.pledged, h.known⟩
  · refine Awaited.moves (by exact ⟨h.pledged, h.known⟩) ?_ (drainWaiters_moves _)
    exact (marked.touchLru _).setEntry _ (fun e => { e with inUse := false, idleTimer := true })
      fun _ => rfl

theorem Awaited.evictReturned (h : Awaited s) (acc : Accounted s) {purpose : Purpose}
    {id : String} {c : ChildId} {outcome : EvictOutcome}
    (mem : .evict purpose id c (.returned outcome) ∈ s.tasks) :
    Awaited ({ s with
      tasks := s.tasks.erase (.evict purpose id c (.returned outcome)) }.evictReturned purpose
        id c outcome) := by
  cases purpose with
  | capacity caller rest closeError =>
      cases outcome with
      | ok => exact ⟨h.pledged, h.known⟩
      | closeFailed error =>
          exact Awaited.move (by exact ⟨h.pledged, h.known⟩) (acc.eraseTask mem rfl)
            (evictNext_move _ _ _ _)
  | idle =>
      exact Awaited.moves (by exact ⟨h.pledged, h.known⟩) (acc.eraseSweep mem)
        (drainWaiters_moves _)
  | retire =>
      cases outcome with
      | ok =>
          exact Awaited.moves (by exact ⟨h.pledged, h.known⟩) (acc.eraseTask mem rfl)
            (drainWaiters_moves _)
      | closeFailed error => exact ⟨h.pledged, h.known⟩

theorem Awaited.forgetExitedChild (h : Awaited s) (acc : Accounted s)
    (conversation : Conversation) (c : ChildId) : Awaited (s.forgetExitedChild conversation c) := by
  unfold PoolManager.forgetExitedChild
  split
  case isFalse => exact h
  case isTrue =>
      refine Awaited.moves (by exact ⟨h.pledged, h.known⟩) ?_ (drainWaiters_moves _)
      refine (acc.setEntry c (fun e => { e with idleTimer := false }) fun _ => rfl).frame
        ⟨rfl, rfl, rfl, rfl, rfl, rfl, rfl⟩ (fun _ => rfl) fun i d there => ?_
      simp only [OrderedMap.get_delete] at there
      split at there
      · simp at there
      · exact there

theorem Awaited.step (h : Awaited s) (acc : Accounted s) {a : Action}
    (taken : step s a = some t) : Awaited t := by
  cases step_cases taken with
  | acquire conversation parent => exact h.moves acc (acquire_moves s conversation parent)
  | release => exact h.release acc _ _
  | @spawned k cr known phase =>
      exact Awaited.setPhase (s := s.setChild k .live) ⟨h.pledged, h.known⟩ known _
        (by simp [phase, CreationPhase.active])
  | @aborted k cr error known phase =>
      exact Awaited.setPhase (s := s.setChild k .closed) ⟨h.pledged, h.known⟩ known _
        (by simp [phase, CreationPhase.active])
  | spawnFailed known phase | attachFailed known phase | abortFailed known phase =>
      exact h.setPhase known _ (by simp [phase, CreationPhase.active])
  | attached known phase =>
      have moved := h.setPhase known .inserted (by simp [phase, CreationPhase.active])
      exact ⟨moved.pledged, moved.known⟩
  | finished known phase =>
      have moved := h.setPhase known .resolved (by simp [phase, CreationPhase.active])
      exact ⟨moved.pledged, moved.known⟩
  | @finishedFailing k cr error known phase =>
      have moved := h.setPhase known (.rejected error) (by simp [phase, CreationPhase.active])
      exact ⟨moved.pledged, moved.known⟩
  | @resumed k rest cr mem known phase =>
      have erased := h.eraseContinuation known (by simp [phase, CreationPhase.active]) rest
      have erased_acc := acc.eraseContinuation k rest
      rcases resume_cases { s with continuations := s.continuations.erase (k, rest) } k rest with
        moves | ⟨-, moves⟩
      · exact erased.moves erased_acc moves
      · exact Awaited.moves (by exact ⟨erased.pledged, erased.known⟩)
          (erased_acc.grant rest.caller k) moves
  | @resumedRejected k rest cr error mem known phase =>
      exact (h.eraseContinuation known (by simp [phase, CreationPhase.active]) rest).moves
        (acc.eraseContinuation k rest) (resumeRejected_moves _ _ _)
  | @tornDown purpose id c result mem =>
      cases result <;> exact ⟨h.pledged, h.known⟩
  | @evicted purpose id c result mem =>
      cases result <;> exact ⟨h.pledged, h.known⟩
  | returned mem => exact h.evictReturned acc mem
  | @acquireEvicted w parent outcome mem =>
      have erased : Awaited { s with
          tasks := s.tasks.erase (.decided (.acquire w parent) outcome) } := ⟨h.pledged, h.known⟩
      have erased_acc := acc.eraseTask mem rfl
      rcases acquireEvicted_cases { s with tasks := s.tasks.erase _ } w parent outcome with
        move | ⟨-, created⟩
      · exact erased.move erased_acc move
      · exact created ▸ erased.createEntry erased_acc _ _ _
  | drainEvicted mem =>
      exact Awaited.moves (by exact ⟨h.pledged, h.known⟩) (acc.eraseTask mem rfl)
        (tryEvictForDrain_moves _ _)
  | drainTail mem =>
      have move : Move { s with tasks := s.tasks.erase .drainTail }
          { s with tasks := s.tasks.erase .drainTail, drainEviction := false } :=
        .queue s.waiters s.settled false s.nextCall
      exact Awaited.moves (by exact ⟨h.pledged, h.known⟩) ((acc.eraseTask mem rfl).move move)
        (drainWaiters_moves _)
  | @idleTimer c armed =>
      exact Awaited.moves (by exact ⟨h.pledged, h.known⟩)
        (acc.setEntry c (fun e => { e with idleTimer := false }) fun _ => rfl)
        (sweepIdle_moves s c)
  | retireChild conversation c =>
      unfold PoolManager.retireChild
      split <;> exact ⟨h.pledged, h.known⟩
  | @exit c cr known alive =>
      exact Awaited.forgetExitedChild (s := s.setChild c .exited) ⟨h.pledged, h.known⟩
        (acc.setChild c _ (by simp)) _ _

theorem awaited_initial (maxChildren : ℕ) : Awaited (initial maxChildren) where
  pledged _ _ h := by simp [initial] at h
  known _ h := by simp [initial] at h

/-! ### The steps -/

theorem Watched.acquire (h : Watched s) (conversation : Conversation)
    (parent : Option String) : Watched (s.acquire conversation parent) := by
  have counted : Watched { s with nextCall := s.nextCall + 1 } := ⟨h.flag, h.head⟩
  unfold PoolManager.acquire
  dsimp only
  split
  · exact ⟨h.flag, h.head⟩
  split
  · exact ⟨h.flag, h.head⟩
  split
  · exact ⟨h.flag, h.head⟩
  split
  case h_1 c present =>
      split
      · exact ⟨h.flag, h.head⟩
      split
      · exact (counted.setEntry c (fun e => { e with idleTimer := false }) fun _ => id).grant _ c
      case isFalse used =>
          refine counted.enqueueWaiter ?_
          have uses : s.usesOwn ⟨conversation, s.nextCall⟩ = true :=
            usesOwn_iff.mpr ⟨c, present, by simpa using used⟩
          simp only [joins, Bool.or_eq_true]
          exact .inl (.inr uses)
  case h_2 =>
      split
      · exact counted.await _ _
      split
      · exact counted.evicting (evictIdleForCapacity_cases _ _)
      · exact counted.createEntry _ _ _

theorem Watched.release (h : Watched s) (l : ℕ) (lease : Lease) : Watched (s.release l lease) := by
  unfold PoolManager.release releaseEntry
  split
  · exact h
  dsimp only
  split
  · exact ⟨h.flag, h.head⟩
  split
  · exact ⟨h.flag, h.head⟩
  split
  · exact ⟨h.flag, h.head⟩
  · exact Flagged.drainWaiters (by exact h.flag)

/-- A child that enters the map is waited for. -/
theorem Watched.insertEntry (h : Watched s) (acc : Accounted s) (awaited : Awaited s)
    {k : ChildId} {cr : Creation} (known : s.creationOf k = some cr)
    (phase : cr.phase = .attaching) (timely : s.Timely (.attached k .done)) :
    Watched (s.insertEntry k cr.conversation) := by
  refine ⟨h.flag, ?_⟩
  have pledge : s.pledged k = true := awaited.pledged k cr known (by simp [phase, CreationPhase.active])
  have object {c : ChildId} (other : c ≠ k) :
      (s.insertEntry k cr.conversation).entryOf c = s.entryOf c := by
    simp [PoolManager.insertEntry, other]
  have whenFull (full : s.full = true) : (s.insertEntry k cr.conversation).full = true := by
    refine full_frame full rfl ?_ fun id c there => ?_
    · have size := OrderedMap.size_set s.entries cr.conversation.id k
      simp only [slotsTaken, occupiedSlots, PoolManager.insertEntry, setPhase_entries,
        setPhase_pendingCreations, setPhase_closing, setPhase_tasks, setEntry_pendingCreations,
        setEntry_closing, setEntry_tasks]
      omega
    · by_cases here : c = k
      · exact .inl (by simp only [spoken, Bool.or_eq_true]; exact .inr (here ▸ pledge))
      · simp only [PoolManager.insertEntry, setPhase_entries, OrderedMap.get_set] at there
        split at there
        case isTrue => exact absurd (Option.some.inj there).symm here
        case isFalse =>
            refine .inr ⟨id, there, fun spoken => ?_⟩
            simp only [PoolManager.spoken, object here] at spoken ⊢
            exact spoken
  rcases timely cr known with pending | full | apart
  · exact .inl (attended_of_pending pending)
  · exact .inr (whenFull full)
  · rcases h.head with attended | full
    · refine .inl (attended_iff.mpr ((attended_iff.mp attended).imp_right fun uses w head => ?_))
      obtain ⟨c, own, used⟩ := usesOwn_iff.mp (uses w head)
      have other : c ≠ k := by
        rintro rfl
        have entered := acc.enteredFor own
        simp [enteredFor_eq known, phase, CreationPhase.entered] at entered
      refine usesOwn_iff.mpr ⟨c, ?_, object other ▸ used⟩
      simp only [PoolManager.insertEntry, setPhase_entries, OrderedMap.get_set,
        if_neg (Ne.symm (apart w head))]
      exact own
    · exact .inr (whenFull full)

theorem Watched.finishCreation (h : Watched s) {k : ChildId} (conversation : Conversation)
    (phase : CreationPhase) (timely : s.Timely (.finished k)) :
    Watched (s.finishCreation k conversation phase) := by
  refine ⟨h.flag, ?_⟩
  rcases h.head with attended | full
  · exact .inl attended
  · rcases timely with attended | spare
    · exact .inl attended
    · obtain ⟨-, all⟩ := full_iff.mp full
      refine .inr (full_iff.mpr ⟨?_, all⟩)
      simp only [slotsTaken, occupiedSlots, PoolManager.finishCreation, setPhase_entries,
        setPhase_pendingCreations, setPhase_closing, setPhase_tasks] at spare ⊢
      change s.maxChildren ≤ _
      omega

theorem Watched.resume (h : Watched s) (opened : s.closed = false) {k : ChildId}
    {rest : Continuation} {cr : Creation} (known : s.creationOf k = some cr)
    (phase : cr.phase = .resolved) (timely : s.Timely (.resume k rest)) :
    Watched ({ s with continuations := s.continuations.erase (k, rest) }.resume k rest) := by
  have served (w : Waiter) : Watched
      ({ s with continuations := s.continuations.erase (k, rest) }.grant w k).drainWaiters :=
    Flagged.drainWaiters (by exact h.flag)
  have used (w : Waiter) : ((s.grant w k).entryOf k).inUse = true := by simp [PoolManager.grant]
  cases rest with
  | acquireNew w =>
      simp only [PoolManager.resume]
      rw [if_neg (by simp [opened])]
      exact (h.grant w k).eraseContinuation k (.acquireNew w) rfl (.inl (used w))
  | acquireInflight w =>
      simp only [PoolManager.resume]
      rw [if_neg (by simp [opened])]
      split
      case isTrue =>
          exact (h.grant w k).eraseContinuation k (.acquireInflight w) rfl (.inl (used w))
      case isFalse busy =>
          have busy : (s.entryOf k).inUse = true := by simpa using busy
          exact (h.enqueueWaiter (timely cr known phase opened busy)).eraseContinuation
            k (.acquireInflight w) rfl (.inl busy)
  | drainNew w =>
      simp only [PoolManager.resume]
      rw [if_neg (by simp [opened])]
      exact served w
  | drainInflight w =>
      simp only [PoolManager.resume]
      rw [if_neg (by simp [opened])]
      split
      · exact served w
      · exact Flagged.drainWaiters (by exact h.flag)

theorem Watched.resumeRejected (h : Watched s) (acc : Accounted s) {k : ChildId}
    {rest : Continuation} {cr : Creation} {error : PoolError}
    (known : s.creationOf k = some cr) (phase : cr.phase = .rejected error) :
    Watched
      ({ s with continuations := s.continuations.erase (k, rest) }.resumeRejected error rest) := by
  have absent (id : String) : s.entries.get id ≠ some k := by
    intro there
    have entered := acc.enteredFor there
    simp [enteredFor_eq known, phase, CreationPhase.entered] at entered
  cases rest with
  | acquireNew w | acquireInflight w =>
      have erased := h.eraseContinuation k (.acquireNew w) rfl (.inr absent)
      have erased' := h.eraseContinuation k (.acquireInflight w) rfl (.inr absent)
      first
      | exact ⟨erased.flag, erased.head⟩
      | exact ⟨erased'.flag, erased'.head⟩
  | drainNew w | drainInflight w => exact Flagged.drainWaiters (by exact h.flag)

/-- An eviction goes on for the same caller. -/
theorem evict_kept (purpose : Purpose) (id : String) (c : ChildId) (step step' : EvictStep) :
    ((Task.evict purpose id c step).ownEviction = true →
      (Task.evict purpose id c step').ownEviction = true) ∧
    ((Task.evict purpose id c step).drains = true →
      (Task.evict purpose id c step').drains = true) := by
  cases purpose <;> exact ⟨fun own => own, fun drains => drains⟩

/-- Before it has returned, an eviction promises nothing. -/
theorem promisesSlot_evict (purpose : Purpose) (id : String) (c : ChildId) {step : EvictStep}
    (early : ∀ outcome, step ≠ .returned outcome) :
    (Task.evict purpose id c step).promisesSlot = false := by
  cases purpose with
  | capacity caller rest closeError =>
      cases caller <;> cases step <;> first | rfl | exact absurd rfl (early _)
  | idle | retire => rfl

theorem Watched.settleTeardown (h : Watched s) {purpose : Purpose} {id : String} {c : ChildId}
    (mem : .evict purpose id c .closing ∈ s.tasks) (result : TeardownResult) :
    Watched (s.settleTeardown purpose id c result) := by
  have slots : s.slotsTaken ≤ slotsTaken ({ s with
      tasks := s.tasks.erase (.evict purpose id c .closing) }.suspend
        (.evict purpose id c (.tornDown result))) := by
    have freed := slotsTaken_eraseTask mem
    rw [promisesSlot_evict purpose id c (by simp)] at freed
    simp only [slotsTaken, occupiedSlots, suspend_tasks, suspend_entries,
      suspend_pendingCreations, suspend_closing, List.countP_append, Bool.false_eq_true,
      if_false] at freed ⊢
    omega
  have moved : Watched ({ s with
      tasks := s.tasks.erase (.evict purpose id c .closing) }.suspend
        (.evict purpose id c (.tornDown result))) :=
    h.replaceTask rfl ⟨rfl, rfl, rfl, rfl⟩ ⟨rfl, rfl⟩ (evict_kept purpose id c _ _) (.inl slots)
  cases result with
  | closeFailed error | childClosed | releaseFailed error => exact ⟨moved.flag, moved.head⟩

/-- The child has closed: what was closing is free, or promised. -/
theorem Watched.evictedClosed (h : Watched s) (acc : Accounted s) {purpose : Purpose}
    {id : String} {c : ChildId} {result : TeardownResult}
    (mem : .evict purpose id c (.tornDown result) ∈ s.tasks) (dead : result.outcome = .ok) :
    Watched ({ s with
      tasks := s.tasks.erase (.evict purpose id c (.tornDown result)) }.evicted purpose id c
        result) := by
  have counted : 0 < s.closing := by
    rw [acc.closing]
    exact List.countP_pos_iff.mpr ⟨_, mem, rfl⟩
  have freed := slotsTaken_eraseTask mem
  rw [promisesSlot_evict purpose id c (by simp)] at freed
  have moved : Watched ({ s with
      tasks := s.tasks.erase (.evict purpose id c (.tornDown result))
      closing := if purpose = Purpose.idle then s.closing else s.closing - 1 }.suspend
        (.evict purpose id c (.returned .ok))) := by
    refine h.replaceTask rfl ⟨rfl, rfl, rfl, rfl⟩ ⟨rfl, rfl⟩ (evict_kept purpose id c _ _) ?_
    cases purpose with
    | idle | retire => exact .inr rfl
    | capacity caller rest closeError =>
        cases caller with
        | drain => exact .inr rfl
        | acquire w parent =>
            left
            simp only [slotsTaken, occupiedSlots, suspend_tasks, suspend_entries,
              suspend_pendingCreations, suspend_closing, List.countP_append, Bool.false_eq_true,
              if_false, reduceCtorEq, List.countP_singleton, Task.promisesSlot, if_true]
              at freed ⊢
            omega
  cases result with
  | closeFailed error => simp [TeardownResult.outcome] at dead
  | childClosed | releaseFailed error => exact ⟨moved.flag, moved.head⟩

/-- The child has not closed, and comes back as an idle one. -/
theorem Watched.restored (h : Watched s) (acc : Accounted s) {purpose : Purpose} {id : String}
    {c : ChildId} {error : String}
    (mem : .evict purpose id c (.tornDown (.closeFailed error)) ∈ s.tasks)
    (timely : s.Timely (.advance (.evict purpose id c (.tornDown (.closeFailed error))))) :
    Watched ({ s with
      tasks := s.tasks.erase (.evict purpose id c (.tornDown (.closeFailed error)))
        }.evicted purpose id c (.closeFailed error)) := by
  have found := found_replaceTask (s := s)
    (evict_kept purpose id c (.tornDown (.closeFailed error)) (.returned (.closeFailed error)))
  have flag : Flagged ({ s with
      tasks := s.tasks.erase (.evict purpose id c (.tornDown (.closeFailed error)))
        }.evicted purpose id c (.closeFailed error)) :=
    h.flag.frame rfl fun z there own =>
      (found z there).imp fun v ⟨there, kept⟩ => ⟨there, kept.1 own⟩
  have pending (drains : (Task.evict purpose id c (.returned (.closeFailed error))).drains = true) :
      drainPending ({ s with
        tasks := s.tasks.erase (.evict purpose id c (.tornDown (.closeFailed error)))
          }.evicted purpose id c (.closeFailed error)) = true :=
    drainPending_of_task (List.mem_append_right _ (List.mem_singleton.mpr rfl)) drains
  cases purpose with
  | idle | retire => exact ⟨flag, .inl (attended_of_pending (pending rfl))⟩
  | capacity caller rest closeError =>
      cases caller with
      | drain => exact ⟨flag, .inl (attended_of_pending (pending rfl))⟩
      | acquire w parent =>
          refine ⟨flag, ?_⟩
          have object {d : ChildId} (other : d ≠ c) : (s.restore id c).entryOf d = s.entryOf d := by
            simp [restore, other]
          rcases timely with pending | ⟨pledge, full, absent⟩ | apart
          · left
            refine attended_of_pending ?_
            simp only [drainPending, Bool.or_eq_true, List.any_eq_true] at pending ⊢
            rcases pending with ⟨z, there, drains⟩ | waits
            · obtain ⟨v, there, kept⟩ := found z there
              exact .inl ⟨v, there, kept.2 drains⟩
            · exact .inr waits
          · right
            refine full_frame full rfl ?_ fun i d there => ?_
            · have freed := slotsTaken_eraseTask mem
              have counted : 0 < s.closing := by
                rw [acc.closing]
                exact List.countP_pos_iff.mpr ⟨_, mem, rfl⟩
              have size := OrderedMap.size_set s.entries id c
              simp only [absent, Option.isSome_none, Bool.false_eq_true, if_false] at size
              simp only [slotsTaken, occupiedSlots, PoolManager.evicted, restore, suspend_tasks,
                suspend_entries, suspend_pendingCreations, suspend_closing, setEntry_tasks,
                setEntry_closing, setEntry_pendingCreations, List.countP_append,
                List.countP_singleton, Task.promisesSlot, TeardownResult.outcome,
                Bool.false_eq_true, if_false, reduceCtorEq] at freed ⊢
              omega
            · by_cases here : d = c
              · left
                simp only [spoken, Bool.or_eq_true]
                exact .inr (here ▸ pledge)
              · simp only [PoolManager.evicted, restore, suspend_entries, OrderedMap.get_set] at there
                split at there
                case isTrue => exact absurd (Option.some.inj there).symm here
                case isFalse =>
                    refine .inr ⟨i, there, fun spoken => ?_⟩
                    simp only [PoolManager.spoken, Bool.or_eq_true] at spoken ⊢
                    exact spoken.imp_left fun used => (congrArg (·.inUse) (object here)).trans used
          · left
            refine attended_iff.mpr (.inr fun v head => ?_)
            obtain ⟨uses, apart⟩ := apart v head
            obtain ⟨d, own, used⟩ := usesOwn_iff.mp uses
            have other : d ≠ c := by
              rintro rfl
              have one := (acc.entry _ d own).entry
              have two := (acc.teardown _ mem id d (by simp [Task.tearsDown])).entry
              exact apart (one.symm.trans two)
            refine usesOwn_iff.mpr ⟨d, ?_, (congrArg (·.inUse) (object other)).trans used⟩
            simp only [PoolManager.evicted, restore, suspend_entries, OrderedMap.get_set,
              if_neg (Ne.symm apart)]
            exact own

theorem Watched.evicted (h : Watched s) (acc : Accounted s) {purpose : Purpose} {id : String}
    {c : ChildId} {result : TeardownResult}
    (mem : .evict purpose id c (.tornDown result) ∈ s.tasks)
    (timely : s.Timely (.advance (.evict purpose id c (.tornDown result)))) :
    Watched ({ s with
      tasks := s.tasks.erase (.evict purpose id c (.tornDown result)) }.evicted purpose id c
        result) := by
  cases result with
  | closeFailed error => exact h.restored acc mem timely
  | childClosed | releaseFailed error => exact h.evictedClosed acc mem rfl

theorem Watched.evictReturned (h : Watched s) {purpose : Purpose} {id : String} {c : ChildId}
    {outcome : EvictOutcome} (mem : .evict purpose id c (.returned outcome) ∈ s.tasks)
    (retired : Action.failsToRetire (.advance (.evict purpose id c (.returned outcome))) = false) :
    Watched ({ s with
      tasks := s.tasks.erase (.evict purpose id c (.returned outcome)) }.evictReturned purpose
        id c outcome) := by
  have other (quiet : (Task.evict purpose id c (.returned outcome)).ownEviction = false) :
      Flagged { s with tasks := s.tasks.erase (.evict purpose id c (.returned outcome)) } := by
    refine h.flag.frame rfl fun z there own => ⟨z, (List.mem_erase_of_ne ?_).mpr there, own⟩
    rintro rfl
    simp [quiet] at own
  cases purpose with
  | idle => exact Flagged.drainWaiters (by exact other rfl)
  | retire =>
      cases outcome with
      | ok => exact (other rfl).drainWaiters
      | closeFailed error => simp [Action.failsToRetire] at retired
  | capacity caller rest closeError =>
      cases outcome with
      | ok =>
          have freed := slotsTaken_eraseTask mem
          refine h.replaceTask rfl ⟨rfl, rfl, rfl, rfl⟩ ⟨rfl, rfl⟩
            ⟨fun own => own, fun drains => drains⟩ ?_
          cases caller with
          | drain => exact .inr rfl
          | acquire w parent =>
              left
              simp only [slotsTaken, occupiedSlots, PoolManager.evictReturned, suspend_tasks,
                suspend_entries, suspend_pendingCreations, suspend_closing, List.countP_append,
                List.countP_singleton, Task.promisesSlot, if_true] at freed ⊢
              omega
      | closeFailed error =>
          have evicting := evictNext_cases { s with
            tasks := s.tasks.erase (.evict (.capacity caller rest closeError) id c
              (.returned (.closeFailed error))) } caller (some error) rest
          cases caller with
          | acquire w parent => exact (h.eraseTask mem rfl (.inl rfl)).evicting evicting
          | drain =>
              obtain ⟨flag, y, caller, tasks⟩ := evicting.task
              have own : y.ownEviction = true := by simp [Task.ownEviction, caller]
              have there : y ∈ (evictNext { s with
                  tasks := s.tasks.erase (.evict (.capacity .drain rest closeError) id c
                    (.returned (.closeFailed error))) } .drain (some error) rest).tasks := by
                simp [tasks]
              exact ⟨fun _ => ⟨y, there, own⟩, .inl (attended_of_pending
                (drainPending_of_task there (Task.drains_of_ownEviction own)))⟩

theorem Watched.acquireEvicted (h : Watched s) {w : Waiter} {parent : Option String}
    {outcome : EvictForCapacityOutcome} (opened : s.closed = false)
    (mem : .decided (.acquire w parent) outcome ∈ s.tasks)
    (timely : s.Timely (.advance (.decided (.acquire w parent) outcome))) :
    Watched ({ s with
      tasks := s.tasks.erase (.decided (.acquire w parent) outcome) }.acquireEvicted w parent
        outcome) := by
  cases outcome with
  | allInUse => exact (h.enqueueWaiter timely.2).eraseTask mem rfl (.inl rfl)
  | closeFailed error =>
      have erased := h.eraseTask mem rfl (.inl rfl)
      exact ⟨erased.flag, erased.head⟩
  | ok =>
      simp only [PoolManager.acquireEvicted]
      rw [if_neg (by simp [opened])]
      unfold PoolManager.createEntry
      split
      case h_1 k inflight =>
          exact (h.eraseTask mem rfl (.inr (timely opened (by simp [inflight])))).await _ _
      case h_2 =>
          refine (h.startCreation w.conversation parent (.acquireNew w)).eraseTask mem rfl (.inr ?_)
          rcases h.head with attended | full
          · refine .inl (attended_iff.mpr ((attended_iff.mp attended).imp_left fun pending => ?_))
            simp only [drainPending, startCreation_tasks, startCreation_continuations,
              List.any_append, Bool.or_eq_true] at pending ⊢
            exact pending.imp_right .inl
          · right
            have one := (full_iff.mp full).1
            have two := occupiedSlots_startCreation s w.conversation parent (.acquireNew w)
            change s.maxChildren < _
            simp only [slotsTaken, startCreation_tasks] at one ⊢
            omega

theorem Watched.sweepIdle (h : Watched s) (c : ChildId) : Watched (s.sweepIdle c) := by
  have cleared := h.setEntry c (fun e => { e with idleTimer := false }) fun _ used => used
  unfold PoolManager.sweepIdle
  dsimp only
  split
  · exact cleared
  case h_2 current present =>
      split
      case isTrue idle => exact cleared.beginEvict _ present idle
      case isFalse => exact cleared

theorem Watched.retireChild (h : Watched s) (conversation : Conversation) (c : ChildId) :
    Watched (s.retireChild conversation c) := by
  unfold PoolManager.retireChild
  split
  case isFalse => exact h
  case isTrue =>
      refine ⟨h.flag.frame rfl fun x mem own => ⟨x, List.mem_append_left _ mem, own⟩, .inl ?_⟩
      exact attended_of_pending
        (drainPending_of_task (List.mem_append_right _ (List.mem_singleton.mpr rfl)) rfl)

theorem Watched.forgetExitedChild (h : Watched s) (conversation : Conversation) (c : ChildId) :
    Watched (s.forgetExitedChild conversation c) := by
  unfold PoolManager.forgetExitedChild
  split
  · exact Flagged.drainWaiters (by exact h.flag)
  · exact h

theorem Timely.retired {a : Action} (timely : s.Timely a) (opened : s.closed = false) :
    a.failsToRetire = false := by
  unfold Timely at timely
  split at timely <;> first | rfl | exact timely opened

theorem Watched.step (h : Watched s) (opened : s.closed = false) (acc : Accounted s)
    (awaited : Awaited s) {a : Action} (timely : s.Timely a) (taken : step s a = some t) :
    Watched t := by
  cases step_cases taken with
  | acquire conversation parent => exact h.acquire conversation parent
  | release known => exact h.release _ _
  | spawned | spawnFailed | attachFailed | aborted | abortFailed => exact ⟨h.flag, h.head⟩
  | attached known phase => exact h.insertEntry acc awaited known phase timely
  | finished known phase | finishedFailing known phase => exact h.finishCreation _ _ timely
  | resumed mem known phase => exact h.resume opened known phase timely
  | resumedRejected mem known phase => exact h.resumeRejected acc known phase
  | tornDown mem => exact h.settleTeardown mem _
  | evicted mem => exact h.evicted acc mem timely
  | returned mem => exact h.evictReturned mem (timely.retired opened)
  | acquireEvicted mem => exact h.acquireEvicted opened mem timely
  | @drainEvicted outcome mem =>
      have own {u : PoolManager} (tasks : u.tasks = s.tasks.erase (.decided .drain outcome) ++
          [.drainTail]) : Watched u := by
        have there : .drainTail ∈ u.tasks := by simp [tasks]
        exact ⟨fun _ => ⟨_, there, rfl⟩, .inl (attended_of_pending (drainPending_of_task there rfl))⟩
      cases outcome <;> exact own rfl
  | drainTail mem => exact Flagged.drainWaiters fun set => absurd set (by simp)
  | idleTimer armed => exact h.sweepIdle _
  | retireChild conversation c => exact h.retireChild conversation c
  | @exit c cr known alive =>
      exact Watched.forgetExitedChild (s := s.setChild c .exited) ⟨h.flag, h.head⟩ _ _

theorem watched_initial (maxChildren : ℕ) : Watched (initial maxChildren) where
  flag set := by simp [initial] at set
  head := .inl (by simp [attended, initial])

/-! ### Nobody is stranded -/

/-- No creation, eviction, teardown or drain is in progress. -/
structure Idle (s : PoolManager) : Prop where
  tasks : s.tasks = []
  continuations : s.continuations = []
  creations : ∀ k cr, s.creationOf k = some cr → cr.phase.active = false

/-- A caller waits for good reason: its own conversation's child is leased,
or every slot is held by a leased child. -/
def Blocked (s : PoolManager) (w : Waiter) : Prop :=
  (∃ c, s.entries.get w.conversation.id = some c ∧ ∃ l, s.Outstanding l c) ∨
    (s.maxChildren ≤ s.entries.size ∧
      ∀ id c, s.entries.get id = some c → ∃ l, s.Outstanding l c)

/-- When nothing is under way, the head of the queue is blocked. -/
theorem Watched.blocked (h : Watched s) (acc : Accounted s) (held : Holding s) (idle : s.Idle)
    {w : Waiter} (head : w ∈ s.waiters.head?) : s.Blocked w := by
  have nothing : s.drainPending = false := by simp [drainPending, idle.tasks, idle.continuations]
  rcases h.head with attended | full
  · have uses : s.usesOwn w = true := by
      rcases attended_iff.mp attended with pending | uses
      · simp [nothing] at pending
      · exact uses w head
    obtain ⟨c, own, used⟩ := usesOwn_iff.mp uses
    exact .inl ⟨c, own, held.inUse _ c own used⟩
  · obtain ⟨le, all⟩ := full_iff.mp full
    refine .inr ⟨?_, fun id c there => held.inUse id c there ?_⟩
    · have none_inflight : s.inflight.size = 0 := by
        have empty : s.inflight.entries = [] := by
          refine List.eq_nil_iff_forall_not_mem.mpr fun ⟨id, k⟩ mem => ?_
          obtain ⟨cr, known, -, active⟩ := acc.inflight id k (s.inflight.mem_entries.mp mem)
          simp [idle.creations k cr known] at active
        simp [OrderedMap.size, empty]
      have none_closing : s.closing = 0 := by rw [acc.closing, idle.tasks]; rfl
      simp only [slotsTaken, occupiedSlots, acc.pending, none_inflight, none_closing, idle.tasks,
        List.countP_nil] at le
      omega
    · simpa [spoken, pledged, idle.continuations] using all id c there

end PoolManager
end OmpBundler.Core
