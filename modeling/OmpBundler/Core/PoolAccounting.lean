import Mathlib.Data.List.Count
import OmpBundler.Core.PoolSteps

/-!
The accounting that all results about the pool share.

In every reachable state the two counters count what they say they count,
and the maps, the creations and the teardowns agree on which child belongs
to which conversation.
-/

namespace OmpBundler.Core

open Library

/-- Whether the creation still occupies its place among those in flight. -/
def CreationPhase.active : CreationPhase → Bool
  | .resolved => false
  | .rejected _ => false
  | _ => true

/-- Whether the creation has put its entry into the map. -/
def CreationPhase.entered : CreationPhase → Bool
  | .inserted => true
  | .resolved => true
  | _ => false

theorem Task.holdsSlot_of_tearsDown {x : Task} {id : String} {c : ChildId}
    (down : x.tearsDown id c = true) : x.holdsSlot = true := by
  unfold Task.tearsDown at down
  split at down <;> simp_all [Task.holdsSlot]

namespace PoolManager

/-- The child `c` has been entered for the conversation with key `id`. -/
structure Belongs (s : PoolManager) (c : ChildId) (id : String) : Prop where
  entry : (s.entryOf c).conversation.id = id
  creation : ∃ cr, s.creationOf c = some cr ∧ cr.conversation.id = id ∧ cr.phase.entered

/-- The counters count what they say, and the maps agree with the
creations and teardowns in progress. -/
structure Accounted (s : PoolManager) : Prop where
  pending : s.pendingCreations = s.inflight.size
  closing : s.closing = s.tasks.countP Task.holdsSlot
  fresh : ∀ k, s.nextChild ≤ k → s.creationOf k = none
  inflight : ∀ id k, s.inflight.get id = some k →
    ∃ cr, s.creationOf k = some cr ∧ cr.conversation.id = id ∧ cr.phase.active
  active : ∀ k cr, s.creationOf k = some cr → cr.phase.active →
    s.inflight.get cr.conversation.id = some k
  entry : ∀ id c, s.entries.get id = some c → s.Belongs c id
  teardown : ∀ t ∈ s.tasks, ∀ id c, t.tearsDown id c → s.Belongs c id
  live : ∀ c, s.Live c → ∃ cr, s.creationOf c = some cr ∧ cr.phase ≠ .spawning

theorem accounted_initial (maxChildren : ℕ) : Accounted (initial maxChildren) where
  pending := rfl
  closing := rfl
  fresh _ _ := rfl
  inflight _ _ h := by simp [initial] at h
  active _ _ h := by simp [initial] at h
  entry _ _ h := by simp [initial] at h
  teardown _ h := by simp [initial] at h
  live _ h := by simp [initial, Live] at h

section Preservation

variable {s t : PoolManager}

/-- Updates that leave creations alone, add no teardown and put nothing
into the map keep the accounting, as long as slots are counted right. -/
theorem Accounted.congr (h : Accounted s)
    (pending : t.pendingCreations = s.pendingCreations) (inflight : t.inflight = s.inflight)
    (closing : t.closing = t.tasks.countP Task.holdsSlot) (next : t.nextChild = s.nextChild)
    (creation : t.creationOf = s.creationOf)
    (conversation : ∀ c, (t.entryOf c).conversation = (s.entryOf c).conversation)
    (entry : ∀ id c, t.entries.get id = some c →
      s.entries.get id = some c ∨ ∃ x ∈ s.tasks, x.tearsDown id c)
    (teardown : ∀ x ∈ t.tasks, ∀ id c, x.tearsDown id c →
      s.entries.get id = some c ∨ ∃ x ∈ s.tasks, x.tearsDown id c)
    (live : ∀ c, t.Live c → s.Live c) : Accounted t := by
  have belongs {id : String} {c : ChildId}
      (old : s.entries.get id = some c ∨ ∃ x ∈ s.tasks, x.tearsDown id c) :
      t.Belongs c id := by
    have before : s.Belongs c id := by
      rcases old with present | ⟨x, mem, down⟩
      · exact h.entry id c present
      · exact h.teardown x mem id c down
    exact ⟨by rw [conversation, before.entry], by rw [creation]; exact before.creation⟩
  exact {
    pending := by rw [pending, inflight, h.pending]
    closing := closing
    fresh := by rw [next, creation]; exact h.fresh
    inflight := by rw [inflight, creation]; exact h.inflight
    active := by rw [inflight, creation]; exact h.active
    entry := fun id c present => belongs (entry id c present)
    teardown := fun x mem id c down => belongs (teardown x mem id c down)
    live := fun c alive => by rw [creation]; exact h.live c (live c alive) }

@[simp] theorem entryOf_conversation_setEntry (c d : ChildId) (f : PoolEntry → PoolEntry)
    (same : ∀ e, (f e).conversation = e.conversation) :
    ((s.setEntry c f).entryOf d).conversation = (s.entryOf d).conversation := by
  by_cases h : d = c
  · subst h; simp [setEntry, same]
  · simp [setEntry, h]


/-- Updates that neither the counters nor the maps depend on. -/
theorem Accounted.frame (h : Accounted s)
    (same : t.pendingCreations = s.pendingCreations ∧ t.inflight = s.inflight ∧
      t.closing = s.closing ∧ t.tasks = s.tasks ∧ t.nextChild = s.nextChild ∧
      t.creationOf = s.creationOf ∧ t.childOf = s.childOf)
    (conversation : ∀ c, (t.entryOf c).conversation = (s.entryOf c).conversation)
    (entry : ∀ id c, t.entries.get id = some c → s.entries.get id = some c) :
    Accounted t := by
  obtain ⟨pending, inflight, closing, tasks, next, creation, child⟩ := same
  refine h.congr pending inflight ?_ next creation conversation
    (fun id c present => .inl (entry id c present)) ?_ ?_
  · rw [closing, tasks, h.closing]
  · rw [tasks]
    exact fun x mem _ _ down => .inr ⟨x, mem, down⟩
  · simp only [Live, child]
    exact fun _ => id

theorem Accounted.setEntry (h : Accounted s) (c : ChildId) (f : PoolEntry → PoolEntry)
    (same : ∀ e, (f e).conversation = e.conversation) : Accounted (s.setEntry c f) :=
  h.frame ⟨rfl, rfl, rfl, rfl, rfl, rfl, rfl⟩
    (fun d => entryOf_conversation_setEntry c d f same) fun _ _ => id

theorem Accounted.touchLru (h : Accounted s) (id : String) : Accounted (s.touchLru id) :=
  h.frame ⟨rfl, rfl, rfl, rfl, rfl, rfl, rfl⟩ (fun _ => rfl) fun _ _ present => by
    simpa [PoolManager.touchLru] using present

theorem Accounted.grant (h : Accounted s) (w : Waiter) (c : ChildId) :
    Accounted (s.grant w c) :=
  ((h.setEntry c (fun e => { e with inUse := true }) fun _ => rfl).touchLru w.conversation.id).frame
    ⟨rfl, rfl, rfl, rfl, rfl, rfl, rfl⟩ (fun _ => rfl) fun _ _ => id

theorem Accounted.suspend (h : Accounted s) {x : Task} (noSlot : x.holdsSlot = false) :
    Accounted (s.suspend x) := by
  refine h.congr rfl rfl ?_ rfl rfl (fun _ => rfl) (fun _ _ => .inl) ?_ fun _ => id
  · simp [PoolManager.suspend, noSlot, h.closing]
  · intro y mem id c down
    rcases List.mem_append.mp mem with old | new
    · exact .inr ⟨y, old, down⟩
    · rw [List.mem_singleton.mp new] at down
      exact absurd (Task.holdsSlot_of_tearsDown down) (by simp [noSlot])

/-- A creation that is known already is not the next one. -/
theorem Accounted.known_startCreation (h : Accounted s) (conversation : Conversation)
    (parent : Option String) (rest : Continuation) {k : ChildId} {cr : Creation}
    (known : s.creationOf k = some cr) :
    (s.startCreation conversation parent rest).creationOf k = some cr := by
  have other : k ≠ s.nextChild := by
    rintro rfl
    simp [h.fresh _ (Nat.le_refl _)] at known
  simp [other, known]

theorem Accounted.startCreation (h : Accounted s) (conversation : Conversation)
    (parent : Option String) (rest : Continuation)
    (alone : s.inflight.get conversation.id = none) :
    Accounted (s.startCreation conversation parent rest) := by
  have old {k : ChildId} {cr : Creation} (known : s.creationOf k = some cr) :=
    h.known_startCreation conversation parent rest known
  have belongs {c : ChildId} {id : String} (before : s.Belongs c id) :
      (s.startCreation conversation parent rest).Belongs c id := by
    obtain ⟨cr, known, rest⟩ := before.creation
    exact ⟨before.entry, cr, old known, rest⟩
  constructor
  case pending => simp [OrderedMap.size_set, alone, h.pending]
  case closing => exact h.closing
  case fresh =>
      intro k le
      simp only [startCreation_nextChild] at le
      have other : k ≠ s.nextChild := by omega
      simpa [other] using h.fresh k (by omega)
  case inflight =>
      intro id k present
      simp only [startCreation_inflight, OrderedMap.get_set] at present
      split at present
      case isTrue same =>
          obtain rfl := Option.some.inj present
          exact ⟨⟨conversation, parent, .spawning⟩, by simp, same, rfl⟩
      case isFalse =>
          obtain ⟨cr, known, rest⟩ := h.inflight id k present
          exact ⟨cr, old known, rest⟩
  case active =>
      intro k cr known active
      simp only [startCreation_inflight, OrderedMap.get_set]
      by_cases other : k = s.nextChild
      · subst other
        simp only [startCreation_creationOf, Function.update_self, Option.some.injEq] at known
        simp [← known]
      · simp only [startCreation_creationOf, Function.update_of_ne other] at known
        have present := h.active k cr known active
        have apart : conversation.id ≠ cr.conversation.id := by
          intro same
          simp [← same, alone] at present
        simpa [apart] using present
  case entry => exact fun id c present => belongs (h.entry id c present)
  case teardown => exact fun x mem id c down => belongs (h.teardown x mem id c down)
  case live =>
      intro c alive
      obtain ⟨cr, known, rest⟩ := h.live c alive
      exact ⟨cr, old known, rest⟩

theorem Accounted.createEntry (h : Accounted s) (conversation : Conversation)
    (parent : Option String) (rest : Continuation) :
    Accounted (s.createEntry conversation parent rest) := by
  unfold PoolManager.createEntry
  split
  case h_1 =>
      exact h.frame ⟨rfl, rfl, rfl, rfl, rfl, rfl, rfl⟩ (fun _ => rfl) fun _ _ => id
  case h_2 alone => exact h.startCreation conversation parent rest alone

theorem Accounted.beginEvict (h : Accounted s) (purpose : Purpose) {id : String}
    {c : ChildId} (present : s.entries.get id = some c) :
    Accounted (s.beginEvict purpose id c) := by
  refine h.congr rfl rfl ?_ rfl rfl ?_ ?_ ?_ fun _ alive => alive
  · simp [PoolManager.beginEvict, PoolManager.suspend, PoolManager.setEntry, h.closing,
      Task.holdsSlot]
  · exact fun d => entryOf_conversation_setEntry c d (fun e => { e with idleTimer := false })
      fun _ => rfl
  · intro i d there
    left
    simp only [PoolManager.beginEvict, PoolManager.suspend, PoolManager.setEntry,
      OrderedMap.get_delete] at there
    split at there
    · simp at there
    · exact there
  · intro x mem i d down
    rcases List.mem_append.mp mem with old | new
    · exact .inr ⟨x, old, down⟩
    · rw [List.mem_singleton.mp new] at down
      simp only [Task.tearsDown, Bool.decide_and, Bool.and_eq_true, decide_eq_true_eq] at down
      obtain ⟨rfl, rfl⟩ := down
      exact .inl present

theorem Accounted.move (h : Accounted s) (move : Move s t) : Accounted t := by
  cases move with
  | queue waiters settled drainEviction nextCall =>
      exact h.frame ⟨rfl, rfl, rfl, rfl, rfl, rfl, rfl⟩ (fun _ => rfl) fun _ _ => id
  | suspend x noSlot => exact h.suspend noSlot
  | await id k rest =>
      exact h.frame ⟨rfl, rfl, rfl, rfl, rfl, rfl, rfl⟩ (fun _ => rfl) fun _ _ there => there
  | grant w c =>
      exact (h.setEntry c (fun e => { e with idleTimer := false }) fun _ => rfl).grant w c
  | create conversation parent rest => exact h.createEntry conversation parent rest
  | evict purpose id c present => exact h.beginEvict purpose present

theorem Accounted.moves (h : Accounted s) (moves : Moves s t) : Accounted t :=
  moves.preserve h fun _ _ h move => h.move move


/-! ### Every step keeps the accounting -/

theorem Accounted.setPhase (h : Accounted s) {k : ChildId} {cr : Creation}
    (known : s.creationOf k = some cr) (phase : CreationPhase)
    (before : cr.phase.active = true) (after : phase.active = true)
    (entered : cr.phase.entered = false) (spawned : phase ≠ .spawning) :
    Accounted (s.setPhase k phase) := by
  have belongs {c : ChildId} {id : String} (old : s.Belongs c id) :
      (s.setPhase k phase).Belongs c id := by
    obtain ⟨cr', known', same, entered'⟩ := old.creation
    have other : c ≠ k := by
      rintro rfl
      obtain rfl := Option.some.inj (known.symm.trans known')
      simp [entered] at entered'
    exact ⟨old.entry, cr', by simpa [other] using known', same, entered'⟩
  constructor
  case pending => exact h.pending
  case closing => exact h.closing
  case fresh =>
      intro c le
      have other : c ≠ k := by
        rintro rfl
        simp [h.fresh c le] at known
      simpa [other] using h.fresh c le
  case inflight =>
      intro id c present
      obtain ⟨cr', known', same, active⟩ := h.inflight id c present
      by_cases here : c = k
      · subst here
        obtain rfl := Option.some.inj (known.symm.trans known')
        exact ⟨{ cr with phase := phase }, by simp [known], same, after⟩
      · exact ⟨cr', by simpa [here] using known', same, active⟩
  case active =>
      intro c cr' known' active
      by_cases here : c = k
      · subst here
        simp only [setPhase_creationOf, Function.update_self, known, Option.map_some,
          Option.some.injEq] at known'
        subst known'
        exact h.active c cr known before
      · simp only [setPhase_creationOf, Function.update_of_ne here] at known'
        exact h.active c cr' known' active
  case entry => exact fun id c present => belongs (h.entry id c present)
  case teardown => exact fun x mem id c down => belongs (h.teardown x mem id c down)
  case live =>
      intro c alive
      obtain ⟨cr', known', phase'⟩ := h.live c alive
      by_cases here : c = k
      · subst here
        exact ⟨{ cr with phase := phase }, by simp [known], spawned⟩
      · exact ⟨cr', by simpa [here] using known', phase'⟩

theorem Accounted.finishCreation (h : Accounted s) {k : ChildId} {cr : Creation}
    (known : s.creationOf k = some cr) {phase : CreationPhase}
    (before : cr.phase.active = true) (after : phase.active = false)
    (entered : cr.phase.entered = true → phase.entered = true) :
    Accounted (s.finishCreation k cr.conversation phase) := by
  have here := h.active k cr known before
  have belongs {c : ChildId} {id : String} (old : s.Belongs c id) :
      (s.finishCreation k cr.conversation phase).Belongs c id := by
    obtain ⟨cr', known', same, entered'⟩ := old.creation
    refine ⟨old.entry, ?_⟩
    by_cases other : c = k
    · subst other
      obtain rfl := Option.some.inj (known.symm.trans known')
      exact ⟨{ cr with phase := phase }, by simp [PoolManager.finishCreation, known], same,
        entered entered'⟩
    · exact ⟨cr', by simpa [PoolManager.finishCreation, other] using known', same, entered'⟩
  constructor
  case pending =>
      have size := OrderedMap.size_delete s.inflight cr.conversation.id
      simp only [here, Option.isSome_some, if_true] at size
      simp only [PoolManager.finishCreation, setPhase_pendingCreations, setPhase_inflight,
        h.pending]
      omega
  case closing => exact h.closing
  case fresh =>
      intro c le
      have other : c ≠ k := by
        rintro rfl
        simp [h.fresh c le] at known
      simpa [PoolManager.finishCreation, other] using h.fresh c le
  case inflight =>
      intro id c present
      simp only [PoolManager.finishCreation, setPhase_inflight, OrderedMap.get_delete] at present
      split at present
      case isTrue => simp at present
      case isFalse apart =>
          obtain ⟨cr', known', same, active⟩ := h.inflight id c present
          have other : c ≠ k := by
            rintro rfl
            obtain rfl := Option.some.inj (known.symm.trans known')
            exact apart same
          exact ⟨cr', by simpa [PoolManager.finishCreation, other] using known', same, active⟩
  case active =>
      intro c cr' known' active
      by_cases other : c = k
      · subst other
        simp only [PoolManager.finishCreation, setPhase_creationOf, Function.update_self, known,
          Option.map_some, Option.some.injEq] at known'
        subst known'
        simp [after] at active
      · simp only [PoolManager.finishCreation, setPhase_creationOf,
          Function.update_of_ne other] at known'
        have there := h.active c cr' known' active
        have apart : cr.conversation.id ≠ cr'.conversation.id := by
          intro same
          rw [← same, here] at there
          exact other (Option.some.inj there).symm
        simpa [PoolManager.finishCreation, apart] using there
  case entry => exact fun id c present => belongs (h.entry id c present)
  case teardown => exact fun x mem id c down => belongs (h.teardown x mem id c down)
  case live =>
      intro c alive
      obtain ⟨cr', known', phase'⟩ := h.live c alive
      by_cases other : c = k
      · subst other
        refine ⟨{ cr with phase := phase }, by simp [PoolManager.finishCreation, known], ?_⟩
        rintro rfl
        simp [CreationPhase.active] at after
      · exact ⟨cr', by simpa [PoolManager.finishCreation, other] using known', phase'⟩

theorem Accounted.insertEntry (h : Accounted s) {k : ChildId} {cr : Creation}
    (known : s.creationOf k = some cr) (phase : cr.phase = .attaching) :
    Accounted (s.insertEntry k cr.conversation) := by
  have outside {c : ChildId} {id : String} (old : s.Belongs c id) : c ≠ k := by
    rintro rfl
    obtain ⟨cr', known', -, entered⟩ := old.creation
    obtain rfl := Option.some.inj (known.symm.trans known')
    simp [phase, CreationPhase.entered] at entered
  have old := h.setPhase known .inserted (by simp [phase, CreationPhase.active]) rfl
    (by simp [phase, CreationPhase.entered]) (by simp)
  have belongs {c : ChildId} {id : String} (before : s.Belongs c id) :
      (s.insertEntry k cr.conversation).Belongs c id := by
    obtain ⟨cr', known', same, entered⟩ := before.creation
    have other := outside before
    exact ⟨by simpa [PoolManager.insertEntry, other] using before.entry,
      cr', by simpa [PoolManager.insertEntry, other] using known', same, entered⟩
  have new : (s.insertEntry k cr.conversation).Belongs k cr.conversation.id :=
    ⟨by simp [PoolManager.insertEntry],
      { cr with phase := .inserted }, by simp [PoolManager.insertEntry, known], rfl, rfl⟩
  constructor
  case pending => exact old.pending
  case closing => exact old.closing
  case fresh => exact old.fresh
  case inflight => exact old.inflight
  case active => exact old.active
  case entry =>
      intro id c present
      simp only [PoolManager.insertEntry, setPhase_entries, OrderedMap.get_set] at present
      split at present
      case isTrue same =>
          obtain rfl := Option.some.inj present
          exact same ▸ new
      case isFalse => exact belongs (h.entry id c present)
  case teardown => exact fun x mem id c down => belongs (h.teardown x mem id c down)
  case live => exact old.live

/-- Taking a suspended operation off the list frees the slot it holds. -/
theorem countP_erase_task {x : Task} (mem : x ∈ s.tasks) :
    (s.tasks.erase x).countP Task.holdsSlot + (if x.holdsSlot then 1 else 0) =
      s.tasks.countP Task.holdsSlot := by
  rw [List.countP_erase]
  by_cases slot : x.holdsSlot
  · have : 0 < s.tasks.countP Task.holdsSlot := List.countP_pos_iff.mpr ⟨x, mem, slot⟩
    simp only [mem, slot, and_self, if_true]
    omega
  · simp [slot]

theorem Accounted.eraseTask (h : Accounted s) {x : Task} (mem : x ∈ s.tasks)
    (noSlot : x.holdsSlot = false) : Accounted { s with tasks := s.tasks.erase x } := by
  refine h.congr rfl rfl ?_ rfl rfl (fun _ => rfl) (fun _ _ => .inl) ?_ fun _ => id
  · simpa [noSlot, h.closing] using (countP_erase_task mem).symm
  · exact fun y there _ _ down => .inr ⟨y, List.mem_of_mem_erase there, down⟩

/-- A suspended eviction moves on to another of its steps. -/
theorem Accounted.replaceTask (h : Accounted s) {x y : Task} (mem : x ∈ s.tasks)
    (slot : x.holdsSlot = true) (conversation : ∀ c, (t.entryOf c).conversation =
      (s.entryOf c).conversation)
    (same : t.pendingCreations = s.pendingCreations ∧ t.inflight = s.inflight ∧
      t.nextChild = s.nextChild ∧ t.creationOf = s.creationOf)
    (tasks : t.tasks = s.tasks.erase x ++ [y])
    (closing : t.closing + (if y.holdsSlot then 0 else 1) = s.closing)
    (teardown : ∀ id c, y.tearsDown id c → x.tearsDown id c)
    (entry : ∀ id c, t.entries.get id = some c →
      s.entries.get id = some c ∨ x.tearsDown id c)
    (live : ∀ c, t.Live c → s.Live c) : Accounted t := by
  obtain ⟨pending, inflight, next, creation⟩ := same
  refine h.congr pending inflight ?_ next creation conversation ?_ ?_ live
  · have erased := countP_erase_task mem
    simp only [slot, if_true] at erased
    rw [tasks, List.countP_append]
    have := h.closing
    by_cases after : y.holdsSlot <;> simp only [after, if_true, if_false, List.countP_cons,
      List.countP_nil, Bool.false_eq_true] at closing ⊢ <;> omega
  · exact fun id c there => (entry id c there).imp_right fun down => ⟨x, mem, down⟩
  · intro z there id c down
    rw [tasks] at there
    rcases List.mem_append.mp there with old | new
    · exact .inr ⟨z, List.mem_of_mem_erase old, down⟩
    · rw [List.mem_singleton.mp new] at down
      exact .inr ⟨x, mem, teardown id c down⟩

theorem Accounted.evicted (h : Accounted s) {purpose : Purpose} {id : String} {c : ChildId}
    {result : TeardownResult} (mem : .evict purpose id c (.tornDown result) ∈ s.tasks) :
    Accounted (({ s with
      tasks := s.tasks.erase (.evict purpose id c (.tornDown result)) }).evicted purpose id c
        result) := by
  have counted : 0 < s.closing := by
    rw [h.closing]
    exact List.countP_pos_iff.mpr ⟨_, mem, rfl⟩
  have slot : (if purpose = .idle then s.closing else s.closing - 1) +
      (if (Task.evict purpose id c (.returned result.outcome)).holdsSlot then 0 else 1) =
        s.closing := by
    by_cases idle : purpose = .idle
    · simp [Task.holdsSlot, idle]
    · simp [Task.holdsSlot, idle]
      omega
  cases result with
  | closeFailed error =>
      refine h.replaceTask mem rfl (fun d => ?_) ⟨rfl, rfl, rfl, rfl⟩ rfl slot
        (fun _ _ down => by simp [Task.tearsDown] at down) (fun i d there => ?_)
        (fun _ alive => alive)
      · exact entryOf_conversation_setEntry c d
          (fun e => { e with inUse := false, idleTimer := false }) fun _ => rfl
      · simp only [PoolManager.evicted, restore, suspend_entries, OrderedMap.get_set] at there
        split at there
        case isTrue same =>
            obtain rfl := Option.some.inj there
            exact .inr (by simp [Task.tearsDown, same])
        case isFalse => exact .inl there
  | childClosed | releaseFailed error =>
      exact h.replaceTask mem rfl (fun _ => rfl) ⟨rfl, rfl, rfl, rfl⟩ rfl slot
        (fun _ _ down => by simp [Task.tearsDown] at down) (fun _ _ there => .inl there)
        (fun _ alive => alive)

theorem Accounted.setChild (h : Accounted s) (c : ChildId) (status : ChildStatus)
    (dead : status ≠ .live) : Accounted (s.setChild c status) := by
  refine h.congr rfl rfl h.closing rfl rfl (fun _ => rfl) (fun _ _ => .inl)
    (fun x mem _ _ down => .inr ⟨x, mem, down⟩) fun d alive => ?_
  by_cases same : d = c
  · simp [Live, same, dead] at alive
  · simpa [Live, same] using alive

theorem Accounted.release (h : Accounted s) (l : ℕ) (lease : Lease) :
    Accounted (s.release l lease) := by
  unfold PoolManager.release releaseEntry
  have marked : Accounted { s with
      leaseOf := Function.update s.leaseOf l (some { lease with released := true }) } :=
    h.frame ⟨rfl, rfl, rfl, rfl, rfl, rfl, rfl⟩ (fun _ => rfl) fun _ _ => id
  split
  · exact h
  dsimp only
  split
  · exact marked
  split
  · exact marked
  split
  · exact marked
  exact ((marked.touchLru _).setEntry _ (fun e => { e with inUse := false, idleTimer := true })
    fun _ => rfl).moves (drainWaiters_moves _)

theorem Accounted.eraseContinuation (h : Accounted s) (k : ChildId) (rest : Continuation) :
    Accounted { s with continuations := s.continuations.erase (k, rest) } :=
  h.frame ⟨rfl, rfl, rfl, rfl, rfl, rfl, rfl⟩ (fun _ => rfl) fun _ _ => id

theorem Accounted.resume (h : Accounted s) (k : ChildId) (rest : Continuation) :
    Accounted (s.resume k rest) := by
  rcases resume_cases s k rest with moves | ⟨-, moves⟩
  · exact h.moves moves
  · exact (h.grant rest.caller k).moves moves

theorem Accounted.acquireEvicted (h : Accounted s) (w : Waiter) (parent : Option String)
    (outcome : EvictForCapacityOutcome) : Accounted (s.acquireEvicted w parent outcome) := by
  rcases acquireEvicted_cases s w parent outcome with move | ⟨-, created⟩
  · exact h.move move
  · exact created ▸ h.createEntry w.conversation parent _

/-- The `finally` callback of an idle sweep gives its slot up. -/
theorem Accounted.eraseSweep (h : Accounted s) {id : String} {c : ChildId}
    {outcome : EvictOutcome} (mem : .evict .idle id c (.returned outcome) ∈ s.tasks) :
    Accounted { s with
      tasks := s.tasks.erase (.evict .idle id c (.returned outcome))
      closing := s.closing - 1 } := by
  refine h.congr rfl rfl ?_ rfl rfl (fun _ => rfl) (fun _ _ => .inl) ?_ fun _ alive => alive
  · have erased := countP_erase_task mem
    simp only [Task.holdsSlot, decide_true, if_true] at erased
    simp only [h.closing]
    omega
  · exact fun y there _ _ down => .inr ⟨y, List.mem_of_mem_erase there, down⟩

theorem Accounted.evictReturned (h : Accounted s) {purpose : Purpose} {id : String}
    {c : ChildId} {outcome : EvictOutcome}
    (mem : .evict purpose id c (.returned outcome) ∈ s.tasks) :
    Accounted (({ s with
      tasks := s.tasks.erase (.evict purpose id c (.returned outcome)) }).evictReturned purpose
        id c outcome) := by
  cases purpose with
  | capacity caller rest closeError =>
      have erased := h.eraseTask mem rfl
      cases outcome with
      | ok => exact erased.suspend rfl
      | closeFailed error => exact erased.move (evictNext_move _ _ _ _)
  | idle => exact (h.eraseSweep mem).moves (drainWaiters_moves _)
  | retire =>
      have erased := h.eraseTask mem rfl
      cases outcome with
      | ok => exact erased.moves (drainWaiters_moves _)
      | closeFailed error =>
          exact (erased.setEntry c (fun e => { e with inUse := true })
            fun _ => rfl).move (rejectWaitersFor_move _ _ _)

theorem Accounted.retireChild (h : Accounted s) (conversation : Conversation) (c : ChildId) :
    Accounted (s.retireChild conversation c) := by
  unfold PoolManager.retireChild
  split
  case isTrue found =>
      exact (h.setEntry c (fun e => { e with retiring := true, inUse := false })
        fun _ => rfl).beginEvict .retire found.1
  case isFalse => exact h

theorem Accounted.forgetExitedChild (h : Accounted s) (conversation : Conversation)
    (c : ChildId) : Accounted (s.forgetExitedChild conversation c) := by
  unfold PoolManager.forgetExitedChild
  split
  case isTrue =>
      refine Accounted.moves ?_ (drainWaiters_moves _)
      refine h.frame ⟨rfl, rfl, rfl, rfl, rfl, rfl, rfl⟩ (fun d => ?_) fun i d there => ?_
      · exact entryOf_conversation_setEntry c d (fun e => { e with idleTimer := false })
          fun _ => rfl
      · simp only [OrderedMap.get_delete] at there
        split at there
        · simp at there
        · exact there
  case isFalse => exact h

theorem Accounted.spawned (h : Accounted s) {k : ChildId} {cr : Creation}
    (known : s.creationOf k = some cr) (phase : cr.phase = .spawning) :
    Accounted ((s.setChild k .live).setPhase k .attaching) := by
  have moved := h.setPhase known .attaching (by simp [phase, CreationPhase.active]) rfl
    (by simp [phase, CreationPhase.entered]) (by simp)
  have belongs {c : ChildId} {id : String} (old : (s.setPhase k .attaching).Belongs c id) :
      ((s.setChild k .live).setPhase k .attaching).Belongs c id := ⟨old.entry, old.creation⟩
  constructor
  case pending => exact moved.pending
  case closing => exact moved.closing
  case fresh => exact moved.fresh
  case inflight => exact moved.inflight
  case active => exact moved.active
  case entry => exact fun id c present => belongs (moved.entry id c present)
  case teardown => exact fun x mem id c down => belongs (moved.teardown x mem id c down)
  case live =>
      intro c alive
      by_cases here : c = k
      · subst here
        exact ⟨{ cr with phase := .attaching }, by simp [known], by simp⟩
      · exact moved.live c (by simpa [Live, here] using alive)

theorem Accounted.settleTeardown (h : Accounted s) {purpose : Purpose} {id : String}
    {c : ChildId} (mem : .evict purpose id c .closing ∈ s.tasks) (result : TeardownResult) :
    Accounted (s.settleTeardown purpose id c result) := by
  cases result with
  | closeFailed error =>
      exact h.replaceTask mem rfl (fun _ => rfl) ⟨rfl, rfl, rfl, rfl⟩ rfl rfl
        (fun _ _ down => down) (fun _ _ there => .inl there) (fun _ alive => alive)
  | childClosed | releaseFailed error =>
      exact (h.setChild c .closed (by simp)).replaceTask mem rfl (fun _ => rfl)
        ⟨rfl, rfl, rfl, rfl⟩ rfl rfl (fun _ _ down => down) (fun _ _ there => .inl there)
        (fun _ alive => alive)

theorem Accounted.step (h : Accounted s) {a : Action} (taken : step s a = some t) :
    Accounted t := by
  have failing {cr : Creation} {phase : CreationPhase} (at_ : cr.phase = phase)
      (active : phase.active = true) (entered : phase.entered = false) :
      cr.phase.active = true ∧ cr.phase.entered = false := by rw [at_]; exact ⟨active, entered⟩
  cases step_cases taken with
  | acquire conversation parent => exact h.moves (acquire_moves s conversation parent)
  | release known => exact h.release _ _
  | spawned known phase => exact h.spawned known phase
  | spawnFailed known phase | attachFailed known phase | abortFailed known phase =>
      obtain ⟨active, entered⟩ := failing phase rfl rfl
      exact h.setPhase known _ active rfl entered (by simp)
  | attached known phase => exact h.insertEntry known phase
  | aborted known phase =>
      obtain ⟨active, entered⟩ := failing phase rfl rfl
      exact (h.setChild _ _ (by simp)).setPhase known _ active rfl entered (by simp)
  | finished known phase =>
      exact h.finishCreation known (by rw [phase]; rfl) rfl fun _ => rfl
  | finishedFailing known phase =>
      exact h.finishCreation known (by rw [phase]; rfl) rfl
        (by simp [phase, CreationPhase.entered])
  | resumed mem known phase => exact (h.eraseContinuation _ _).resume _ _
  | resumedRejected mem known phase =>
      exact (h.eraseContinuation _ _).moves (resumeRejected_moves _ _ _)
  | tornDown mem => exact h.settleTeardown mem _
  | evicted mem => exact h.evicted mem
  | returned mem => exact h.evictReturned mem
  | acquireEvicted mem => exact (h.eraseTask mem rfl).acquireEvicted _ _ _
  | drainEvicted mem => exact (h.eraseTask mem rfl).moves (tryEvictForDrain_moves _ _)
  | drainTail mem =>
      exact ((h.eraseTask mem rfl).move (.queue s.waiters s.settled false s.nextCall)).moves
        (drainWaiters_moves _)
  | idleTimer armed =>
      exact (h.setEntry _ (fun e => { e with idleTimer := false }) fun _ => rfl).moves
        (sweepIdle_moves s _)
  | retireChild conversation c => exact h.retireChild conversation c
  | exit known alive => exact (h.setChild _ _ (by simp)).forgetExitedChild _ _

theorem Reachable.accounted {C : PoolManager → Action → Prop} (reach : machine.Reachable C s) :
    Accounted s := by
  refine reach.invariant ?_ fun s a t h _ taken => h.step taken
  rintro s ⟨maxChildren, -, rfl⟩
  exact accounted_initial maxChildren

end Preservation
end PoolManager
end OmpBundler.Core
