import OmpBundler.Core.PoolPlaces
import OmpBundler.Core.PoolLeases

/-!
Who holds a child that is in use.

As long as the pool is open and no retired child fails to close, a child in
the map is marked in use only while somebody holds a lease on it. A release
finds the entry by conversation and marks whatever it finds as idle, so it
may err towards idle, never towards in use.
-/

namespace OmpBundler.Core

open Library

/-- A step of a retired child's teardown after the child has failed to
close: such a child stays in the map, in use for ever. -/
def PoolManager.Action.failsToRetire : PoolManager.Action → Bool
  | .advance (.evict .retire _ _ (.tornDown (.closeFailed _))) => true
  | .advance (.evict .retire _ _ (.returned (.closeFailed _))) => true
  | _ => false

/-- The child whose teardown an eviction other than a retirement waits for. -/
def Task.borrows : Task → Option ChildId
  | .evict .retire _ _ _ => none
  | .evict _ _ c .closing => some c
  | .evict _ _ c (.tornDown _) => some c
  | _ => none

namespace PoolManager

/-- The conversation that a child has been entered for, once it has. -/
def enteredFor (s : PoolManager) (c : ChildId) : Option String :=
  (s.creationOf c).bind fun cr => if cr.phase.entered then some cr.conversation.id else none

/-- The pool is open, and whatever is in use in its map is leased. -/
structure Holding (s : PoolManager) : Prop where
  opened : s.closed = false
  lease : ∀ l lease, s.leaseOf l = some lease →
    s.enteredFor lease.child = some lease.conversation.id
  fresh : ∀ l, s.nextLease ≤ l → s.leaseOf l = none
  object : ∀ c id, s.enteredFor c = some id → (s.entryOf c).conversation.id = id
  inUse : ∀ id c, s.entries.get id = some c → (s.entryOf c).inUse = true →
    ∃ l, s.Outstanding l c
  sound : ∀ id c, s.entries.get id = some c → (s.entryOf c).retiring = false
  borrowed : ∀ x ∈ s.tasks, ∀ c, x.borrows = some c → (s.entryOf c).retiring = false

variable {s t : PoolManager}

theorem enteredFor_eq {k : ChildId} {cr : Creation} (known : s.creationOf k = some cr) :
    s.enteredFor k = if cr.phase.entered then some cr.conversation.id else none := by
  simp [enteredFor, known]

/-- A child in the map has been entered for its key. -/
theorem Accounted.enteredFor (acc : Accounted s) {id : String} {c : ChildId}
    (present : s.entries.get id = some c) : s.enteredFor c = some id := by
  obtain ⟨cr, known, same, entered⟩ := (acc.entry id c present).creation
  simp [enteredFor_eq known, entered, same]

/-- Updates that hand out no lease, put nothing into the map and mark
nothing in use or retiring. -/
theorem Holding.frame (h : Holding s) (closed : t.closed = s.closed)
    (leases : t.leaseOf = s.leaseOf ∧ t.nextLease = s.nextLease)
    (entered : t.enteredFor = s.enteredFor)
    (object : ∀ c, (t.entryOf c).conversation = (s.entryOf c).conversation ∧
      ((t.entryOf c).inUse = true → (s.entryOf c).inUse = true) ∧
      (t.entryOf c).retiring = (s.entryOf c).retiring)
    (entry : ∀ id c, t.entries.get id = some c → s.entries.get id = some c)
    (tasks : ∀ x ∈ t.tasks, ∀ c, x.borrows = some c →
      (∃ y ∈ s.tasks, y.borrows = some c) ∨ (s.entryOf c).retiring = false) : Holding t where
  opened := closed.trans h.opened
  lease := by rw [leases.1, entered]; exact h.lease
  fresh := by rw [leases.1, leases.2]; exact h.fresh
  object c id there := by
    rw [(object c).1]
    exact h.object c id (entered ▸ there)
  inUse id c there used := by
    simp only [Outstanding, leases.1]
    exact h.inUse id c (entry id c there) ((object c).2.1 used)
  sound id c there := by
    rw [(object c).2.2]
    exact h.sound id c (entry id c there)
  borrowed x mem c borrows := by
    rw [(object c).2.2]
    rcases tasks x mem c borrows with ⟨y, mem', borrows'⟩ | sound
    · exact h.borrowed y mem' c borrows'
    · exact sound

/-- Updates of the wait queue, the continuations, the counters and the
finished calls. -/
theorem Holding.still (h : Holding s) (closed : t.closed = s.closed)
    (leases : t.leaseOf = s.leaseOf ∧ t.nextLease = s.nextLease)
    (entered : t.enteredFor = s.enteredFor) (objects : t.entryOf = s.entryOf)
    (entry : ∀ id c, t.entries.get id = some c → s.entries.get id = some c)
    (tasks : ∀ x ∈ t.tasks, ∀ c, x.borrows = some c → ∃ y ∈ s.tasks, y.borrows = some c) :
    Holding t :=
  h.frame closed leases entered (by simp [objects]) entry
    fun x mem c borrows => .inl (tasks x mem c borrows)

/-! ### The updates -/

theorem Holding.setEntry (h : Holding s) (c : ChildId) (f : PoolEntry → PoolEntry)
    (same : ∀ e, (f e).conversation = e.conversation ∧
      ((f e).inUse = true → e.inUse = true) ∧ (f e).retiring = e.retiring) :
    Holding (s.setEntry c f) := by
  refine h.frame rfl ⟨rfl, rfl⟩ rfl (fun d => ?_) (fun _ _ there => there)
    fun x mem _ borrows => .inl ⟨x, mem, borrows⟩
  by_cases here : d = c
  · subst here
    simpa using same _
  · simp [here]

theorem Holding.touchLru (h : Holding s) (id : String) : Holding (s.touchLru id) :=
  h.still rfl ⟨rfl, rfl⟩ rfl rfl (fun _ _ there => by simpa using there)
    fun x mem _ borrows => ⟨x, mem, borrows⟩

theorem Holding.setChild (h : Holding s) (c : ChildId) (status : ChildStatus) :
    Holding (s.setChild c status) :=
  h.still rfl ⟨rfl, rfl⟩ rfl rfl (fun _ _ there => there) fun x mem _ borrows => ⟨x, mem, borrows⟩

theorem Holding.eraseTask (h : Holding s) (x : Task) : Holding { s with tasks := s.tasks.erase x } :=
  h.still rfl ⟨rfl, rfl⟩ rfl rfl (fun _ _ there => there)
    fun y mem _ borrows => ⟨y, List.mem_of_mem_erase mem, borrows⟩

/-- A lease on a child that has been entered for the caller's conversation. -/
theorem Holding.grant (h : Holding s) (w : Waiter) {c : ChildId} {id : String}
    (entered : s.enteredFor c = some id) : Holding (s.grant w c) := by
  have object (d : ChildId) : ((s.grant w c).entryOf d).conversation =
      (s.entryOf d).conversation ∧
      ((s.grant w c).entryOf d).retiring = (s.entryOf d).retiring := by
    by_cases here : d = c
    · subst here
      simp [PoolManager.grant]
    · simp [PoolManager.grant, here]
  constructor
  case opened => exact h.opened
  case lease =>
      intro l lease known
      by_cases new : l = s.nextLease
      · subst new
        simp only [PoolManager.grant, makeLease_leaseOf, touchLru_nextLease, setEntry_nextLease,
          Function.update_self, Option.some.injEq] at known
        subst known
        have owner := h.object c id entered
        rw [← (object c).1] at owner
        exact owner ▸ entered
      · exact h.lease l lease (by simpa [PoolManager.grant, new] using known)
  case fresh =>
      intro l le
      have le : s.nextLease + 1 ≤ l := le
      have new : l ≠ s.nextLease := by omega
      simpa [PoolManager.grant, new] using h.fresh l (by omega)
  case object =>
      intro d i there
      rw [(object d).1]
      exact h.object d i there
  case inUse =>
      intro i d there used
      by_cases here : d = c
      · exact ⟨s.nextLease, ⟨c, (s.entryOf c).conversation, false⟩, by simp [PoolManager.grant],
          here.symm, rfl⟩
      · simp only [PoolManager.grant, makeLease_entries, touchLru_entries, setEntry_entries,
          OrderedMap.get_touch] at there
        obtain ⟨l, lease, known, rest⟩ :=
          h.inUse i d there (by simpa [PoolManager.grant, here] using used)
        have old : l ≠ s.nextLease := by
          rintro rfl
          simp [h.fresh _ (Nat.le_refl _)] at known
        exact ⟨l, lease, by simpa [PoolManager.grant, old] using known, rest⟩
  case sound =>
      intro i d there
      rw [(object d).2]
      exact h.sound i d (by simpa [PoolManager.grant] using there)
  case borrowed =>
      intro x mem d borrows
      rw [(object d).2]
      exact h.borrowed x mem d borrows

theorem Holding.beginEvict (h : Holding s) (purpose : Purpose) (id : String) (c : ChildId)
    (sound : purpose = .retire ∨ (s.entryOf c).retiring = false) :
    Holding (s.beginEvict purpose id c) := by
  have cleared := h.setEntry c (fun e => { e with idleTimer := false }) fun _ => ⟨rfl, fun used => used, rfl⟩
  have same : ((s.setEntry c fun e => { e with idleTimer := false }).entryOf c).retiring =
      (s.entryOf c).retiring := by simp
  refine cleared.frame rfl ⟨rfl, rfl⟩ rfl (fun _ => ⟨rfl, fun used => used, rfl⟩) (fun i d there => ?_)
    fun x mem d borrows => ?_
  · simp only [PoolManager.beginEvict, suspend_entries, OrderedMap.get_delete] at there
    split at there
    · simp at there
    · exact there
  · rcases List.mem_append.mp mem with old | new
    · exact .inl ⟨x, old, borrows⟩
    · rw [List.mem_singleton.mp new] at borrows
      rcases sound with rfl | sound
      · simp [Task.borrows] at borrows
      · cases purpose with
        | retire => simp [Task.borrows] at borrows
        | capacity | idle =>
            obtain rfl : c = d := by simpa [Task.borrows] using borrows
            exact .inr (same.trans sound)

theorem Holding.createEntry (h : Holding s) (acc : Accounted s) (conversation : Conversation)
    (parent : Option String) (rest : Continuation) :
    Holding (s.createEntry conversation parent rest) := by
  unfold PoolManager.createEntry
  split
  · exact h.still rfl ⟨rfl, rfl⟩ rfl rfl (fun _ _ there => there)
      fun x mem _ borrows => ⟨x, mem, borrows⟩
  · refine h.still rfl ⟨rfl, rfl⟩ (funext fun k => ?_) rfl (fun _ _ there => there)
      fun x mem _ borrows => ⟨x, mem, borrows⟩
    by_cases new : k = s.nextChild
    · subst new
      simp [PoolManager.enteredFor, acc.fresh _ (Nat.le_refl _), CreationPhase.entered]
    · simp [PoolManager.enteredFor, new]

theorem Holding.suspend (h : Holding s) {x : Task} (noSlot : x.holdsSlot = false) :
    Holding (s.suspend x) := by
  refine h.still rfl ⟨rfl, rfl⟩ rfl rfl (fun _ _ there => there) fun y mem c borrows => ?_
  rcases List.mem_append.mp mem with old | new
  · exact ⟨y, old, borrows⟩
  · rw [List.mem_singleton.mp new] at borrows
    unfold Task.borrows at borrows
    split at borrows <;> simp_all [Task.holdsSlot]

theorem Holding.move (h : Holding s) (acc : Accounted s) (move : Move s t) : Holding t := by
  cases move with
  | queue | await =>
      exact h.still rfl ⟨rfl, rfl⟩ rfl rfl (fun _ _ there => there)
        fun x mem _ borrows => ⟨x, mem, borrows⟩
  | suspend x noSlot => exact h.suspend noSlot
  | grant w c present =>
      exact (h.setEntry c (fun e => { e with idleTimer := false })
        fun _ => ⟨rfl, fun used => used, rfl⟩).grant w (acc.enteredFor present)
  | create conversation parent rest => exact h.createEntry acc conversation parent rest
  | evict purpose id c present => exact h.beginEvict purpose id c (.inr (h.sound id c present))

theorem Holding.moves (h : Holding s) (acc : Accounted s) (moves : Moves s t) : Holding t :=
  (moves.preserve (I := fun s => Accounted s ∧ Holding s) ⟨acc, h⟩
    fun _ _ ⟨acc, h⟩ move => ⟨acc.move move, h.move acc move⟩).2

theorem enteredFor_setPhase {k : ChildId} {cr : Creation} (known : s.creationOf k = some cr)
    {phase : CreationPhase} (same : phase.entered = cr.phase.entered) :
    (s.setPhase k phase).enteredFor = s.enteredFor := by
  funext c
  by_cases here : c = k
  · subst here
    simp [PoolManager.enteredFor, known, same]
  · simp [PoolManager.enteredFor, here]

theorem Holding.setPhase (h : Holding s) {k : ChildId} {cr : Creation}
    (known : s.creationOf k = some cr) (phase : CreationPhase)
    (same : phase.entered = cr.phase.entered) : Holding (s.setPhase k phase) :=
  h.still rfl ⟨rfl, rfl⟩ (enteredFor_setPhase known same) rfl (fun _ _ there => there)
    fun x mem _ borrows => ⟨x, mem, borrows⟩

theorem Holding.finishCreation (h : Holding s) {k : ChildId} {cr : Creation}
    (known : s.creationOf k = some cr) (phase : CreationPhase)
    (same : phase.entered = cr.phase.entered) :
    Holding (s.finishCreation k cr.conversation phase) :=
  h.still rfl ⟨rfl, rfl⟩ (enteredFor_setPhase known same) rfl (fun _ _ there => there)
    fun x mem _ borrows => ⟨x, mem, borrows⟩

/-! ### The steps -/

theorem Holding.insertEntry (h : Holding s) {k : ChildId} {cr : Creation}
    (known : s.creationOf k = some cr) (outside : cr.phase.entered = false) :
    Holding (s.insertEntry k cr.conversation) := by
  have before : s.enteredFor k = none := by simp [enteredFor_eq known, outside]
  have new : (s.insertEntry k cr.conversation).enteredFor k = some cr.conversation.id := by
    simp [PoolManager.enteredFor, PoolManager.insertEntry, known, CreationPhase.entered]
  have entered {c : ChildId} (other : c ≠ k) :
      (s.insertEntry k cr.conversation).enteredFor c = s.enteredFor c := by
    simp [PoolManager.enteredFor, PoolManager.insertEntry, other]
  have object {c : ChildId} (other : c ≠ k) :
      (s.insertEntry k cr.conversation).entryOf c = s.entryOf c := by
    simp [PoolManager.insertEntry, other]
  have self : (s.insertEntry k cr.conversation).entryOf k =
      ⟨cr.conversation, false, false, false⟩ := by simp [PoolManager.insertEntry]
  have entry {id : String} {c : ChildId} (other : c ≠ k)
      (there : (s.insertEntry k cr.conversation).entries.get id = some c) :
      s.entries.get id = some c := by
    simp only [PoolManager.insertEntry, setPhase_entries, OrderedMap.get_set] at there
    split at there
    · exact absurd (Option.some.inj there).symm other
    · exact there
  constructor
  case opened => exact h.opened
  case lease =>
      intro l lease there
      have old := h.lease l lease there
      have other : lease.child ≠ k := by
        intro same
        simp [same, before] at old
      exact (entered other).trans old
  case fresh => exact h.fresh
  case object =>
      intro c id there
      by_cases here : c = k
      · subst here
        rw [self]
        exact Option.some.inj (new.symm.trans there)
      · rw [object here]
        exact h.object c id (entered here ▸ there)
  case inUse =>
      intro id c there used
      by_cases here : c = k
      · simp [here, self] at used
      · exact h.inUse id c (entry here there) (object here ▸ used)
  case sound =>
      intro id c there
      by_cases here : c = k
      · rw [here, self]
      · exact object here ▸ h.sound id c (entry here there)
  case borrowed =>
      intro x mem c borrows
      by_cases here : c = k
      · rw [here, self]
      · exact object here ▸ h.borrowed x mem c borrows

/-- A suspended eviction moves on. -/
theorem Holding.replaceTask (h : Holding s) {x y : Task} (mem : x ∈ s.tasks)
    (borrows : ∀ c, y.borrows = some c → x.borrows = some c) :
    Holding ({ s with tasks := s.tasks.erase x }.suspend y) := by
  refine h.still rfl ⟨rfl, rfl⟩ rfl rfl (fun _ _ there => there) fun z there c borrowed => ?_
  rcases List.mem_append.mp there with old | new
  · exact ⟨z, List.mem_of_mem_erase old, borrowed⟩
  · rw [List.mem_singleton.mp new] at borrowed
    exact ⟨x, mem, borrows c borrowed⟩

theorem Holding.settleTeardown (h : Holding s) {purpose : Purpose} {id : String} {c : ChildId}
    (mem : .evict purpose id c .closing ∈ s.tasks) (result : TeardownResult) :
    Holding (s.settleTeardown purpose id c result) := by
  have borrows : ∀ d, (Task.evict purpose id c (.tornDown result)).borrows = some d →
      (Task.evict purpose id c .closing).borrows = some d := by
    cases purpose <;> exact fun _ borrows => borrows
  have moved := h.replaceTask mem borrows
  cases result with
  | closeFailed error => exact moved
  | childClosed | releaseFailed error =>
      exact moved.still rfl ⟨rfl, rfl⟩ rfl rfl (fun _ _ there => there)
        fun x there _ borrows => ⟨x, there, borrows⟩

theorem Holding.restore (h : Holding s) (id : String) {c : ChildId}
    (sound : (s.entryOf c).retiring = false) : Holding (s.restore id c) := by
  have object {d : ChildId} (other : d ≠ c) : (s.restore id c).entryOf d = s.entryOf d := by
    simp [PoolManager.restore, other]
  have self : (s.restore id c).entryOf c =
      { s.entryOf c with inUse := false, idleTimer := false } := by simp [PoolManager.restore]
  have entry {i : String} {d : ChildId} (other : d ≠ c)
      (there : (s.restore id c).entries.get i = some d) : s.entries.get i = some d := by
    simp only [PoolManager.restore, OrderedMap.get_set] at there
    split at there
    · exact absurd (Option.some.inj there).symm other
    · exact there
  constructor
  case opened => exact h.opened
  case lease => exact h.lease
  case fresh => exact h.fresh
  case object =>
      intro d i there
      by_cases here : d = c
      · subst here
        rw [self]
        exact h.object d i there
      · rw [object here]
        exact h.object d i there
  case inUse =>
      intro i d there used
      by_cases here : d = c
      · simp [here, self] at used
      · exact h.inUse i d (entry here there) (object here ▸ used)
  case sound =>
      intro i d there
      by_cases here : d = c
      · rw [here, self]
        exact sound
      · exact object here ▸ h.sound i d (entry here there)
  case borrowed =>
      intro x mem d borrows
      by_cases here : d = c
      · rw [here, self]
        exact sound
      · exact object here ▸ h.borrowed x mem d borrows

theorem Holding.evicted (h : Holding s) {purpose : Purpose} {id : String} {c : ChildId}
    {result : TeardownResult} (mem : .evict purpose id c (.tornDown result) ∈ s.tasks)
    (retired : Action.failsToRetire (.advance (.evict purpose id c (.tornDown result))) = false) :
    Holding ({ s with
      tasks := s.tasks.erase (.evict purpose id c (.tornDown result)) }.evicted purpose id c
        result) := by
  have moved (outcome : EvictOutcome) : Holding ({ s with
      tasks := s.tasks.erase (.evict purpose id c (.tornDown result)) }.suspend
        (.evict purpose id c (.returned outcome))) :=
    h.replaceTask mem fun d borrows => by cases purpose <;> simp [Task.borrows] at borrows
  cases result with
  | childClosed | releaseFailed error =>
      exact (moved .ok).still rfl ⟨rfl, rfl⟩ rfl rfl (fun _ _ there => there)
        fun x there _ borrows => ⟨x, there, borrows⟩
  | closeFailed error =>
      have sound : (s.entryOf c).retiring = false := by
        refine h.borrowed _ mem c ?_
        cases purpose with
        | retire => simp [Action.failsToRetire] at retired
        | capacity | idle => rfl
      exact ((moved (.closeFailed error)).restore id sound).still rfl ⟨rfl, rfl⟩ rfl rfl
        (fun _ _ there => there) fun x there _ borrows => ⟨x, there, borrows⟩

theorem Holding.evictReturned (h : Holding s) (acc : Accounted s) {purpose : Purpose}
    {id : String} {c : ChildId} {outcome : EvictOutcome}
    (mem : .evict purpose id c (.returned outcome) ∈ s.tasks)
    (retired : Action.failsToRetire (.advance (.evict purpose id c (.returned outcome))) = false) :
    Holding ({ s with
      tasks := s.tasks.erase (.evict purpose id c (.returned outcome)) }.evictReturned purpose
        id c outcome) := by
  have erased := h.eraseTask (.evict purpose id c (.returned outcome))
  cases purpose with
  | capacity caller rest closeError =>
      cases outcome with
      | ok => exact erased.suspend rfl
      | closeFailed error => exact erased.move (acc.eraseTask mem rfl) (evictNext_move _ _ _ _)
  | idle =>
      refine Holding.moves ?_ (acc.eraseSweep mem) (drainWaiters_moves _)
      exact erased.still rfl ⟨rfl, rfl⟩ rfl rfl (fun _ _ there => there)
        fun x there _ borrows => ⟨x, there, borrows⟩
  | retire =>
      cases outcome with
      | ok => exact erased.moves (acc.eraseTask mem rfl) (drainWaiters_moves _)
      | closeFailed error => simp [Action.failsToRetire] at retired

theorem Task.tearsDown_of_borrows {x : Task} {c : ChildId} (borrows : x.borrows = some c) :
    ∃ id, x.tearsDown id c = true := by
  unfold Task.borrows at borrows
  split at borrows
  case h_2 id d _ =>
      obtain rfl := Option.some.inj borrows
      exact ⟨id, by simp [Task.tearsDown]⟩
  case h_3 id d result _ =>
      obtain rfl := Option.some.inj borrows
      exact ⟨id, by simp [Task.tearsDown]⟩
  all_goals simp at borrows

theorem Holding.retireChild (h : Holding s) (acc : Accounted s) (placed : Placed s)
    (conversation : Conversation) (c : ChildId) : Holding (s.retireChild conversation c) := by
  unfold PoolManager.retireChild
  split
  case isFalse => exact h
  case isTrue found =>
      have alone {i : String} (there : s.entries.get i = some c) : i = conversation.id :=
        (acc.entry i c there).entry.symm.trans (acc.entry _ c found.1).entry
      have object {d : ChildId} (other : d ≠ c) :
          (((s.setEntry c fun e => { e with retiring := true, inUse := false }).beginEvict .retire
            conversation.id c).entryOf d) = s.entryOf d := by simp [PoolManager.beginEvict, other]
      have entry {i : String} {d : ChildId}
          (there : ((s.setEntry c fun e => { e with retiring := true, inUse := false }).beginEvict
            .retire conversation.id c).entries.get i = some d) :
          s.entries.get i = some d ∧ d ≠ c := by
        simp only [PoolManager.beginEvict, suspend_entries, setEntry_entries,
          OrderedMap.get_delete] at there
        split at there
        case isTrue => simp at there
        case isFalse apart =>
            refine ⟨there, ?_⟩
            rintro rfl
            exact apart (alone there).symm
      constructor
      case opened => exact h.opened
      case lease => exact h.lease
      case fresh => exact h.fresh
      case object =>
          intro d i there
          by_cases here : d = c
          · subst here
            simpa [PoolManager.beginEvict] using h.object d i there
          · rw [object here]
            exact h.object d i there
      case inUse =>
          intro i d there used
          obtain ⟨old, other⟩ := entry there
          exact h.inUse i d old (object other ▸ used)
      case sound =>
          intro i d there
          obtain ⟨old, other⟩ := entry there
          exact object other ▸ h.sound i d old
      case borrowed =>
          intro x mem d borrows
          rcases List.mem_append.mp mem with old | new
          · have other : d ≠ c := by
              rintro rfl
              obtain ⟨i, down⟩ := Task.tearsDown_of_borrows borrows
              have same := (acc.teardown x old i d down).entry.symm.trans
                (acc.entry _ d found.1).entry
              exact placed.absent_of_tearsDown old down (same ▸ found.1)
            exact object other ▸ h.borrowed x old d borrows
          · rw [List.mem_singleton.mp new] at borrows
            simp [Task.borrows] at borrows

theorem Holding.forgetExitedChild (h : Holding s) (acc : Accounted s) (conversation : Conversation)
    (c : ChildId) : Holding (s.forgetExitedChild conversation c) := by
  unfold PoolManager.forgetExitedChild
  split
  case isFalse => exact h
  case isTrue =>
      have removed {i : String} {d : ChildId}
          (there : (s.entries.delete conversation.id).get i = some d) :
          s.entries.get i = some d := by
        simp only [OrderedMap.get_delete] at there
        split at there
        · simp at there
        · exact there
      have cleared := h.setEntry c (fun e => { e with idleTimer := false })
        fun _ => ⟨rfl, fun used => used, rfl⟩
      refine Holding.moves ?_ ?_ (drainWaiters_moves _)
      · exact cleared.still rfl ⟨rfl, rfl⟩ rfl rfl (fun _ _ there => removed there)
          fun x mem _ borrows => ⟨x, mem, borrows⟩
      · exact (acc.setEntry c (fun e => { e with idleTimer := false }) fun _ => rfl).frame
          ⟨rfl, rfl, rfl, rfl, rfl, rfl, rfl⟩ (fun _ => rfl) fun _ _ there => removed there

/-- Taking one lease back leaves every other child in use leased. -/
theorem Holding.release (h : Holding s) (acc : Accounted s) {l : ℕ} {lease : Lease}
    (known : s.leaseOf l = some lease) : Holding (s.release l lease) := by
  unfold PoolManager.release releaseEntry
  split
  case isTrue => exact h
  dsimp only
  rw [if_neg (by simp [h.opened])]
  have others {id : String} {c : ChildId} (present : s.entries.get id = some c)
      (used : (s.entryOf c).inUse = true) (apart : id ≠ lease.conversation.id) :
      ∃ l', Outstanding { s with
        leaseOf := Function.update s.leaseOf l (some { lease with released := true }) } l' c := by
    obtain ⟨l', out⟩ := h.inUse id c present used
    refine ⟨l', outstanding_markReleased.mpr ⟨?_, out⟩⟩
    rintro rfl
    obtain ⟨lease', known', child, -⟩ := out
    obtain rfl := Option.some.inj (known.symm.trans known')
    have owner := h.lease l' lease known
    rw [child, acc.enteredFor present] at owner
    exact apart (Option.some.inj owner)
  have leases (l' : ℕ) (lease' : Lease) (there : (Function.update s.leaseOf l
      (some { lease with released := true })) l' = some lease') :
      s.enteredFor lease'.child = some lease'.conversation.id := by
    by_cases here : l' = l
    · subst here
      simp only [Function.update_self, Option.some.injEq] at there
      subst there
      exact h.lease l' lease known
    · exact h.lease l' lease' (by simpa [here] using there)
  have fresh (l' : ℕ) (le : s.nextLease ≤ l') : (Function.update s.leaseOf l
      (some { lease with released := true })) l' = none := by
    have other : l' ≠ l := by
      rintro rfl
      simp [h.fresh l' le] at known
    simpa [other] using h.fresh l' le
  split
  case h_1 absent =>
      refine ⟨h.opened, leases, fresh, h.object, fun id c there used => ?_, h.sound, h.borrowed⟩
      refine others there used ?_
      rintro rfl
      exact absurd (absent.symm.trans there) (by simp)
  case h_2 d present =>
      rw [if_neg (by simp [h.sound _ d present])]
      have marked : Accounted { s with
          leaseOf := Function.update s.leaseOf l (some { lease with released := true }) } :=
        acc.frame ⟨rfl, rfl, rfl, rfl, rfl, rfl, rfl⟩ (fun _ => rfl) fun _ _ there => there
      refine Holding.moves ?_ ((marked.touchLru lease.conversation.id).setEntry d
        (fun e => { e with inUse := false, idleTimer := true }) fun _ => rfl)
        (drainWaiters_moves _)
      have same (c : ChildId) : (((s.setEntry d fun e =>
          { e with inUse := false, idleTimer := true }).entryOf c).conversation =
            (s.entryOf c).conversation) ∧ ((s.setEntry d fun e =>
          { e with inUse := false, idleTimer := true }).entryOf c).retiring =
            (s.entryOf c).retiring := by
        by_cases here : c = d
        · subst here
          simp
        · simp [here]
      have entry {id : String} {c : ChildId}
          (there : (s.entries.touch lease.conversation.id).get id = some c) :
          s.entries.get id = some c := by simpa using there
      refine ⟨h.opened, leases, fresh, fun c id there => ?_, fun id c there used => ?_,
        fun id c there => ?_, fun x mem c borrows => ?_⟩
      · exact (congrArg Conversation.id (same c).1).trans (h.object c id there)
      · have other : c ≠ d := by
          rintro rfl
          simp at used
        have before : (s.entryOf c).inUse = true := by simpa [other] using used
        refine others (entry there) before ?_
        rintro rfl
        exact other (Option.some.inj ((entry there).symm.trans present))
      · exact (same c).2.trans (h.sound id c (entry there))
      · exact (same c).2.trans (h.borrowed x mem c borrows)

theorem Holding.resume (h : Holding s) (acc : Accounted s) {k : ChildId} {rest : Continuation}
    {cr : Creation} (known : s.creationOf k = some cr) (phase : cr.phase = .resolved) :
    Holding (s.resume k rest) := by
  rcases resume_cases s k rest with moves | ⟨-, moves⟩
  · exact h.moves acc moves
  · have entered : s.enteredFor k = some cr.conversation.id := by
      simp [enteredFor_eq known, phase, CreationPhase.entered]
    exact (h.grant rest.caller entered).moves (acc.grant _ k) moves

theorem Holding.step (h : Holding s) (acc : Accounted s) (placed : Placed s) {a : Action}
    (retired : a.failsToRetire = false) (taken : step s a = some t) : Holding t := by
  cases step_cases taken with
  | acquire conversation parent => exact h.moves acc (acquire_moves s conversation parent)
  | release known => exact h.release acc known
  | spawned known phase =>
      exact (h.setChild _ .live).setPhase known _ (by simp [phase, CreationPhase.entered])
  | aborted known phase =>
      exact (h.setChild _ .closed).setPhase known _ (by simp [phase, CreationPhase.entered])
  | spawnFailed known phase | attachFailed known phase | abortFailed known phase =>
      exact h.setPhase known _ (by simp [phase, CreationPhase.entered])
  | attached known phase => exact h.insertEntry known (by simp [phase, CreationPhase.entered])
  | finished known phase | finishedFailing known phase =>
      exact h.finishCreation known _ (by simp [phase, CreationPhase.entered])
  | @resumed k rest cr mem known phase =>
      have taken_off : Holding { s with continuations := s.continuations.erase (k, rest) } :=
        h.still rfl ⟨rfl, rfl⟩ rfl rfl (fun _ _ there => there)
          fun x mem _ borrows => ⟨x, mem, borrows⟩
      exact taken_off.resume (acc.eraseContinuation k rest) known phase
  | @resumedRejected k rest cr error mem =>
      have taken_off : Holding { s with continuations := s.continuations.erase (k, rest) } :=
        h.still rfl ⟨rfl, rfl⟩ rfl rfl (fun _ _ there => there)
          fun x mem _ borrows => ⟨x, mem, borrows⟩
      exact taken_off.moves (acc.eraseContinuation k rest) (resumeRejected_moves _ _ _)
  | tornDown mem => exact h.settleTeardown mem _
  | evicted mem => exact h.evicted mem retired
  | returned mem => exact h.evictReturned acc mem retired
  | @acquireEvicted w parent outcome mem =>
      have erased := h.eraseTask (.decided (.acquire w parent) outcome)
      have erased_acc := acc.eraseTask mem rfl
      rcases acquireEvicted_cases { s with tasks := s.tasks.erase _ } w parent outcome with
        move | ⟨-, created⟩
      · exact erased.move erased_acc move
      · exact created ▸ erased.createEntry erased_acc _ _ _
  | drainEvicted mem =>
      exact (h.eraseTask _).moves (acc.eraseTask mem rfl) (tryEvictForDrain_moves _ _)
  | drainTail mem =>
      have erased_acc := acc.eraseTask mem rfl
      have move : Move { s with tasks := s.tasks.erase .drainTail }
          { s with tasks := s.tasks.erase .drainTail, drainEviction := false } :=
        .queue s.waiters s.settled false s.nextCall
      exact ((h.eraseTask .drainTail).move erased_acc move).moves (erased_acc.move move)
        (drainWaiters_moves _)
  | @idleTimer c armed =>
      exact (h.setEntry c (fun e => { e with idleTimer := false })
        fun _ => ⟨rfl, fun used => used, rfl⟩).moves (acc.setEntry c _ fun _ => rfl)
          (sweepIdle_moves s c)
  | retireChild conversation c => exact h.retireChild acc placed conversation c
  | @exit c cr known alive =>
      exact (h.setChild c .exited).forgetExitedChild (acc.setChild c _ (by simp))
        cr.conversation c

theorem holding_initial (maxChildren : ℕ) : Holding (initial maxChildren) where
  opened := rfl
  lease _ _ h := by simp [initial] at h
  fresh _ _ := rfl
  object _ _ h := by simp [initial, PoolManager.enteredFor] at h
  inUse _ _ h := by simp [initial] at h
  sound _ _ h := by simp [initial] at h
  borrowed _ h := by simp [initial] at h

end PoolManager

end OmpBundler.Core
