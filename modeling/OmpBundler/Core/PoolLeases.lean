import OmpBundler.Core.PoolPlaces

/-!
One lease on a child at a time.

A child is leased where the code has just seen it idle in the map, and
also by callers that have waited for its creation. Of these, the ones that
joined a creation in flight look at `inUse`, the one that started it does
not, and neither looks whether the child is still in the map. A release
looks its entry up by conversation, so it may find the child that has
taken the place of the one it was made for. `leases_sound` says that a run
in which these lookups find what they count on never leases a child twice
and never marks a leased child idle.
-/

namespace OmpBundler.Core.PoolManager

open Library

/-- The lease `l` is on the child `c` and has not been released. -/
def Outstanding (s : PoolManager) (l : ℕ) (c : ChildId) : Prop :=
  ∃ lease, s.leaseOf l = some lease ∧ lease.child = c ∧ lease.released = false

/-- No two leases that are both unreleased share a child. -/
def ExclusiveLeases (s : PoolManager) : Prop :=
  ∀ l l' c, s.Outstanding l c → s.Outstanding l' c → l = l'

/-- Releasing `l`, whose child has left the pool, leaves the child that has
taken its place in use while that is leased. -/
def SparesSuccessor (s : PoolManager) (l : ℕ) (t : PoolManager) : Prop :=
  ∀ lease, s.leaseOf l = some lease →
    s.entries.get lease.conversation.id ≠ some lease.child →
    ∀ d l', s.entries.get lease.conversation.id = some d → s.Outstanding l' d →
      (s.entryOf d).inUse = true → (t.entryOf d).inUse = true

/-- The lookups that a grant after a creation and a release count on: the
created child is idle in the map, and the entry found under the lease's
conversation is that of its child, or one a release does not disturb. -/
def Undisturbed (s : PoolManager) : Action → Prop
  | .resume k rest => ∀ cr ∈ s.creationOf k, cr.phase = .resolved → s.closed = false →
      (rest.checksInUse = true → (s.entryOf k).inUse = false) →
        s.entries.get cr.conversation.id = some k ∧ (s.entryOf k).inUse = false ∧
          (s.entryOf k).retiring = false
  | .release l => ∀ lease ∈ s.leaseOf l, lease.released = false →
      ∀ d ∈ s.entries.get lease.conversation.id, d = lease.child ∨
        (s.entryOf d).inUse = false ∨ (s.entryOf d).retiring = true
  | _ => True

instance (s : PoolManager) (a : Action) : Decidable (Undisturbed s a) :=
  match a with
  | .resume _ _ => inferInstanceAs (Decidable (∀ _ ∈ _, _))
  | .release _ => inferInstanceAs (Decidable (∀ _ ∈ _, _))
  | .acquire _ _ | .spawned _ _ | .attached _ _ | .aborted _ _ | .finished _
  | .tornDown _ _ _ _ | .advance _ | .idleTimer _ | .retireChild _ _ | .exit _ =>
      inferInstanceAs (Decidable True)

/-- What keeps leases exclusive: a leased child in the map is in use or
retiring, and a teardown that may put its child back has a child that is
retiring or not leased. -/
structure Leased (s : PoolManager) : Prop where
  exclusive : s.ExclusiveLeases
  inUse : ∀ l c id, s.Outstanding l c → s.entries.get id = some c →
    (s.entryOf c).retiring = false → (s.entryOf c).inUse = true
  teardown : ∀ x ∈ s.tasks, ∀ id c, x.tearsDown id c →
    (s.entryOf c).retiring = true ∨ ∀ l, ¬ s.Outstanding l c
  entered : ∀ l lease, s.leaseOf l = some lease →
    ∃ cr, s.creationOf lease.child = some cr ∧ cr.phase.entered
  fresh : ∀ l, s.nextLease ≤ l → s.leaseOf l = none

variable {s t : PoolManager}

/-- Updates that hand out no lease, put nothing into the map and mark
nothing idle. -/
theorem Leased.frame (h : Leased s) (leases : t.leaseOf = s.leaseOf)
    (next : t.nextLease = s.nextLease)
    (entry : ∀ id c, t.entries.get id = some c → s.entries.get id = some c)
    (inUse : ∀ c, (s.entryOf c).inUse = true → (t.entryOf c).inUse = true)
    (retiring : ∀ c, (s.entryOf c).retiring = true → (t.entryOf c).retiring = true)
    (teardown : ∀ x ∈ t.tasks, ∀ id c, x.tearsDown id c →
      (∃ y ∈ s.tasks, y.tearsDown id c) ∨ (t.entryOf c).retiring = true ∨
        ∀ l, ¬ s.Outstanding l c)
    (entered : ∀ c cr, s.creationOf c = some cr → cr.phase.entered = true →
      ∃ cr', t.creationOf c = some cr' ∧ cr'.phase.entered = true) : Leased t := by
  have outstanding {l : ℕ} {c : ChildId} : t.Outstanding l c ↔ s.Outstanding l c := by
    simp only [Outstanding, leases]
  constructor
  case exclusive =>
      exact fun l l' c one two => h.exclusive l l' c (outstanding.mp one) (outstanding.mp two)
  case inUse =>
      intro l c id out there sound
      refine inUse c (h.inUse l c id (outstanding.mp out) (entry id c there) ?_)
      by_contra bad
      simp [retiring c (by simpa using bad)] at sound
  case teardown =>
      intro x mem id c down
      rcases teardown x mem id c down with ⟨y, mem', down'⟩ | bad | free
      · rcases h.teardown y mem' id c down' with bad | free
        · exact .inl (retiring c bad)
        · exact .inr fun l out => free l (outstanding.mp out)
      · exact .inl bad
      · exact .inr fun l out => free l (outstanding.mp out)
  case entered =>
      intro l lease known
      obtain ⟨cr, created, phase⟩ := h.entered l lease (leases ▸ known)
      exact entered _ cr created phase
  case fresh =>
      rw [leases, next]
      exact h.fresh

/-- Updates that change no entry object and no creation. -/
theorem Leased.still (h : Leased s) (leases : t.leaseOf = s.leaseOf)
    (next : t.nextLease = s.nextLease) (objects : t.entryOf = s.entryOf)
    (creations : t.creationOf = s.creationOf)
    (entry : ∀ id c, t.entries.get id = some c → s.entries.get id = some c)
    (teardown : ∀ x ∈ t.tasks, ∀ id c, x.tearsDown id c → ∃ y ∈ s.tasks, y.tearsDown id c) :
    Leased t :=
  h.frame leases next entry (by simp [objects]) (by simp [objects])
    (fun x mem id c down => .inl (teardown x mem id c down))
    fun c cr known phase => ⟨cr, creations ▸ known, phase⟩

/-! ### The updates -/

theorem Leased.setEntry (h : Leased s) (c : ChildId) (f : PoolEntry → PoolEntry)
    (inUse : ∀ e, e.inUse = true → (f e).inUse = true)
    (retiring : ∀ e, e.retiring = true → (f e).retiring = true) : Leased (s.setEntry c f) := by
  refine h.frame rfl rfl (fun _ _ => id) (fun d used => ?_) (fun d bad => ?_)
    (fun x mem _ _ down => .inl ⟨x, mem, down⟩) fun _ cr known phase => ⟨cr, known, phase⟩
  · by_cases same : d = c
    · subst same
      simpa using inUse _ used
    · simpa [same] using used
  · by_cases same : d = c
    · subst same
      simpa using retiring _ bad
    · simpa [same] using bad

theorem Leased.touchLru (h : Leased s) (id : String) : Leased (s.touchLru id) :=
  h.still rfl rfl rfl rfl (fun _ _ there => by simpa using there)
    fun x mem _ _ down => ⟨x, mem, down⟩

/-- An idle, sound child in the map is not leased. -/
theorem Leased.not_outstanding (h : Leased s) {id : String} {c : ChildId}
    (present : s.entries.get id = some c) (idle : (s.entryOf c).inUse = false)
    (sound : (s.entryOf c).retiring = false) (l : ℕ) : ¬ s.Outstanding l c := by
  intro out
  simp [h.inUse l c id out present sound] at idle

theorem Leased.grant (h : Leased s) (acc : Accounted s) (placed : Placed s) (w : Waiter)
    {id : String} {c : ChildId} (present : s.entries.get id = some c)
    (idle : (s.entryOf c).inUse = false) (sound : (s.entryOf c).retiring = false) :
    Leased (s.grant w c) := by
  have free := h.not_outstanding present idle sound
  have outstanding {l : ℕ} {d : ChildId} (out : (s.grant w c).Outstanding l d) :
      (l = s.nextLease ∧ d = c) ∨ s.Outstanding l d := by
    obtain ⟨lease, known, child, open_⟩ := out
    by_cases new : l = s.nextLease
    · subst new
      simp only [PoolManager.grant, makeLease_leaseOf, touchLru_nextLease, setEntry_nextLease,
        Function.update_self, Option.some.injEq] at known
      subst known
      exact .inl ⟨rfl, child.symm⟩
    · exact .inr ⟨lease, by simpa [PoolManager.grant, new] using known, child, open_⟩
  have used : ((s.grant w c).entryOf c).inUse = true := by simp [PoolManager.grant]
  have same {d : ChildId} (other : d ≠ c) : (s.grant w c).entryOf d = s.entryOf d := by
    simp [PoolManager.grant, other]
  have entries (i : String) : (s.grant w c).entries.get i = s.entries.get i := by
    simp [PoolManager.grant]
  constructor
  case exclusive =>
      intro l l' d one two
      rcases outstanding one with ⟨rfl, rfl⟩ | old <;>
        rcases outstanding two with ⟨rfl, here⟩ | old'
      · rfl
      · exact absurd old' (free l')
      · exact absurd (here ▸ old) (free l)
      · exact h.exclusive l l' d old old'
  case inUse =>
      intro l d i out there sound'
      rw [entries] at there
      by_cases here : d = c
      · subst here
        exact used
      · rw [same here] at sound' ⊢
        rcases outstanding out with ⟨-, new⟩ | old
        · exact absurd new here
        · exact h.inUse l d i old there sound'
  case teardown =>
      intro x mem i d down
      have other : d ≠ c := by
        rintro rfl
        have one := (acc.entry id d present).entry
        have two := (acc.teardown x mem i d down).entry
        exact placed.absent_of_tearsDown mem down (two ▸ one ▸ present)
      rw [same other]
      rcases h.teardown x mem i d down with bad | none_
      · exact .inl bad
      · refine .inr fun l out => ?_
        rcases outstanding out with ⟨-, new⟩ | old
        · exact other new
        · exact none_ l old
  case entered =>
      intro l lease known
      by_cases new : l = s.nextLease
      · subst new
        simp only [PoolManager.grant, makeLease_leaseOf, touchLru_nextLease,
          setEntry_nextLease, Function.update_self, Option.some.injEq] at known
        subst known
        obtain ⟨cr, created, -, phase⟩ := (acc.entry id c present).creation
        exact ⟨cr, created, phase⟩
      · exact h.entered l lease (by simpa [PoolManager.grant, new] using known)
  case fresh =>
      intro l le
      have le : s.nextLease + 1 ≤ l := le
      have new : l ≠ s.nextLease := by omega
      simpa [PoolManager.grant, new] using h.fresh l (by omega)

theorem Leased.beginEvict (h : Leased s) (purpose : Purpose) {id : String} {c : ChildId}
    (free : (s.entryOf c).retiring = true ∨ ∀ l, ¬ s.Outstanding l c) :
    Leased (s.beginEvict purpose id c) := by
  have object (d : ChildId) : ((s.beginEvict purpose id c).entryOf d).inUse =
      (s.entryOf d).inUse ∧ ((s.beginEvict purpose id c).entryOf d).retiring =
      (s.entryOf d).retiring := by
    by_cases same : d = c
    · subst same
      simp [PoolManager.beginEvict]
    · simp [PoolManager.beginEvict, same]
  refine h.frame rfl rfl (fun i d there => ?_) (fun d => by simp [object])
    (fun d => by simp [object]) (fun x mem i d down => ?_)
    fun _ cr known phase => ⟨cr, known, phase⟩
  · simp only [PoolManager.beginEvict, suspend_entries, OrderedMap.get_delete] at there
    split at there
    · simp at there
    · exact there
  · rcases List.mem_append.mp mem with old | new
    · exact .inl ⟨x, old, down⟩
    · rw [List.mem_singleton.mp new] at down
      simp only [Task.tearsDown, Bool.decide_and, Bool.and_eq_true, decide_eq_true_eq] at down
      obtain ⟨-, rfl⟩ := down
      rw [(object c).2]
      exact .inr free

theorem Leased.createEntry (h : Leased s) (acc : Accounted s) (conversation : Conversation)
    (parent : Option String) (rest : Continuation) :
    Leased (s.createEntry conversation parent rest) := by
  unfold PoolManager.createEntry
  split
  · exact h.still rfl rfl rfl rfl (fun _ _ => id) fun x mem _ _ down => ⟨x, mem, down⟩
  · exact h.frame rfl rfl (fun _ _ => id) (fun _ => id) (fun _ => id)
      (fun x mem _ _ down => .inl ⟨x, mem, down⟩)
      fun _ cr known phase => ⟨cr, acc.known_startCreation _ _ _ known, phase⟩

theorem Leased.suspend (h : Leased s) {x : Task} (noSlot : x.holdsSlot = false) :
    Leased (s.suspend x) := by
  refine h.still rfl rfl rfl rfl (fun _ _ => id) fun y mem _ _ down => ?_
  rcases List.mem_append.mp mem with old | new
  · exact ⟨y, old, down⟩
  · rw [List.mem_singleton.mp new] at down
    simp [Task.holdsSlot_of_tearsDown down] at noSlot

theorem Leased.move (h : Leased s) (acc : Accounted s) (placed : Placed s) (move : Move s t) :
    Leased t := by
  cases move with
  | queue | await =>
      exact h.still rfl rfl rfl rfl (fun _ _ => id) fun x mem _ _ down => ⟨x, mem, down⟩
  | suspend x noSlot => exact h.suspend noSlot
  | grant w c present sound idle =>
      have cleared := h.setEntry c (fun e => { e with idleTimer := false }) (fun _ => id)
        fun _ => id
      exact cleared.grant (acc.setEntry c _ fun _ => rfl) (by exact placed) w present
        (by simpa using idle) (by simpa using sound)
  | create conversation parent rest => exact h.createEntry acc conversation parent rest
  | evict purpose id c present idle =>
      refine h.beginEvict purpose ?_
      by_cases bad : (s.entryOf c).retiring = true
      · exact .inl bad
      · exact .inr (h.not_outstanding present idle (by simpa using bad))

theorem Leased.moves (h : Leased s) (acc : Accounted s) (placed : Placed s)
    (moves : Moves s t) : Leased t :=
  (moves.preserve (I := fun s => Accounted s ∧ Placed s ∧ Leased s) ⟨acc, placed, h⟩
    fun _ _ ⟨acc, placed, h⟩ move =>
      ⟨acc.move move, placed.move move, h.move acc placed move⟩).2.2

theorem Leased.drainWaiters (h : Leased s) (acc : Accounted s) (placed : Placed s) :
    Leased s.drainWaiters :=
  h.moves acc placed (drainWaiters_moves s)

theorem Leased.setPhase (h : Leased s) {k : ChildId} {cr : Creation}
    (known : s.creationOf k = some cr) (phase : CreationPhase)
    (entered : cr.phase.entered = true → phase.entered = true) :
    Leased (s.setPhase k phase) := by
  refine h.frame rfl rfl (fun _ _ => id) (fun _ => id) (fun _ => id)
    (fun x mem _ _ down => .inl ⟨x, mem, down⟩) fun c cr' known' phase' => ?_
  by_cases here : c = k
  · subst here
    obtain rfl := Option.some.inj (known.symm.trans known')
    exact ⟨{ cr with phase := phase }, by simp [known], entered phase'⟩
  · exact ⟨cr', by simpa [here] using known', phase'⟩

theorem Leased.setChild (h : Leased s) (c : ChildId) (status : ChildStatus) :
    Leased (s.setChild c status) :=
  h.still rfl rfl rfl rfl (fun _ _ => id) fun x mem _ _ down => ⟨x, mem, down⟩

theorem Leased.eraseTask (h : Leased s) (x : Task) :
    Leased { s with tasks := s.tasks.erase x } :=
  h.still rfl rfl rfl rfl (fun _ _ => id)
    fun y mem _ _ down => ⟨y, List.mem_of_mem_erase mem, down⟩

/-! ### The steps -/

/-- The child of a creation that has not entered it is not leased. -/
theorem Leased.unleased (h : Leased s) {k : ChildId} {cr : Creation}
    (known : s.creationOf k = some cr) (outside : cr.phase.entered = false) (l : ℕ) :
    ¬ s.Outstanding l k := by
  rintro ⟨lease, there, rfl, -⟩
  obtain ⟨cr', known', entered⟩ := h.entered l lease there
  obtain rfl := Option.some.inj (known.symm.trans known')
  simp [outside] at entered

theorem Leased.insertEntry (h : Leased s) (acc : Accounted s) {k : ChildId} {cr : Creation}
    (known : s.creationOf k = some cr) (outside : cr.phase.entered = false) :
    Leased (s.insertEntry k cr.conversation) := by
  have moved := h.setPhase known .inserted fun _ => rfl
  have free := h.unleased known outside
  have object {c : ChildId} (other : c ≠ k) :
      (s.insertEntry k cr.conversation).entryOf c = s.entryOf c := by
    simp [PoolManager.insertEntry, other]
  constructor
  case exclusive => exact h.exclusive
  case inUse =>
      intro l c id out there sound
      have other : c ≠ k := fun same => free l (same ▸ out)
      rw [object other] at sound ⊢
      refine h.inUse l c id out ?_ sound
      simp only [PoolManager.insertEntry, setPhase_entries, OrderedMap.get_set] at there
      split at there
      · exact absurd (Option.some.inj there).symm other
      · exact there
  case teardown =>
      intro x mem id c down
      have other : c ≠ k := by
        rintro rfl
        obtain ⟨-, cr', known', -, entered⟩ := acc.teardown x mem id c down
        obtain rfl := Option.some.inj (known.symm.trans known')
        simp [outside] at entered
      rw [object other]
      exact h.teardown x mem id c down
  case entered => exact moved.entered
  case fresh => exact h.fresh

theorem Leased.settleTeardown (h : Leased s) {purpose : Purpose} {id : String} {c : ChildId}
    (mem : .evict purpose id c .closing ∈ s.tasks) (result : TeardownResult) :
    Leased (s.settleTeardown purpose id c result) := by
  have still {u : PoolManager} (leased : Leased u) (tasks : u.tasks = s.tasks) :
      Leased ({ u with tasks := s.tasks.erase (.evict purpose id c .closing) }.suspend
        (.evict purpose id c (.tornDown result))) := by
    refine leased.still rfl rfl rfl rfl (fun _ _ there => there) fun x there i d down => ?_
    rcases List.mem_append.mp there with old | new
    · exact ⟨x, tasks ▸ List.mem_of_mem_erase old, down⟩
    · rw [List.mem_singleton.mp new] at down
      exact ⟨.evict purpose id c .closing, tasks ▸ mem, down⟩
  cases result with
  | closeFailed error => exact still h rfl
  | childClosed | releaseFailed error => exact still (h.setChild c .closed) rfl

theorem Leased.evicted (h : Leased s) {purpose : Purpose} {id : String} {c : ChildId}
    {result : TeardownResult} (mem : .evict purpose id c (.tornDown result) ∈ s.tasks) :
    Leased ({ s with
      tasks := s.tasks.erase (.evict purpose id c (.tornDown result)) }.evicted purpose id c
        result) := by
  have free := h.teardown _ mem id c (by simp [Task.tearsDown])
  have teardown (x : Task) (there : x ∈ s.tasks.erase (.evict purpose id c (.tornDown result)) ++
      [.evict purpose id c (.returned result.outcome)]) (i : String) (d : ChildId)
      (down : x.tearsDown i d = true) : ∃ y ∈ s.tasks, y.tearsDown i d = true := by
    rcases List.mem_append.mp there with old | new
    · exact ⟨x, List.mem_of_mem_erase old, down⟩
    · rw [List.mem_singleton.mp new] at down
      simp [Task.tearsDown] at down
  cases result with
  | childClosed | releaseFailed error => exact h.still rfl rfl rfl rfl (fun _ _ there => there) teardown
  | closeFailed error =>
      have object {d : ChildId} (other : d ≠ c) :
          (s.restore id c).entryOf d = s.entryOf d := by
        simp [restore, other]
      have retiring : ((s.restore id c).entryOf c).retiring = (s.entryOf c).retiring := by
        simp [restore]
      constructor
      case exclusive => exact h.exclusive
      case inUse =>
          intro l d i out there sound
          by_cases here : d = c
          · subst here
            rcases free with bad | none_
            · exact absurd (sound.symm.trans (retiring.trans bad)) (by simp)
            · exact absurd out (none_ l)
          · change ((s.restore id c).entryOf d).retiring = false at sound
            change ((s.restore id c).entryOf d).inUse = true
            rw [object here] at sound ⊢
            refine h.inUse l d i out ?_ sound
            simp only [PoolManager.evicted, restore, suspend_entries, OrderedMap.get_set] at there
            split at there
            · exact absurd (Option.some.inj there).symm here
            · exact there
      case teardown =>
          intro x there i d down
          obtain ⟨y, mem', down'⟩ := teardown x there i d down
          change ((s.restore id c).entryOf d).retiring = true ∨ _
          by_cases here : d = c
          · subst here
            rw [retiring]
            exact h.teardown y mem' i d down'
          · rw [object here]
            exact h.teardown y mem' i d down'
      case entered => exact h.entered
      case fresh => exact h.fresh

theorem Leased.evictReturned (h : Leased s) (acc : Accounted s) (placed : Placed s)
    {purpose : Purpose} {id : String} {c : ChildId} {outcome : EvictOutcome}
    (mem : .evict purpose id c (.returned outcome) ∈ s.tasks) :
    Leased ({ s with
      tasks := s.tasks.erase (.evict purpose id c (.returned outcome)) }.evictReturned purpose
        id c outcome) := by
  have erased := h.eraseTask (.evict purpose id c (.returned outcome))
  have erased_placed : Placed { s with
      tasks := s.tasks.erase (.evict purpose id c (.returned outcome)) } :=
    placed.frame List.erase_sublist fun _ _ there => there
  cases purpose with
  | capacity caller rest closeError =>
      have erased_acc := acc.eraseTask mem rfl
      cases outcome with
      | ok => exact erased.suspend rfl
      | closeFailed error =>
          exact erased.move erased_acc erased_placed (evictNext_move _ _ _ _)
  | idle =>
      refine Leased.drainWaiters ?_ (acc.eraseSweep mem) (by exact erased_placed)
      exact erased.still rfl rfl rfl rfl (fun _ _ there => there)
        fun x there _ _ down => ⟨x, there, down⟩
  | retire =>
      have erased_acc := acc.eraseTask mem rfl
      cases outcome with
      | ok => exact erased.drainWaiters erased_acc erased_placed
      | closeFailed error =>
          have marked := erased.setEntry c (fun e => { e with inUse := true })
            (fun _ _ => rfl) fun _ bad => bad
          exact marked.still rfl rfl rfl rfl (fun _ _ there => there)
            fun x there _ _ down => ⟨x, there, down⟩

/-- An entry that is not leased, or is retiring after the update, may be
marked idle. -/
theorem Leased.setIdle (h : Leased s) (c : ChildId) (f : PoolEntry → PoolEntry)
    (retiring : ∀ e, e.retiring = true → (f e).retiring = true)
    (free : (f (s.entryOf c)).retiring = true ∨ ∀ l, ¬ s.Outstanding l c) :
    Leased (s.setEntry c f) := by
  have object {d : ChildId} (other : d ≠ c) : (s.setEntry c f).entryOf d = s.entryOf d := by
    simp [other]
  constructor
  case exclusive => exact h.exclusive
  case inUse =>
      intro l d id out there sound
      by_cases here : d = c
      · subst here
        rcases free with bad | none_
        · simp [bad] at sound
        · exact absurd out (none_ l)
      · rw [object here] at sound ⊢
        exact h.inUse l d id out there sound
  case teardown =>
      intro x mem id d down
      rcases h.teardown x mem id d down with bad | none_
      · by_cases here : d = c
        · subst here
          exact .inl (by simpa using retiring _ bad)
        · exact .inl (by rw [object here]; exact bad)
      · exact .inr none_
  case entered => exact h.entered
  case fresh => exact h.fresh

theorem Leased.retireChild (h : Leased s) (conversation : Conversation) (c : ChildId) :
    Leased (s.retireChild conversation c) := by
  unfold PoolManager.retireChild
  split
  case isTrue =>
      exact (h.setIdle c (fun e => { e with retiring := true, inUse := false }) (fun _ _ => rfl)
        (.inl rfl)).beginEvict .retire (.inl (by simp))
  case isFalse => exact h

theorem Leased.forgetExitedChild (h : Leased s) (acc : Accounted s) (placed : Placed s)
    (conversation : Conversation) (c : ChildId) :
    Leased (s.forgetExitedChild conversation c) := by
  have entry (i : String) (d : ChildId)
      (there : (s.entries.delete conversation.id).get i = some d) :
      s.entries.get i = some d := by
    rw [OrderedMap.get_delete] at there
    split at there
    · simp at there
    · exact there
  have cleared := h.setEntry c (fun e => { e with idleTimer := false }) (fun _ => id) fun _ => id
  unfold PoolManager.forgetExitedChild
  split
  case isFalse => exact h
  case isTrue =>
      refine Leased.drainWaiters ?_ ?_ (placed.frame (.refl _) entry)
      · exact cleared.still rfl rfl rfl rfl entry fun x mem _ _ down => ⟨x, mem, down⟩
      · exact (acc.setEntry c (fun e => { e with idleTimer := false }) fun _ => rfl).frame
          ⟨rfl, rfl, rfl, rfl, rfl, rfl, rfl⟩ (fun _ => rfl) entry

/-- After `l` is marked released it is not outstanding, and the others are. -/
theorem outstanding_markReleased {l l' : ℕ} {lease : Lease} {c : ChildId} :
    Outstanding { s with
      leaseOf := Function.update s.leaseOf l (some { lease with released := true }) } l' c ↔
      l' ≠ l ∧ s.Outstanding l' c := by
  by_cases same : l' = l
  · subst same
    simp only [Outstanding, Function.update_self, Option.some.injEq, exists_eq_left', ne_eq,
      not_true_eq_false, false_and, iff_false]
    simp
  · simp [Outstanding, same]

theorem Leased.markReleased (h : Leased s) {l : ℕ} {lease : Lease}
    (known : s.leaseOf l = some lease) :
    Leased { s with
      leaseOf := Function.update s.leaseOf l (some { lease with released := true }) } := by
  constructor
  case exclusive =>
      intro l₁ l₂ c one two
      exact h.exclusive l₁ l₂ c (outstanding_markReleased.mp one).2
        (outstanding_markReleased.mp two).2
  case inUse =>
      exact fun l' c id out there sound =>
        h.inUse l' c id (outstanding_markReleased.mp out).2 there sound
  case teardown =>
      intro x mem id c down
      exact (h.teardown x mem id c down).imp_right fun free l' out =>
        free l' (outstanding_markReleased.mp out).2
  case entered =>
      intro l' lease' known'
      by_cases same : l' = l
      · subst same
        simp only [Function.update_self, Option.some.injEq] at known'
        subst known'
        exact h.entered l' lease known
      · exact h.entered l' lease' (by simpa [same] using known')
  case fresh =>
      intro l' le
      have same : l' ≠ l := by
        rintro rfl
        simp [h.fresh l' le] at known
      simpa [same] using h.fresh l' le

/-- The entry that a release of `l` marks idle is not leased once `l` is
released. -/
theorem Leased.free_of_undisturbed (h : Leased s) {l : ℕ} {lease : Lease}
    (known : s.leaseOf l = some lease) (calm : Undisturbed s (.release l))
    (held : lease.released = false) {d : ChildId}
    (present : s.entries.get lease.conversation.id = some d)
    (sound : (s.entryOf d).retiring = false) (l' : ℕ) :
    ¬ (l' ≠ l ∧ s.Outstanding l' d) := by
  rintro ⟨other, out⟩
  rcases calm lease known held d present with mine | idle | bad
  · exact other (h.exclusive l' l d out ⟨lease, known, mine.symm, held⟩)
  · exact h.not_outstanding present idle sound l' out
  · simp [bad] at sound

theorem Leased.release (h : Leased s) (acc : Accounted s) (placed : Placed s) {l : ℕ}
    {lease : Lease} (known : s.leaseOf l = some lease) (calm : Undisturbed s (.release l)) :
    Leased (s.release l lease) := by
  have marked := h.markReleased known
  have marked_acc : Accounted { s with
      leaseOf := Function.update s.leaseOf l (some { lease with released := true }) } :=
    acc.frame ⟨rfl, rfl, rfl, rfl, rfl, rfl, rfl⟩ (fun _ => rfl) fun _ _ => id
  unfold PoolManager.release releaseEntry
  split
  case isTrue => exact h
  case isFalse held =>
      dsimp only
      split
      · exact marked
      split
      case h_1 => exact marked
      case h_2 d present =>
          split
          case isTrue => exact marked
          case isFalse sound =>
              have free := h.free_of_undisturbed known calm (by simpa using held) present
                (by simpa using sound)
              refine ((marked.touchLru lease.conversation.id).setIdle d
                (fun e => { e with inUse := false, idleTimer := true }) (fun _ bad => bad)
                (.inr fun l' out => free l' (outstanding_markReleased.mp out))).drainWaiters ?_ ?_
              · exact (marked_acc.touchLru _).setEntry d
                  (fun e => { e with inUse := false, idleTimer := true }) fun _ => rfl
              · exact placed.frame (.refl _) fun _ _ there => by simpa using there

theorem Leased.resume (h : Leased s) (acc : Accounted s) (placed : Placed s) {k : ChildId}
    {rest : Continuation} {cr : Creation} (known : s.creationOf k = some cr)
    (phase : cr.phase = .resolved) (calm : Undisturbed s (.resume k rest)) :
    Leased (s.resume k rest) := by
  rcases resume_cases s k rest with moves | ⟨⟨opened, seen⟩, moves⟩
  · exact h.moves acc placed moves
  · obtain ⟨present, idle, sound⟩ := calm cr known phase opened seen
    exact (h.grant acc placed rest.caller present idle sound).moves (acc.grant _ k)
      (placed.grant _ k) moves

theorem Leased.step (h : Leased s) (acc : Accounted s) (placed : Placed s) {a : Action}
    (calm : Undisturbed s a) (taken : step s a = some t) : Leased t := by
  have erased_placed (x : Task) : Placed { s with tasks := s.tasks.erase x } :=
    placed.frame List.erase_sublist fun _ _ there => there
  cases step_cases taken with
  | acquire conversation parent => exact h.moves acc placed (acquire_moves s conversation parent)
  | release known => exact h.release acc placed known calm
  | spawned known phase =>
      exact (h.setChild _ .live).setPhase known _ (by simp [phase, CreationPhase.entered])
  | aborted known phase =>
      exact (h.setChild _ .closed).setPhase known _ (by simp [phase, CreationPhase.entered])
  | spawnFailed known phase | attachFailed known phase | abortFailed known phase =>
      exact h.setPhase known _ (by simp [phase, CreationPhase.entered])
  | attached known phase =>
      exact h.insertEntry acc known (by simp [phase, CreationPhase.entered])
  | finished known phase =>
      exact (h.setPhase known .resolved fun _ => rfl).still rfl rfl rfl rfl
        (fun _ _ there => there) fun x mem _ _ down => ⟨x, mem, down⟩
  | @finishedFailing k cr error known phase =>
      exact (h.setPhase known (.rejected error)
        (by simp [phase, CreationPhase.entered])).still rfl rfl rfl rfl
        (fun _ _ there => there) fun x mem _ _ down => ⟨x, mem, down⟩
  | @resumed k rest cr mem known phase =>
      have taken_off : Leased { s with continuations := s.continuations.erase (k, rest) } :=
        h.still rfl rfl rfl rfl (fun _ _ there => there) fun x mem _ _ down => ⟨x, mem, down⟩
      exact taken_off.resume (acc.eraseContinuation k rest) (by exact placed) known phase calm
  | @resumedRejected k rest cr error mem =>
      have taken_off : Leased { s with continuations := s.continuations.erase (k, rest) } :=
        h.still rfl rfl rfl rfl (fun _ _ there => there) fun x mem _ _ down => ⟨x, mem, down⟩
      exact taken_off.moves (acc.eraseContinuation k rest) (by exact placed)
        (resumeRejected_moves _ _ _)
  | tornDown mem => exact h.settleTeardown mem _
  | evicted mem => exact h.evicted mem
  | returned mem => exact h.evictReturned acc placed mem
  | @acquireEvicted w parent outcome mem =>
      have erased := h.eraseTask (.decided (.acquire w parent) outcome)
      have erased_acc := acc.eraseTask mem rfl
      rcases acquireEvicted_cases { s with tasks := s.tasks.erase _ } w parent outcome with
        move | ⟨-, created⟩
      · exact erased.move erased_acc (erased_placed _) move
      · exact created ▸ erased.createEntry erased_acc _ _ _
  | drainEvicted mem =>
      exact (h.eraseTask _).moves (acc.eraseTask mem rfl) (erased_placed _)
        (tryEvictForDrain_moves _ _)
  | drainTail mem =>
      have move : Move { s with tasks := s.tasks.erase .drainTail }
          { s with tasks := s.tasks.erase .drainTail, drainEviction := false } :=
        .queue s.waiters s.settled false s.nextCall
      have erased_acc := acc.eraseTask mem rfl
      exact ((h.eraseTask .drainTail).move erased_acc (erased_placed _) move).drainWaiters
        (erased_acc.move move) ((erased_placed _).move move)
  | @idleTimer c armed =>
      exact (h.setEntry c (fun e => { e with idleTimer := false }) (fun _ => id)
        fun _ => id).moves (acc.setEntry c _ fun _ => rfl) (by exact placed) (sweepIdle_moves s c)
  | retireChild conversation c => exact h.retireChild conversation c
  | @exit c cr known alive =>
      exact (h.setChild c .exited).forgetExitedChild (acc.setChild c _ (by simp)) (by exact placed)
        cr.conversation c

/-! ### Runs -/

theorem leased_initial (maxChildren : ℕ) : Leased (initial maxChildren) where
  exclusive _ _ _ := fun ⟨_, known, _⟩ => by simp [initial] at known
  inUse _ _ _ := fun ⟨_, known, _⟩ => by simp [initial] at known
  teardown _ mem := by simp [initial] at mem
  entered _ _ known := by simp [initial] at known
  fresh _ _ := rfl

/-- No guarded update marks a child idle. -/
theorem Move.inUse (move : Move s t) {c : ChildId} (used : (s.entryOf c).inUse = true) :
    (t.entryOf c).inUse = true := by
  cases move with
  | queue | suspend | await => exact used
  | grant w d =>
      by_cases same : c = d
      · subst same
        simp [PoolManager.grant]
      · simpa [PoolManager.grant, same] using used
  | create conversation parent rest absent alone =>
      simp only [PoolManager.createEntry, alone]
      exact used
  | evict purpose id d =>
      by_cases same : c = d
      · subst same
        simpa [PoolManager.beginEvict] using used
      · simpa [PoolManager.beginEvict, same] using used

theorem Moves.inUse (moves : Moves s t) {c : ChildId} (used : (s.entryOf c).inUse = true) :
    (t.entryOf c).inUse = true :=
  moves.preserve (I := fun s => (s.entryOf c).inUse = true) used fun _ _ used move =>
    move.inUse used

theorem sparesSuccessor {l : ℕ} (calm : Undisturbed s (.release l))
    (taken : step s (.release l) = some t) : s.SparesSuccessor l t := by
  intro lease known gone d l' present _ used
  obtain ⟨lease', known', rfl⟩ := Option.map_eq_some_iff.mp taken
  obtain rfl := Option.some.inj (known.symm.trans known')
  unfold PoolManager.release releaseEntry
  split
  case isTrue => exact used
  case isFalse held =>
      dsimp only
      split
      · exact used
      split
      case h_1 => exact used
      case h_2 e there =>
          obtain rfl := Option.some.inj (present.symm.trans there)
          split
          case isTrue => exact used
          case isFalse sound =>
              rcases calm lease known (by simpa using held) d present with mine | idle | bad
              · exact absurd (mine ▸ present) gone
              · simp [idle] at used
              · exact absurd bad sound

/-- In every run whose lookups are undisturbed, no two unreleased leases
share a child, and no release marks a leased successor idle. -/
theorem leases_sound (reach : machine.Reachable Undisturbed s) :
    s.ExclusiveLeases ∧ ∀ l t, Undisturbed s (.release l) →
      step s (.release l) = some t → s.SparesSuccessor l t := by
  have inv : Accounted s ∧ Placed s ∧ Leased s := by
    refine reach.invariant (I := fun s => Accounted s ∧ Placed s ∧ Leased s) ?_
      fun s a t ⟨acc, placed, h⟩ calm taken =>
      ⟨acc.step taken, placed.step acc taken, h.step acc placed calm taken⟩
    rintro s ⟨maxChildren, -, rfl⟩
    exact ⟨accounted_initial maxChildren, placed_initial maxChildren,
      leased_initial maxChildren⟩
  exact ⟨inv.2.2.exclusive, fun l t calm taken => sparesSuccessor calm taken⟩

/-- One call for a conversation is served, and its lease released. -/
def oneLease : List Action :=
  let a : Conversation := ⟨"http", "a"⟩
  [.acquire a none, .spawned 0 .done, .attached 0 .done, .finished 0,
    .resume 0 (.acquireNew ⟨a, 0⟩), .acquire a none, .release 0]

/-- The second call is served when the first lease is released, and the two
leases on the child follow each other. -/
theorem oneLease_sound :
    ∃ s, (machine.exec Undisturbed (initial 1) oneLease) = some s ∧
      s.leaseOf 1 = some ⟨0, ⟨"http", "a"⟩, false⟩ ∧ s.ExclusiveLeases := by
  have run : (machine.exec Undisturbed (initial 1) oneLease).map (·.leaseOf 1) =
      some (some ⟨0, ⟨"http", "a"⟩, false⟩) := by decide +kernel
  obtain ⟨s, run, lease⟩ := Option.map_eq_some_iff.mp run
  exact ⟨s, run, lease, (leases_sound (.of_exec ⟨1, by decide, rfl⟩ run)).1⟩

/-- Two calls for a conversation that has no child yet. -/
def twoCalls : List Action :=
  let a : Conversation := ⟨"http", "a"⟩
  [.acquire a none, .acquire a none, .spawned 0 .done, .attached 0 .done, .finished 0,
    .resume 0 (.acquireInflight ⟨a, 1⟩), .resume 0 (.acquireNew ⟨a, 0⟩)]

/-- The call that has joined the creation is leased the child first, and the
one that started it leases the same child again. -/
theorem twoCalls_share_a_child :
    ∃ s, machine.Reachable Transition.Always s ∧ s.Outstanding 0 0 ∧ s.Outstanding 1 0 ∧
      ¬ s.ExclusiveLeases := by
  have run : (machine.exec Transition.Always (initial 1) twoCalls).map
      (fun s => (s.leaseOf 0, s.leaseOf 1)) =
      some (some ⟨0, ⟨"http", "a"⟩, false⟩, some ⟨0, ⟨"http", "a"⟩, false⟩) := by
    decide +kernel
  obtain ⟨s, run, facts⟩ := Option.map_eq_some_iff.mp run
  simp only [Prod.mk.injEq] at facts
  have first : s.Outstanding 0 0 := ⟨_, facts.1, rfl, rfl⟩
  have second : s.Outstanding 1 0 := ⟨_, facts.2, rfl, rfl⟩
  exact ⟨s, .of_exec ⟨1, by decide, rfl⟩ run, first, second,
    fun exclusive => absurd (exclusive 0 1 0 first second) (by decide)⟩

end OmpBundler.Core.PoolManager
