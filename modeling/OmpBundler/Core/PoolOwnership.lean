import OmpBundler.Core.PoolPlaces

/-!
One live child for each conversation, and none that nobody holds.

A live child is held by the entry map, by the creation that spawned it or
by a teardown that may still put it back. The code starts a creation after
an awaited eviction, or for a waiter, without looking whether a child of
the same conversation has come into the map meanwhile or is still being
closed; and it writes the map without looking at what it overwrites.
`owned_iff` says that a run keeps the property exactly if no factory answers
for a conversation that has a live child, no entry is written over that of
another live child, and no child of a failed creation refuses to close.
-/

namespace OmpBundler.Core

open Library

/-- Whether the creation holds a child that is not in the map yet. -/
def CreationPhase.holdsChild : CreationPhase → Bool
  | .attaching => true
  | .aborting _ => true
  | _ => false

theorem CreationPhase.not_entered {phase : CreationPhase} (holds : phase.holdsChild = true) :
    phase.entered = false := by
  cases phase <;> simp_all [holdsChild, entered]

namespace PoolManager

/-- Someone holds the child. -/
def Held (s : PoolManager) (c : ChildId) : Prop :=
  (∃ id, s.entries.get id = some c) ∨
  (∃ cr, s.creationOf c = some cr ∧ cr.phase.holdsChild) ∨
  ∃ x ∈ s.tasks, ∃ id, x.tearsDown id c

/-- At most one live child for each conversation, and every live child held. -/
structure Owned (s : PoolManager) : Prop where
  single : ∀ c d cr dr, s.Live c → s.Live d → s.creationOf c = some cr →
    s.creationOf d = some dr → cr.conversation = dr.conversation → c = d
  held : ∀ c, s.Live c → s.Held c

/-- Neither the map nor a teardown holds a live child under the key. -/
def Vacant (s : PoolManager) (id : String) : Prop :=
  (∀ c, s.entries.get id = some c → ¬ s.Live c) ∧
  ∀ x ∈ s.tasks, ∀ c, x.tearsDown id c → ¬ s.Live c

/-- Writing `c` under the key takes no other live child out of the map. -/
def Overwritable (s : PoolManager) (id : String) (c : ChildId) : Prop :=
  ∀ d, s.entries.get id = some d → d = c ∨ ¬ s.Live d

/-- What the code does not test: the factory answers for a conversation
without a live child, an entry overwrites no other live child, and the child
of a failed creation closes. -/
def Alone (s : PoolManager) : Action → Prop
  | .spawned k .done => ∀ cr, s.creationOf k = some cr → s.Vacant cr.conversation.id
  | .attached k .done =>
      ∀ cr, s.creationOf k = some cr → s.Overwritable cr.conversation.id k
  | .aborted k (.failed _) => ¬ s.Live k
  | .advance (.evict _ id c (.tornDown (.closeFailed _))) => s.Overwritable id c
  | _ => True

variable {s t : PoolManager}

/-- Updates that make no child live and let go of none. -/
theorem Owned.congr (h : Owned s) (live : ∀ c, t.Live c → s.Live c)
    (creation : ∀ c cr, t.Live c → t.creationOf c = some cr →
      ∃ cr', s.creationOf c = some cr' ∧ cr'.conversation = cr.conversation)
    (held : ∀ c, t.Live c → s.Held c → t.Held c) : Owned t where
  single c d cr dr liveC liveD knownC knownD same := by
    obtain ⟨cr', knownC', sameC⟩ := creation c cr liveC knownC
    obtain ⟨dr', knownD', sameD⟩ := creation d dr liveD knownD
    exact h.single c d cr' dr' (live c liveC) (live d liveD) knownC' knownD'
      (by rw [sameC, sameD, same])
  held c alive := held c alive (h.held c (live c alive))

/-- Updates that leave creations and children alone, and keep what is held. -/
theorem Owned.frame (h : Owned s) (child : t.childOf = s.childOf)
    (creation : t.creationOf = s.creationOf)
    (entry : ∀ c, (∃ id, s.entries.get id = some c) → t.Held c)
    (teardown : ∀ x ∈ s.tasks, ∀ id c, x.tearsDown id c → t.Held c) : Owned t := by
  refine h.congr (fun c alive => ?_) (fun c cr _ known => ⟨cr, creation ▸ known, rfl⟩)
    fun c _ held => ?_
  · unfold Live at *
    rwa [← child]
  · rcases held with inMap | creating | ⟨x, mem, id, down⟩
    · exact entry c inMap
    · exact .inr (.inl (by rwa [creation]))
    · exact teardown x mem id c down

/-! ### The updates -/

theorem Held.of_task {x : Task} {i : String} {c : ChildId} (mem : x ∈ s.tasks)
    (down : x.tearsDown i c = true) : s.Held c := .inr (.inr ⟨x, mem, i, down⟩)

theorem Owned.setEntry (h : Owned s) (c : ChildId) (f : PoolEntry → PoolEntry) :
    Owned (s.setEntry c f) :=
  h.frame rfl rfl (fun _ => .inl) fun _ mem _ _ down => .of_task mem down

theorem Owned.touchLru (h : Owned s) (id : String) : Owned (s.touchLru id) :=
  h.frame rfl rfl (fun _ there => .inl (by simpa using there))
    fun _ mem _ _ down => .of_task mem down

theorem Owned.grant (h : Owned s) (w : Waiter) (c : ChildId) : Owned (s.grant w c) :=
  ((h.setEntry c _).touchLru w.conversation.id).frame rfl rfl (fun _ => .inl)
    fun _ mem _ _ down => .of_task mem down

theorem Owned.suspend (h : Owned s) (x : Task) : Owned (s.suspend x) :=
  h.frame rfl rfl (fun _ => .inl) fun _ mem _ _ down => .of_task (by simp [mem]) down

theorem Owned.startCreation (h : Owned s) (acc : Accounted s) (conversation : Conversation)
    (parent : Option String) (rest : Continuation) :
    Owned (s.startCreation conversation parent rest) := by
  have old {c : ChildId} {cr : Creation} (known : s.creationOf c = some cr) :=
    acc.known_startCreation conversation parent rest known
  refine h.congr (fun _ alive => alive) (fun c cr alive known => ?_) fun c _ held => ?_
  · obtain ⟨cr', known', -⟩ := acc.live c alive
    obtain rfl := Option.some.inj ((old known').symm.trans known)
    exact ⟨cr', known', rfl⟩
  · rcases held with inMap | ⟨cr, known, holds⟩ | ⟨x, mem, id, down⟩
    · exact .inl inMap
    · exact .inr (.inl ⟨cr, old known, holds⟩)
    · exact .of_task mem down

theorem Owned.beginEvict (h : Owned s) (purpose : Purpose) {id : String} {c : ChildId}
    (present : s.entries.get id = some c) : Owned (s.beginEvict purpose id c) := by
  refine h.frame rfl rfl (fun d ⟨i, there⟩ => ?_) fun x mem _ _ down =>
    .of_task (List.mem_append_left _ mem) down
  by_cases same : id = i
  · subst same
    obtain rfl := Option.some.inj (present.symm.trans there)
    exact .of_task (x := .evict purpose id c .closing) (by simp [PoolManager.beginEvict])
      (i := id) (by simp [Task.tearsDown])
  · exact .inl ⟨i, by simpa [PoolManager.beginEvict, same] using there⟩

theorem Owned.move (h : Owned s) (acc : Accounted s) (move : Move s t) : Owned t := by
  cases move with
  | queue | await =>
      exact h.frame rfl rfl (fun _ => .inl) fun _ mem _ _ down => .of_task mem down
  | suspend x => exact h.suspend x
  | grant w c => exact (h.setEntry c _).grant w c
  | create conversation parent rest absent alone =>
      simp only [createEntry, alone]
      exact h.startCreation acc conversation parent rest
  | evict purpose id c present => exact h.beginEvict purpose present

theorem Owned.moves (h : Owned s) (acc : Accounted s) (moves : Moves s t) : Owned t :=
  (moves.preserve (I := fun s => Accounted s ∧ Owned s) ⟨acc, h⟩
    fun _ _ h move => ⟨h.1.move move, h.2.move h.1 move⟩).2

theorem Owned.drainWaiters (h : Owned s) (acc : Accounted s) : Owned s.drainWaiters :=
  h.moves acc (drainWaiters_moves s)

/-- Taking an operation off the list that tears nothing down. -/
theorem Owned.eraseTask (h : Owned s) {x : Task} (noSlot : x.holdsSlot = false) :
    Owned { s with tasks := s.tasks.erase x } := by
  refine h.frame rfl rfl (fun _ => .inl) fun y mem id c down => ?_
  have other : y ≠ x := by
    rintro rfl
    simp [Task.holdsSlot_of_tearsDown down] at noSlot
  exact .of_task ((List.mem_erase_of_ne other).mpr mem) down

/-- A creation moves between phases in which it holds the child, or had none
to hold. -/
theorem Owned.setPhase (h : Owned s) {k : ChildId} {cr : Creation}
    (known : s.creationOf k = some cr) (phase : CreationPhase)
    (holds : s.Live k → cr.phase.holdsChild = true → phase.holdsChild = true) :
    Owned (s.setPhase k phase) := by
  refine h.congr (fun _ alive => alive) (fun c cr' _ known' => ?_) fun c alive held => ?_
  · by_cases here : c = k
    · subst here
      simp only [setPhase_creationOf, Function.update_self, known, Option.map_some,
        Option.some.injEq] at known'
      exact ⟨cr, known, by rw [← known']⟩
    · exact ⟨cr', by simpa [here] using known', rfl⟩
  · rcases held with inMap | ⟨cr', known', holds'⟩ | ⟨x, mem, id, down⟩
    · exact .inl inMap
    · by_cases here : c = k
      · subst here
        obtain rfl := Option.some.inj (known.symm.trans known')
        exact .inr (.inl ⟨{ cr with phase := phase }, by simp [known], holds alive holds'⟩)
      · exact .inr (.inl ⟨cr', by simpa [here] using known', holds'⟩)
    · exact .of_task mem down

theorem Owned.setChild (h : Owned s) (c : ChildId) (status : ChildStatus)
    (dead : status ≠ .live) : Owned (s.setChild c status) := by
  have live (d : ChildId) (alive : (s.setChild c status).Live d) : s.Live d := by
    by_cases same : d = c
    · simp [Live, same, dead] at alive
    · simpa [Live, same] using alive
  exact h.congr live (fun _ cr _ known => ⟨cr, known, rfl⟩) fun _ _ held => held

theorem not_live_setChild (s : PoolManager) (c : ChildId) {status : ChildStatus}
    (dead : status ≠ .live) : ¬ (s.setChild c status).Live c := by
  simp [Live, dead]

/-- A child that another one's entry is written over is held no more. -/
theorem not_held_of_overwritten (acc : Accounted s) (placed : Placed s) {id : String}
    {c d : ChildId} (present : s.entries.get id = some d) (other : d ≠ c)
    (entries : t.entries = s.entries.set id c) (creation : t.creationOf d = s.creationOf d)
    (tasks : ∀ y ∈ t.tasks, ∀ i, y.tearsDown i d → y ∈ s.tasks) : ¬ t.Held d := by
  obtain ⟨-, cr, known, key, entered⟩ := acc.entry id d present
  have only {i : String} (belongs : s.Belongs d i) : i = id := by
    obtain ⟨-, cr', known', key', -⟩ := belongs
    obtain rfl := Option.some.inj (known.symm.trans known')
    exact key'.symm.trans key
  rintro (⟨i, there⟩ | ⟨cr', known', holds⟩ | ⟨y, mem, i, down⟩)
  · rw [entries, OrderedMap.get_set] at there
    split at there
    case isTrue => exact other (Option.some.inj there).symm
    case isFalse apart => exact apart (only (acc.entry i d there)).symm
  · rw [creation] at known'
    obtain rfl := Option.some.inj (known.symm.trans known')
    simp [CreationPhase.not_entered holds] at entered
  · have old := tasks y mem i down
    obtain rfl := only (acc.teardown y old i d down)
    exact placed.absent_of_tearsDown old down present

/-! ### The steps -/

/-- A child whose teardown has not failed is dead. -/
def Buried (s : PoolManager) : Prop :=
  ∀ purpose id c result, .evict purpose id c (.tornDown result) ∈ s.tasks →
    result.outcome = .ok → ¬ s.Live c

theorem Owned.release (h : Owned s) (acc : Accounted s) (l : ℕ) (lease : Lease) :
    Owned (s.release l lease) := by
  unfold PoolManager.release releaseEntry
  have marked : Owned { s with
      leaseOf := Function.update s.leaseOf l (some { lease with released := true }) } :=
    h.frame rfl rfl (fun _ => .inl) fun _ mem _ _ down => .of_task mem down
  have marked_acc : Accounted { s with
      leaseOf := Function.update s.leaseOf l (some { lease with released := true }) } :=
    acc.frame ⟨rfl, rfl, rfl, rfl, rfl, rfl, rfl⟩ (fun _ => rfl) fun _ _ => id
  split
  · exact h
  dsimp only
  split
  · exact marked
  split
  · exact marked
  split
  · exact marked
  exact ((marked.touchLru _).setEntry _ _).drainWaiters
    ((marked_acc.touchLru _).setEntry _ (fun e => { e with inUse := false, idleTimer := true })
      fun _ => rfl)

theorem Owned.resume (h : Owned s) (acc : Accounted s) (k : ChildId) (rest : Continuation) :
    Owned (s.resume k rest) := by
  rcases resume_cases s k rest with moves | ⟨-, moves⟩
  · exact h.moves acc moves
  · exact (h.grant rest.caller k).moves (acc.grant rest.caller k) moves

theorem Owned.finishCreation (h : Owned s) {k : ChildId} {cr : Creation}
    (known : s.creationOf k = some cr) (phase : CreationPhase)
    (empty : cr.phase.holdsChild = false) :
    Owned (s.finishCreation k cr.conversation phase) := by
  have moved := h.setPhase known phase fun _ holds => by simp [empty] at holds
  exact moved.frame rfl rfl (fun _ => .inl) fun _ mem _ _ down => .of_task mem down

theorem Owned.settleTeardown (h : Owned s) (purpose : Purpose) (id : String) (c : ChildId)
    (result : TeardownResult) :
    Owned (s.settleTeardown purpose id c result) := by
  have still {u : PoolManager} (owned : Owned u) (tasks : u.tasks = s.tasks) :
      Owned ({ u with tasks := s.tasks.erase (.evict purpose id c .closing) }.suspend
        (.evict purpose id c (.tornDown result))) := by
    refine owned.frame rfl rfl (fun _ => .inl) fun y there i d down => ?_
    by_cases same : y = .evict purpose id c .closing
    · subst same
      exact .of_task (x := .evict purpose id c (.tornDown result)) (i := i) (by simp) down
    · refine .of_task (List.mem_append_left _ ((List.mem_erase_of_ne same).mpr ?_)) down
      rwa [← tasks]
  cases result with
  | closeFailed error => exact still h rfl
  | childClosed | releaseFailed error =>
      exact still (h.setChild c .closed (by simp)) rfl

theorem Owned.evictReturned (h : Owned s) (acc : Accounted s) {purpose : Purpose}
    {id : String} {c : ChildId} {outcome : EvictOutcome}
    (mem : .evict purpose id c (.returned outcome) ∈ s.tasks) :
    Owned ({ s with
      tasks := s.tasks.erase (.evict purpose id c (.returned outcome)) }.evictReturned purpose
        id c outcome) := by
  cases purpose with
  | capacity caller rest closeError =>
      have erased := h.eraseTask (x := .evict (.capacity caller rest closeError) id c
        (.returned outcome)) rfl
      have erased_acc := acc.eraseTask mem rfl
      cases outcome with
      | ok => exact erased.suspend _
      | closeFailed error => exact erased.move erased_acc (evictNext_move _ _ _ _)
  | idle =>
      refine Owned.drainWaiters ?_ (acc.eraseSweep mem)
      refine h.frame rfl rfl (fun _ => .inl) fun y there i d down => ?_
      have other : y ≠ .evict .idle id c (.returned outcome) := by
        rintro rfl
        simp [Task.tearsDown] at down
      exact .of_task ((List.mem_erase_of_ne other).mpr there) down
  | retire =>
      have erased := h.eraseTask (x := .evict .retire id c (.returned outcome)) rfl
      have erased_acc := acc.eraseTask mem rfl
      cases outcome with
      | ok => exact erased.drainWaiters erased_acc
      | closeFailed error =>
          exact (erased.setEntry c _).move
            (erased_acc.setEntry c (fun e => { e with inUse := true }) fun _ => rfl)
            (rejectWaitersFor_move _ _ _)

theorem Owned.forgetExitedChild (h : Owned s) (acc : Accounted s) (conversation : Conversation)
    {c : ChildId} (dead : ¬ s.Live c) : Owned (s.forgetExitedChild conversation c) := by
  unfold PoolManager.forgetExitedChild
  split
  case isFalse => exact h
  case isTrue present =>
      have removed : Accounted { s.setEntry c fun e => { e with idleTimer := false } with
          entries := s.entries.delete conversation.id } := by
        refine acc.frame ⟨rfl, rfl, rfl, rfl, rfl, rfl, rfl⟩ (fun d => ?_) fun i d there => ?_
        · exact entryOf_conversation_setEntry c d (fun e => { e with idleTimer := false })
            fun _ => rfl
        · simp only [OrderedMap.get_delete] at there
          split at there
          · simp at there
          · exact there
      refine Owned.drainWaiters ?_ removed
      refine h.congr (fun _ alive => alive) (fun _ cr _ known => ⟨cr, known, rfl⟩)
        fun d alive held => ?_
      rcases held with ⟨i, there⟩ | creating | ⟨x, mem, i, down⟩
      · by_cases same : conversation.id = i
        · subst same
          obtain rfl := Option.some.inj (present.symm.trans there)
          exact absurd alive dead
        · exact .inl ⟨i, by simpa [same] using there⟩
      · exact .inr (.inl creating)
      · exact .of_task mem down

/-- The factory's child is alone exactly if no live child is in its place. -/
theorem owned_spawned_iff (h : Owned s) (acc : Accounted s) {k : ChildId} {cr : Creation}
    (known : s.creationOf k = some cr) (phase : cr.phase = .spawning) :
    Owned ((s.setChild k .live).setPhase k .attaching) ↔ s.Vacant cr.conversation.id := by
  have unborn : ¬ s.Live k := by
    intro alive
    obtain ⟨cr', known', spawned⟩ := acc.live k alive
    obtain rfl := Option.some.inj (known.symm.trans known')
    exact spawned phase
  have creation (c : ChildId) (other : c ≠ k) :
      ((s.setChild k .live).setPhase k .attaching).creationOf c = s.creationOf c := by
    simp [other]
  have live (c : ChildId) (other : c ≠ k) :
      ((s.setChild k .live).setPhase k .attaching).Live c ↔ s.Live c := by
    simp [Live, other]
  have newborn : ((s.setChild k .live).setPhase k .attaching).creationOf k =
      some { cr with phase := .attaching } := by
    simp [known]
  constructor
  · intro owned
    have nobody {c : ChildId} (belongs : s.Belongs c cr.conversation.id) : ¬ s.Live c := by
      intro alive
      have other : c ≠ k := fun same => unborn (same ▸ alive)
      obtain ⟨-, dr, known', key, -⟩ := belongs
      exact other (owned.single c k dr { cr with phase := .attaching } ((live c other).mpr alive)
        (by simp [Live]) (by rw [creation c other, known']) newborn
        (Conversation.id_injective key))
    exact ⟨fun c present => nobody (acc.entry _ c present),
      fun x mem c down => nobody (acc.teardown x mem _ c down)⟩
  · rintro ⟨map, teardowns⟩
    have nobody {c : ChildId} {dr : Creation} (known' : s.creationOf c = some dr)
        (same : dr.conversation = cr.conversation) (alive : s.Live c) : False := by
      rcases h.held c alive with ⟨id, there⟩ | ⟨dr', known'', holds⟩ | ⟨x, mem, id, down⟩
      · obtain ⟨-, dr', known'', key, -⟩ := acc.entry id c there
        obtain rfl := Option.some.inj (known'.symm.trans known'')
        rw [same] at key
        exact map c (key ▸ there) alive
      · obtain rfl := Option.some.inj (known'.symm.trans known'')
        have mine := acc.active k cr known (by simp [phase, CreationPhase.active])
        have theirs := acc.active c dr known' (by
          cases at_ : dr.phase <;> simp_all [CreationPhase.active, CreationPhase.holdsChild])
        rw [same, mine] at theirs
        exact unborn (Option.some.inj theirs ▸ alive)
      · obtain ⟨-, dr', known'', key, -⟩ := acc.teardown x mem id c down
        obtain rfl := Option.some.inj (known'.symm.trans known'')
        rw [same] at key
        exact teardowns x mem c (key ▸ down) alive
    constructor
    · intro c d cr' dr' aliveC aliveD knownC knownD same
      by_cases hereC : c = k <;> by_cases hereD : d = k
      · rw [hereC, hereD]
      · subst hereC
        rw [newborn] at knownC
        obtain rfl := Option.some.inj knownC
        rw [creation d hereD] at knownD
        exact (nobody knownD same.symm ((live d hereD).mp aliveD)).elim
      · subst hereD
        rw [newborn] at knownD
        obtain rfl := Option.some.inj knownD
        rw [creation c hereC] at knownC
        exact (nobody knownC same ((live c hereC).mp aliveC)).elim
      · rw [creation c hereC] at knownC
        rw [creation d hereD] at knownD
        exact h.single c d cr' dr' ((live c hereC).mp aliveC) ((live d hereD).mp aliveD)
          knownC knownD same
    · intro c alive
      by_cases here : c = k
      · subst here
        exact .inr (.inl ⟨_, newborn, rfl⟩)
      · rcases h.held c ((live c here).mp alive) with inMap | ⟨dr, known', holds⟩ | teardown
        · exact .inl inMap
        · exact .inr (.inl ⟨dr, by rw [creation c here, known'], holds⟩)
        · exact .inr (.inr teardown)

/-- An inserted entry loses no child exactly if it overwrites no live one. -/
theorem owned_insertEntry_iff (h : Owned s) (acc : Accounted s) (placed : Placed s)
    {k : ChildId} {cr : Creation} (known : s.creationOf k = some cr) :
    Owned (s.insertEntry k cr.conversation) ↔ s.Overwritable cr.conversation.id k := by
  constructor
  · intro owned d present
    by_cases other : d = k
    · exact .inl other
    · refine .inr fun alive => ?_
      refine not_held_of_overwritten acc placed present other rfl ?_ ?_ (owned.held d alive)
      · simp [insertEntry, other]
      · exact fun y mem _ _ => mem
  · intro free
    refine h.congr (fun _ alive => alive) (fun c cr' _ known' => ?_) fun c alive held => ?_
    · by_cases here : c = k
      · subst here
        simp only [insertEntry, setPhase_creationOf, Function.update_self, setEntry_creationOf,
          known, Option.map_some, Option.some.injEq] at known'
        exact ⟨cr, known, by rw [← known']⟩
      · exact ⟨cr', by simpa [insertEntry, here] using known', rfl⟩
    · by_cases here : c = k
      · subst here
        exact .inl ⟨cr.conversation.id, by simp [insertEntry]⟩
      · rcases held with ⟨i, there⟩ | ⟨cr', known', holds⟩ | ⟨x, mem, i, down⟩
        · by_cases same : cr.conversation.id = i
          · subst same
            rcases free c there with rfl | dead
            · exact absurd rfl here
            · exact absurd alive dead
          · exact .inl ⟨i, by simpa [insertEntry, same] using there⟩
        · exact .inr (.inl ⟨cr', by simpa [insertEntry, here] using known', holds⟩)
        · exact .of_task mem down

/-- A failed creation lets its child go. -/
theorem owned_abortFailed_iff (h : Owned s) (acc : Accounted s) {k : ChildId} {cr : Creation}
    {error : String} (known : s.creationOf k = some cr) (phase : cr.phase = .aborting error)
    (reason : PoolError) : Owned (s.setPhase k (.failing reason)) ↔ ¬ s.Live k := by
  constructor
  · intro owned alive
    have stranger {id : String} : ¬ s.Belongs k id := by
      rintro ⟨-, cr', known', -, entered⟩
      obtain rfl := Option.some.inj (known.symm.trans known')
      simp [phase, CreationPhase.entered] at entered
    rcases owned.held k alive with ⟨id, there⟩ | ⟨cr', known', holds⟩ | ⟨x, mem, id, down⟩
    · exact stranger (acc.entry id k there)
    · simp only [setPhase_creationOf, Function.update_self, known, Option.map_some,
        Option.some.injEq] at known'
      simp [← known', CreationPhase.holdsChild] at holds
    · exact stranger (acc.teardown x mem id k down)
  · exact fun dead => h.setPhase known _ fun alive => absurd alive dead

/-- An entry that is put back loses no child exactly if it overwrites no live
one; one that is not put back is dead. -/
theorem owned_evicted_iff (h : Owned s) (acc : Accounted s) (placed : Placed s)
    (buried : Buried s) {purpose : Purpose} {id : String} {c : ChildId}
    {result : TeardownResult} (mem : .evict purpose id c (.tornDown result) ∈ s.tasks) :
    Owned ({ s with
      tasks := s.tasks.erase (.evict purpose id c (.tornDown result)) }.evicted purpose id c
        result) ↔ Alone s (.advance (.evict purpose id c (.tornDown result))) := by
  have elsewhere {y : Task} {i : String} {d : ChildId} (other : d ≠ c) (there : y ∈ s.tasks)
      (down : y.tearsDown i d = true) :
      y ∈ s.tasks.erase (.evict purpose id c (.tornDown result)) ++
        [.evict purpose id c (.returned result.outcome)] := by
    have apart : y ≠ .evict purpose id c (.tornDown result) := by
      rintro rfl
      simp only [Task.tearsDown, Bool.decide_and, Bool.and_eq_true, decide_eq_true_eq] at down
      exact other down.2.symm
    exact List.mem_append_left _ ((List.mem_erase_of_ne apart).mpr there)
  cases result with
  | childClosed | releaseFailed error =>
      refine ⟨fun _ => trivial, fun _ => ?_⟩
      have dead := buried _ _ _ _ mem rfl
      refine h.congr (fun _ alive => alive) (fun _ cr _ known => ⟨cr, known, rfl⟩)
        fun d alive held => ?_
      have other : d ≠ c := fun same => dead (same ▸ alive)
      rcases held with inMap | creating | ⟨y, there, i, down⟩
      · exact .inl inMap
      · exact .inr (.inl creating)
      · exact .of_task (elsewhere other there down) down
  | closeFailed error =>
      show _ ↔ s.Overwritable id c
      constructor
      · intro owned d present
        by_cases other : d = c
        · exact .inl other
        · refine .inr fun alive => ?_
          refine absurd (owned.held d alive)
            (not_held_of_overwritten acc placed present other rfl rfl ?_)
          intro y there i down
          rcases List.mem_append.mp there with old | new
          · exact List.mem_of_mem_erase old
          · rw [List.mem_singleton.mp new] at down
            simp [Task.tearsDown] at down
      · intro free
        refine h.congr (fun _ alive => alive) (fun _ cr _ known => ⟨cr, known, rfl⟩)
          fun d alive held => ?_
        by_cases here : d = c
        · subst here
          exact .inl ⟨id, by simp [evicted, restore]⟩
        · rcases held with ⟨i, there⟩ | creating | ⟨y, there, i, down⟩
          · by_cases same : id = i
            · subst same
              rcases free d there with rfl | dead
              · exact absurd rfl here
              · exact absurd alive dead
            · exact .inl ⟨i, by simpa [evicted, restore, same] using there⟩
          · exact .inr (.inl creating)
          · exact .of_task (elsewhere here there down) down

/-! ### Dead children stay dead -/

/-- Updates after which no teardown has newly succeeded and no child newly
lives. -/
theorem Buried.frame (h : Buried s)
    (tasks : ∀ purpose id c result, .evict purpose id c (.tornDown result) ∈ t.tasks →
      .evict purpose id c (.tornDown result) ∈ s.tasks)
    (live : ∀ c, t.Live c → s.Live c) : Buried t :=
  fun purpose id c result mem ok alive =>
    h purpose id c result (tasks purpose id c result mem) ok (live c alive)

/-- Suspending anything but a settled teardown. -/
theorem mem_of_mem_suspend {x : Task} {purpose : Purpose} {id : String} {c : ChildId}
    {result : TeardownResult} (other : x ≠ .evict purpose id c (.tornDown result))
    (mem : .evict purpose id c (.tornDown result) ∈ (s.suspend x).tasks) :
    .evict purpose id c (.tornDown result) ∈ s.tasks := by
  rcases List.mem_append.mp mem with old | new
  · exact old
  · exact absurd (List.mem_singleton.mp new).symm other

theorem Buried.move (h : Buried s) (move : Move s t) : Buried t := by
  cases move with
  | queue | await | grant => exact h
  | suspend x noSlot =>
      refine h.frame (fun _ _ _ _ mem => mem_of_mem_suspend ?_ mem) fun _ alive => alive
      rintro rfl
      simp [Task.holdsSlot] at noSlot
  | create conversation parent rest absent alone =>
      simp only [createEntry, alone]
      exact h
  | evict purpose id c =>
      refine h.frame (fun _ _ _ _ mem => ?_) fun _ alive => alive
      exact mem_of_mem_suspend (by simp) mem

theorem Buried.moves (h : Buried s) (moves : Moves s t) : Buried t :=
  moves.preserve h fun _ _ h move => h.move move

theorem Buried.drainWaiters (h : Buried s) : Buried s.drainWaiters :=
  h.moves (drainWaiters_moves s)

theorem Buried.eraseTask (h : Buried s) (x : Task) :
    Buried { s with tasks := s.tasks.erase x } :=
  h.frame (fun _ _ _ _ mem => List.mem_of_mem_erase mem) fun _ alive => alive

theorem live_of_live_setChild {c d : ChildId} {status : ChildStatus} (dead : status ≠ .live)
    (alive : (s.setChild c status).Live d) : s.Live d := by
  by_cases same : d = c
  · simp [Live, same, dead] at alive
  · simpa [Live, same] using alive

theorem Buried.setChild (h : Buried s) (c : ChildId) (status : ChildStatus)
    (dead : status ≠ .live) : Buried (s.setChild c status) :=
  h.frame (fun _ _ _ _ mem => mem) fun _ alive => live_of_live_setChild dead alive

theorem Buried.settleTeardown (h : Buried s) (purpose : Purpose) (id : String) (c : ChildId)
    (result : TeardownResult) : Buried (s.settleTeardown purpose id c result) := by
  have erased := h.eraseTask (.evict purpose id c .closing)
  intro purpose' i d result' mem ok
  cases result with
  | closeFailed error =>
      refine erased purpose' i d result' (mem_of_mem_suspend ?_ mem) ok
      rintro ⟨⟩
      simp [TeardownResult.outcome] at ok
  | childClosed | releaseFailed error =>
      rcases List.mem_append.mp mem with old | new
      · exact erased.setChild c .closed (by simp) purpose' i d result' old ok
      · have same := List.mem_singleton.mp new
        simp only [Task.evict.injEq] at same
        obtain ⟨-, -, rfl, -⟩ := same
        exact not_live_setChild _ _ (by simp)

theorem Buried.release (h : Buried s) (l : ℕ) (lease : Lease) : Buried (s.release l lease) := by
  unfold PoolManager.release releaseEntry
  split
  · exact h
  dsimp only
  split
  · exact h
  split
  · exact h
  split
  · exact h
  exact Buried.drainWaiters (by exact h)

theorem Buried.step (h : Buried s) (acc : Accounted s) {a : Action}
    (taken : step s a = some t) : Buried t := by
  cases step_cases taken with
  | acquire conversation parent => exact h.moves (acquire_moves s conversation parent)
  | release known => exact h.release _ _
  | @spawned k cr known phase =>
      intro purpose id c result mem ok alive
      have other : c ≠ k := by
        rintro rfl
        obtain ⟨-, cr', known', -, entered⟩ :=
          acc.teardown _ mem id c (by simp [Task.tearsDown])
        obtain rfl := Option.some.inj (known.symm.trans known')
        simp [phase, CreationPhase.entered] at entered
      exact h purpose id c result mem ok (by simpa [Live, other] using alive)
  | aborted => exact h.setChild _ _ (by simp)
  | spawnFailed | attachFailed | abortFailed | attached | finished | finishedFailing => exact h
  | @resumed k rest cr mem =>
      rcases resume_cases { s with continuations := s.continuations.erase (k, rest) } k rest with
        moves | ⟨-, moves⟩
      · exact Buried.moves (by exact h) moves
      · exact Buried.moves (by exact h) moves
  | resumedRejected mem => exact Buried.moves (by exact h) (resumeRejected_moves _ _ _)
  | tornDown mem => exact h.settleTeardown _ _ _ _
  | @evicted purpose id c result mem =>
      refine (h.eraseTask (.evict purpose id c (.tornDown result))).frame
        (fun _ _ _ _ mem' => ?_) fun d alive => ?_
      · cases result with
        | closeFailed error | childClosed | releaseFailed error =>
            exact mem_of_mem_suspend (by simp) mem'
      · cases result with
        | closeFailed error | childClosed | releaseFailed error => exact alive
  | @returned purpose id c outcome mem =>
      have erased := h.eraseTask (.evict purpose id c (.returned outcome))
      cases purpose with
      | capacity caller rest closeError =>
          cases outcome with
          | ok => exact erased.move (.suspend _ rfl)
          | closeFailed error => exact erased.move (evictNext_move _ _ _ _)
      | idle => exact Buried.drainWaiters (by exact erased)
      | retire =>
          cases outcome with
          | ok => exact erased.drainWaiters
          | closeFailed error => exact erased
  | @acquireEvicted w parent outcome mem =>
      have erased := h.eraseTask (.decided (.acquire w parent) outcome)
      rcases acquireEvicted_cases { s with tasks := s.tasks.erase _ } w parent outcome with
        move | ⟨-, created⟩
      · exact erased.move move
      · rw [created]
        unfold createEntry
        split <;> exact erased
  | drainEvicted mem => exact (h.eraseTask _).moves (tryEvictForDrain_moves _ _)
  | drainTail mem => exact Buried.drainWaiters (by exact h.eraseTask .drainTail)
  | idleTimer => exact Buried.moves (by exact h) (sweepIdle_moves s _)
  | retireChild conversation c =>
      unfold PoolManager.retireChild
      split
      case isTrue found =>
          refine h.frame (fun _ _ _ _ mem => ?_) fun _ alive => alive
          exact mem_of_mem_suspend (by simp) mem
      case isFalse => exact h
  | @exit c cr known alive =>
      have dead := h.setChild c .exited (by simp)
      unfold PoolManager.forgetExitedChild
      split
      · exact Buried.drainWaiters (by exact dead)
      · exact dead

/-! ### Runs -/

theorem alone_spawned_iff {k : ChildId} {cr : Creation} (known : s.creationOf k = some cr) :
    Alone s (.spawned k .done) ↔ s.Vacant cr.conversation.id := by
  simp [Alone, known]

theorem alone_attached_iff {k : ChildId} {cr : Creation} (known : s.creationOf k = some cr) :
    Alone s (.attached k .done) ↔ s.Overwritable cr.conversation.id k := by
  simp [Alone, known]

/-- What a step from an owned pool keeps owned: exactly the steps that meet
`Alone`. -/
theorem owned_step_iff (h : Owned s) (acc : Accounted s) (placed : Placed s)
    (buried : Buried s) {a : Action} (taken : step s a = some t) : Owned t ↔ Alone s a := by
  have both {p : Prop} (kept : Owned t) (alone : p) : Owned t ↔ p :=
    ⟨fun _ => alone, fun _ => kept⟩
  cases step_cases taken with
  | acquire conversation parent =>
      exact both (h.moves acc (acquire_moves s conversation parent)) trivial
  | release known => exact both (h.release acc _ _) trivial
  | spawned known phase =>
      exact (owned_spawned_iff h acc known phase).trans (alone_spawned_iff known).symm
  | spawnFailed known phase =>
      exact both (h.setPhase known _ fun _ holds => by
        simp [phase, CreationPhase.holdsChild] at holds) trivial
  | attached known phase =>
      exact (owned_insertEntry_iff h acc placed known).trans (alone_attached_iff known).symm
  | attachFailed known phase => exact both (h.setPhase known _ fun _ _ => rfl) trivial
  | @aborted k cr error known phase =>
      refine both ((h.setChild k .closed (by simp)).setPhase known _ ?_) trivial
      exact fun alive => absurd alive (not_live_setChild s k (by simp))
  | abortFailed known phase => exact owned_abortFailed_iff h acc known phase _
  | finished known phase | finishedFailing known phase =>
      exact both (h.finishCreation known _ (by simp [phase, CreationPhase.holdsChild])) trivial
  | @resumed k rest cr mem =>
      refine both (Owned.resume ?_ (acc.eraseContinuation k rest) k rest) trivial
      exact h.frame rfl rfl (fun _ => .inl) fun _ mem _ _ down => .of_task mem down
  | @resumedRejected k rest cr error mem =>
      refine both (Owned.moves ?_ (acc.eraseContinuation k rest)
        (resumeRejected_moves _ _ _)) trivial
      exact h.frame rfl rfl (fun _ => .inl) fun _ mem _ _ down => .of_task mem down
  | @tornDown purpose id c result mem =>
      exact both (h.settleTeardown purpose id c result) trivial
  | evicted mem => exact owned_evicted_iff h acc placed buried mem
  | @returned purpose id c outcome mem =>
      have kept := h.evictReturned acc mem
      cases purpose <;> exact both kept trivial
  | @acquireEvicted w parent outcome mem =>
      have erased := h.eraseTask (x := .decided (.acquire w parent) outcome) rfl
      have erased_acc := acc.eraseTask mem rfl
      refine both ?_ trivial
      rcases acquireEvicted_cases { s with tasks := s.tasks.erase _ } w parent outcome with
        move | ⟨-, created⟩
      · exact erased.move erased_acc move
      · rw [created]
        unfold createEntry
        split
        · exact erased.frame rfl rfl (fun _ => .inl) fun _ mem _ _ down => .of_task mem down
        · exact erased.startCreation erased_acc _ _ _
  | @drainEvicted outcome mem =>
      exact both ((h.eraseTask (x := .decided .drain outcome) rfl).moves (acc.eraseTask mem rfl)
        (tryEvictForDrain_moves _ _)) trivial
  | drainTail mem =>
      have move : Move { s with tasks := s.tasks.erase .drainTail }
          { s with tasks := s.tasks.erase .drainTail, drainEviction := false } :=
        .queue s.waiters s.settled false s.nextCall
      have erased_acc := acc.eraseTask mem rfl
      exact both (((h.eraseTask (x := .drainTail) rfl).move erased_acc move).drainWaiters
        (erased_acc.move move)) trivial
  | @idleTimer c armed =>
      exact both ((h.setEntry c _).moves
        (acc.setEntry c (fun e => { e with idleTimer := false }) fun _ => rfl)
        (sweepIdle_moves s c)) trivial
  | retireChild conversation c =>
      refine both ?_ trivial
      unfold PoolManager.retireChild
      split
      case isTrue found => exact (h.setEntry c _).beginEvict .retire found.1
      case isFalse => exact h
  | @exit c cr known alive =>
      exact both ((h.setChild c .exited (by simp)).forgetExitedChild
        (acc.setChild c _ (by simp)) cr.conversation (not_live_setChild s c (by simp))) trivial

/-- The runs of a new pool throughout which there is at most one live child
for each conversation, and none that nobody holds, are those whose steps all
meet `Alone`. -/
theorem owned_iff (maxChildren : ℕ) (actions : List Action) :
    machine.Throughout Owned (initial maxChildren) actions ↔
      machine.EachStep Alone (initial maxChildren) actions := by
  refine Transition.Machine.throughout_iff_eachStep
    (I := fun s => Accounted s ∧ Placed s ∧ Buried s) ?_ ?_ ?_ ?_
  · exact ⟨accounted_initial maxChildren, placed_initial maxChildren,
      fun _ _ _ _ mem => by simp [initial] at mem⟩
  · exact ⟨fun _ _ _ _ alive => by simp [initial, Live] at alive,
      fun _ alive => by simp [initial, Live] at alive⟩
  · rintro _ _ _ ⟨acc, placed, buried⟩ taken
    exact ⟨acc.step taken, placed.step acc taken, buried.step acc taken⟩
  · rintro _ _ _ ⟨acc, placed, buried⟩ owned taken
    exact owned_step_iff owned acc placed buried taken

/-- Two calls for one conversation evict two children; the one whose
eviction takes longer resumes after the other has its child. -/
def twins : List Action :=
  let a : Conversation := ⟨"http", "a"⟩
  let b : Conversation := ⟨"http", "b"⟩
  let c : Conversation := ⟨"http", "c"⟩
  let slow : Purpose := .capacity (.acquire ⟨c, 2⟩ none) [(b.id, 1)] none
  let fast : Purpose := .capacity (.acquire ⟨c, 3⟩ none) [] none
  [.acquire a none, .spawned 0 .done, .attached 0 .done, .finished 0,
    .resume 0 (.acquireNew ⟨a, 0⟩), .release 0,
    .acquire b none, .spawned 1 .done, .attached 1 .done, .finished 1,
    .resume 1 (.acquireNew ⟨b, 1⟩), .release 1,
    .acquire c none, .acquire c none,
    .tornDown fast b.id 1 .childClosed, .advance (.evict fast b.id 1 (.tornDown .childClosed)),
    .advance (.evict fast b.id 1 (.returned .ok)),
    .advance (.decided (.acquire ⟨c, 3⟩ none) .ok),
    .spawned 2 .done, .attached 2 .done, .finished 2, .resume 2 (.acquireNew ⟨c, 3⟩),
    .tornDown slow a.id 0 .childClosed, .advance (.evict slow a.id 0 (.tornDown .childClosed)),
    .advance (.evict slow a.id 0 (.returned .ok)),
    .advance (.decided (.acquire ⟨c, 2⟩ none) .ok),
    .spawned 3 .done, .attached 3 .done]

/-- The child of the first call is alive, nobody holds it, and the child of
the second serves the same conversation. -/
theorem twins_orphan_a_child :
    ∃ s, machine.Reachable Transition.Always s ∧ s.Live 2 ∧ s.Live 3 ∧
      (s.creationOf 2).map (·.conversation) = (s.creationOf 3).map (·.conversation) ∧
      ¬ s.Held 2 ∧ ¬ Owned s := by
  let c : Conversation := ⟨"http", "c"⟩
  have run : (machine.exec Transition.Always (initial 2) twins).map (fun s =>
      ([s.childOf 2, s.childOf 3], [s.creationOf 2, s.creationOf 3], s.tasks,
        s.entries.values)) =
      some ([.live, .live], [some ⟨c, none, .resolved⟩, some ⟨c, none, .inserted⟩], [], [3]) := by
    decide +kernel
  obtain ⟨s, run, facts⟩ := Option.map_eq_some_iff.mp run
  simp only [Prod.mk.injEq, List.cons.injEq, and_true] at facts
  obtain ⟨⟨live2, live3⟩, ⟨creation2, creation3⟩, tasks, values⟩ := facts
  have orphan : ¬ s.Held 2 := by
    rintro (⟨id, there⟩ | ⟨cr, known, holds⟩ | ⟨x, mem, -⟩)
    · have mem := List.mem_map_of_mem (f := Prod.snd) ((OrderedMap.mem_entries _).mpr there)
      simp only [OrderedMap.values] at values
      simp [values] at mem
    · obtain rfl := Option.some.inj (known.symm.trans creation2)
      simp [CreationPhase.holdsChild] at holds
    · simp [tasks] at mem
  exact ⟨s, .of_exec ⟨2, by decide, rfl⟩ run, live2, live3, by rw [creation2, creation3]; rfl,
    orphan, fun owned => orphan (owned.held 2 live2)⟩

end PoolManager

end OmpBundler.Core
