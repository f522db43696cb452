import OmpBundler.Core.PoolPlaces
import OmpBundler.Core.SessionPool

/-!
Who owns the row of a conversation.

A child becomes the owner of its row in the same breath in which it enters
the map, and gives the row up when its teardown has seen it close or when
its exit is reported. Between the two the row should be its own: in the map,
while an eviction that may still put it back is under way, and while `close`
tears it down.

`claimOwnership` takes a row over from whatever owner it records, and a
reset drops the row without looking at it. So the row stays the child's own
in every run in which nobody claims or drops the row of a conversation that
still has a child (`Free`): `titled`.
-/

namespace OmpBundler.Core

open Library

/-- The child that a suspended eviction has out of the map and may still put
back, with its key. -/
def Task.holding : Task → Option (String × ChildId)
  | .evict _ id c .closing => some (id, c)
  | .evict _ id c (.tornDown (.closeFailed _)) => some (id, c)
  | _ => none

/-- Whether a suspended eviction may still put the child back. -/
def Task.holds (id : String) (c : ChildId) (x : Task) : Bool := x.holding = some (id, c)

theorem PoolManager.tally_holds : PoolManager.Tally Task.holds where
  tearsDown := by
    intro id c x holds
    simp only [Task.holds, decide_eq_true_eq] at holds
    unfold Task.holding at holds
    split at holds <;> simp_all [Task.tearsDown]
  closing _ _ _ := by simp [Task.holds, Task.holding]
  restored _ _ _ _ := by simp [Task.holds, Task.holding]

/-- The children that `close` tears down. -/
def ClosePhase.children : ClosePhase → List ChildId
  | .tearingDown children => children
  | _ => []

namespace SessionPool

open PoolManager

variable {s t : SessionPool} {conversation : Conversation} {c k : ChildId}

/-- The row of the child's conversation, whose key this is, records the
child. -/
def Owns (s : SessionPool) (id : String) (c : ChildId) : Prop :=
  ∃ conversation, conversation.id = id ∧ s.registry.ownerOf conversation = some (.child c)

/-- Each live child in the map owns its row; no row was taken over from a
live child or dropped under one; and each teardown has released its own
child. -/
structure Titled (s : SessionPool) : Prop where
  recorded : ∀ id c, s.pool.entries.get id = some c → s.pool.Live c →
    s.registry.ownerOf (s.pool.entryOf c).conversation = some (.child c)
  claims : ∀ x ∈ s.claims, ∀ d, x.previousOwner = some (.child d) → x.childOf d ≠ .live
  releases : ∀ x ∈ s.releases, x.2 = some (.child x.1)
  dropped : ∀ x ∈ s.dropped, ∀ d, x.1 = some (.child d) → x.2 d ≠ .live

/-- No child that was entered for the conversation is alive, and none is
being torn down. -/
structure Free (s : SessionPool) (conversation : Conversation) : Prop where
  dead : ∀ c < s.pool.nextChild, ∀ cr ∈ s.pool.creationOf c, cr.conversation = conversation →
    cr.phase.entered = true → ¬ s.pool.Live c
  evicted : ∀ x ∈ s.pool.tasks, ∀ held ∈ x.holding, held.1 ≠ conversation.id
  closed : ∀ c ∈ s.manager.phase.children, (s.pool.entryOf c).conversation ≠ conversation

instance (s : SessionPool) (conversation : Conversation) : Decidable (s.Free conversation) :=
  decidable_of_iff
    ((∀ c < s.pool.nextChild, ∀ cr ∈ s.pool.creationOf c, cr.conversation = conversation →
        cr.phase.entered = true → ¬ s.pool.Live c) ∧
      (∀ x ∈ s.pool.tasks, ∀ held ∈ x.holding, held.1 ≠ conversation.id) ∧
      ∀ c ∈ s.manager.phase.children, (s.pool.entryOf c).conversation ≠ conversation)
    ⟨fun ⟨dead, evicted, closed⟩ => ⟨dead, evicted, closed⟩,
      fun free => ⟨free.dead, free.evicted, free.closed⟩⟩

/-- What the code takes for granted: a row is claimed only when no child of
its conversation is left, and dropped only when not even a dead one is in the
map. -/
def Exclusive (s : SessionPool) : Action → Prop
  | .attached k answer => s.attached k answer = some .done →
      ∀ cr ∈ s.pool.creationOf k, s.Free cr.conversation
  | .forget conversation =>
      s.Free conversation ∧ s.pool.entries.get conversation.id = none
  | _ => True

instance (s : SessionPool) (a : Action) : Decidable (s.Exclusive a) := by
  unfold Exclusive
  split <;> infer_instance

/-! ### The invariant -/

/-- The child has been entered wherever a row records it; and whoever is in
the map, in an eviction or in a teardown of `close` owns its row, and is in
no other place. -/
structure Entitled (s : SessionPool) : Prop where
  fresh : Fresh s.pool
  holder : ∀ conversation c, s.registry.ownerOf conversation = some (.child c) →
    Entered s.pool c conversation
  held : ∀ id c, 0 < s.pool.places Task.holds id c → s.Owns id c
  single : ∀ id c, s.pool.places Task.holds id c ≤ 1
  nodup : s.manager.phase.children.Nodup
  closing : ∀ c ∈ s.manager.phase.children,
    (∃ id, s.Owns id c) ∧ ∀ id, s.pool.places Task.holds id c = 0
  claims : ∀ x ∈ s.claims, ∀ d, x.previousOwner = some (.child d) → x.childOf d ≠ .live
  releases : ∀ x ∈ s.releases, x.2 = some (.child x.1)
  dropped : ∀ x ∈ s.dropped, ∀ d, x.1 = some (.child d) → x.2 d ≠ .live

theorem Entitled.toTitled (h : Entitled s) : Titled s where
  recorded id c there _ := by
    obtain ⟨conversation, -, owned⟩ := h.held id c (places_pos_iff.mpr (.inl there))
    rwa [(h.holder conversation c owned).entry]
  claims := h.claims
  releases := h.releases
  dropped := h.dropped

/-- A child has one place only, under the key of its conversation. -/
theorem Entitled.place (h : Entitled s) {id : String} (there : 0 < s.pool.places Task.holds id c) :
    id = (s.pool.entryOf c).conversation.id := by
  obtain ⟨conversation, rfl, owned⟩ := h.held id c there
  rw [(h.holder conversation c owned).entry]

/-- The child that owns the row of a conversation. -/
theorem Entitled.owner (h : Entitled s) {id : String} (owns : s.Owns id c) :
    s.registry.ownerOf (s.pool.entryOf c).conversation = some (.child c) := by
  obtain ⟨conversation, -, owned⟩ := owns
  rwa [(h.holder conversation c owned).entry]

theorem entitled_initial (maxChildren : ℕ) {rows : Conversation → Option SessionRecord}
    (stale : ∀ conversation row, rows conversation = some row →
      ∀ c, row.currentOwner ≠ some (.child c)) : Entitled (initial maxChildren rows) where
  fresh _ _ := rfl
  holder conversation c owned := by
    obtain ⟨row, there, owner⟩ := Option.bind_eq_some_iff.mp owned
    exact absurd owner (stale conversation row there c)
  held id c there := by simp [initial, ClosablePool.initial, PoolManager.initial, places] at there
  single id c := by simp [initial, ClosablePool.initial, PoolManager.initial, places]
  nodup := List.nodup_nil
  closing c mem := by simp [initial, ClosablePool.initial, ClosePhase.children] at mem
  claims _ mem := by simp [initial] at mem
  releases _ mem := by simp [initial] at mem
  dropped _ mem := by simp [initial] at mem

/-- Updates that leave the pool and the owners alone. -/
theorem Entitled.congr (h : Entitled s) (manager : t.manager = s.manager)
    (owner : ∀ conversation, t.registry.ownerOf conversation = s.registry.ownerOf conversation)
    (claims : t.claims = s.claims) (releases : t.releases = s.releases)
    (dropped : t.dropped = s.dropped) : Entitled t := by
  have owns {id : String} {c : ChildId} (owns : s.Owns id c) : t.Owns id c := by
    obtain ⟨conversation, same, owned⟩ := owns
    exact ⟨conversation, same, (owner conversation).trans owned⟩
  have pool : t.pool = s.pool := congrArg ClosablePool.pool manager
  constructor
  case fresh => exact pool ▸ h.fresh
  case holder =>
      intro conversation c owned
      rw [pool]
      exact h.holder conversation c ((owner conversation).symm.trans owned)
  case held => exact fun id c there => owns (h.held id c (by rwa [← pool]))
  case single => exact pool ▸ h.single
  case nodup => exact manager ▸ h.nodup
  case closing =>
      intro c mem
      rw [manager] at mem
      obtain ⟨⟨id, mine⟩, nowhere⟩ := h.closing c mem
      exact ⟨⟨id, owns mine⟩, pool ▸ nowhere⟩
  case claims => exact claims ▸ h.claims
  case releases => exact releases ▸ h.releases
  case dropped => exact dropped ▸ h.dropped

/-! ### Steps of the pool -/

/-- What a step of the pool leaves of the children that own a row. -/
structure Quiet (s t : ClosablePool) : Prop where
  grows : Grows s.pool t.pool
  fewer : Fewer Task.holds s.pool t.pool
  children : t.phase.children.Sublist s.phase.children ∨
    t.phase.children = s.pool.entries.values ∧ ∀ id c, t.pool.places Task.holds id c = 0

theorem Entitled.quiet (h : Entitled s) {manager : ClosablePool}
    (quiet : Quiet s.manager manager) : Entitled { s with manager } := by
  constructor
  case fresh => exact quiet.grows.fresh h.fresh
  case holder =>
      exact fun conversation c owned =>
        quiet.grows.entered h.fresh c conversation (h.holder conversation c owned)
  case held => exact fun id c there => h.held id c (Nat.lt_of_lt_of_le there (quiet.fewer id c))
  case single => exact fun id c => Nat.le_trans (quiet.fewer id c) (h.single id c)
  case nodup =>
      rcases quiet.children with fewer | ⟨all, -⟩
      · exact h.nodup.sublist fewer
      · show manager.phase.children.Nodup
        rw [all]
        refine s.pool.entries.nodup_values fun i j c first second => ?_
        rw [h.place (places_pos_iff.mpr (.inl first)), h.place (places_pos_iff.mpr (.inl second))]
  case closing =>
      rintro c mem
      rcases quiet.children with fewer | ⟨all, nowhere⟩
      · obtain ⟨owns, nowhere⟩ := h.closing c (fewer.subset mem)
        exact ⟨owns, fun id => quiet.fewer.eq_zero (nowhere id)⟩
      · obtain ⟨id, there⟩ := s.pool.entries.mem_values.mp (all ▸ mem)
        exact ⟨⟨id, h.held id c (places_pos_iff.mpr (.inl there))⟩, fun id => nowhere id c⟩
  case claims => exact h.claims
  case releases => exact h.releases
  case dropped => exact h.dropped

/-- Every step of the pool is quiet but the one that enters a new child. -/
theorem quiet_step {s t : ClosablePool} {a : ClosablePool.Action} (taken : s.step a = some t)
    (old : ∀ k, a ≠ .pool (.attached k .done)) : Quiet s t := by
  cases ClosablePool.step_cases taken with
  | pool went =>
      exact ⟨grows_step went, fewer_step tally_holds went fun k same => old k (same ▸ rfl),
        .inl (.refl _)⟩
  | close opened =>
      refine ⟨.congr rfl rfl fun c => ?_, .frame (.refl _) fun _ _ there => there,
        .inl (List.nil_sublist _)⟩
      simp only [beginClose_entryOf]
      split <;> rfl
  | closeAgain called => exact ⟨.refl _, .refl _, .inl (.refl _)⟩
  | creationsSettled phase done settled =>
      exact ⟨.congr rfl rfl fun _ => rfl, .frame (.refl _) fun _ _ there => there,
        .inl (List.nil_sublist _)⟩
  | evictionsSettled phase done none =>
      refine ⟨.congr rfl rfl fun _ => rfl, .frame (.refl _) fun _ _ there => ?_,
        .inr ⟨rfl, fun id c => ?_⟩⟩
      · simp at there
      · simp [places, none]
  | @tornDown children c result phase mem =>
      have fewer : (ClosePhase.tearingDown (children.erase c)).children.Sublist
          s.phase.children := by
        rw [phase]
        exact List.erase_sublist
      cases result <;>
        exact ⟨.congr rfl rfl fun _ => rfl, .frame (.refl _) fun _ _ there => there, .inl fewer⟩
  | closeSettled phase done =>
      exact ⟨.refl _, .refl _, .inl (List.nil_sublist _)⟩

theorem Entitled.move (h : Entitled s) {a : ClosablePool.Action} {manager : ClosablePool}
    (moved : s.manager.step a = some manager) (old : ∀ k, a ≠ .pool (.attached k .done)) :
    Entitled { s with manager } :=
  h.quiet (quiet_step moved old)

/-! ### Releases -/

/-- A child that has left all its places can release its row. -/
theorem Entitled.releaseOwnership (h : Entitled s)
    (owned : s.registry.ownerOf (s.pool.entryOf c).conversation = some (.child c))
    (nowhere : ∀ id, s.pool.places Task.holds id c = 0)
    (closed : c ∉ s.manager.phase.children) : Entitled (s.releaseOwnership c).1 := by
  obtain ⟨registry, released⟩ := SessionRegistry.release_of_owner owned
  obtain ⟨-, freed, others⟩ := SessionRegistry.release_ok released
  have row {d : ChildId} {conversation : Conversation} (other : d ≠ c)
      (mine : s.registry.ownerOf conversation = some (.child d)) :
      registry.ownerOf conversation = some (.child d) := by
    rw [others, mine]
    rintro rfl
    exact other (Owner.child.inj (Option.some.inj (mine.symm.trans owned)))
  have owns {id : String} {d : ChildId} (other : d ≠ c) (owns : s.Owns id d) :
      ∃ conversation, conversation.id = id ∧
        registry.ownerOf conversation = some (.child d) := by
    obtain ⟨conversation, same, mine⟩ := owns
    exact ⟨conversation, same, row other mine⟩
  simp only [SessionPool.releaseOwnership, released]
  constructor
  case fresh => exact h.fresh
  case holder =>
      intro conversation d mine
      by_cases here : conversation = (s.pool.entryOf c).conversation
      · subst here
        exact absurd (freed.symm.trans mine) (by simp)
      · exact h.holder conversation d ((others conversation here).symm.trans mine)
  case held =>
      intro id d there
      refine owns ?_ (h.held id d there)
      rintro rfl
      exact absurd there (by rw [nowhere id]; omega)
  case single => exact h.single
  case nodup => exact h.nodup
  case closing =>
      intro d mem
      obtain ⟨⟨id, mine⟩, none⟩ := h.closing d mem
      exact ⟨⟨id, owns (fun same => closed (same ▸ mem)) mine⟩, none⟩
  case claims => exact h.claims
  case releases =>
      intro x mem
      rcases List.mem_append.mp mem with old | new
      · exact h.releases x old
      · rw [List.mem_singleton.mp new]
        exact owned
  case dropped => exact h.dropped

/-- `releaseOwnership` looks at the pool only for the conversation of the
child. -/
theorem releaseOwnership_manager_eq (s : SessionPool) (manager : ClosablePool)
    (same : (manager.pool.entryOf c).conversation = (s.pool.entryOf c).conversation) :
    { (s.releaseOwnership c).1 with manager } =
      ({ s with manager }.releaseOwnership c).1 := by
  have conversation : (({ s with manager } : SessionPool).pool.entryOf c).conversation =
      (s.pool.entryOf c).conversation := same
  simp only [SessionPool.releaseOwnership, conversation]
  cases s.registry.release (s.pool.entryOf c).conversation (.child c) <;> rfl

/-- A step of the pool after which a child is nowhere any more, and the
release of its row with it. -/
theorem Entitled.released (h : Entitled s) {a : ClosablePool.Action} {manager : ClosablePool}
    (moved : s.manager.step a = some manager) (old : ∀ k, a ≠ .pool (.attached k .done))
    {id : String} (owns : s.Owns id c) (nowhere : manager.pool.places Task.holds id c = 0)
    (closed : c ∉ manager.phase.children) :
    Entitled { (s.releaseOwnership c).1 with manager } := by
  have after := h.move moved old
  obtain ⟨conversation, rfl, owned⟩ := owns
  have before := (h.holder conversation c owned).entry
  have still := (after.holder conversation c owned).entry
  rw [releaseOwnership_manager_eq s manager (still.trans before.symm)]
  refine after.releaseOwnership ?_ (fun id => ?_) closed
  · show s.registry.ownerOf (manager.pool.entryOf c).conversation = _
    rw [show (manager.pool.entryOf c).conversation = conversation from still, owned]
  · by_contra there
    have there : 0 < manager.pool.places Task.holds id c := Nat.pos_of_ne_zero there
    have key := after.place there
    rw [show (SessionPool.pool _).entryOf c = manager.pool.entryOf c from rfl] at key
    rw [show (manager.pool.entryOf c).conversation = conversation from still] at key
    exact absurd (key ▸ there) (by rw [nowhere]; omega)

/-! ### Claims and resets -/

/-- The recorded owner of a conversation that is free is dead. -/
theorem Entitled.owner_dead (h : Entitled s) (free : s.Free conversation) {d : ChildId}
    (owned : s.registry.ownerOf conversation = some (.child d)) : ¬ s.pool.Live d := by
  obtain ⟨cr, known, same, entered⟩ := (h.holder conversation d owned).creation
  refine free.dead d ?_ cr known same entered
  by_contra beyond
  exact absurd (known.symm.trans (h.fresh d (Nat.le_of_not_lt beyond))) (by simp)

/-- Whoever has a place other than the map is not of a conversation that is
free. -/
theorem Free.not_evicted (free : s.Free conversation) (d : ChildId) :
    s.pool.tasks.countP (Task.holds conversation.id d) = 0 := by
  refine List.countP_eq_zero.mpr fun x mem holds => ?_
  simp only [Task.holds, decide_eq_true_eq] at holds
  exact free.evicted x mem _ holds rfl

theorem Entitled.claimed (h : Entitled s) {cr : Creation} {s' : SessionPool}
    {manager : ClosablePool} (known : s.pool.creationOf k = some cr)
    (free : s.Free cr.conversation) (claimed : s.claim k cr.conversation = .ok s')
    (moved : s.manager.step (.pool (.attached k .done)) = some manager) :
    Entitled { s' with manager } := by
  have pool : manager = { s.manager with pool := s.pool.insertEntry k cr.conversation } ∧
      cr.phase = .attaching := by
    cases ClosablePool.step_cases moved with
    | pool went =>
        cases PoolManager.step_cases went with
        | attached known' phase =>
            obtain rfl := Option.some.inj (known.symm.trans known')
            exact ⟨rfl, phase⟩
  obtain ⟨rfl, phase⟩ := pool
  have outside : cr.phase.entered = false := by simp [phase, CreationPhase.entered]
  have grows := grows_insertEntry (s := s.pool) known outside
  have stranger {conversation : Conversation}
      (owned : s.registry.ownerOf conversation = some (.child k)) : False := by
    obtain ⟨cr', known', -, entered⟩ := (h.holder conversation k owned).creation
    obtain rfl := Option.some.inj (known.symm.trans known')
    simp [outside] at entered
  have nowhere (id : String) : s.pool.places Task.holds id k = 0 := by
    by_contra there
    obtain ⟨_, -, owned⟩ := h.held id k (Nat.pos_of_ne_zero there)
    exact stranger owned
  unfold SessionPool.claim at claimed
  split at claimed
  case h_1 => simp at claimed
  case h_2 registry granted =>
      obtain rfl := Except.ok.inj claimed
      obtain ⟨mine, others⟩ := SessionRegistry.claimOwnership_ok granted
      -- The child itself is in the map now, under the key of its conversation.
      have places (id : String) : (s.pool.insertEntry k cr.conversation).places Task.holds id k =
          if cr.conversation.id = id then 1 else 0 := by
        have none := nowhere id
        simp only [PoolManager.places, PoolManager.insertEntry, setPhase_tasks, setEntry_tasks,
          setPhase_entries, OrderedMap.get_set] at none ⊢
        by_cases same : cr.conversation.id = id
        · simp only [same, if_true]
          omega
        · simp only [same, if_false]
          omega
      constructor
      case fresh => exact grows.fresh h.fresh
      case holder =>
          intro conversation c owned
          by_cases here : conversation = cr.conversation
          · subst here
            obtain rfl := Owner.child.inj (Option.some.inj (mine.symm.trans owned))
            refine ⟨by simp [SessionPool.pool, PoolManager.insertEntry], ?_⟩
            refine ⟨{ cr with phase := .inserted }, ?_, rfl, rfl⟩
            have known : s.manager.pool.creationOf k = some cr := known
            simp [SessionPool.pool, PoolManager.insertEntry, known]
          · exact grows.entered h.fresh c conversation
              (h.holder conversation c ((others conversation here).symm.trans owned))
      case held =>
          intro id c there
          by_cases here : c = k
          · subst here
            have there : 0 < (s.pool.insertEntry c cr.conversation).places Task.holds id c := there
            rw [places] at there
            split at there
            case isFalse => omega
            case isTrue same => exact ⟨cr.conversation, same, mine⟩
          · obtain ⟨conversation, rfl, owned⟩ := h.held id c (Nat.lt_of_lt_of_le there
              (places_insertEntry s.pool cr.conversation id here))
            refine ⟨conversation, rfl, (others conversation ?_).trans owned⟩
            rintro rfl
            have none := free.not_evicted c
            have there : 0 < (s.pool.insertEntry k cr.conversation).places Task.holds
              cr.conversation.id c := there
            simp only [PoolManager.places, PoolManager.insertEntry, setPhase_tasks,
              setEntry_tasks, setPhase_entries, OrderedMap.get_set, none, if_true,
              Option.some.injEq, if_neg (Ne.symm here)] at there
            omega
      case single =>
          intro id c
          by_cases here : c = k
          · subst here
            show (s.pool.insertEntry c cr.conversation).places Task.holds id c ≤ 1
            rw [places]
            split <;> omega
          · exact Nat.le_trans (places_insertEntry s.pool cr.conversation id here)
              (h.single id c)
      case nodup => exact h.nodup
      case closing =>
          intro c mem
          obtain ⟨⟨id, conversation, same, owned⟩, none⟩ := h.closing c mem
          have other : conversation ≠ cr.conversation := by
            rintro rfl
            exact free.closed c mem (h.holder _ c owned).entry
          refine ⟨⟨id, conversation, same, (others conversation other).trans owned⟩, fun id => ?_⟩
          have here : c ≠ k := by
            rintro rfl
            exact stranger owned
          exact Nat.eq_zero_of_le_zero (none id ▸ places_insertEntry s.pool cr.conversation id here)
      case claims =>
          intro x mem d owned
          rcases List.mem_append.mp mem with old | new
          · exact h.claims x old d owned
          · obtain rfl := List.mem_singleton.mp new
            exact h.owner_dead free owned
      case releases => exact h.releases
      case dropped => exact h.dropped

/-- A row that is dropped when nobody of its conversation is left belongs to
no place. -/
theorem Entitled.forgotten (h : Entitled s) (free : s.Free conversation)
    (absent : s.pool.entries.get conversation.id = none) (resets : List Reset) :
    Entitled { s with
      resets
      registry := s.registry.forget conversation
      dropped := s.dropped ++ [(s.registry.ownerOf conversation, s.pool.childOf)] } := by
  have kept {other : Conversation} (ne : other ≠ conversation) :=
    SessionRegistry.ownerOf_forget_of_ne (r := s.registry) ne
  constructor
  case fresh => exact h.fresh
  case holder =>
      intro other c owned
      by_cases here : other = conversation
      · subst here
        exact absurd (SessionRegistry.ownerOf_forget_self.symm.trans owned) (by simp)
      · exact h.holder other c ((kept here).symm.trans owned)
  case held =>
      intro id c there
      obtain ⟨other, rfl, owned⟩ := h.held id c there
      refine ⟨other, rfl, (kept ?_).trans owned⟩
      rintro rfl
      have none := free.not_evicted c
      simp [PoolManager.places, none, absent] at there
  case single => exact h.single
  case nodup => exact h.nodup
  case closing =>
      intro c mem
      obtain ⟨⟨id, other, same, owned⟩, none⟩ := h.closing c mem
      refine ⟨⟨id, other, same, (kept ?_).trans owned⟩, none⟩
      rintro rfl
      exact free.closed c mem (h.holder other c owned).entry
  case claims => exact h.claims
  case releases => exact h.releases
  case dropped =>
      intro x mem d owned
      rcases List.mem_append.mp mem with old | new
      · exact h.dropped x old d owned
      · obtain rfl := List.mem_singleton.mp new
        exact h.owner_dead free owned

/-! ### The steps -/

theorem entitled_getOrCreate (h : Entitled s) (k : ChildId) (conversation : Conversation)
    (parent : Option String) : Entitled (s.getOrCreate k conversation parent) := by
  unfold SessionPool.getOrCreate
  split
  · exact h.congr rfl (fun _ => rfl) rfl rfl rfl
  split
  · exact h.congr rfl (fun _ => rfl) rfl rfl rfl
  · exact h.congr rfl (fun _ => rfl) rfl rfl rfl

theorem entitled_finishCreate (h : Entitled s) (k : ChildId) (conversation : Conversation)
    (answer : Except String String) : Entitled (s.finishCreate k conversation answer) := by
  unfold SessionPool.finishCreate
  split
  · exact h.congr rfl (fun _ => rfl) rfl rfl rfl
  split
  case h_1 registry inserted =>
      exact h.congr rfl (fun _ => SessionRegistry.ownerOf_insert inserted) rfl rfl rfl
  case h_2 => exact h.congr rfl (fun _ => rfl) rfl rfl rfl

/-- A teardown that has seen its child close leaves it in no place. -/
theorem Entitled.places_settleTeardown (h : Entitled s) {purpose : Purpose} {id : String}
    (mem : .evict purpose id c .closing ∈ s.pool.tasks) {result : TeardownResult}
    (closed : result.outcome = .ok) :
    (s.pool.settleTeardown purpose id c result).places Task.holds id c = 0 := by
  have one := h.single id c
  have counted := List.countP_erase (Task.holds id c) s.pool.tasks (.evict purpose id c .closing)
  rw [if_pos ⟨mem, by simp [Task.holds, Task.holding]⟩] at counted
  have several : 0 < s.pool.tasks.countP (Task.holds id c) :=
    List.countP_pos_iff.mpr ⟨_, mem, by simp [Task.holds, Task.holding]⟩
  have finished : Task.holds id c (.evict purpose id c (.tornDown result)) = false := by
    cases result <;> simp_all [Task.holds, Task.holding, TeardownResult.outcome]
  have after : (s.pool.settleTeardown purpose id c result).places Task.holds id c =
      (s.pool.tasks.erase (.evict purpose id c .closing)).countP (Task.holds id c) +
        if s.pool.entries.get id = some c then 1 else 0 := by
    cases result <;> simp [PoolManager.places, PoolManager.settleTeardown, finished]
  simp only [PoolManager.places] at one
  rw [after, counted]
  omega

/-- The exit of a child in the map leaves it in no place. -/
theorem Entitled.places_forgetExitedChild (h : Entitled s)
    (there : s.pool.entries.get conversation.id = some c) :
    ((s.pool.setChild c .exited).forgetExitedChild conversation c).places Task.holds
      conversation.id c = 0 := by
  have one := h.single conversation.id c
  simp only [PoolManager.places, there, if_true] at one
  have there : (s.pool.setChild c .exited).entries.get conversation.id = some c := there
  simp only [PoolManager.forgetExitedChild, there, if_true]
  refine Fewer.eq_zero ((Fewer.refl _).drainWaiters tally_holds) ?_
  simp only [PoolManager.places, setEntry_tasks, setChild_tasks, OrderedMap.get_delete, if_true]
  simp only [reduceCtorEq, if_false]
  omega

theorem Entitled.not_closing (h : Entitled s) {id : String}
    (there : 0 < s.pool.places Task.holds id c) : c ∉ s.manager.phase.children := by
  intro mem
  rw [(h.closing c mem).2 id] at there
  omega

/-- The teardown of an eviction, with the release that follows it. -/
theorem Entitled.childClosed (h : Entitled s) {purpose : Purpose} {id : String}
    (answer : Reply) {manager : ClosablePool}
    (moved : s.manager.step (.pool (.tornDown purpose id c (s.teardown c answer).2)) =
      some manager) : Entitled { (s.teardown c answer).1 with manager } := by
  cases answer with
  | failed error => exact h.move moved (by simp)
  | done =>
      have closed : (s.teardown c .done).2.outcome = .ok := by
        simp only [SessionPool.teardown]
        cases (s.releaseOwnership c).2 <;> rfl
      revert moved
      generalize (s.teardown c .done).2 = result at closed ⊢
      intro moved
      have settled : manager = { s.manager with
          pool := s.pool.settleTeardown purpose id c result } ∧
          .evict purpose id c .closing ∈ s.pool.tasks := by
        cases ClosablePool.step_cases moved with
        | pool went =>
            cases PoolManager.step_cases went with
            | tornDown mem => exact ⟨rfl, mem⟩
      obtain ⟨rfl, mem⟩ := settled
      have there : 0 < s.pool.places Task.holds id c :=
        places_pos_iff.mpr (.inr ⟨_, mem, by simp [Task.holds, Task.holding]⟩)
      exact h.released moved (by simp) (h.held id c there) (h.places_settleTeardown mem closed)
        (h.not_closing there)

/-- A teardown of `close`, with the release that follows it. -/
theorem Entitled.closeTornDown (h : Entitled s) (answer : Reply) {manager : ClosablePool}
    (moved : s.manager.step (.tornDown c (s.teardown c answer).2) = some manager) :
    Entitled { (s.teardown c answer).1 with manager } := by
  cases answer with
  | failed error => exact h.move moved (by simp)
  | done =>
      revert moved
      generalize (s.teardown c .done).2 = result
      intro moved
      have closing : c ∈ s.manager.phase.children ∧
          manager.phase.children = s.manager.phase.children.erase c := by
        cases ClosablePool.step_cases moved with
        | tornDown _ phase mem => exact ⟨by rw [phase]; exact mem, by rw [phase]; rfl⟩
      obtain ⟨mem, rest⟩ := closing
      obtain ⟨⟨id, owns⟩, nowhere⟩ := h.closing c mem
      refine h.released moved (by simp) owns
        ((quiet_step moved (by simp)).fewer.eq_zero (nowhere id)) ?_
      rw [rest]
      exact fun again => (h.nodup.mem_erase_iff.mp again).1 rfl

/-- The exit of a child in the map, with the release that goes with it. -/
theorem Entitled.exit (h : Entitled s) {cr : Creation} {manager : ClosablePool}
    (known : s.pool.creationOf c = some cr)
    (there : s.pool.entries.get cr.conversation.id = some c)
    (moved : s.manager.step (.pool (.exit c)) = some manager) :
    Entitled { (s.releaseOwnership c).1 with manager } := by
  have exited : manager = { s.manager with
      pool := (s.pool.setChild c .exited).forgetExitedChild cr.conversation c } := by
    cases ClosablePool.step_cases moved with
    | pool went =>
        cases PoolManager.step_cases went with
        | exit known' alive =>
            obtain rfl := Option.some.inj (known.symm.trans known')
            rfl
  subst exited
  have place : 0 < s.pool.places Task.holds cr.conversation.id c :=
    places_pos_iff.mpr (.inl there)
  exact h.released moved (by simp) (h.held _ c place) (h.places_forgetExitedChild there)
    (h.not_closing place)

theorem Entitled.step (h : Entitled s) {a : Action} (exclusive : Exclusive s a)
    (taken : step s a = some t) : Entitled t := by
  cases step_cases taken with
  | acquire moved => exact (h.move moved (by simp)).congr rfl (fun _ => rfl) rfl rfl rfl
  | spawned known moved => exact entitled_getOrCreate (h.move moved (by simp)) _ _ _
  | spawnFailed moved | attachFailed moved => exact h.move moved (by simp)
  | exitElsewhere known elsewhere moved => exact h.move moved (by simp)
  | sessionCreated answer known waits => exact entitled_finishCreate h _ _ answer
  | unlisted => exact h.congr rfl (fun _ => rfl) rfl rfl rfl
  | attached known came claimed moved =>
      exact h.claimed known (exclusive came _ known) claimed moved
  | childClosed answer moved => exact h.childClosed answer moved
  | closeTornDown answer moved => exact h.closeTornDown answer moved
  | exit known there moved => exact h.exit known there moved
  | reset conversation =>
      unfold SessionPool.retireConversation
      split
      · exact h.congr rfl (fun _ => rfl) rfl rfl rfl
      split
      · exact h.congr rfl (fun _ => rfl) rfl rfl rfl
      case h_2.isFalse c _ _ =>
          have moved := h.move (a := .pool (.retireChild conversation c)) rfl (by simp)
          exact moved.congr rfl (fun _ => rfl) rfl rfl rfl
  | forget due => exact h.forgotten exclusive.1 exclusive.2 _
  | retired moved => exact (h.move moved (by simp)).congr rfl (fun _ => rfl) rfl rfl rfl
  | plain isPlain moved =>
      refine h.move moved fun k same => ?_
      simp [same, SessionPool.isPlain] at isPlain

/-- In a run in which no row is claimed or dropped while its conversation
still has a child, each live child in the map owns its row and each teardown
releases its own. -/
theorem titled (reach : machine.Reachable Exclusive s) : s.Titled := by
  refine Entitled.toTitled (reach.invariant ?_ fun _ _ _ h exclusive taken => h.step exclusive taken)
  rintro s ⟨maxChildren, rows, -, stale, rfl⟩
  exact entitled_initial maxChildren stale

/-- A conversation is opened, its child goes idle and is to be closed. -/
def idleConversation : List Action :=
  let a : Conversation := ⟨"http", "a"⟩
  let pool (action : PoolManager.Action) : Action := .plain (.pool action)
  [.acquire a none, .spawned 0 .done, .sessionCreated 0 (.ok "a.jsonl"), .unlisted 0,
    .attached 0 .done, pool (.finished 0), pool (.resume 0 (.acquireNew ⟨a, 0⟩)),
    pool (.release 0), pool (.idleTimer 0)]

/-- The conversation is opened again once its child has closed. -/
def reopened : List Action :=
  let a : Conversation := ⟨"http", "a"⟩
  idleConversation ++ [.childClosed .idle a.id 0 .done, .acquire a none, .spawned 1 .done,
    .attached 1 .done]

theorem titled_reopened :
    ∃ s, machine.Reachable Exclusive s ∧ s.releases = [(0, some (.child 0))] ∧ s.pool.Live 1 ∧
      s.registry.ownerOf ⟨"http", "a"⟩ = some (.child 1) ∧ s.Titled := by
  have run : (machine.exec Exclusive (initial 2 fun _ => none) reopened).map (fun s =>
      (s.releases, s.pool.childOf 1, s.registry.ownerOf ⟨"http", "a"⟩)) =
      some ([(0, some (.child 0))], .live, some (.child 1)) := by
    decide +kernel
  obtain ⟨s, run, facts⟩ := Option.map_eq_some_iff.mp run
  simp only [Prod.mk.injEq] at facts
  have reach : machine.Reachable Exclusive s :=
    .of_exec ⟨2, fun _ => none, by decide, by simp, rfl⟩ run
  exact ⟨s, reach, facts.1, facts.2.1, facts.2.2, titled reach⟩

/-- The conversation is opened again while its child is still being closed;
that child does not close, and its entry comes back over the new one. -/
def overtaken : List Action :=
  let a : Conversation := ⟨"http", "a"⟩
  idleConversation ++ [.acquire a none, .spawned 1 .done, .attached 1 .done,
    .childClosed .idle a.id 0 (.failed "timeout"),
    .plain (.pool (.advance (.evict .idle a.id 0 (.tornDown (.closeFailed "timeout")))))]

/-- The new child has taken the row over from one that is alive, and that one
is in the map without its row. -/
theorem overtaken_is_not_titled : ¬ ∀ s, machine.Reachable Transition.Always s → s.Titled := by
  intro all
  have run : (machine.exec Transition.Always (initial 2 fun _ => none) overtaken).map (fun s =>
      (s.pool.entries.get (⟨"http", "a"⟩ : Conversation).id, s.pool.childOf 0,
        s.registry.ownerOf (s.pool.entryOf 0).conversation)) =
      some (some 0, .live, some (.child 1)) := by
    decide +kernel
  obtain ⟨s, run, facts⟩ := Option.map_eq_some_iff.mp run
  simp only [Prod.mk.injEq] at facts
  have reach : machine.Reachable Transition.Always s :=
    .of_exec ⟨2, fun _ => none, by decide, by simp, rfl⟩ run
  have mine := (all s reach).recorded _ 0 facts.1 facts.2.1
  exact absurd (facts.2.2.symm.trans mine) (by simp)

end SessionPool

end OmpBundler.Core
