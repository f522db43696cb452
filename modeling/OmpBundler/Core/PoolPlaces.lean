import OmpBundler.Core.PoolAccounting

/-!
Where a child is.

A child that has been entered is in the map or out of it for a teardown.
`places` counts both; which teardowns are counted is a parameter (`Tally`),
since some results speak of every eviction that has not returned and some
only of those that may still put their child back. Whatever is counted, no
step but the entry of a new child puts a child in one more place
(`fewer_step`), so that no child is ever in two (`Placed`); and a child that
has been entered stays so (`grows_step`).
-/

namespace OmpBundler.Core

open Library

namespace PoolManager

/-- What may count as a teardown that has its child out of the map: at least
those that may still put it back. -/
structure Tally (down : String → ChildId → Task → Bool) : Prop where
  tearsDown : ∀ {id c x}, down id c x = true → x.tearsDown id c = true
  closing : ∀ purpose id c, down id c (.evict purpose id c .closing) = true
  restored : ∀ purpose id c error,
    down id c (.evict purpose id c (.tornDown (.closeFailed error))) = true

theorem tally_tearsDown : Tally Task.tearsDown where
  tearsDown down := down
  closing _ _ _ := by simp [Task.tearsDown]
  restored _ _ _ _ := by simp [Task.tearsDown]

/-- How often a child is in the map or in a teardown that counts. -/
def places (down : String → ChildId → Task → Bool) (s : PoolManager) (id : String)
    (c : ChildId) : ℕ :=
  s.tasks.countP (down id c) + if s.entries.get id = some c then 1 else 0

/-- No child is in more places than before. -/
def Fewer (down : String → ChildId → Task → Bool) (s t : PoolManager) : Prop :=
  ∀ id c, t.places down id c ≤ s.places down id c

section Fewer

variable {s t u : PoolManager} {down : String → ChildId → Task → Bool}

theorem Fewer.refl (s : PoolManager) : Fewer down s s := fun _ _ => Nat.le_refl _

theorem Fewer.trans (first : Fewer down s t) (second : Fewer down t u) : Fewer down s u :=
  fun id c => Nat.le_trans (second id c) (first id c)

/-- A child that is in no place stays in none. -/
theorem Fewer.eq_zero (fewer : Fewer down s t) {id : String} {c : ChildId}
    (nowhere : s.places down id c = 0) : t.places down id c = 0 :=
  Nat.eq_zero_of_le_zero (nowhere ▸ fewer id c)

theorem places_pos_iff {id : String} {c : ChildId} :
    0 < s.places down id c ↔ s.entries.get id = some c ∨ ∃ x ∈ s.tasks, down id c x = true := by
  unfold places
  rw [← List.countP_pos_iff]
  split <;> simp_all

/-- Updates that add no teardown and put nothing into the map. -/
theorem Fewer.frame (tasks : t.tasks.Sublist s.tasks)
    (entry : ∀ id c, t.entries.get id = some c → s.entries.get id = some c) :
    Fewer down s t := by
  intro id c
  have teardowns := tasks.countP_le (p := down id c)
  unfold places
  by_cases present : t.entries.get id = some c
  · simp only [present, entry id c present, if_true]
    omega
  · simp only [present, if_false]
    omega

theorem fewer_suspend (tally : Tally down) {x : Task} (noSlot : x.holdsSlot = false) :
    Fewer down s (s.suspend x) := by
  intro id c
  have not_down : ¬ down id c x = true := fun counts => by
    simp [Task.holdsSlot_of_tearsDown (tally.tearsDown counts)] at noSlot
  simp [places, not_down]

theorem fewer_beginEvict (tally : Tally down) (purpose : Purpose) {id : String} {c : ChildId}
    (present : s.entries.get id = some c) : Fewer down s (s.beginEvict purpose id c) := by
  intro i d
  by_cases same : id = i ∧ c = d
  · obtain ⟨rfl, rfl⟩ := same
    simp [places, PoolManager.beginEvict, tally.closing, present]
  · have not_down : ¬ down i d (Task.evict purpose id c .closing) = true := fun counts =>
      same (by simpa [Task.tearsDown] using tally.tearsDown counts)
    simp only [places, PoolManager.beginEvict, suspend_tasks, setEntry_tasks,
      suspend_entries, List.countP_append, List.countP_singleton, not_down, OrderedMap.get_delete]
    by_cases here : id = i <;> simp [here]

theorem fewer_move (tally : Tally down) (move : Move s t) : Fewer down s t := by
  cases move with
  | queue | await => exact .refl _
  | suspend x noSlot => exact fewer_suspend tally noSlot
  | grant w c => exact .frame (.refl _) fun id d there => by simpa [grant] using there
  | create conversation parent rest absent alone =>
      simp only [PoolManager.createEntry, alone]
      exact .refl _
  | evict purpose id c present => exact fewer_beginEvict tally purpose present

theorem Fewer.moves (h : Fewer down s t) (tally : Tally down) (moves : Moves t u) :
    Fewer down s u := by
  induction moves with
  | refl => exact h
  | tail _ move ih => exact ih.trans (fewer_move tally move)

theorem Fewer.drainWaiters (h : Fewer down s t) (tally : Tally down) :
    Fewer down s t.drainWaiters :=
  h.moves tally (drainWaiters_moves t)

theorem fewer_grant (s : PoolManager) (w : Waiter) (c : ChildId) :
    Fewer down s (s.grant w c) :=
  .frame (.refl _) fun _ _ there => by simpa [PoolManager.grant] using there

theorem fewer_release (tally : Tally down) (s : PoolManager) (l : ℕ) (lease : Lease) :
    Fewer down s (s.release l lease) := by
  unfold PoolManager.release releaseEntry
  split
  · exact .refl _
  dsimp only
  split
  · exact .refl _
  split
  · exact .refl _
  split
  · exact .refl _
  refine Fewer.drainWaiters (.frame (.refl _) fun _ _ there => ?_) tally
  simpa using there

theorem fewer_resume (tally : Tally down) (s : PoolManager) (k : ChildId)
    (rest : Continuation) : Fewer down s (s.resume k rest) := by
  rcases resume_cases s k rest with moves | ⟨-, moves⟩
  · exact (Fewer.refl s).moves tally moves
  · exact (fewer_grant s rest.caller k).moves tally moves

/-- The entry of a new child puts that child in one place more. -/
theorem places_insertEntry (s : PoolManager) {k c : ChildId} (conversation : Conversation)
    (id : String) (other : c ≠ k) :
    (s.insertEntry k conversation).places down id c ≤ s.places down id c := by
  simp only [places, PoolManager.insertEntry, setPhase_tasks, setEntry_tasks,
    setPhase_entries, OrderedMap.get_set]
  by_cases same : conversation.id = id <;> simp [same, Ne.symm other]

/-- A suspended eviction moves on and still keeps its child out of the map,
or gives it up, or puts it back. -/
theorem fewer_replaceTask {x y : Task} (mem : x ∈ s.tasks)
    (tasks : t.tasks = s.tasks.erase x ++ [y])
    (counted : ∀ id c, (if down id c y then 1 else 0) +
        (if t.entries.get id = some c then 1 else 0) ≤
      (if down id c x then 1 else 0) + if s.entries.get id = some c then 1 else 0) :
    Fewer down s t := by
  intro id c
  have erased : (s.tasks.erase x).countP (down id c) + (if down id c x then 1 else 0) =
      s.tasks.countP (down id c) := by
    rw [List.countP_erase]
    by_cases counts : down id c x
    · have : 0 < s.tasks.countP (down id c) := List.countP_pos_iff.mpr ⟨x, mem, counts⟩
      simp only [mem, counts, and_self, if_true]
      omega
    · simp [counts]
  have := counted id c
  simp only [places, tasks, List.countP_append, List.countP_singleton]
  omega

/-- A teardown of another child, or one that is over, does not count. -/
theorem Tally.evict_other (tally : Tally down) {purpose : Purpose} {id i : String}
    {c d : ChildId} {step : EvictStep} (other : ¬ (id = i ∧ c = d)) :
    ¬ down i d (.evict purpose id c step) = true := fun counts => by
  have there := tally.tearsDown counts
  cases step <;> simp_all [Task.tearsDown]

theorem fewer_evicted (tally : Tally down) {purpose : Purpose} {id : String} {c : ChildId}
    {result : TeardownResult} (mem : .evict purpose id c (.tornDown result) ∈ s.tasks) :
    Fewer down s (({ s with
      tasks := s.tasks.erase (.evict purpose id c (.tornDown result)) }).evicted purpose id c
        result) := by
  have finished (i : String) (d : ChildId) (outcome : EvictOutcome) :
      ¬ down i d (.evict purpose id c (.returned outcome)) = true := fun counts => by
    simpa [Task.tearsDown] using tally.tearsDown counts
  cases result with
  | closeFailed error =>
      refine fewer_replaceTask mem rfl fun i d => ?_
      simp only [finished, PoolManager.evicted, restore, suspend_entries, OrderedMap.get_set]
      by_cases same : id = i
      · subst same
        by_cases here : c = d
        · simp [here, tally.restored]
        · simp [here]
      · simp [same]
  | childClosed | releaseFailed error =>
      exact fewer_replaceTask mem rfl fun i d => Nat.add_le_add_right (by simp [finished]) _

theorem fewer_settleTeardown (tally : Tally down) {purpose : Purpose} {id : String}
    {c : ChildId} (mem : .evict purpose id c .closing ∈ s.tasks) (result : TeardownResult) :
    Fewer down s (s.settleTeardown purpose id c result) := by
  have counted (i : String) (d : ChildId) :
      (if down i d (.evict purpose id c (.tornDown result)) then 1 else 0) ≤
        if down i d (.evict purpose id c .closing) then 1 else 0 := by
    by_cases same : id = i ∧ c = d
    · obtain ⟨rfl, rfl⟩ := same
      rw [if_pos (tally.closing purpose id c)]
      split <;> omega
    · rw [if_neg (tally.evict_other same)]
      omega
  cases result with
  | closeFailed error | childClosed | releaseFailed error =>
      exact fewer_replaceTask mem rfl fun i d => Nat.add_le_add_right (counted i d) _

theorem fewer_evictReturned (tally : Tally down) (s : PoolManager) (purpose : Purpose)
    (id : String) (c : ChildId) (outcome : EvictOutcome) :
    Fewer down s (s.evictReturned purpose id c outcome) := by
  cases purpose with
  | capacity caller rest closeError =>
      cases outcome with
      | ok => exact fewer_suspend tally rfl
      | closeFailed error => exact fewer_move tally (evictNext_move s caller (some error) rest)
  | idle => exact Fewer.drainWaiters (t := { s with closing := _ }) (.refl s) tally
  | retire =>
      cases outcome with
      | ok => exact (Fewer.refl s).drainWaiters tally
      | closeFailed error => exact .refl _

theorem fewer_retireChild (tally : Tally down) (s : PoolManager) (conversation : Conversation)
    (c : ChildId) : Fewer down s (s.retireChild conversation c) := by
  unfold PoolManager.retireChild
  split
  case isTrue found =>
      exact fewer_beginEvict tally (s := s.setEntry c _) .retire found.1
  case isFalse => exact .refl _

theorem fewer_forgetExitedChild (tally : Tally down) (s : PoolManager)
    (conversation : Conversation) (c : ChildId) :
    Fewer down s (s.forgetExitedChild conversation c) := by
  unfold PoolManager.forgetExitedChild
  split
  case isTrue =>
      refine Fewer.drainWaiters (.frame (.refl _) fun i d there => ?_) tally
      simp only [OrderedMap.get_delete] at there
      split at there
      · simp at there
      · exact there
  case isFalse => exact .refl _

/-- No step but the entry of a new child puts a child in one more place. -/
theorem fewer_step (tally : Tally down) {a : Action} (taken : step s a = some t)
    (old : ∀ k, a ≠ .attached k .done) : Fewer down s t := by
  have erased (x : Task) : Fewer down s { s with tasks := s.tasks.erase x } :=
    .frame List.erase_sublist fun _ _ there => there
  cases step_cases taken with
  | attached => exact absurd rfl (old _)
  | acquire conversation parent =>
      exact (Fewer.refl s).moves tally (acquire_moves s conversation parent)
  | release known => exact fewer_release tally s _ _
  | spawned | spawnFailed | attachFailed | aborted | abortFailed => exact .refl _
  | finished | finishedFailing => exact .refl _
  | resumed mem =>
      exact Fewer.trans (.frame (.refl _) fun _ _ there => there) (fewer_resume tally _ _ _)
  | resumedRejected mem =>
      refine Fewer.moves ?_ tally (resumeRejected_moves _ _ _)
      exact .frame (.refl _) fun _ _ there => there
  | tornDown mem => exact fewer_settleTeardown tally mem _
  | evicted mem => exact fewer_evicted tally mem
  | returned mem => exact (erased _).trans (fewer_evictReturned tally _ _ _ _ _)
  | @acquireEvicted w parent outcome mem =>
      rcases acquireEvicted_cases { s with tasks := s.tasks.erase _ } w parent outcome with
        move | ⟨-, created⟩
      · exact (erased _).trans (fewer_move tally move)
      · rw [created]
        unfold createEntry
        split <;> exact erased _
  | drainEvicted mem => exact (erased _).moves tally (tryEvictForDrain_moves _ _)
  | drainTail mem =>
      exact Fewer.drainWaiters (.frame List.erase_sublist fun _ _ there => there) tally
  | @idleTimer c armed =>
      refine Fewer.moves ?_ tally (sweepIdle_moves s c)
      exact .frame (.refl _) fun _ _ there => there
  | retireChild conversation c => exact fewer_retireChild tally s conversation c
  | @exit c cr known alive =>
      exact Fewer.trans (.frame (.refl _) fun _ _ there => there)
        (fewer_forgetExitedChild tally _ cr.conversation c)

end Fewer

/-! ### Every child has one place -/

section Placed

variable {s t : PoolManager}

/-- How often a child is in the map or out of it for a teardown. -/
def placesOf (s : PoolManager) (id : String) (c : ChildId) : ℕ :=
  s.tasks.countP (Task.tearsDown id c) + if s.entries.get id = some c then 1 else 0

/-- No child is in two places. -/
def Placed (s : PoolManager) : Prop := ∀ id c, s.placesOf id c ≤ 1

/-- A child that a teardown may put back is not in the map. -/
theorem Placed.absent_of_tearsDown (h : Placed s) {x : Task} {id : String} {c : ChildId}
    (mem : x ∈ s.tasks) (down : x.tearsDown id c = true) : s.entries.get id ≠ some c := by
  intro present
  have one := h id c
  have counted : 0 < s.tasks.countP (Task.tearsDown id c) :=
    List.countP_pos_iff.mpr ⟨x, mem, down⟩
  simp only [placesOf, present, if_true] at one
  omega

theorem Placed.of_fewer (h : Placed s) (fewer : Fewer Task.tearsDown s t) : Placed t :=
  fun id c => Nat.le_trans (fewer id c) (h id c)

theorem Placed.frame (h : Placed s) (tasks : t.tasks.Sublist s.tasks)
    (entry : ∀ id c, t.entries.get id = some c → s.entries.get id = some c) : Placed t :=
  h.of_fewer (.frame tasks entry)

theorem Placed.move (h : Placed s) (move : Move s t) : Placed t :=
  h.of_fewer (fewer_move tally_tearsDown move)

theorem Placed.grant (h : Placed s) (w : Waiter) (c : ChildId) : Placed (s.grant w c) :=
  h.of_fewer (fewer_grant s w c)

/-- A child whose creation has not entered it is nowhere. -/
theorem Accounted.placesOf_eq_zero (h : Accounted s) {k : ChildId} {cr : Creation}
    (known : s.creationOf k = some cr) (outside : cr.phase.entered = false) (id : String) :
    s.placesOf id k = 0 := by
  have stranger : ¬ s.Belongs k id := by
    rintro ⟨-, cr', known', -, entered⟩
    obtain rfl := Option.some.inj (known.symm.trans known')
    simp [outside] at entered
  have absent : s.entries.get id ≠ some k := fun present => stranger (h.entry id k present)
  have none_down : s.tasks.countP (Task.tearsDown id k) = 0 :=
    List.countP_eq_zero.mpr fun x mem down => stranger (h.teardown x mem id k down)
  simp [placesOf, absent, none_down]

theorem Placed.insertEntry (h : Placed s) (acc : Accounted s) {k : ChildId} {cr : Creation}
    (known : s.creationOf k = some cr) (outside : cr.phase.entered = false) :
    Placed (s.insertEntry k cr.conversation) := by
  intro id c
  by_cases here : c = k
  · subst here
    have nowhere := acc.placesOf_eq_zero known outside id
    simp only [placesOf, PoolManager.insertEntry, setPhase_tasks, setEntry_tasks,
      setPhase_entries] at nowhere ⊢
    split <;> omega
  · exact Nat.le_trans (places_insertEntry s cr.conversation id here) (h id c)

theorem Placed.step (h : Placed s) (acc : Accounted s) {a : Action}
    (taken : step s a = some t) : Placed t := by
  by_cases entry : ∃ k, a = .attached k .done
  · obtain ⟨k, rfl⟩ := entry
    cases step_cases taken with
    | attached known phase =>
        exact h.insertEntry acc known (by simp [phase, CreationPhase.entered])
  · exact h.of_fewer (fewer_step tally_tearsDown taken fun k same => entry ⟨k, same⟩)

theorem placed_initial (maxChildren : ℕ) : Placed (initial maxChildren) := by
  intro id c
  simp [placesOf, initial]

end Placed

/-! ### Children that have been entered -/

section Grows

variable {s t u : PoolManager}

/-- The child has been entered for the conversation. -/
structure Entered (s : PoolManager) (c : ChildId) (conversation : Conversation) : Prop where
  entry : (s.entryOf c).conversation = conversation
  creation : ∃ cr, s.creationOf c = some cr ∧ cr.conversation = conversation ∧
    cr.phase.entered = true

/-- The numbers of the creations to come are free. -/
def Fresh (s : PoolManager) : Prop := ∀ k, s.nextChild ≤ k → s.creationOf k = none

/-- The children that have been entered stay so, and the numbers of the
creations to come stay free. -/
structure Grows (s t : PoolManager) : Prop where
  fresh : Fresh s → Fresh t
  entered : Fresh s → ∀ c conversation, Entered s c conversation → Entered t c conversation

theorem Grows.refl (s : PoolManager) : Grows s s := ⟨id, fun _ _ _ => id⟩

theorem Grows.trans (first : Grows s t) (second : Grows t u) : Grows s u where
  fresh free := second.fresh (first.fresh free)
  entered free c conversation entered :=
    second.entered (first.fresh free) c conversation (first.entered free c conversation entered)

theorem Grows.congr (next : t.nextChild = s.nextChild) (creation : t.creationOf = s.creationOf)
    (entry : ∀ c, (t.entryOf c).conversation = (s.entryOf c).conversation) : Grows s t where
  fresh free := by
    unfold Fresh
    rw [next, creation]
    exact free
  entered _ c _ entered := ⟨(entry c).trans entered.entry, creation ▸ entered.creation⟩

theorem grows_setEntry (s : PoolManager) (c : ChildId) (f : PoolEntry → PoolEntry)
    (same : ∀ e, (f e).conversation = e.conversation) : Grows s (s.setEntry c f) :=
  .congr rfl rfl fun d => entryOf_conversation_setEntry c d f same

theorem grows_createEntry (s : PoolManager) (conversation : Conversation)
    (parent : Option String) (rest : Continuation) :
    Grows s (s.createEntry conversation parent rest) := by
  unfold PoolManager.createEntry
  split
  · exact .congr rfl rfl fun _ => rfl
  · refine ⟨fun free k le => ?_, fun free c _ entered => ?_⟩
    · simp only [startCreation_nextChild] at le
      simp only [startCreation_creationOf]
      rw [Function.update_of_ne (Nat.ne_of_gt le)]
      exact free k (Nat.le_of_succ_le le)
    · obtain ⟨cr, known, rest⟩ := entered.creation
      have old : c ≠ s.nextChild := by
        rintro rfl
        exact absurd (known.symm.trans (free _ (Nat.le_refl _))) (by simp)
      refine ⟨entered.entry, cr, ?_, rest⟩
      simp only [startCreation_creationOf]
      rw [Function.update_of_ne old]
      exact known

theorem grows_move (move : Move s t) : Grows s t := by
  cases move with
  | queue | suspend | await => exact .congr rfl rfl fun _ => rfl
  | grant w c =>
      exact (grows_setEntry s c (fun e => { e with idleTimer := false }) fun _ => rfl).trans
        ((grows_setEntry _ c (fun e => { e with inUse := true }) fun _ => rfl).trans
          (.congr rfl rfl fun _ => rfl))
  | create conversation parent rest => exact grows_createEntry s conversation parent rest
  | evict purpose id c =>
      exact (grows_setEntry s c (fun e => { e with idleTimer := false }) fun _ => rfl).trans
        (.congr rfl rfl fun _ => rfl)

theorem Grows.moves (h : Grows s t) (moves : Moves t u) : Grows s u := by
  induction moves with
  | refl => exact h
  | tail _ move ih => exact ih.trans (grows_move move)

theorem Grows.drainWaiters (h : Grows s t) : Grows s t.drainWaiters :=
  h.moves (drainWaiters_moves t)

theorem grows_grant (s : PoolManager) (w : Waiter) (c : ChildId) : Grows s (s.grant w c) :=
  (grows_setEntry s c (fun e => { e with inUse := true }) fun _ => rfl).trans
    (.congr rfl rfl fun _ => rfl)

/-- A creation moves on, and is entered for good once it is. -/
theorem Grows.setPhase (h : Grows s t) {k : ChildId} {cr : Creation}
    (known : t.creationOf k = some cr) {phase : CreationPhase}
    (stays : cr.phase.entered = true → phase.entered = true) : Grows s (t.setPhase k phase) := by
  refine h.trans ⟨fun free j le => ?_, fun free c _ entered => ⟨entered.entry, ?_⟩⟩
  · have ne : j ≠ k := by
      rintro rfl
      exact absurd (known.symm.trans (free j le)) (by simp)
    simp only [setPhase_creationOf]
    rw [Function.update_of_ne ne]
    exact free j le
  · obtain ⟨cr', known', same, entered⟩ := entered.creation
    simp only [setPhase_creationOf]
    by_cases here : c = k
    · subst here
      obtain rfl := Option.some.inj (known.symm.trans known')
      rw [Function.update_self, known]
      exact ⟨_, rfl, same, stays entered⟩
    · rw [Function.update_of_ne here]
      exact ⟨cr', known', same, entered⟩

theorem grows_insertEntry {k : ChildId} {cr : Creation} (known : s.creationOf k = some cr)
    (outside : cr.phase.entered = false) : Grows s (s.insertEntry k cr.conversation) := by
  have entry : Grows s { s.setEntry k fun _ => ⟨cr.conversation, false, false, false⟩ with
      entries := s.entries.set cr.conversation.id k } := by
    refine ⟨id, fun _ c _ entered => ⟨?_, entered.creation⟩⟩
    have other : c ≠ k := by
      rintro rfl
      obtain ⟨cr', known', -, inside⟩ := entered.creation
      obtain rfl := Option.some.inj (known.symm.trans known')
      simp [outside] at inside
    simp only [setEntry_entryOf]
    rw [Function.update_of_ne other]
    exact entered.entry
  exact entry.setPhase known fun _ => rfl

theorem grows_evictReturned (s : PoolManager) (purpose : Purpose) (id : String) (c : ChildId)
    (outcome : EvictOutcome) : Grows s (s.evictReturned purpose id c outcome) := by
  cases purpose with
  | capacity caller rest closeError =>
      cases outcome with
      | ok => exact .congr rfl rfl fun _ => rfl
      | closeFailed error => exact grows_move (evictNext_move s caller (some error) rest)
  | idle => exact Grows.drainWaiters (.congr rfl rfl fun _ => rfl)
  | retire =>
      cases outcome with
      | ok => exact (Grows.refl s).drainWaiters
      | closeFailed error =>
          exact (grows_setEntry s c (fun e => { e with inUse := true }) fun _ => rfl).trans
            (.congr rfl rfl fun _ => rfl)

theorem grows_release (s : PoolManager) (l : ℕ) (lease : Lease) :
    Grows s (s.release l lease) := by
  unfold PoolManager.release releaseEntry
  split
  · exact .refl s
  dsimp only
  split
  · exact .congr rfl rfl fun _ => rfl
  split
  · exact .congr rfl rfl fun _ => rfl
  case h_2 c _ =>
      split
      · exact .congr rfl rfl fun _ => rfl
      · refine Grows.drainWaiters (.congr rfl rfl fun d => ?_)
        exact entryOf_conversation_setEntry (s := s) c d
          (fun e => { e with inUse := false, idleTimer := true }) fun _ => rfl

/-- What every step leaves of the children that have been entered. -/
theorem grows_step {a : Action} (taken : step s a = some t) : Grows s t := by
  cases step_cases taken with
  | acquire conversation parent => exact (Grows.refl s).moves (acquire_moves s _ _)
  | release known => exact grows_release s _ _
  | @spawned k cr known phase =>
      have live : Grows s (s.setChild k .live) := .congr rfl rfl fun _ => rfl
      exact live.setPhase known (by simp [phase, CreationPhase.entered])
  | @aborted k cr error known phase =>
      have closed : Grows s (s.setChild k .closed) := .congr rfl rfl fun _ => rfl
      exact closed.setPhase known (by simp [phase, CreationPhase.entered])
  | spawnFailed known phase | attachFailed known phase | abortFailed known phase =>
      exact (Grows.refl s).setPhase known (by simp [phase, CreationPhase.entered])
  | attached known phase => exact grows_insertEntry known (by simp [phase, CreationPhase.entered])
  | @finished k cr known phase =>
      have freed : Grows s { s with
          inflight := s.inflight.delete cr.conversation.id
          pendingCreations := s.pendingCreations - 1 } := .congr rfl rfl fun _ => rfl
      exact freed.setPhase known fun _ => rfl
  | @finishedFailing k cr error known phase =>
      have freed : Grows s { s with
          inflight := s.inflight.delete cr.conversation.id
          pendingCreations := s.pendingCreations - 1 } := .congr rfl rfl fun _ => rfl
      exact freed.setPhase known (by simp [phase, CreationPhase.entered])
  | @resumed k rest cr mem =>
      have erased : Grows s { s with continuations := s.continuations.erase (k, rest) } :=
        .congr rfl rfl fun _ => rfl
      rcases resume_cases { s with continuations := s.continuations.erase (k, rest) } k rest with
        moves | ⟨-, moves⟩
      · exact erased.moves moves
      · exact (erased.trans (grows_grant _ rest.caller k)).moves moves
  | @resumedRejected k rest cr error mem =>
      have erased : Grows s { s with continuations := s.continuations.erase (k, rest) } :=
        .congr rfl rfl fun _ => rfl
      exact erased.moves (resumeRejected_moves _ _ _)
  | @tornDown purpose id c result mem => cases result <;> exact .congr rfl rfl fun _ => rfl
  | @evicted purpose id c result mem =>
      cases result with
      | closeFailed error =>
          exact (grows_setEntry s c (fun e => { e with inUse := false, idleTimer := false })
            fun _ => rfl).trans (.congr rfl rfl fun _ => rfl)
      | childClosed | releaseFailed error => exact .congr rfl rfl fun _ => rfl
  | @returned purpose id c outcome mem =>
      have erased : Grows s { s with tasks := s.tasks.erase (.evict purpose id c
        (.returned outcome)) } := .congr rfl rfl fun _ => rfl
      exact erased.trans (grows_evictReturned _ _ _ _ _)
  | @acquireEvicted w parent outcome mem =>
      have erased : Grows s { s with tasks := s.tasks.erase (.decided (.acquire w parent)
        outcome) } := .congr rfl rfl fun _ => rfl
      rcases acquireEvicted_cases { s with tasks := s.tasks.erase _ } w parent outcome with
        move | ⟨-, created⟩
      · exact erased.trans (grows_move move)
      · rw [created]
        exact erased.trans (grows_createEntry _ _ _ _)
  | @drainEvicted outcome mem =>
      have erased : Grows s { s with tasks := s.tasks.erase (.decided .drain outcome) } :=
        .congr rfl rfl fun _ => rfl
      exact erased.moves (tryEvictForDrain_moves _ _)
  | drainTail mem => exact Grows.drainWaiters (.congr rfl rfl fun _ => rfl)
  | @idleTimer c armed =>
      exact (grows_setEntry s c (fun e => { e with idleTimer := false }) fun _ => rfl).moves
        (sweepIdle_moves s c)
  | retireChild conversation c =>
      unfold PoolManager.retireChild
      split
      · exact (grows_setEntry s c (fun e => { e with retiring := true, inUse := false })
          fun _ => rfl).trans ((grows_setEntry _ c (fun e => { e with idleTimer := false })
            fun _ => rfl).trans (.congr rfl rfl fun _ => rfl))
      · exact .refl s
  | @exit c cr known alive =>
      have exited : Grows s (s.setChild c .exited) := .congr rfl rfl fun _ => rfl
      unfold PoolManager.forgetExitedChild
      split
      · refine Grows.drainWaiters ?_
        exact exited.trans ((grows_setEntry _ c (fun e => { e with idleTimer := false })
          fun _ => rfl).trans (.congr rfl rfl fun _ => rfl))
      · exact exited

end Grows

end PoolManager

end OmpBundler.Core
