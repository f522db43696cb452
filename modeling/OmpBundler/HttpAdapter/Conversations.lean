import OmpBundler.HttpAdapter.Settlement

/-!
The invariants of the HTTP adapter, over every order of requests, answers of
the core, events, timers, clients who go away and `close`.

`close` forgets the conversations and the ids, while requests that are being
posted still wait for the core. So two requests of one conversation may be
posted at once after it, though no turn begins any more; and the ids are
those that have been remembered since.
-/

namespace OmpBundler.HttpAdapter

open Library

namespace HttpAgentAdapter

variable {s t : HttpAgentAdapter} {spared : ℕ → Prop} {n i : ℕ} {r : Request}

/-! ### The ids of recent events -/

/-- The last ids of a list, as many as the adapter remembers. -/
def lastIds (l : List String) : List String := l.drop (l.length - recentEventLimit)

theorem lastIds_nil : lastIds [] = [] := List.drop_nil

theorem lastIds_concat (l : List String) (id : String) : lastIds (l ++ [id]) =
    if (lastIds l ++ [id]).length > recentEventLimit then (lastIds l ++ [id]).tail
    else lastIds l ++ [id] := by
  have length : (lastIds l ++ [id]).length = min l.length recentEventLimit + 1 := by
    rw [List.length_append, lastIds, List.length_drop, List.length_singleton]
    omega
  rw [length]
  split_ifs with full
  · have more : l.length + 1 - recentEventLimit = l.length - recentEventLimit + 1 := by omega
    rw [lastIds, List.length_append, List.length_singleton, more, ← List.drop_drop, List.drop_one,
      List.drop_append_of_le_length (Nat.sub_le _ _), lastIds]
  · have all : l.length + 1 - recentEventLimit = 0 := by omega
    have all' : l.length - recentEventLimit = 0 := by omega
    rw [lastIds, List.length_append, List.length_singleton, all, lastIds, all', List.drop_zero,
      List.drop_zero]

/-- The order of the ids and their set agree with what has been remembered. -/
structure Remembers (s : HttpAgentAdapter) : Prop where
  order : s.recentEventOrder = lastIds s.rememberedSince
  distinct : s.recentEventOrder.Nodup
  members : ∀ id, id ∈ s.recentEventIds ↔ id ∈ s.recentEventOrder

theorem Remembers.of_sameIds (remembers : s.Remembers) (same : SameIds s t) : t.Remembers :=
  ⟨by rw [same.order, same.since, remembers.order], same.order ▸ remembers.distinct,
    fun id => by rw [same.ids, same.order, remembers.members]⟩

theorem Remembers.rememberEvent (remembers : s.Remembers) {id : String}
    (new : id ∉ s.recentEventIds) : (s.rememberEvent id).Remembers := by
  have apart : (s.recentEventOrder ++ [id]).Nodup := by
    refine List.Nodup.append remembers.distinct (List.nodup_singleton id) ?_
    rw [List.disjoint_singleton, ← remembers.members]
    exact new
  have ids : ∀ d, d ∈ s.recentEventIds ++ [id] ↔ d ∈ s.recentEventOrder ++ [id] := by
    intro d
    rw [List.mem_append, List.mem_append, remembers.members]
  have next := lastIds_concat s.rememberedSince id
  rw [← remembers.order] at next
  simp only [HttpAgentAdapter.rememberEvent, if_neg new]
  by_cases full : (s.recentEventOrder ++ [id]).length > recentEventLimit
  · simp only [full, decide_true, if_true]
    rw [if_pos full] at next
    refine ⟨next.symm, apart.sublist (List.tail_sublist _), fun d => ?_⟩
    cases order : s.recentEventOrder ++ [id] with
    | nil => simp at order
    | cons first rest =>
      rw [order] at ids apart
      have first' : first ∉ rest := (List.nodup_cons.mp apart).1
      show d ∈ (s.recentEventIds ++ [id]).filter _ ↔ d ∈ rest
      rw [List.mem_filter, ids, List.mem_cons, List.head?_cons]
      simp only [ne_eq, Option.some.injEq, decide_not, Bool.not_eq_true', decide_eq_false_iff_not]
      constructor
      · rintro ⟨rfl | later, other⟩
        · exact absurd rfl other
        · exact later
      · intro later
        exact ⟨Or.inr later, fun same => first' (same ▸ later)⟩
  · simp only [full, decide_false, Bool.false_eq_true, if_false]
    rw [if_neg full] at next
    exact ⟨next.symm, apart, ids⟩

/-! ### The conversations -/

/-- The conversations that are kept from others are those of the requests
that are not done, one for each. -/
structure Locked (s : HttpAgentAdapter) : Prop where
  once : s.inFlightConversations.Nodup
  held : ∀ i conversation, s.holderOf i = some conversation →
    conversation ∈ s.inFlightConversations
  unique : ∀ i j conversation, s.holderOf i = some conversation →
    s.holderOf j = some conversation → i = j
  needed : ∀ conversation ∈ s.inFlightConversations, ∃ i, s.holderOf i = some conversation

theorem Locked.of_kept (locked : s.Locked) (kept : Kept s t spared) : t.Locked where
  once := by rw [kept.locks]; exact locked.once
  held i conversation := by rw [kept.holders, kept.locks]; exact locked.held i conversation
  unique i j conversation := by rw [kept.holders, kept.holders]; exact locked.unique i j conversation
  needed conversation := by
    rw [kept.locks]
    intro held
    obtain ⟨i, holder⟩ := locked.needed conversation held
    exact ⟨i, by rw [kept.holders, holder]⟩

/-- A request is done, and its conversation is given back. -/
theorem Locked.conclude (locked : s.Locked) (holder : s.holderOf i = some r.conversation) :
    (s.conclude i r).Locked := by
  have holders : ∀ j, (s.conclude i r).holderOf j = if j = i then none else s.holderOf j :=
    holderOf_setRequest s i (r.setStage .done)
  have others : ∀ j conversation, (s.conclude i r).holderOf j = some conversation →
      s.holderOf j = some conversation ∧ conversation ≠ r.conversation := by
    intro j conversation there
    rw [holders] at there
    split_ifs at there with here
    refine ⟨there, ?_⟩
    rintro rfl
    exact here (locked.unique j i _ there holder)
  refine ⟨locked.once.erase _, fun j conversation there => ?_, fun j k conversation left right => ?_,
    fun conversation there => ?_⟩
  · obtain ⟨before, other⟩ := others j conversation there
    exact (List.mem_erase_of_ne other).mpr (locked.held j conversation before)
  · exact locked.unique j k conversation (others j conversation left).1
      (others k conversation right).1
  · obtain ⟨other, before⟩ := locked.once.mem_erase_iff.mp there
    obtain ⟨j, there'⟩ := locked.needed conversation before
    refine ⟨j, ?_⟩
    have here : j ≠ i := by
      rintro rfl
      exact other (Option.some.inj (there'.symm.trans holder))
    rw [holders, if_neg here]
    exact there'

theorem holderOf_addRequest (s : HttpAgentAdapter) (r : Request) (j : ℕ) :
    (s.addRequest r).holderOf j = if j = s.nextRequest then r.holder else s.holderOf j :=
  holderOf_setRequest s s.nextRequest r j

theorem Sound.holderOf_new (sound : s.Sound spared) : s.holderOf s.nextRequest = none := by
  rw [holderOf, sound.old _ le_rfl]
  rfl

/-- A request that has been refused. -/
theorem Locked.refuse (locked : s.Locked) (sound : s.Sound spared) (done : r.stage = .done) :
    (s.addRequest r).Locked := by
  have holders : ∀ j, (s.addRequest r).holderOf j = s.holderOf j := by
    intro j
    rw [holderOf_addRequest]
    split_ifs with here
    · rw [here, sound.holderOf_new, Request.holder, if_pos done]
    · rfl
  exact ⟨locked.once, fun j c => by rw [holders]; exact locked.held j c,
    fun j k c => by rw [holders, holders]; exact locked.unique j k c,
    fun c there => by
      obtain ⟨j, held⟩ := locked.needed c there
      exact ⟨j, by rw [holders, held]⟩⟩

/-- A request takes a conversation that is free. -/
theorem Locked.take (locked : s.Locked) (sound : s.Sound spared)
    (holder : r.holder = some r.conversation) (free : r.conversation ∉ s.inFlightConversations) :
    Locked { s.addRequest r with
      inFlightConversations := s.inFlightConversations ++ [r.conversation] } := by
  have holders : ∀ j, holderOf { s.addRequest r with
      inFlightConversations := s.inFlightConversations ++ [r.conversation] } j =
        if j = s.nextRequest then some r.conversation else s.holderOf j := by
    intro j
    rw [← holder]
    exact holderOf_addRequest s r j
  have taken : ∀ {j c}, s.holderOf j = some c → c ≠ r.conversation := by
    rintro j c there rfl
    exact free (locked.held j _ there)
  refine ⟨?_, fun j c there => ?_, fun j k c left right => ?_, fun c there => ?_⟩
  · exact locked.once.append (List.nodup_singleton _) (List.disjoint_singleton.mpr free)
  · rw [holders] at there
    split_ifs at there with here
    · exact List.mem_append_right _ (List.mem_singleton.mpr (Option.some.inj there).symm)
    · exact List.mem_append_left _ (locked.held j c there)
  · rw [holders] at left right
    split_ifs at left right with here here' here'
    · rw [here, here']
    · exact absurd (Option.some.inj left).symm (taken right)
    · exact absurd (Option.some.inj right).symm (taken left)
    · exact locked.unique j k c left right
  · rcases List.mem_append.mp there with before | new
    · obtain ⟨j, held⟩ := locked.needed c before
      refine ⟨j, ?_⟩
      have here : j ≠ s.nextRequest := by
        rintro rfl
        rw [sound.holderOf_new] at held
        cases held
      rw [holders, if_neg here, held]
    · obtain rfl := List.mem_singleton.mp new
      exact ⟨s.nextRequest, by rw [holders, if_pos rfl]⟩

/-! ### Requests come and go -/

theorem Sound.addRequest (sound : s.Sound spared) (settled : ∀ n, r.stage ≠ .awaiting n)
    (quiet : r.Quiet) : (s.addRequest r).Sound spared := by
  refine ⟨sound.map, sound.timers, fun m a there => ?_, fun j r m request stage => ?_,
    fun j r request other => ?_, fun j later => ?_⟩
  · obtain ⟨mapped, r₀, request₀, stage₀, awaits₀⟩ := sound.turns m a there
    have here : a.request ≠ s.nextRequest := by
      intro same
      rw [same, sound.old _ le_rfl] at request₀
      cases request₀
    exact ⟨mapped, r₀, by simpa [HttpAgentAdapter.addRequest, here] using request₀, stage₀, awaits₀⟩
  · by_cases here : j = s.nextRequest
    · subst here
      obtain rfl : _ = r := by simpa [HttpAgentAdapter.addRequest] using request
      exact absurd stage (settled m)
    · exact sound.waits j r m (by simpa [HttpAgentAdapter.addRequest, here] using request) stage
  · by_cases here : j = s.nextRequest
    · subst here
      obtain rfl : _ = r := by simpa [HttpAgentAdapter.addRequest] using request
      exact quiet
    · exact sound.quiet j r (by simpa [HttpAgentAdapter.addRequest, here] using request) other
  · have here : j ≠ s.nextRequest := by
      rintro rfl
      exact absurd later (by simp [HttpAgentAdapter.addRequest])
    simpa [HttpAgentAdapter.addRequest, here] using
      sound.old j (Nat.le_of_succ_le later)

theorem opened_blank (q : PublicRequest) : q.opened.Blank := ⟨rfl, rfl, rfl, rfl⟩

/-- A request that is refused has been answered. -/
theorem refused_quiet (q : PublicRequest) (status : ℕ) (message : String) :
    ((q.opened.sendJson status (.error message)).setStage .done).Quiet :=
  ⟨nofun, (opened_blank q).sendJson status (.error message)⟩

/-- What holds whenever no handler runs. -/
structure Inv (s : HttpAgentAdapter) : Prop where
  sound : s.Sound fun _ => False
  locked : s.closing = false → s.Locked
  still : s.closing = true → ∀ n, (s.objects n).active = none
  ids : s.Remembers

theorem Inv.of_kept (inv : s.Inv) (kept : Kept s t fun _ => False) : t.Inv where
  sound := kept.sound
  locked running := (inv.locked (kept.same.closing.symm.trans running)).of_kept kept
  still closing n :=
    kept.idle (kept.same.closing.symm.trans closing) n
      (inv.still (kept.same.closing.symm.trans closing) n)
  ids := inv.ids.of_sameIds kept.same

theorem Inv.handleMessage (inv : s.Inv) (config : HttpAdapterConfig) (q : PublicRequest) :
    (s.handleMessage config q).Inv := by
  have refuse : ∀ status message, (s.addRequest
      ((q.opened.sendJson status (.error message)).setStage .done)).Inv := fun status message =>
    { sound := inv.sound.addRequest (fun _ => by simp [Request.setStage])
        (refused_quiet q status message)
      locked := fun running => (inv.locked running).refuse inv.sound rfl
      still := inv.still
      ids := inv.ids.of_sameIds ⟨rfl, rfl, rfl, rfl, rfl⟩ }
  unfold HttpAgentAdapter.handleMessage
  cases refusal config q with
  | some refused => exact refuse refused.1 refused.2
  | none =>
    simp only []
    split_ifs with taken
    · exact refuse 409 _
    · have sound := inv.sound.addRequest (r := q.opened) (fun _ => by simp [PublicRequest.opened])
        ⟨opened_blank q, rfl⟩
      exact
        { sound := ⟨sound.map, sound.timers, sound.turns, sound.waits, sound.quiet, sound.old⟩
          locked := fun running => (inv.locked running).take inv.sound rfl taken
          still := inv.still
          ids := inv.ids.of_sameIds ⟨rfl, rfl, rfl, rfl, rfl⟩ }

/-- The handler of a request returns. -/
theorem Inv.conclude (inv : s.Inv) (request : s.requests i = some r)
    (settled : ∀ n, r.stage ≠ .awaiting n) (undone : r.stage ≠ .done) {r' : Request}
    (conversation : r'.conversation = r.conversation) (deaf : r'.Deaf) (answered : r'.Answered) :
    (s.conclude i r').Inv := by
  have holder : s.holderOf i = some r'.conversation := by
    rw [holderOf, request, Option.bind_some, Request.holder, if_neg undone, conversation]
  have quiet : (r'.setStage .done).Quiet := ⟨deaf, answered⟩
  have sound := inv.sound.requiet request settled (by simp [Request.setStage]) quiet
  exact
    { sound := ⟨sound.map, sound.timers, sound.turns, sound.waits, sound.quiet, sound.old⟩
      locked := fun running => (inv.locked running).conclude holder
      still := inv.still
      ids := inv.ids.of_sameIds ⟨rfl, rfl, rfl, rfl, rfl⟩ }

theorem Inv.reject (inv : s.Inv) (request : s.requests i = some r)
    (settled : ∀ n, r.stage ≠ .awaiting n) (undone : r.stage ≠ .done) (status : ℕ)
    (message : String)
    (answered : (if r.res.destroyed ∨ r.res.headersSent then r
      else r.sendJson status (.error message)).Answered) : (s.reject i r status message).Inv := by
  have deaf := (inv.sound.quiet i r request settled).deaf
  refine inv.conclude request settled undone ?_ ?_ answered
  · split_ifs <;> rfl
  · split_ifs
    · exact deaf
    · exact deaf

theorem Inv.reject_posting (inv : s.Inv) (request : s.requests i = some r)
    (posting : r.stage = .posting) (status : ℕ) (message : String) :
    (s.reject i r status message).Inv := by
  have quiet := inv.sound.quiet i r request (by simp [posting])
  exact inv.reject request (by simp [posting]) (by simp [posting]) status message
    ((quiet.blank posting).1.answered_reject status message)

theorem Inv.answered (inv : s.Inv) {c : String} (accepted : s.answered i c = some t) : t.Inv := by
  unfold HttpAgentAdapter.answered at accepted
  cases request : s.requests i with
  | none => simp [request] at accepted
  | some r =>
    simp only [request] at accepted
    split_ifs at accepted with posting closing
    · obtain rfl := Option.some.inj accepted
      exact inv.reject_posting request posting _ _
    · cases begun : s.beginTurn c i r with
      | none =>
        rw [begun] at accepted
        obtain rfl := Option.some.inj accepted
        exact inv.reject_posting request posting _ _
      | some u =>
        rw [begun] at accepted
        obtain rfl := Option.some.inj accepted
        exact inv.of_kept ((Kept.refl inv.sound).beginTurn ((Bool.not_eq_true _).mp closing)
          request posting begun)

theorem Inv.failed (inv : s.Inv) {message : String} (failed : s.failed i message = some t) :
    t.Inv := by
  unfold HttpAgentAdapter.failed at failed
  cases request : s.requests i with
  | none => simp [request] at failed
  | some r =>
    simp only [request] at failed
    split_ifs at failed with posting
    obtain rfl := Option.some.inj failed
    exact inv.reject_posting request posting _ _

theorem Inv.settle (inv : s.Inv) (settles : s.settle i = some t) : t.Inv := by
  unfold HttpAgentAdapter.settle at settles
  cases request : s.requests i with
  | none => simp [request] at settles
  | some r =>
    simp only [request] at settles
    cases stage : r.stage <;> simp only [stage] at settles
    case posting => cases settles
    case awaiting => cases settles
    case done => cases settles
    case resolved c e =>
      obtain rfl := Option.some.inj settles
      have ended' := (inv.sound.quiet i r request (by simp [stage])).toOver (by simp [stage])
        (by simp [stage])
      refine inv.conclude request (by simp [stage]) (by simp [stage]) ?_ ?_ ?_
      · split_ifs <;> rfl
      · split_ifs <;> exact ended'.deaf
      · split_ifs with asked
        · exact ended'.answered_stream asked
        · exact (ended'.plain ((Bool.not_eq_true _).mp asked)).sendJson _ _
    case rejected status message =>
      obtain rfl := Option.some.inj settles
      have ended' := (inv.sound.quiet i r request (by simp [stage])).toOver (by simp [stage])
        (by simp [stage])
      exact inv.reject request (by simp [stage]) (by simp [stage]) status message
        (ended'.answered_reject status message)

theorem Inv.handleCoreEvent (inv : s.Inv) (e : OutboundEvent) (bytes : ℕ) :
    (s.handleCoreEvent e bytes).Inv := by
  unfold HttpAgentAdapter.handleCoreEvent
  split_ifs with wellFormed known
  · exact inv
  · have accepted := inv.of_kept ((Kept.refl inv.sound).acceptEvent e bytes)
    have same := (SameIds.refl s).acceptEvent e bytes
    have sound := accepted.sound
    refine
      { sound := ⟨sound.map, sound.timers, sound.turns, sound.waits, sound.quiet, sound.old⟩
        locked := fun running => ?_
        still := accepted.still
        ids := accepted.ids.rememberEvent (by rw [same.ids]; exact known) }
    have locked := accepted.locked running
    exact ⟨locked.once, locked.held, locked.unique, locked.needed⟩
  · exact inv

/-! ### The end -/

theorem foldl_shutTracker_active (s : HttpAgentAdapter) (l : List ℕ) (m : ℕ) :
    ((l.foldl shutTracker s).objects m).active =
      if m ∈ l then none else (s.objects m).active := by
  induction l generalizing s with
  | nil => simp
  | cons n l ih =>
    rw [List.foldl_cons, ih, shutTracker_active]
    by_cases here : m = n <;> simp [here]

theorem Kept.foldl_shutTracker (kept : Kept s t fun _ => True) (l : List ℕ) :
    Kept s (l.foldl HttpAgentAdapter.shutTracker t) fun _ => True := by
  induction l generalizing t with
  | nil => exact kept
  | cons n l ih => exact ih (kept.shutTracker n)

/-- No turn goes on when every tracker in the map has been shut. -/
theorem Sound.all_shut (sound : s.Sound spared) (m : ℕ) :
    ((s.mapped.foldl shutTracker { s with closing := true }).objects m).active = none := by
  rw [foldl_shutTracker_active]
  split_ifs with there
  · rfl
  · cases active : (s.objects m).active with
    | none => rfl
    | some a =>
      obtain ⟨mapped, -⟩ := sound.turns m a active
      refine absurd (List.mem_filter.mpr ⟨?_, by simpa using mapped⟩) there
      exact List.mem_range.mpr (sound.mapped_of_active active)

theorem Inv.close (inv : s.Inv) : s.close.Inv := by
  rw [HttpAgentAdapter.close]
  split_ifs with closing
  · exact inv
  · have start : Sound { s with closing := true } fun _ => True := by
      have sound := inv.sound
      exact ⟨sound.map, fun _ _ _ strict => absurd trivial strict, sound.turns, sound.waits,
        sound.quiet, sound.old⟩
    have kept := (Kept.refl start).foldl_shutTracker s.mapped
    have idle := inv.sound.all_shut
    refine
      { sound := ⟨nofun, nofun, fun m a there => ?_, fun i r m request stage => ?_,
          kept.sound.quiet, kept.sound.old⟩
        locked := fun running => ?_
        still := fun _ => idle
        ids := ⟨lastIds_nil.symm, List.nodup_nil, fun _ => Iff.rfl⟩ }
    · exact absurd ((idle m).symm.trans there) (by simp)
    · obtain ⟨a, there, -⟩ := kept.sound.waits i r m request stage
      exact absurd ((idle m).symm.trans there) (by simp)
    · exact absurd (kept.same.closing.symm.trans running) (by simp)

/-! ### Every run -/

variable {config : HttpAdapterConfig}

theorem inv_fresh : fresh.Inv where
  sound := ⟨nofun, nofun, nofun, fun _ _ _ request => absurd request (Option.some_ne_none _).symm,
    fun _ _ request => absurd request (Option.some_ne_none _).symm, fun _ _ => rfl⟩
  locked _ := ⟨List.nodup_nil, nofun, nofun, nofun⟩
  still _ _ := rfl
  ids := ⟨lastIds_nil.symm, List.nodup_nil, fun _ => Iff.rfl⟩

theorem Inv.step (inv : s.Inv) {a : Action} (taken : (machine config).step s a = some t) :
    t.Inv := by
  have kept := Kept.refl inv.sound
  cases a with
  | request q => exact Option.some.inj taken ▸ inv.handleMessage config q
  | answered i c => exact inv.answered taken
  | failed i message => exact inv.failed taken
  | settle i => exact inv.settle taken
  | event e bytes => exact Option.some.inj taken ▸ inv.handleCoreEvent e bytes
  | turnTimedOut n => exact inv.of_kept (kept.turnTimedOut taken)
  | expired n => exact inv.of_kept (kept.expired taken)
  | disconnect i => exact Option.some.inj taken ▸ inv.of_kept (kept.disconnect i)
  | closeEmitted i => exact inv.of_kept (kept.closeEmitted taken)
  | close => exact Option.some.inj taken ▸ inv.close

theorem inv_of_reachable (reach : (machine config).Reachable Transition.Always s) : s.Inv := by
  refine reach.invariant ?_ fun s a t inv _ taken => inv.step taken
  rintro s rfl
  exact inv_fresh

/-! ### A request can always settle -/

/-- What ends a request by itself: the request to the core fails, or the
timer of the turn fires, and the handler goes on. -/
def ownSteps (i : ℕ) : Stage → List Action
  | .posting => [.failed i "core request failed"]
  | .awaiting n => [.turnTimedOut n, .settle i]
  | .resolved _ _ | .rejected _ _ => [.settle i]
  | .done => []

/-- The request is done after these steps. -/
def DoneAfter (config : HttpAdapterConfig) (s : HttpAgentAdapter) (i : ℕ) (as : List Action) :
    Prop :=
  ∃ t r, (machine config).exec Transition.Always s as = some t ∧ t.requests i = some r ∧
    r.stage = .done

theorem conclude_done (s : HttpAgentAdapter) (i : ℕ) (r : Request) :
    (s.conclude i r).requests i = some (r.setStage .done) := by
  simp [HttpAgentAdapter.conclude]

/-- When a turn fails, its promise is rejected. -/
theorem failTurn_rejects {a : ActiveTurn} (there : (s.objects n).active = some a)
    (request : s.requests a.request = some r) (status : ℕ) (message : String) :
    ∃ r', (s.failTurn n status message false).requests a.request = some r' ∧
      r'.stage = .rejected status message := by
  simp only [HttpAgentAdapter.failTurn, there, endTurn, updateRequest, removeTracker_requests,
    setTracker_requests, request, setRequest_requests, Function.update_self]
  exact ⟨_, rfl, rfl⟩

theorem Inv.times_out (inv : s.Inv) (request : s.requests i = some r)
    (stage : r.stage = .awaiting n) : ∃ t r', s.turnTimedOut n = some t ∧
      t.requests i = some r' ∧ r'.stage = .rejected 504 "agent turn timed out" := by
  obtain ⟨a, there, rfl⟩ := inv.sound.waits i r n request stage
  have armed := inv.sound.timers _ n (inv.sound.turns n a there).1 not_false
  rw [there] at armed
  have fires : s.turnTimedOut n = some ((s.setTracker n
      { s.objects n with turnTimer := false }).failTurn n 504 "agent turn timed out" false) :=
    if_pos armed
  obtain ⟨r', request', stage'⟩ := failTurn_rejects (n := n) (s := s.setTracker n
      { s.objects n with turnTimer := false }) (a := a) (by simpa using there) request 504
    "agent turn timed out"
  exact ⟨_, r', fires, request', stage'⟩

theorem settle_done (request : s.requests i = some r) (posted : r.stage ≠ .posting)
    (settled : ∀ n, r.stage ≠ .awaiting n) (undone : r.stage ≠ .done) :
    ∃ t r', s.settle i = some t ∧ t.requests i = some r' ∧ r'.stage = .done := by
  cases stage : r.stage with
  | posting => exact absurd stage posted
  | awaiting n => exact absurd stage (settled n)
  | done => exact absurd stage undone
  | resolved c e =>
    simp only [HttpAgentAdapter.settle, request, stage]
    exact ⟨_, _, rfl, conclude_done _ _ _, rfl⟩
  | rejected status message =>
    simp only [HttpAgentAdapter.settle, request, stage]
    exact ⟨_, _, rfl, conclude_done _ _ _, rfl⟩

theorem Inv.doneAfter (inv : s.Inv) (config : HttpAdapterConfig) (request : s.requests i = some r) :
    DoneAfter config s i (ownSteps i r.stage) := by
  have one : ∀ {t : HttpAgentAdapter} {a : Action}, (machine config).step s a = some t →
      (machine config).exec Transition.Always s [a] = some t := by
    intro t a taken
    simp [Transition.Machine.exec, Transition.Always, taken]
  cases stage : r.stage with
  | posting =>
    have failed : (machine config).step s (.failed i "core request failed") =
        some (s.reject i r 502 "core request failed") := by
      show s.failed i _ = _
      simp [HttpAgentAdapter.failed, request, stage]
    exact ⟨_, _, one failed, conclude_done _ _ _, rfl⟩
  | awaiting n =>
    obtain ⟨t, r', fires, request', stage'⟩ := inv.times_out request stage
    obtain ⟨u, r'', settles, request'', done⟩ := settle_done request' (by simp [stage'])
      (by simp [stage']) (by simp [stage'])
    refine ⟨u, r'', ?_, request'', done⟩
    have first : (machine config).step s (.turnTimedOut n) = some t := fires
    have second : (machine config).step t (.settle i) = some u := settles
    simp [ownSteps, Transition.Machine.exec, Transition.Always, first, second]
  | resolved c e =>
    obtain ⟨t, r', settles, request', done⟩ := settle_done request (by simp [stage])
      (by simp [stage]) (by simp [stage])
    exact ⟨t, r', one settles, request', done⟩
  | rejected status message =>
    obtain ⟨t, r', settles, request', done⟩ := settle_done request (by simp [stage])
      (by simp [stage]) (by simp [stage])
    exact ⟨t, r', one settles, request', done⟩
  | done => exact ⟨s, r, rfl, request, stage⟩

/-! ### What a client and the core can rely on -/

/-- At most one turn of a conversation is in flight. -/
def OneTurn (s : HttpAgentAdapter) : Prop :=
  ∀ i j conversation, s.holderOf i = some conversation → s.holderOf j = some conversation → i = j

/-- Every tracker in the map has a timer that ends it. -/
def Armed (s : HttpAgentAdapter) : Prop :=
  ∀ c n, s.trackers c = some n →
    (s.objects n).active.isSome ∧ (s.objects n).turnTimer = true ∨
      (s.objects n).active = none ∧ (s.objects n).expiryTimer = true

/-- No request is answered twice, and one that is done has been answered or
its connection is destroyed. -/
def Settled (s : HttpAgentAdapter) : Prop :=
  ∀ i r, s.requests i = some r → r.answers ≤ 1 ∧ (r.stage = .done → r.Answered)

/-- The ids are the last ones of the list. -/
def Recent (s : HttpAgentAdapter) (remembered : List String) : Prop :=
  ∀ id, id ∈ s.recentEventIds ↔ id ∈ lastIds remembered

theorem Sound.armed (sound : s.Sound fun _ => False) : s.Armed := by
  intro c n there
  have timer := sound.timers c n there not_false
  cases active : (s.objects n).active with
  | none =>
    rw [active] at timer
    exact Or.inr ⟨rfl, by simpa using timer⟩
  | some a =>
    rw [active] at timer
    exact Or.inl ⟨rfl, by simpa using timer⟩

theorem Sound.settled (sound : s.Sound spared) : s.Settled := by
  intro i r request
  cases stage : r.stage with
  | awaiting n =>
    obtain ⟨a, there, rfl⟩ := sound.waits i r n request stage
    obtain ⟨r', request', -, awaits, -⟩ := sound.request_of_turn there
    obtain rfl : r = r' := Option.some.inj (request.symm.trans request')
    exact ⟨by simp [Request.answers, awaits.json, awaits.terminals], by simp⟩
  | posting =>
    have quiet := sound.quiet i r request (by simp [stage])
    exact ⟨by rw [(quiet.blank stage).1.answers]; omega, by simp⟩
  | resolved c e =>
    exact ⟨((sound.quiet i r request (by simp [stage])).toOver (by simp [stage])
      (by simp [stage])).answers_le, by simp⟩
  | rejected status message =>
    exact ⟨((sound.quiet i r request (by simp [stage])).toOver (by simp [stage])
      (by simp [stage])).answers_le, by simp⟩
  | done =>
    have quiet := sound.quiet i r request (by simp [stage])
    unfold Request.Quiet at quiet
    rw [stage] at quiet
    refine ⟨?_, fun _ => quiet.2⟩
    rcases quiet.2 with one | ⟨most, -⟩
    · exact one.le
    · exact most

/-- In every state: one turn for each conversation until `close`, no turn
after it, a timer for each tracker, one answer for each request, which it
can always get to by itself, and the ids that have been remembered last. -/
theorem turns_settle (config : HttpAdapterConfig) (s : HttpAgentAdapter)
    (reach : (machine config).Reachable Transition.Always s) :
    (s.closing = false → s.OneTurn) ∧
      (s.closing = true → ∀ n, (s.objects n).active = none) ∧
      s.Armed ∧ s.Settled ∧
      (∀ i r, s.requests i = some r → DoneAfter config s i (ownSteps i r.stage)) ∧
      s.Recent s.rememberedSince := by
  have inv := inv_of_reachable reach
  refine ⟨fun running => (inv.locked running).unique, inv.still, inv.sound.armed,
    inv.sound.settled, fun i r request => inv.doneAfter config request, fun id => ?_⟩
  rw [inv.ids.members, inv.ids.order]

/-- A conversation is kept from others only while a request needs it. -/
theorem conversation_needed (reach : (machine config).Reachable Transition.Always s)
    (running : s.closing = false) : ∀ conversation ∈ s.inFlightConversations,
      ∃ i, s.holderOf i = some conversation :=
  ((inv_of_reachable reach).locked running).needed

/-! ### What `close` forgets -/

def localConfig : HttpAdapterConfig := ⟨none, ["local"]⟩

def helloRequest : PublicRequest where
  authorization := none
  agentId := "local"
  conversationKey := "k"
  isJson := true
  body := .message "hello"
  streamRequested := false
  gone := false
  takes _ := true
  ends := true

/-- A request, an event, `close`, and a request whose body was being read. -/
def closedEarly : List Action :=
  [.request helloRequest, .event ⟨"e1", "k", "c", 1, .turnStarted⟩ 90, .close,
    .request helloRequest]

theorem closedEarly_run :
    ((machine localConfig).exec Transition.Always fresh closedEarly).map
        (fun s => ((s.holderOf 0, s.holderOf 1), s.recentEventIds, s.remembered)) =
      some ((some ("local", "k"), some ("local", "k")), [], ["e1"]) := by
  decide +kernel

/-- Two requests of a conversation are posted at once, and an id that has
been remembered is not there. -/
theorem close_forgets : ∃ s, (machine localConfig).Reachable Transition.Always s ∧
    ¬ s.OneTurn ∧ ¬ s.Recent s.remembered := by
  obtain ⟨s, run, seen⟩ := Option.map_eq_some_iff.mp closedEarly_run
  obtain ⟨holders, ids⟩ := Prod.mk.inj seen
  obtain ⟨first, second⟩ := Prod.mk.inj holders
  obtain ⟨none, remembered⟩ := Prod.mk.inj ids
  refine ⟨s, .of_exec rfl run, fun one => ?_, fun recent => ?_⟩
  · exact absurd (one 0 1 _ first second) (by omega)
  · have lost := (recent "e1").mpr (by rw [remembered]; decide)
    rw [none] at lost
    cases lost

theorem close_settles : ∃ s, (machine localConfig).Reachable Transition.Always s ∧
    s.remembered = ["e1"] ∧ s.Armed ∧ s.Settled ∧ s.Recent s.rememberedSince := by
  obtain ⟨s, run, seen⟩ := Option.map_eq_some_iff.mp closedEarly_run
  have reach : (machine localConfig).Reachable Transition.Always s := .of_exec rfl run
  obtain ⟨-, -, armed, settled, -, recent⟩ := turns_settle localConfig s reach
  exact ⟨s, reach, (Prod.mk.inj (Prod.mk.inj seen).2).2, armed, settled, recent⟩

end HttpAgentAdapter

end OmpBundler.HttpAdapter
