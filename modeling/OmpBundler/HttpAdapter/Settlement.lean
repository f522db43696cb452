import Mathlib.Data.List.Nodup
import OmpBundler.HttpAdapter.Server

/-!
Every request is answered once.

The trackers in the map and the requests that wait hang together: a request
waits for a tracker exactly when the tracker's turn is the turn of the
request. Each operation keeps that, and what has been sent to a client
follows from how far the handler of its request is. In between a tracker may
be without a timer: such trackers are spared.
-/

namespace OmpBundler.HttpAdapter

open Library

namespace Request

/-! ### What a client has been sent -/

/-- The terminal frames that have been written. -/
def terminals (r : Request) : ℕ := r.res.frames.countP Frame.isTerminal

/-- Everything that ends a request for its client. -/
def answers (r : Request) : ℕ := r.res.json.length + r.terminals

/-- Nothing has been written. -/
structure Blank (r : Request) : Prop where
  headers : r.res.headersSent = false
  open_ : r.res.ended = false
  frames : r.res.frames = []
  json : r.res.json = []

/-- No stream listens any more. -/
def Deaf (r : Request) : Prop := ∀ sse, r.sse = some sse → sse.closed = true ∧ sse.listening = false

/-- The request waits for a tracker; `stream` is whether its stream is
attached. -/
structure Awaits (r : Request) (n : ℕ) (stream : Bool) : Prop where
  json : r.res.json = []
  terminals : r.terminals = 0
  attached : stream = true →
    r.streamRequested = true ∧ r.sse = some ⟨false, true, n⟩
  detached : stream = false → r.Deaf ∧ (r.streamRequested = true → r.res.destroyed = true)
  plain : r.streamRequested = false → r.Blank

/-- The turn of the request is over, and the handler has not gone on. -/
structure Over (r : Request) : Prop where
  deaf : r.Deaf
  json : r.res.json = []
  stream : r.streamRequested = true →
    r.terminals = 1 ∧ r.res.headersSent = true ∨ r.terminals = 0 ∧ r.res.destroyed = true
  plain : r.streamRequested = false → r.Blank

/-- One answer, or at most one and the connection is destroyed. -/
def Answered (r : Request) : Prop :=
  r.answers = 1 ∨ r.answers ≤ 1 ∧ r.res.destroyed = true

/-- What is known of a request that does not wait. -/
def Quiet (r : Request) : Prop :=
  match r.stage with
  | .posting => r.Blank ∧ r.sse = none
  | .awaiting _ => False
  | .resolved _ _ | .rejected _ _ => r.Over
  | .done => r.Deaf ∧ r.Answered

variable {r : Request} {n : ℕ} {b : Bool}

theorem Blank.answers (blank : r.Blank) : r.answers = 0 := by
  simp [Request.answers, terminals, blank.json, blank.frames]

theorem Quiet.deaf (quiet : r.Quiet) : r.Deaf := by
  unfold Quiet at quiet
  cases stage : r.stage <;> rw [stage] at quiet
  case posting =>
    intro sse there
    rw [quiet.2] at there
    cases there
  case awaiting => exact quiet.elim
  case resolved => exact Over.deaf quiet
  case rejected => exact Over.deaf quiet
  case done => exact quiet.1

theorem Quiet.toOver (quiet : r.Quiet) (posted : r.stage ≠ .posting) (undone : r.stage ≠ .done) :
    r.Over := by
  unfold Quiet at quiet
  cases stage : r.stage <;> rw [stage] at quiet
  case posting => exact absurd stage posted
  case awaiting => exact quiet.elim
  case resolved => exact quiet
  case rejected => exact quiet
  case done => exact absurd stage undone

theorem Quiet.blank (quiet : r.Quiet) (posting : r.stage = .posting) :
    r.Blank ∧ r.sse = none := by
  unfold Quiet at quiet
  rw [posting] at quiet
  exact quiet

/-! ### A client that goes away -/

theorem Blank.destroyIf (blank : r.Blank) (d : Bool) : (r.destroyIf d).Blank :=
  ⟨blank.headers, blank.open_, blank.frames, blank.json⟩

theorem destroyed_destroyIf (d : Bool) (destroyed : r.res.destroyed = true) :
    (r.destroyIf d).res.destroyed = true := by
  simp [Request.destroyIf, destroyed]

theorem Awaits.destroyIf (awaits : r.Awaits n b) (d : Bool) : (r.destroyIf d).Awaits n b where
  json := awaits.json
  terminals := awaits.terminals
  attached := awaits.attached
  detached stream :=
    ⟨(awaits.detached stream).1, fun asked => destroyed_destroyIf d ((awaits.detached stream).2 asked)⟩
  plain asked := (awaits.plain asked).destroyIf d

theorem Over.destroyIf (ended' : r.Over) (d : Bool) : (r.destroyIf d).Over where
  deaf := ended'.deaf
  json := ended'.json
  stream asked := (ended'.stream asked).imp_right fun lost => ⟨lost.1, destroyed_destroyIf d lost.2⟩
  plain asked := (ended'.plain asked).destroyIf d

theorem Quiet.destroyIf (quiet : r.Quiet) (d : Bool) : (r.destroyIf d).Quiet := by
  have stage : (r.destroyIf d).stage = r.stage := rfl
  unfold Quiet at quiet ⊢
  rw [stage]
  cases at_ : r.stage <;> rw [at_] at quiet
  case posting => exact ⟨quiet.1.destroyIf d, quiet.2⟩
  case awaiting => exact quiet
  case resolved => exact Over.destroyIf quiet d
  case rejected => exact Over.destroyIf quiet d
  case done =>
    exact ⟨quiet.1, quiet.2.imp_right fun lost => ⟨lost.1, destroyed_destroyIf d lost.2⟩⟩

/-! ### The stream of a request that waits -/

theorem Awaits.setStage (awaits : r.Awaits n b) (stage : Stage) : (r.setStage stage).Awaits n b :=
  { awaits with
    plain := fun asked => ⟨(awaits.plain asked).headers, (awaits.plain asked).open_,
      (awaits.plain asked).frames, (awaits.plain asked).json⟩ }

theorem deaf_shut (r : Request) (sse : SseResponse) : (r.shut sse).Deaf := by
  intro sse' there
  obtain rfl := Option.some.inj there
  exact ⟨rfl, rfl⟩

/-- A stream that is attached detaches. -/
theorem Awaits.detach (awaits : r.Awaits n true) (d : Bool)
    (lost : d = true ∨ r.res.destroyed = true) :
    (r.detach d).2 = true ∧ (r.detach d).1.Awaits n false ∧
      (r.detach d).1.stage = r.stage ∧ ∃ sse, (r.detach d).1.sse = some sse ∧ sse.tracker = n := by
  obtain ⟨asked, sse⟩ := awaits.attached rfl
  have detached : r.detach d = ((r.shut ⟨false, true, n⟩).destroyIf d, true) := by
    rw [Request.detach, sse]
    rfl
  rw [detached]
  refine ⟨rfl, ?_, rfl, _, rfl, rfl⟩
  exact
    { json := awaits.json
      terminals := awaits.terminals
      attached := nofun
      detached := fun _ => ⟨deaf_shut r ⟨false, true, n⟩, fun _ => by
        rcases lost with rfl | lost <;> simp [Request.destroyIf, Request.shut, *]⟩
      plain := fun plain => absurd (asked.symm.trans plain) (by simp) }

theorem terminals_addFrame (r : Request) (f : Frame) :
    (r.addFrame f).terminals = r.terminals + if f.isTerminal then 1 else 0 := by
  show (r.res.frames ++ [f]).countP Frame.isTerminal = _
  rw [List.countP_append, List.countP_singleton]
  rfl

theorem Awaits.addFrame (awaits : r.Awaits n true) {f : Frame} (light : f.isTerminal = false) :
    (r.addFrame f).Awaits n true where
  json := awaits.json
  terminals := by
    rw [terminals_addFrame, awaits.terminals, light]
    rfl
  attached _ := awaits.attached rfl
  detached := nofun
  plain plain := absurd ((awaits.attached rfl).1.symm.trans plain) (by simp)

/-- A frame for a stream that is attached: it is written, or the stream
detaches. -/
theorem Awaits.push (awaits : r.Awaits n true) {f : Frame} (light : f.isTerminal = false) :
    (r.push f).1.stage = r.stage ∧ (r.push f).1.Awaits n (!(r.push f).2) ∧
      ∃ sse, (r.push f).1.sse = some sse ∧ sse.tracker = n := by
  obtain ⟨asked, sse⟩ := awaits.attached rfl
  simp only [Request.push, sse, Bool.false_eq_true, if_false]
  split_ifs with gone taken
  · obtain ⟨tells, waits, stage, there⟩ := awaits.detach true (Or.inl rfl)
    rw [tells]
    exact ⟨stage, waits, there⟩
  · exact ⟨rfl, awaits.addFrame light, _, sse, rfl⟩
  · obtain ⟨tells, waits, stage, there⟩ := (awaits.addFrame light).detach true (Or.inl rfl)
    rw [tells]
    exact ⟨stage, waits, there⟩

/-! ### The end of a turn -/

/-- The stream is not attached when the turn ends. -/
theorem Awaits.detached_over (awaits : r.Awaits n false) (stage : Stage) :
    (r.setStage stage).Over where
  deaf := (awaits.detached rfl).1
  json := awaits.json
  stream asked := Or.inr ⟨awaits.terminals, (awaits.detached rfl).2 asked⟩
  plain plain := ((awaits.setStage stage).plain plain)

/-- The stream is destroyed when the turn ends. -/
theorem Awaits.destroyed_over (awaits : r.Awaits n true) (stage : Stage) :
    ((r.detach true).1.setStage stage).Over :=
  (awaits.detach true (Or.inl rfl)).2.1.detached_over stage

/-- The stream gets the last frame when the turn ends. -/
theorem Awaits.finish_over (awaits : r.Awaits n true) {f : Frame} (last : f.isTerminal = true)
    (stage : Stage) : ((r.finish f).setStage stage).Over := by
  obtain ⟨asked, sse⟩ := awaits.attached rfl
  have streams : ∀ {r' : Request}, r'.streamRequested = r.streamRequested →
      r'.streamRequested = false → r'.Blank := by
    intro r' same plain
    rw [same, asked] at plain
    cases plain
  simp only [Request.finish, sse, Bool.false_eq_true, if_false]
  split_ifs with gone ends
  · exact ⟨deaf_shut r _, awaits.json, fun _ => Or.inr ⟨awaits.terminals, gone⟩, streams rfl⟩
  · refine ⟨deaf_shut r _, awaits.json, fun _ => Or.inl ⟨?_, rfl⟩, streams rfl⟩
    show (r.addFrame f).terminals = 1
    rw [terminals_addFrame, awaits.terminals, last]
    rfl
  · refine ⟨deaf_shut r _, awaits.json, fun _ => Or.inr ⟨awaits.terminals, ?_⟩, streams rfl⟩
    simp [Request.destroyIf, Request.setStage]

/-! ### The handler goes on -/

theorem Blank.sendJson (blank : r.Blank) (status : ℕ) (body : JsonBody) :
    (r.sendJson status body).Answered := by
  simp only [Request.sendJson, ServerResponse.sendJson, blank.headers, blank.open_]
  cases gone : r.res.destroyed with
  | true =>
    simp only [Bool.false_eq_true, or_true, if_true]
    refine Or.inr ⟨?_, gone⟩
    rw [blank.answers]
    omega
  | false =>
    simp only [Bool.false_eq_true, or_self, if_false]
    left
    simp [Request.answers, terminals, blank.json, blank.frames]

theorem sendJson_sse (status : ℕ) (body : JsonBody) : (r.sendJson status body).sse = r.sse := rfl

/-- A stream has been answered when its turn is over. -/
theorem Over.answered_stream (ended' : r.Over) (asked : r.streamRequested = true) : r.Answered := by
  unfold Answered answers
  rw [ended'.json]
  rcases ended'.stream asked with ⟨one, -⟩ | ⟨none, gone⟩
  · exact Or.inl (by simp [one])
  · exact Or.inr ⟨by simp [none], gone⟩

theorem Over.answers_le (ended' : r.Over) : r.answers ≤ 1 := by
  unfold answers
  rw [ended'.json, List.length_nil]
  cases asked : r.streamRequested with
  | false =>
    have none := (ended'.plain asked).answers
    unfold answers at none
    omega
  | true => rcases ended'.stream asked with ⟨one, -⟩ | ⟨none, -⟩ <;> omega

/-- What the handler does when it throws. -/
theorem Blank.answered_reject (blank : r.Blank) (status : ℕ) (message : String) :
    (if r.res.destroyed ∨ r.res.headersSent then r
      else r.sendJson status (.error message)).Answered := by
  split_ifs with sent
  · have gone : r.res.destroyed = true := by simpa [blank.headers] using sent
    exact Or.inr ⟨by rw [blank.answers]; omega, gone⟩
  · exact blank.sendJson status _

theorem Over.answered_reject (ended' : r.Over) (status : ℕ) (message : String) :
    (if r.res.destroyed ∨ r.res.headersSent then r
      else r.sendJson status (.error message)).Answered := by
  cases asked : r.streamRequested with
  | true =>
    have sent : r.res.destroyed = true ∨ r.res.headersSent = true := by
      rcases ended'.stream asked with ⟨-, headers⟩ | ⟨-, gone⟩
      · exact Or.inr headers
      · exact Or.inl gone
    rw [if_pos sent]
    exact ended'.answered_stream asked
  | false =>
    exact (ended'.plain asked).answered_reject status message

/-- The conversation that a request keeps from others. -/
def holder (r : Request) : Option (String × String) :=
  if r.stage = .done then none else some r.conversation

theorem holder_awaiting (stage : r.stage = .awaiting n) : r.holder = some r.conversation := by
  simp [holder, stage]

end Request

namespace HttpAgentAdapter

/-! ### Trackers and requests -/

/-- The trackers in the map, their timers, and the requests that wait. -/
structure Sound (s : HttpAgentAdapter) (spared : ℕ → Prop) : Prop where
  map : ∀ c n, s.trackers c = some n → n < s.nextTracker ∧ (s.objects n).correlationId = c
  timers : ∀ c n, s.trackers c = some n → ¬ spared n →
    if (s.objects n).active.isSome then (s.objects n).turnTimer = true
    else (s.objects n).expiryTimer = true
  turns : ∀ n a, (s.objects n).active = some a →
    s.trackers (s.objects n).correlationId = some n ∧
      ∃ r, s.requests a.request = some r ∧ r.stage = .awaiting n ∧ r.Awaits n a.stream
  waits : ∀ i r n, s.requests i = some r → r.stage = .awaiting n →
    ∃ a, (s.objects n).active = some a ∧ a.request = i
  quiet : ∀ i r, s.requests i = some r → (∀ n, r.stage ≠ .awaiting n) → r.Quiet
  old : ∀ i, s.nextRequest ≤ i → s.requests i = none

/-- The conversation that a request keeps from others. -/
def holderOf (s : HttpAgentAdapter) (i : ℕ) : Option (String × String) :=
  (s.requests i).bind Request.holder

/-- The later state is sound, and nothing has changed for the conversations;
no turn has begun if the adapter closes. -/
structure Kept (s t : HttpAgentAdapter) (spared : ℕ → Prop) : Prop where
  sound : t.Sound spared
  holders : ∀ i, t.holderOf i = s.holderOf i
  locks : t.inFlightConversations = s.inFlightConversations
  idle : s.closing = true → ∀ n, (s.objects n).active = none → (t.objects n).active = none
  same : SameIds s t

variable {s t : HttpAgentAdapter} {spared : ℕ → Prop} {n i : ℕ} {a : ActiveTurn} {r : Request}

theorem Kept.refl (sound : s.Sound spared) : Kept s s spared :=
  ⟨sound, fun _ => rfl, rfl, fun _ _ idle => idle, .refl s⟩

theorem Sound.mono {spared' : ℕ → Prop} (sound : s.Sound spared)
    (weaker : ∀ c n, s.trackers c = some n → spared n → spared' n) : s.Sound spared' :=
  { sound with
    timers := fun c n there kept =>
      sound.timers c n there fun spare => kept (weaker c n there spare) }

theorem Kept.mono {spared' : ℕ → Prop} (kept : Kept s t spared)
    (weaker : ∀ c n, t.trackers c = some n → spared n → spared' n) : Kept s t spared' :=
  { kept with sound := kept.sound.mono weaker }

/-- What a turn of a tracker is about. -/
def turnOf (tracker : TurnTracker) : Option (ℕ × Bool) :=
  tracker.active.map fun a => (a.request, a.stream)

/-- A tracker changes, and its turn stays. -/
theorem Kept.retrack (kept : Kept s t spared) {tracker : TurnTracker}
    (id : tracker.correlationId = (t.objects n).correlationId)
    (turn : turnOf tracker = turnOf (t.objects n))
    (expiry : spared n ∨ (t.objects n).active.isSome ∨
      tracker.expiryTimer = (t.objects n).expiryTimer)
    (timer : spared n ∨ (t.objects n).active = none ∨
      tracker.turnTimer = (t.objects n).turnTimer) : Kept s (t.setTracker n tracker) spared := by
  have idle : tracker.active = none ↔ (t.objects n).active = none := by
    have := congrArg (· = none) turn
    simpa [turnOf] using this
  have active : ∀ {a}, tracker.active = some a →
      ∃ a', (t.objects n).active = some a' ∧ a'.request = a.request ∧ a'.stream = a.stream := by
    intro a there
    simp only [turnOf, there, Option.map_some] at turn
    obtain ⟨a', there', same⟩ := Option.map_eq_some_iff.mp turn.symm
    exact ⟨a', there', congrArg Prod.fst same, congrArg Prod.snd same⟩
  refine ⟨?_, kept.holders, kept.locks, fun closing m inactive => ?_, kept.same.setTracker n _⟩
  · refine ⟨fun c m there => ?_, fun c m there strict => ?_, fun m a there => ?_,
      fun i r m request stage => ?_, kept.sound.quiet, kept.sound.old⟩
    · by_cases here : m = n
      · subst here
        simpa [id] using kept.sound.map c m there
      · simpa [here] using kept.sound.map c m there
    · have before := kept.sound.timers c m there strict
      by_cases here : m = n
      · subst here
        have expiry' := expiry.resolve_left strict
        have timer' := timer.resolve_left strict
        cases running : (t.objects m).active with
        | none =>
          rw [running] at before expiry'
          simpa [idle.mpr running, expiry'.resolve_left (by simp)] using before
        | some a =>
          have active : tracker.active.isSome = true := by
            rw [Option.isSome_iff_ne_none, Ne, idle, running]
            simp
          rw [running] at before timer'
          simpa [active, timer'.resolve_left (by simp)] using before
      · simpa [here] using before
    · by_cases here : m = n
      · subst here
        simp only [setTracker_objects, Function.update_self] at there
        obtain ⟨a', there', same, stream⟩ := active there
        have before := kept.sound.turns m a' there'
        simpa [id, same, stream] using before
      · simp only [setTracker_objects, Function.update_of_ne here] at there
        simpa [here] using kept.sound.turns m a there
    · obtain ⟨a, there, same⟩ := kept.sound.waits i r m request stage
      by_cases here : m = n
      · subst here
        have found : turnOf tracker = some (a.request, a.stream) := by rw [turn, turnOf, there]; rfl
        obtain ⟨a', there', same'⟩ := Option.map_eq_some_iff.mp found
        exact ⟨a', by simpa using there', (congrArg Prod.fst same').trans same⟩
      · exact ⟨a, by simpa [here] using there, same⟩
  · have before := kept.idle closing m inactive
    by_cases here : m = n
    · subst here
      simpa using idle.mpr before
    · simpa [here] using before

theorem Sound.mapped_of_active (sound : s.Sound spared) (there : (s.objects n).active = some a) :
    n < s.nextTracker := (sound.map _ n (sound.turns n a there).1).1

/-- A new tracker without a turn. -/
theorem Kept.addTracker (kept : Kept s t spared) {tracker : TurnTracker}
    (inactive : tracker.active = none) (unknown : t.trackers tracker.correlationId = none)
    (timer : spared t.nextTracker ∨ tracker.expiryTimer = true) :
    Kept s (t.addTracker tracker) spared := by
  have sound := kept.sound
  have other : ∀ {m}, m < t.nextTracker → (t.addTracker tracker).objects m = t.objects m :=
    fun less => Function.update_of_ne less.ne _ _
  have mapped : ∀ c m, (t.addTracker tracker).trackers c = some m →
      c = tracker.correlationId ∧ m = t.nextTracker ∨ t.trackers c = some m := by
    intro c m there
    by_cases here : c = tracker.correlationId
    · subst here
      left
      simpa [HttpAgentAdapter.addTracker, eq_comm] using there
    · right
      simpa [HttpAgentAdapter.addTracker, here] using there
  have still : ∀ {m a}, ((t.addTracker tracker).objects m).active = some a →
      m ≠ t.nextTracker ∧ (t.objects m).active = some a := by
    intro m a there
    by_cases here : m = t.nextTracker
    · subst here
      simp [HttpAgentAdapter.addTracker, inactive] at there
    · exact ⟨here, by simpa [HttpAgentAdapter.addTracker, here] using there⟩
  refine ⟨?_, kept.holders, kept.locks, fun closing m none => ?_, kept.same.addTracker _⟩
  · refine ⟨fun c m there => ?_, fun c m there strict => ?_, fun m a there => ?_,
      fun i r m request stage => ?_, sound.quiet, sound.old⟩
    · rcases mapped c m there with ⟨rfl, rfl⟩ | before
      · exact ⟨Nat.lt_succ_self _, by simp [HttpAgentAdapter.addTracker]⟩
      · obtain ⟨less, id⟩ := sound.map c m before
        exact ⟨Nat.lt_succ_of_lt less, by rw [other less]; exact id⟩
    · rcases mapped c m there with ⟨rfl, rfl⟩ | before
      · simp [HttpAgentAdapter.addTracker, inactive, timer.resolve_left strict]
      · rw [other (sound.map c m before).1]
        exact sound.timers c m before strict
    · obtain ⟨-, before⟩ := still there
      rw [other (sound.mapped_of_active before)]
      obtain ⟨there', request⟩ := sound.turns m a before
      refine ⟨?_, request⟩
      have known : (t.objects m).correlationId ≠ tracker.correlationId := by
        intro same
        rw [same, unknown] at there'
        cases there'
      simpa [HttpAgentAdapter.addTracker, known] using there'
    · obtain ⟨a, before, same⟩ := sound.waits i r m request stage
      exact ⟨a, by rw [other (sound.mapped_of_active before)]; exact before, same⟩
  · cases there : ((t.addTracker tracker).objects m).active with
    | none => rfl
    | some a =>
      have before := (still there).2
      rw [kept.idle closing m none] at before
      cases before

/-- A tracker without a turn leaves the map. -/
theorem Kept.removeTracker {spared' : ℕ → Prop} (kept : Kept s t spared)
    (inactive : (t.objects n).active = none) (others : ∀ m, m ≠ n → spared m → spared' m) :
    Kept s (t.removeTracker n) spared' := by
  have sound := kept.sound
  have mapped : ∀ c m, (t.removeTracker n).trackers c = some m →
      t.trackers c = some m ∧ m ≠ n := by
    intro c m there
    rw [removeTracker_trackers] at there
    split_ifs at there with gone
    refine ⟨there, ?_⟩
    rintro rfl
    exact gone ⟨(sound.map c m there).2.symm, there⟩
  refine ⟨?_, ?_, ?_, fun closing m none => ?_, kept.same.removeTracker n⟩
  · refine ⟨fun c m there => ?_, fun c m there strict => ?_, fun m a there => ?_,
      fun i r m request stage => ?_, ?_, ?_⟩
    · simpa using sound.map c m (mapped c m there).1
    · obtain ⟨before, here⟩ := mapped c m there
      simpa using sound.timers c m before fun spare => strict (others m here spare)
    · simp only [removeTracker_objects, removeTracker_requests] at there ⊢
      obtain ⟨before, request⟩ := sound.turns m a there
      refine ⟨?_, request⟩
      have here : m ≠ n := by
        rintro rfl
        rw [inactive] at there
        cases there
      rw [removeTracker_trackers, if_neg]
      · exact before
      · rintro ⟨-, gone⟩
        exact here (Option.some.inj (before.symm.trans gone))
    · simp only [removeTracker_objects, removeTracker_requests] at request ⊢
      exact sound.waits i r m request stage
    · simpa using sound.quiet
    · simpa using sound.old
  · intro j
    rw [← kept.holders j, holderOf, holderOf, removeTracker_requests]
  · rw [removeTracker_locks, kept.locks]
  · rw [removeTracker_objects]
    exact kept.idle closing m none

theorem holderOf_setRequest (s : HttpAgentAdapter) (i : ℕ) (r : Request) (j : ℕ) :
    (s.setRequest i r).holderOf j = if j = i then r.holder else s.holderOf j := by
  by_cases here : j = i
  · subst here
    simp [holderOf]
  · simp [holderOf, here]

/-- Nothing changes for the conversations when a request that is not done
changes. -/
theorem holders_setRequest (holders : ∀ i, t.holderOf i = s.holderOf i) {r r' : Request}
    (request : t.requests i = some r) (same : r'.holder = r.holder) (j : ℕ) :
    (t.setRequest i r').holderOf j = s.holderOf j := by
  rw [holderOf_setRequest, ← holders j]
  split_ifs with here
  · subst here
    rw [same, holderOf, request]
    rfl
  · rfl

/-- The request of a turn waits for it, and no other request does. -/
theorem Sound.request_of_turn (sound : s.Sound spared) (there : (s.objects n).active = some a) :
    ∃ r, s.requests a.request = some r ∧ r.stage = .awaiting n ∧ r.Awaits n a.stream ∧
      ∀ m a', m ≠ n → (s.objects m).active = some a' → a'.request ≠ a.request := by
  obtain ⟨-, r, request, stage, awaits⟩ := sound.turns n a there
  refine ⟨r, request, stage, awaits, fun m a' here there' same => ?_⟩
  obtain ⟨-, r', request', stage', -⟩ := sound.turns m a' there'
  obtain rfl : r = r' := Option.some.inj (request.symm.trans (same ▸ request'))
  rw [stage] at stage'
  exact here (Stage.awaiting.inj stage').symm

/-- A turn stays, its stream perhaps not. -/
theorem Kept.restream (kept : Kept s t spared) (there : (t.objects n).active = some a)
    (request : t.requests a.request = some r) {r' : Request} {b : Bool}
    (stage : r'.stage = .awaiting n) (awaits : r'.Awaits n b)
    (conversation : r'.conversation = r.conversation) :
    Kept s ((t.setRequest a.request r').setTracker n
      { t.objects n with active := some { a with stream := b } }) spared := by
  have sound := kept.sound
  obtain ⟨r₀, request₀, stage₀, awaits₀, others⟩ := sound.request_of_turn there
  obtain rfl : r₀ = r := Option.some.inj (request₀.symm.trans request)
  refine ⟨?_, ?_, kept.locks, fun closing m none => ?_, (kept.same.setRequest _ _).setTracker n _⟩
  · refine ⟨fun c m mapped => ?_, fun c m mapped strict => ?_, fun m a' there' => ?_,
      fun j r m request' stage' => ?_, fun j r request' other => ?_, fun j later => ?_⟩
    · have before := sound.map c m mapped
      by_cases here : m = n <;> simpa [here] using before
    · have before := sound.timers c m mapped strict
      by_cases here : m = n
      · subst here
        simpa [there] using before
      · simpa [here] using before
    · by_cases here : m = n
      · subst here
        obtain rfl : { a with stream := b } = a' := by simpa using there'
        exact ⟨by simpa using (sound.turns m a there).1, r', by simp, stage, awaits⟩
      · have before : (t.objects m).active = some a' := by simpa [here] using there'
        simpa [here, others m a' here before] using sound.turns m a' before
    · by_cases here : j = a.request
      · subst here
        obtain rfl : r' = r := by simpa using request'
        obtain rfl : n = m := by simpa [stage] using stage'
        exact ⟨{ a with stream := b }, by simp, rfl⟩
      · obtain ⟨a', there', same⟩ := sound.waits j r m (by simpa [here] using request') stage'
        have other : m ≠ n := by
          rintro rfl
          rw [there] at there'
          exact here (Option.some.inj there' ▸ same).symm
        exact ⟨a', by simpa [other] using there', same⟩
    · by_cases here : j = a.request
      · subst here
        obtain rfl : r' = r := by simpa using request'
        exact absurd stage (other n)
      · exact sound.quiet j r (by simpa [here] using request') other
    · have here : j ≠ a.request := by
        rintro rfl
        rw [sound.old _ later] at request
        cases request
      simpa [here] using sound.old j later
  · refine holders_setRequest kept.holders request ?_
    rw [Request.holder_awaiting stage, Request.holder_awaiting stage₀, conversation]
  · have before := kept.idle closing m none
    by_cases here : m = n
    · subst here
      rw [there] at before
      cases before
    · simpa [here] using before

theorem setTracker_self (s : HttpAgentAdapter) (n : ℕ) : s.setTracker n (s.objects n) = s := by
  rw [setTracker, Function.update_eq_self]

/-- A turn stays, and so does its stream. -/
theorem Kept.rewrite (kept : Kept s t spared) (there : (t.objects n).active = some a)
    (request : t.requests a.request = some r) {r' : Request} (stage : r'.stage = .awaiting n)
    (awaits : r'.Awaits n a.stream) (conversation : r'.conversation = r.conversation) :
    Kept s (t.setRequest a.request r') spared := by
  have next := kept.restream there request stage awaits conversation
  have same : { t.objects n with active := some { a with stream := a.stream } } = t.objects n := by
    rw [← there]
  have unchanged : (t.setRequest a.request r').setTracker n (t.objects n) =
      t.setRequest a.request r' := setTracker_self _ _
  rw [same, unchanged] at next
  exact next

/-- A turn is over. -/
theorem Kept.endTurn {spared' : ℕ → Prop} (kept : Kept s t spared)
    (there : (t.objects n).active = some a) (others : ∀ m, m ≠ n → spared m → spared' m)
    {last : Request → Request} {stage : Stage}
    (after : ∀ r, r.Awaits n a.stream →
      ((if a.stream then last r else r).setStage stage).Quiet ∧
        (if a.stream then last r else r).conversation = r.conversation)
    (waiting : ∀ m, stage ≠ .awaiting m) (undone : stage ≠ .done) :
    Kept s (t.endTurn n a last stage) spared' := by
  have sound := kept.sound
  obtain ⟨r, request, stage₀, awaits, alone⟩ := sound.request_of_turn there
  obtain ⟨quiet, conversation⟩ := after r awaits
  obtain ⟨less, -⟩ := sound.map _ n (sound.turns n a there).1
  generalize ended : (if a.stream then last r else r).setStage stage = r' at quiet
  have stage' : r'.stage = stage := by rw [← ended]; rfl
  have same : t.endTurn n a last stage =
      (((t.setTracker n (t.objects n).reset).removeTracker n).setRequest a.request r') := by
    simp [HttpAgentAdapter.endTurn, updateRequest, request, ended]
  rw [same]
  have mapped : ∀ c m, ((t.setTracker n (t.objects n).reset).removeTracker n).trackers c = some m →
      t.trackers c = some m ∧ m ≠ n := by
    intro c m mapped
    rw [removeTracker_trackers] at mapped
    split_ifs at mapped with gone
    refine ⟨mapped, ?_⟩
    rintro rfl
    refine gone ⟨?_, mapped⟩
    simpa [TurnTracker.reset] using (sound.map c m mapped).2.symm
  refine ⟨?_, ?_, ?_, fun closing m none => ?_,
    ((kept.same.setTracker n _).removeTracker n).setRequest _ _⟩
  · refine ⟨fun c m there' => ?_, fun c m there' strict => ?_, fun m a' there' => ?_,
      fun j r m request' stage'' => ?_, fun j r request' other => ?_, fun j later => ?_⟩
    · obtain ⟨before, here⟩ := mapped c m there'
      simpa [here] using sound.map c m before
    · obtain ⟨before, here⟩ := mapped c m there'
      simpa [here] using sound.timers c m before fun spare => strict (others m here spare)
    · have here : m ≠ n := by
        rintro rfl
        simp [TurnTracker.reset] at there'
      have before : (t.objects m).active = some a' := by simpa [here] using there'
      obtain ⟨mapped', request'⟩ := sound.turns m a' before
      refine ⟨?_, by simpa [alone m a' here before] using request'⟩
      simp only [setRequest_objects, removeTracker_objects, setTracker_objects,
        Function.update_of_ne here, setRequest_trackers, removeTracker_trackers,
        Function.update_self, setTracker_trackers]
      rw [if_neg]
      · exact mapped'
      · rintro ⟨-, gone⟩
        exact here (Option.some.inj (mapped'.symm.trans gone))
    · by_cases here : j = a.request
      · subst here
        obtain rfl : r' = r := by simpa using request'
        exact absurd (stage'.symm.trans stage'') (waiting m)
      · obtain ⟨a', there', same'⟩ := sound.waits j r m (by simpa [here] using request') stage''
        have other : m ≠ n := by
          rintro rfl
          rw [there] at there'
          exact here (Option.some.inj there' ▸ same').symm
        exact ⟨a', by simpa [other] using there', same'⟩
    · by_cases here : j = a.request
      · subst here
        obtain rfl : r' = r := by simpa using request'
        exact quiet
      · exact sound.quiet j r (by simpa [here] using request') other
    · have here : j ≠ a.request := by
        rintro rfl
        rw [sound.old _ (by simpa using later)] at request
        cases request
      simpa [here] using sound.old j (by simpa using later)
  · refine holders_setRequest (fun j => ?_) (by simpa using request) ?_
    · rw [← kept.holders j, holderOf, holderOf]
      simp
    · rw [Request.holder_awaiting stage₀, ← conversation, ← ended]
      simp [Request.holder, Request.setStage, undone, Request.conversation]
  · simpa using kept.locks
  · have before := kept.idle closing m none
    by_cases here : m = n
    · subst here
      rw [there] at before
      cases before
    · simpa [here] using before

/-! ### What the operations keep -/

theorem conversation_detach (r : Request) (d : Bool) :
    (r.detach d).1.conversation = r.conversation := by
  unfold Request.detach
  cases r.sse with
  | none => rfl
  | some sse =>
    simp only []
    split_ifs <;> rfl

theorem conversation_push (r : Request) (f : Frame) :
    (r.push f).1.conversation = r.conversation := by
  unfold Request.push
  cases r.sse with
  | none => rfl
  | some sse =>
    simp only []
    split_ifs <;> first | rfl | exact conversation_detach _ _

theorem conversation_finish (r : Request) (f : Frame) :
    (r.finish f).conversation = r.conversation := by
  unfold Request.finish
  cases r.sse with
  | none => rfl
  | some sse =>
    simp only []
    split_ifs <;> rfl

theorem sseEvent_terminal (e : OutboundEvent) : Frame.isTerminal (.event (sseEvent e) e) = true := by
  unfold sseEvent
  cases e.body <;> rfl

variable {spared' : ℕ → Prop}

/-- Like the others, but the tracker need not be spared any more. -/
theorem Kept.completeTurn' (kept : Kept s t spared) (active : (t.objects n).active.isSome)
    (others : ∀ m, m ≠ n → spared m → spared' m) (e : OutboundEvent) :
    Kept s (t.completeTurn n e) spared' := by
  obtain ⟨a, there⟩ := Option.isSome_iff_exists.mp active
  rw [HttpAgentAdapter.completeTurn, there]
  refine kept.endTurn there others (fun r awaits => ?_) (by simp) (by simp)
  cases stream : a.stream with
  | false => exact ⟨(stream ▸ awaits).detached_over _, rfl⟩
  | true => exact ⟨(stream ▸ awaits).finish_over (sseEvent_terminal e) _, conversation_finish r _⟩

theorem Kept.failTurn' (kept : Kept s t spared) (active : (t.objects n).active.isSome)
    (others : ∀ m, m ≠ n → spared m → spared' m) (status : ℕ) (message : String) (destroy : Bool) :
    Kept s (t.failTurn n status message destroy) spared' := by
  obtain ⟨a, there⟩ := Option.isSome_iff_exists.mp active
  rw [HttpAgentAdapter.failTurn, there]
  refine kept.endTurn there others (fun r awaits => ?_) (by simp) (by simp)
  cases stream : a.stream with
  | false => exact ⟨(stream ▸ awaits).detached_over _, rfl⟩
  | true =>
    cases destroy with
    | true => exact ⟨(stream ▸ awaits).destroyed_over _, conversation_detach r true⟩
    | false => exact ⟨(stream ▸ awaits).finish_over rfl _, conversation_finish r _⟩

theorem Kept.completeTurn (kept : Kept s t spared) (n : ℕ) (e : OutboundEvent) :
    Kept s (t.completeTurn n e) spared := by
  cases there : (t.objects n).active with
  | none =>
    rw [HttpAgentAdapter.completeTurn, there]
    exact kept
  | some a => exact kept.completeTurn' (by simp [there]) (fun _ _ spare => spare) e

theorem Kept.failTurn (kept : Kept s t spared) (n status : ℕ) (message : String) (destroy : Bool) :
    Kept s (t.failTurn n status message destroy) spared := by
  cases there : (t.objects n).active with
  | none =>
    rw [HttpAgentAdapter.failTurn, there]
    exact kept
  | some a => exact kept.failTurn' (by simp [there]) (fun _ _ spare => spare) status message destroy

/-- The stream of a turn does something, and perhaps detaches. -/
theorem Kept.onStream (kept : Kept s t spared) (there : (t.objects n).active = some a)
    (request : t.requests a.request = some r) (attached : a.stream = true)
    {f : Request → Request × Bool} (stage : (f r).1.stage = .awaiting n)
    (awaits : (f r).1.Awaits n (!(f r).2)) (conversation : (f r).1.conversation = r.conversation)
    (tells : ∃ sse, (f r).1.sse = some sse ∧ sse.tracker = n) :
    Kept s (t.onStream a.request f) spared := by
  obtain ⟨sse, stream, rfl⟩ := tells
  simp only [HttpAgentAdapter.onStream, request, stream]
  cases told : (f r).2 with
  | true =>
    rw [told] at awaits
    have next := kept.restream there request stage awaits conversation
    simpa [HttpAgentAdapter.onDetach, there] using next
  | false =>
    rw [told] at awaits
    refine kept.rewrite there request stage ?_ conversation
    rw [attached]
    exact awaits

theorem Kept.pushEvent (kept : Kept s t spared) {a' : ActiveTurn}
    (there : (t.objects n).active = some a) (request : a'.request = a.request)
    (stream : a'.stream = a.stream) {name : SseName} (light : name.isTerminal = false)
    (e : OutboundEvent) : Kept s (t.pushEvent a' name e) spared := by
  rw [HttpAgentAdapter.pushEvent, stream]
  split_ifs with attached
  · obtain ⟨r, request', stage, awaits, -⟩ := kept.sound.request_of_turn there
    rw [attached] at awaits
    obtain ⟨stage', awaits', tells⟩ := awaits.push (f := .event name e) light
    rw [request]
    exact kept.onStream there request' attached (stage'.trans stage) awaits'
      (conversation_push r _) tells
  · exact kept

theorem Kept.deliverEvent (kept : Kept s t spared) (n : ℕ) (e : OutboundEvent) :
    Kept s (t.deliverEvent n e) spared := by
  unfold HttpAgentAdapter.deliverEvent
  cases there : (t.objects n).active with
  | none => exact kept
  | some a =>
    have seen : Kept s (t.setTracker n { t.objects n with
        active := some { a with lastSequence := e.sequence } }) spared :=
      kept.retrack rfl (by simp [turnOf, there]) (Or.inr (Or.inr rfl))
        (Or.inr (Or.inr rfl))
    have active : ((t.setTracker n { t.objects n with
        active := some { a with lastSequence := e.sequence } }).objects n).active =
          some { a with lastSequence := e.sequence } := by simp
    simp only []
    split_ifs
    · exact kept.failTurn n _ _ _
    · exact kept.completeTurn n e
    · exact kept
    · cases e.body
      case turnDelta => exact seen.pushEvent active rfl rfl rfl e
      case turnProgress => exact seen.pushEvent active rfl rfl rfl e
      all_goals exact seen.completeTurn n e
    · cases e.body
      case turnDelta => exact seen.pushEvent active rfl rfl rfl e
      case turnProgress => exact seen.pushEvent active rfl rfl rfl e
      all_goals exact seen

theorem Kept.acceptEvent (kept : Kept s t spared) (e : OutboundEvent) (bytes : ℕ) :
    Kept s (t.acceptEvent e bytes) spared := by
  unfold HttpAgentAdapter.acceptEvent
  cases there : t.trackers e.correlationId with
  | none =>
    simp only []
    split_ifs
    · obtain ⟨active, id, expiry, -⟩ :=
        TurnTracker.keep_frame (.new e.correlationId e.conversationKey true) e bytes
      exact kept.addTracker active (by rw [id]; exact there) (Or.inr expiry)
    · exact kept
  | some n =>
    simp only []
    split_ifs
    · exact kept.deliverEvent n e
    · obtain ⟨active, id, expiry, timer⟩ := TurnTracker.keep_frame (t.objects n) e bytes
      exact kept.retrack id (by simp [turnOf, active]) (Or.inr (Or.inr expiry))
        (Or.inr (Or.inr timer))
    · exact kept

theorem Kept.deliverAll (kept : Kept s t spared) (n : ℕ) (l : List OutboundEvent) :
    Kept s (deliverAll n t l) spared := by
  induction l generalizing t with
  | nil => exact kept
  | cons e l ih =>
    rw [HttpAgentAdapter.deliverAll]
    split_ifs
    · exact ih (kept.deliverEvent n e)
    · exact kept

/-! ### A turn begins -/

/-- A request that was being posted waits for a tracker without a turn. -/
theorem Kept.begin (kept : Kept s t spared) {c : String} (mapped : t.trackers c = some n)
    (inactive : (t.objects n).active = none) (others : ∀ m, m ≠ n → spared m → spared' m)
    (running : s.closing = false) (request : t.requests i = some r) (posting : r.stage = .posting)
    {r' : Request} {b : Bool} (stage : r'.stage = .awaiting n) (awaits : r'.Awaits n b)
    (conversation : r'.conversation = r.conversation) (key : String) {tracker : TurnTracker}
    (id : tracker.correlationId = (t.objects n).correlationId) (timer : tracker.turnTimer = true)
    (active : tracker.active = some ⟨key, i, 0, b⟩) :
    Kept s ((t.setTracker n tracker).setRequest i r') spared' := by
  have sound := kept.sound
  refine ⟨?_, ?_, kept.locks, fun closing => absurd (running.symm.trans closing) (by simp),
    (kept.same.setTracker n _).setRequest _ _⟩
  · refine ⟨fun c' m mapped' => ?_, fun c' m mapped' strict => ?_, fun m a there => ?_,
      fun j r m request' stage' => ?_, fun j r request' other => ?_, fun j later => ?_⟩
    · have before := sound.map c' m mapped'
      by_cases here : m = n
      · subst here
        simpa [id] using before
      · simpa [here] using before
    · by_cases here : m = n
      · subst here
        simp [active, timer]
      · simpa [here] using
          sound.timers c' m mapped' fun spare => strict (others m here spare)
    · by_cases here : m = n
      · subst here
        obtain rfl : ⟨key, i, 0, b⟩ = a := by simpa [active] using there
        refine ⟨?_, r', by simp, stage, awaits⟩
        simp only [setRequest_objects, setTracker_objects, Function.update_self, id,
          (sound.map c m mapped).2]
        exact mapped
      · have before : (t.objects m).active = some a := by simpa [here] using there
        obtain ⟨mapped', r₀, request₀, stage₀, awaits₀⟩ := sound.turns m a before
        have other : a.request ≠ i := by
          intro same
          rw [same, request] at request₀
          obtain rfl := Option.some.inj request₀
          rw [posting] at stage₀
          cases stage₀
        exact ⟨by simpa [here] using mapped', r₀, by simpa [other] using request₀, stage₀, awaits₀⟩
    · by_cases here : j = i
      · subst here
        obtain rfl : r' = r := by simpa using request'
        obtain rfl : n = m := by simpa [stage] using stage'
        exact ⟨⟨key, j, 0, b⟩, by simp [active], rfl⟩
      · obtain ⟨a, there, same⟩ := sound.waits j r m (by simpa [here] using request') stage'
        have other : m ≠ n := by
          rintro rfl
          rw [inactive] at there
          cases there
        exact ⟨a, by simpa [other] using there, same⟩
    · by_cases here : j = i
      · subst here
        obtain rfl : r' = r := by simpa using request'
        exact absurd stage (other n)
      · exact sound.quiet j r (by simpa [here] using request') other
    · have here : j ≠ i := by
        rintro rfl
        rw [sound.old _ later] at request
        cases request
      simpa [here] using sound.old j later
  · refine holders_setRequest (fun j => ?_) (by simpa using request) ?_
    · rw [← kept.holders j]
      rfl
    · rw [Request.holder_awaiting stage, conversation]
      simp [Request.holder, posting]

theorem setRequest_setRequest (s : HttpAgentAdapter) (i : ℕ) (r r' : Request) :
    (s.setRequest i r).setRequest i r' = s.setRequest i r' := by
  simp [setRequest]

/-- A stream that starts is one that has been attached and gets a frame. -/
theorem onStream_startStream (s : HttpAgentAdapter) (i n : ℕ) (r : Request) (c : String) :
    (s.setRequest i r).onStream i (fun r => r.startStream n c) =
      (s.setRequest i { r with sse := some ⟨false, true, n⟩ }).onStream i
        (fun r => r.push (.accepted c)) := by
  simp only [HttpAgentAdapter.onStream, setRequest_requests, Function.update_self,
    Request.startStream, setRequest_setRequest]

theorem Kept.activate (kept : Kept s t spared) {c : String} (mapped : t.trackers c = some n)
    (inactive : (t.objects n).active = none) (others : ∀ m, m ≠ n → spared m → spared' m)
    (running : s.closing = false) (request : t.requests i = some r)
    (posting : r.stage = .posting) : Kept s (t.activate n i r) spared' := by
  obtain ⟨blank, closed⟩ := (kept.sound.quiet i r request (by simp [posting])).blank posting
  have none : r.terminals = 0 := by simp [Request.terminals, blank.frames]
  simp only [HttpAgentAdapter.activate]
  cases stream : r.streamRequested && !r.res.destroyed with
  | false =>
    have waits : (r.setStage (.awaiting n)).Awaits n false :=
      { json := blank.json
        terminals := none
        attached := fun attached => absurd attached Bool.false_ne_true
        detached := fun _ => ⟨by simp [Request.Deaf, Request.setStage, closed],
          fun asked => by
            show r.res.destroyed = true
            simpa [show r.streamRequested = true from asked] using stream⟩
        plain := fun _ => ⟨blank.headers, blank.open_, blank.frames, blank.json⟩ }
    exact kept.begin mapped inactive others running request posting rfl waits rfl
      r.conversationKey rfl rfl rfl
  | true =>
    have asked : r.streamRequested = true := (Bool.and_eq_true_iff.mp stream).1
    have waits : ({ r.setStage (.awaiting n) with sse := some ⟨false, true, n⟩ } : Request).Awaits
        n true :=
      { json := blank.json
        terminals := none
        attached := fun _ => ⟨asked, rfl⟩
        detached := fun detached => absurd detached (by simp)
        plain := fun plain => absurd (asked.symm.trans plain) (by simp) }
    have begun : Kept s ((t.setTracker n { t.objects n with
        expiryTimer := false
        turnTimer := true
        active := some ⟨r.conversationKey, i, 0, true⟩ }).setRequest i _) spared' :=
      kept.begin mapped inactive others running request posting rfl waits rfl r.conversationKey
        rfl rfl rfl
    obtain ⟨stage, awaits, tells⟩ := waits.push (f := .accepted (t.objects n).correlationId) rfl
    simp only [if_true, onStream_startStream, setRequest_objects, setTracker_objects,
      Function.update_self]
    refine begun.onStream (a := ⟨r.conversationKey, i, 0, true⟩) (by simp) (by simp) rfl stage
      awaits (conversation_push _ _) tells

theorem Kept.claimTracker (kept : Kept s t spared) (c key : String) :
    Kept s (t.claimTracker c key).1 (fun m => spared m ∨ m = (t.claimTracker c key).2) ∧
      (t.claimTracker c key).1.trackers c = some (t.claimTracker c key).2 ∧
      (t.claimTracker c key).1.requests = t.requests := by
  unfold HttpAgentAdapter.claimTracker
  cases there : t.trackers c with
  | some n => exact ⟨kept.mono fun _ _ _ spare => Or.inl spare, there, rfl⟩
  | none =>
    refine ⟨?_, by simp [HttpAgentAdapter.addTracker, TurnTracker.new], rfl⟩
    exact (kept.mono fun _ _ _ spare => Or.inl spare).addTracker rfl there (Or.inl (Or.inr rfl))

theorem Kept.beginTurn (kept : Kept s t spared) (running : s.closing = false) {c : String}
    (request : t.requests i = some r) (posting : r.stage = .posting) {u : HttpAgentAdapter}
    (begun : t.beginTurn c i r = some u) : Kept s u spared := by
  obtain ⟨claimed, mapped, requests⟩ := kept.claimTracker c r.conversationKey
  simp only [HttpAgentAdapter.beginTurn] at begun
  split_ifs at begun with idle
  obtain rfl := Option.some.inj begun
  have inactive := Option.not_isSome_iff_eq_none.mp idle
  have active := claimed.activate mapped inactive
    (fun m here spare => spare.resolve_right here) running (requests ▸ request) posting
  refine Kept.deliverAll (active.retrack ?_ ?_ ?_ ?_) _ _
  · rfl
  · rfl
  · exact Or.inr (Or.inr rfl)
  · exact Or.inr (Or.inr rfl)

/-! ### Timers, clients and the end -/

theorem Kept.turnTimedOut (kept : Kept s t fun _ => False) {u : HttpAgentAdapter}
    (fired : t.turnTimedOut n = some u) : Kept s u fun _ => False := by
  simp only [HttpAgentAdapter.turnTimedOut] at fired
  split_ifs at fired
  obtain rfl := Option.some.inj fired
  by_cases active : (t.objects n).active.isSome
  · have unarmed : Kept s (t.setTracker n { t.objects n with turnTimer := false }) (· = n) :=
      (kept.mono fun _ _ _ => False.elim).retrack rfl rfl (Or.inl rfl) (Or.inl rfl)
    exact unarmed.failTurn' (by simpa using active) (fun m here same => here same) _ _ _
  · have inactive := Option.not_isSome_iff_eq_none.mp active
    have unarmed : Kept s (t.setTracker n { t.objects n with turnTimer := false })
        fun _ => False :=
      kept.retrack rfl rfl (Or.inr (Or.inr rfl)) (Or.inr (Or.inl inactive))
    exact unarmed.failTurn _ _ _ _

theorem Kept.expired (kept : Kept s t fun _ => False) {u : HttpAgentAdapter}
    (fired : t.expired n = some u) : Kept s u fun _ => False := by
  simp only [HttpAgentAdapter.expired] at fired
  split_ifs at fired with armed idle
  · obtain rfl := Option.some.inj fired
    have unarmed : Kept s (t.setTracker n { t.objects n with expiryTimer := false }) (· = n) :=
      (kept.mono fun _ _ _ => False.elim).retrack rfl rfl (Or.inl rfl) (Or.inl rfl)
    exact unarmed.removeTracker (Option.isNone_iff_eq_none.mp idle) fun m here same => here same
  · obtain rfl := Option.some.inj fired
    refine kept.retrack rfl rfl (Or.inr (Or.inl ?_)) (Or.inr (Or.inr rfl))
    simpa [Option.isNone_iff_eq_none, Option.isSome_iff_ne_none] using idle

/-- A request that does not wait changes and still does not wait. -/
theorem Sound.requiet (sound : t.Sound spared) (request : t.requests i = some r)
    (settled : ∀ n, r.stage ≠ .awaiting n) {r' : Request} (stage : ∀ n, r'.stage ≠ .awaiting n)
    (quiet : r'.Quiet) : (t.setRequest i r').Sound spared := by
  refine ⟨sound.map, sound.timers, fun m a there => ?_, fun j r m request' stage' => ?_,
    fun j r request' other => ?_, fun j later => ?_⟩
  · obtain ⟨mapped, r₀, request₀, stage₀, awaits₀⟩ := sound.turns m a there
    have other : a.request ≠ i := by
      rintro rfl
      obtain rfl := Option.some.inj (request.symm.trans request₀)
      exact settled m stage₀
    exact ⟨mapped, r₀, by simpa [other] using request₀, stage₀, awaits₀⟩
  · by_cases here : j = i
    · subst here
      obtain rfl : r' = r := by simpa using request'
      exact absurd stage' (stage m)
    · exact sound.waits j r m (by simpa [here] using request') stage'
  · by_cases here : j = i
    · subst here
      obtain rfl : r' = r := by simpa using request'
      exact quiet
    · exact sound.quiet j r (by simpa [here] using request') other
  · have here : j ≠ i := by
      rintro rfl
      rw [sound.old _ later] at request
      cases request
    simpa [here] using sound.old j later

theorem Kept.requiet (kept : Kept s t spared) (request : t.requests i = some r)
    (settled : ∀ n, r.stage ≠ .awaiting n) {r' : Request} (stage : ∀ n, r'.stage ≠ .awaiting n)
    (quiet : r'.Quiet) (same : r'.holder = r.holder) :
    Kept s (t.setRequest i r') spared where
  sound := kept.sound.requiet request settled stage quiet
  holders := holders_setRequest kept.holders request same
  locks := kept.locks
  idle := kept.idle
  same := kept.same.setRequest i r'

theorem Kept.disconnect (kept : Kept s t spared) (i : ℕ) : Kept s (t.disconnect i) spared := by
  unfold HttpAgentAdapter.disconnect updateRequest
  cases request : t.requests i with
  | none => exact kept
  | some r =>
    by_cases waits : ∃ n, r.stage = .awaiting n
    · obtain ⟨n, stage⟩ := waits
      obtain ⟨a, there, rfl⟩ := kept.sound.waits i r n request stage
      obtain ⟨r', request', -, awaits, -⟩ := kept.sound.request_of_turn there
      obtain rfl : r = r' := Option.some.inj (request.symm.trans request')
      exact kept.rewrite there request stage (awaits.destroyIf true) rfl
    · have settled : ∀ n, r.stage ≠ .awaiting n := fun n stage => waits ⟨n, stage⟩
      exact kept.requiet request settled settled
        ((kept.sound.quiet i r request settled).destroyIf true) rfl

theorem Kept.closeEmitted (kept : Kept s t spared) {u : HttpAgentAdapter}
    (emitted : t.closeEmitted i = some u) : Kept s u spared := by
  unfold HttpAgentAdapter.closeEmitted at emitted
  cases request : t.requests i with
  | none => simp [request] at emitted
  | some r =>
    cases stream : r.sse with
    | none => simp [request, stream] at emitted
    | some sse =>
      simp only [request, stream] at emitted
      split_ifs at emitted with listens
      obtain rfl := Option.some.inj emitted
      by_cases waits : ∃ n, r.stage = .awaiting n
      · obtain ⟨n, stage⟩ := waits
        obtain ⟨a, there, rfl⟩ := kept.sound.waits i r n request stage
        obtain ⟨r', request', -, awaits, -⟩ := kept.sound.request_of_turn there
        obtain rfl : r = r' := Option.some.inj (request.symm.trans request')
        cases attached : a.stream with
        | false =>
          rw [attached] at awaits
          have closed := ((awaits.detached rfl).1 sse stream).2
          rw [listens.2] at closed
          cases closed
        | true =>
          rw [attached] at awaits
          obtain ⟨told, awaits', stage', tells⟩ := awaits.detach false (Or.inr listens.1)
          exact kept.onStream there request attached (stage'.trans stage) (by rw [told]; exact awaits')
            (conversation_detach r false) tells
      · have settled : ∀ n, r.stage ≠ .awaiting n := fun n stage => waits ⟨n, stage⟩
        have closed := ((kept.sound.quiet i r request settled).deaf sse stream).2
        rw [listens.2] at closed
        cases closed

theorem updateRequest_objects (s : HttpAgentAdapter) (i : ℕ) (f : Request → Request) :
    (s.updateRequest i f).objects = s.objects := by
  unfold updateRequest
  cases s.requests i <;> rfl

/-- Only the tracker whose turn fails changes. -/
theorem failTurn_active (s : HttpAgentAdapter) (n status : ℕ) (message : String) (destroy : Bool)
    (m : ℕ) : ((s.failTurn n status message destroy).objects m).active =
      if m = n then none else (s.objects m).active := by
  unfold HttpAgentAdapter.failTurn
  cases there : (s.objects n).active with
  | none =>
    by_cases here : m = n
    · subst here
      simp [there]
    · simp [here]
  | some a =>
    simp only [HttpAgentAdapter.endTurn, updateRequest_objects, removeTracker_objects,
      setTracker_objects]
    by_cases here : m = n
    · subst here
      simp [TurnTracker.reset]
    · simp [here]

theorem Kept.shutTracker (kept : Kept s t fun _ => True) (n : ℕ) :
    Kept s (t.shutTracker n) fun _ => True := by
  unfold HttpAgentAdapter.shutTracker
  split_ifs
  · exact kept.failTurn _ _ _ _
  · exact kept.retrack rfl rfl (Or.inl trivial) (Or.inl trivial)

theorem shutTracker_active (s : HttpAgentAdapter) (n m : ℕ) :
    ((s.shutTracker n).objects m).active = if m = n then none else (s.objects m).active := by
  unfold HttpAgentAdapter.shutTracker
  split_ifs with active here here
  · rw [failTurn_active, if_pos here]
  · rw [failTurn_active, if_neg here]
  · subst here
    simpa using active
  · simp [here]

end HttpAgentAdapter

end OmpBundler.HttpAdapter
