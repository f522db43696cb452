import Mathlib.Algebra.GroupWithZero.Nat
import Mathlib.Data.List.Sort
import OmpBundler.HttpAdapter.Server

/-!
It makes no difference when a turn begins.

The events of a turn may arrive before the core has answered the request
that they belong to. Those are kept and delivered when the turn begins; the
others are delivered as they come. The client sees the same answer either
way, and it is a function of the list of events: a frame for each delta and
each progress note up to the first terminal event, and the frame of that
one.
-/

namespace OmpBundler.HttpAdapter

open Library

/-! ### What a client should see -/

/-- The frames of a turn with these events. -/
def turnFrames : List OutboundEvent → List Frame
  | [] => []
  | e :: rest =>
      match e.body with
      | .turnDelta _ => .event .delta e :: turnFrames rest
      | .turnProgress _ => .event .progress e :: turnFrames rest
      | _ =>
          if e.isTerminal then [.event (HttpAgentAdapter.sseEvent e) e] else turnFrames rest

/-- The event that ends the turn. -/
def turnEnd (es : List OutboundEvent) : Option OutboundEvent := es.find? (·.isTerminal)

/-- Events in the order of their sequence numbers. -/
def Increasing (es : List OutboundEvent) : Prop := es.Pairwise fun a b => a.sequence < b.sequence

theorem turnFrames_delta {e : OutboundEvent} {text : String} (body : e.body = .turnDelta text)
    (rest : List OutboundEvent) : turnFrames (e :: rest) = .event .delta e :: turnFrames rest := by
  rw [turnFrames, body]

theorem turnFrames_progress {e : OutboundEvent} {message : String}
    (body : e.body = .turnProgress message) (rest : List OutboundEvent) :
    turnFrames (e :: rest) = .event .progress e :: turnFrames rest := by
  rw [turnFrames, body]

theorem turnFrames_terminal {e : OutboundEvent} (terminal : e.isTerminal = true)
    (rest : List OutboundEvent) :
    turnFrames (e :: rest) = [.event (HttpAgentAdapter.sseEvent e) e] := by
  rw [turnFrames]
  cases body : e.body with
  | turnDelta text => simp [OutboundEvent.isTerminal, EventBody.isTerminal, body] at terminal
  | turnProgress text => simp [OutboundEvent.isTerminal, EventBody.isTerminal, body] at terminal
  | _ => rw [if_pos terminal]

theorem turnFrames_other {e : OutboundEvent} (other : HttpAgentAdapter.isKept e = false)
    (rest : List OutboundEvent) : turnFrames (e :: rest) = turnFrames rest := by
  rw [turnFrames]
  cases body : e.body <;>
    simp_all [HttpAgentAdapter.isKept, OutboundEvent.isTerminal, EventBody.isTerminal,
      EventBody.isBestEffort]

/-- What an event does to a turn. -/
theorem kinds (e : OutboundEvent) :
    (∃ text, e.body = .turnDelta text) ∨ (∃ message, e.body = .turnProgress message) ∨
      e.isTerminal = true ∨ HttpAgentAdapter.isKept e = false := by
  cases body : e.body <;>
    simp [HttpAgentAdapter.isKept, OutboundEvent.isTerminal, EventBody.isTerminal,
      EventBody.isBestEffort, body]

/-! ### A turn that goes on -/

namespace Request

/-- A request that is being posted, with a client that takes every frame. -/
structure Attentive (r : Request) : Prop where
  posting : r.stage = .posting
  unanswered : r.res = ⟨false, false, false, [], []⟩
  unopened : r.sse = none
  takes : ∀ k, r.takes k = true
  ends : r.ends = true

/-- The request while its turn goes on, after these frames. -/
def sofar (r : Request) (n : ℕ) (c : String) (fs : List Frame) : Request :=
  if r.streamRequested then
    { r with
      stage := .awaiting n
      res := ⟨true, false, false, .accepted c :: fs, []⟩
      sse := some ⟨false, true, n⟩ }
  else r.setStage (.awaiting n)

/-- The request when its turn has ended with this event. -/
def finished (r : Request) (n : ℕ) (c : String) (fs : List Frame) (e : OutboundEvent) : Request :=
  if r.streamRequested then
    { r with
      stage := .resolved c e
      res := ⟨true, true, false, .accepted c :: fs, []⟩
      sse := some ⟨true, false, n⟩ }
  else r.setStage (.resolved c e)

variable {r : Request} {n : ℕ} {c : String} {fs : List Frame}

theorem push_sofar (takes : ∀ k, r.takes k = true) (stream : r.streamRequested = true)
    (fs : List Frame) (f : Frame) :
    (r.sofar n c fs).push f = (r.sofar n c (fs ++ [f]), false) := by
  simp [sofar, stream, push, addFrame, takes]

theorem finish_sofar (ends : r.ends = true) (stream : r.streamRequested = true) (f : Frame)
    (e : OutboundEvent) :
    ((r.sofar n c fs).finish f).setStage (.resolved c e) = r.finished n c (fs ++ [f]) e := by
  simp [sofar, finished, stream, finish, addFrame, shut, setStage, ends]

theorem sofar_of_json (stream : r.streamRequested = false) (fs fs' : List Frame) :
    r.sofar n c fs = r.sofar n c fs' := by
  simp [sofar, stream]

theorem finished_of_json (stream : r.streamRequested = false) (e : OutboundEvent) (fs' : List Frame) :
    (r.sofar n c fs).setStage (.resolved c e) = r.finished n c fs' e := by
  simp [sofar, finished, stream, setStage]

end Request

namespace HttpAgentAdapter

/-- The turn of the request goes on. -/
structure InTurn (s : HttpAgentAdapter) (n i : ℕ) (r : Request) (c : String) (fs : List Frame)
    (sequence : ℕ) : Prop where
  mapped : s.trackers c = some n
  correlationId : (s.objects n).correlationId = c
  active : (s.objects n).active = some ⟨r.conversationKey, i, sequence, r.streamRequested⟩
  request : s.requests i = some (r.sofar n c fs)

/-- The request is what it is, and no turn of the correlation goes on. -/
structure Ended (s : HttpAgentAdapter) (i : ℕ) (r : Request) (c : String) : Prop where
  request : s.requests i = some r
  quiet : ∀ m, s.trackers c = some m → (s.objects m).active = none

variable {s : HttpAgentAdapter} {n i : ℕ} {r : Request} {c : String} {fs : List Frame}
  {sequence : ℕ} {e : OutboundEvent}

/-- The turn has seen the event. -/
theorem InTurn.seen (turn : s.InTurn n i r c fs sequence) (later : ℕ) :
    (s.setTracker n { s.objects n with
      active := some ⟨r.conversationKey, i, later, r.streamRequested⟩ }).InTurn n i r c fs later where
  mapped := turn.mapped
  correlationId := by simp [turn.correlationId]
  active := by simp
  request := turn.request

theorem InTurn.pushEvent (turn : s.InTurn n i r c fs sequence) (takes : ∀ k, r.takes k = true)
    (before : ℕ) (name : SseName) (e : OutboundEvent) :
    (s.pushEvent ⟨r.conversationKey, i, before, r.streamRequested⟩ name e).InTurn n i r c
      (fs ++ [.event name e]) sequence := by
  cases stream : r.streamRequested with
  | false =>
    refine ⟨turn.mapped, turn.correlationId, turn.active, ?_⟩
    rw [Request.sofar_of_json (n := n) (c := c) stream (fs ++ [Frame.event name e]) fs]
    exact turn.request
  | true =>
    have pushed := Request.push_sofar (n := n) (c := c) takes stream fs (.event name e)
    have same : s.pushEvent ⟨r.conversationKey, i, before, true⟩ name e =
        s.setRequest i (r.sofar n c (fs ++ [.event name e])) := by
      simp only [HttpAgentAdapter.pushEvent, if_true, onStream, turn.request, pushed]
    rw [same]
    exact ⟨turn.mapped, turn.correlationId, turn.active, by simp⟩

theorem InTurn.completeTurn (turn : s.InTurn n i r c fs sequence) (ends : r.ends = true)
    (e : OutboundEvent) :
    (s.completeTurn n e).Ended i (r.finished n c (fs ++ [.event (sseEvent e) e]) e) c ∧
      ((s.completeTurn n e).objects n).active = none := by
  simp only [HttpAgentAdapter.completeTurn, turn.active, endTurn, updateRequest,
    removeTracker_requests, setTracker_requests, turn.request, turn.correlationId]
  refine ⟨⟨?_, ?_⟩, by simp [TurnTracker.reset]⟩
  · cases stream : r.streamRequested with
    | false =>
      simp only [Bool.false_eq_true, if_false, setRequest_requests, Function.update_self]
      rw [Request.finished_of_json stream]
    | true =>
      simp only [if_true, setRequest_requests, Function.update_self]
      rw [Request.finish_sofar ends stream]
  · intro m there
    simp only [setRequest_trackers, removeTracker_trackers, setTracker_objects,
      Function.update_self, TurnTracker.reset, turn.correlationId, setTracker_trackers,
      turn.mapped, and_self, if_true] at there
    cases there

theorem turnFrames_append_delta (body : ∃ text, e.body = .turnDelta text) :
    turnFrames [e] = [.event .delta e] ∧ e.isTerminal = false := by
  obtain ⟨text, body⟩ := body
  exact ⟨turnFrames_delta body [], by rw [OutboundEvent.isTerminal, body]; rfl⟩

theorem turnFrames_append_progress (body : ∃ message, e.body = .turnProgress message) :
    turnFrames [e] = [.event .progress e] ∧ e.isTerminal = false := by
  obtain ⟨message, body⟩ := body
  exact ⟨turnFrames_progress body [], by rw [OutboundEvent.isTerminal, body]; rfl⟩

/-- What an event of the turn does to it. -/
theorem InTurn.deliverEvent (turn : s.InTurn n i r c fs sequence) (attentive : r.Attentive)
    (same : e.conversationKey = r.conversationKey) (later : sequence < e.sequence) :
    if e.isTerminal then
      (s.deliverEvent n e).Ended i (r.finished n c (fs ++ turnFrames [e]) e) c ∧
        ((s.deliverEvent n e).objects n).active = none
    else (s.deliverEvent n e).InTurn n i r c (fs ++ turnFrames [e]) e.sequence := by
  have seen := turn.seen e.sequence
  have check : ¬ e.conversationKey ≠ r.conversationKey := not_not.mpr same
  simp only [HttpAgentAdapter.deliverEvent, turn.active, if_neg check, if_neg (Nat.not_le.mpr later)]
  rcases kinds e with delta | progress | terminal | other
  · obtain ⟨frames, running⟩ := turnFrames_append_delta delta
    obtain ⟨text, body⟩ := delta
    rw [running, frames, body]
    exact seen.pushEvent attentive.takes sequence .delta e
  · obtain ⟨frames, running⟩ := turnFrames_append_progress progress
    obtain ⟨message, body⟩ := progress
    rw [running, frames, body]
    exact seen.pushEvent attentive.takes sequence .progress e
  · rw [turnFrames_terminal terminal, terminal]
    have ended := seen.completeTurn attentive.ends e
    cases body : e.body with
    | turnDelta text => simp [OutboundEvent.isTerminal, EventBody.isTerminal, body] at terminal
    | turnProgress text => simp [OutboundEvent.isTerminal, EventBody.isTerminal, body] at terminal
    | _ => exact ended
  · have quiet : e.isTerminal = false := (Bool.or_eq_false_iff.mp other).1
    have light : e.body.isBestEffort = false := (Bool.or_eq_false_iff.mp other).2
    have frames : turnFrames [e] = [] := turnFrames_other other []
    rw [quiet, frames, List.append_nil]
    cases body : e.body with
    | turnDelta text => simp [EventBody.isBestEffort, body] at light
    | turnProgress text => simp [EventBody.isBestEffort, body] at light
    | _ => exact seen

/-- Nothing happens to a turn that is over. -/
theorem deliverEvent_inactive (none : (s.objects n).active = none) (e : OutboundEvent) :
    s.deliverEvent n e = s := by
  rw [HttpAgentAdapter.deliverEvent, none]

/-! ### A turn that has ended -/

theorem Ended.acceptEvent (ended : s.Ended i r c) (own : e.correlationId = c) (bytes : ℕ) :
    (s.acceptEvent e bytes).Ended i r c := by
  unfold HttpAgentAdapter.acceptEvent
  rw [own]
  cases there : s.trackers c with
  | some m =>
    have quiet := ended.quiet m there
    simp only [quiet, Option.isSome_none, Bool.false_eq_true, if_false]
    split_ifs
    · refine ⟨ended.request, fun m' there' => ?_⟩
      obtain rfl : m = m' := Option.some.inj (there.symm.trans there')
      simp [TurnTracker.keep_frame, quiet]
    · exact ended
  | none =>
    simp only []
    split_ifs
    · refine ⟨ended.request, fun m' there' => ?_⟩
      obtain rfl : s.nextTracker = m' := by
        simpa [addTracker, TurnTracker.keep_frame, TurnTracker.new, own] using there'
      simp [addTracker, TurnTracker.keep_frame, TurnTracker.new]
    · exact ended

theorem Ended.rememberEvent (ended : s.Ended i r c) (eventId : String) :
    (s.rememberEvent eventId).Ended i r c := ⟨ended.request, ended.quiet⟩

theorem InTurn.rememberEvent (turn : s.InTurn n i r c fs sequence) (eventId : String) :
    (s.rememberEvent eventId).InTurn n i r c fs sequence :=
  ⟨turn.mapped, turn.correlationId, turn.active, turn.request⟩

/-! ### Events that arrive -/

/-- The requests of the core with these events, each with the length of its
body. -/
def arrive (s : HttpAgentAdapter) (es : List (OutboundEvent × ℕ)) : HttpAgentAdapter :=
  es.foldl (fun s p => s.handleCoreEvent p.1 p.2) s

/-- New events of a correlation, in order. -/
structure Sequel (s : HttpAgentAdapter) (r : Request) (c : String) (sequence : ℕ)
    (es : List (OutboundEvent × ℕ)) : Prop where
  own : ∀ p ∈ es, p.1.correlationId = c ∧ p.1.conversationKey = r.conversationKey
  wellFormed : ∀ p ∈ es, isWellFormed p.1 = true
  later : ∀ p ∈ es, sequence < p.1.sequence
  increasing : Increasing (es.map Prod.fst)
  distinct : (es.map fun p => p.1.eventId).Nodup
  new : ∀ p ∈ es, p.1.eventId ∉ s.recentEventIds

variable {es : List (OutboundEvent × ℕ)} {p : OutboundEvent × ℕ}

theorem mem_rememberEvent {eventId id : String}
    (mem : id ∈ (s.rememberEvent eventId).recentEventIds) :
    id ∈ s.recentEventIds ∨ id = eventId := by
  have either : ∀ {ids : List String},
      id ∈ (if eventId ∈ s.recentEventIds then s.recentEventIds else s.recentEventIds ++ [eventId]) →
      id ∈ s.recentEventIds ∨ id = eventId := by
    intro _ mem
    split_ifs at mem
    · exact Or.inl mem
    · simpa using mem
  simp only [HttpAgentAdapter.rememberEvent] at mem
  split_ifs at mem with full known known
  · exact Or.inl (List.mem_filter.mp mem).1
  · simpa using (List.mem_filter.mp mem).1
  · exact Or.inl mem
  · simpa using mem

theorem Sequel.head (sequel : s.Sequel r c sequence (p :: es)) :
    s.handleCoreEvent p.1 p.2 = (s.acceptEvent p.1 p.2).rememberEvent p.1.eventId := by
  rw [HttpAgentAdapter.handleCoreEvent, if_neg (by simp [sequel.wellFormed p List.mem_cons_self]),
    if_neg (sequel.new p List.mem_cons_self)]

theorem Sequel.tail (sequel : s.Sequel r c sequence (p :: es)) :
    (s.handleCoreEvent p.1 p.2).Sequel r c p.1.sequence es where
  own q inside := sequel.own q (List.mem_cons_of_mem _ inside)
  wellFormed q inside := sequel.wellFormed q (List.mem_cons_of_mem _ inside)
  later q inside := (List.pairwise_cons.mp sequel.increasing).1 q.1 (List.mem_map_of_mem inside)
  increasing := (List.pairwise_cons.mp sequel.increasing).2
  distinct := (List.nodup_cons.mp sequel.distinct).2
  new q inside known := by
    rw [sequel.head] at known
    rcases mem_rememberEvent known with before | same
    · rw [((SameIds.refl s).acceptEvent p.1 p.2).ids] at before
      exact sequel.new q (List.mem_cons_of_mem _ inside) before
    · exact (List.nodup_cons.mp sequel.distinct).1 (List.mem_map.mpr ⟨q, inside, same⟩)

theorem Ended.arrive (ended : s.Ended i r c) {r' : Request}
    (sequel : s.Sequel r' c sequence es) : (s.arrive es).Ended i r c := by
  induction es generalizing s sequence with
  | nil => exact ended
  | cons p es ih =>
    refine ih (s := s.handleCoreEvent p.1 p.2) ?_ sequel.tail
    rw [sequel.head]
    exact (ended.acceptEvent (sequel.own p List.mem_cons_self).1 p.2).rememberEvent _

/-- The frames of a turn, its first event apart. -/
theorem turnFrames_cons (e : OutboundEvent) (rest : List OutboundEvent) :
    turnFrames (e :: rest) =
      if e.isTerminal then turnFrames [e] else turnFrames [e] ++ turnFrames rest := by
  rcases kinds e with delta | progress | terminal | other
  · obtain ⟨frames, running⟩ := turnFrames_append_delta delta
    obtain ⟨text, body⟩ := delta
    rw [turnFrames_delta body, running, frames]
    rfl
  · obtain ⟨frames, running⟩ := turnFrames_append_progress progress
    obtain ⟨message, body⟩ := progress
    rw [turnFrames_progress body, running, frames]
    rfl
  · rw [turnFrames_terminal terminal, turnFrames_terminal terminal, if_pos terminal]
  · have quiet : e.isTerminal = false := (Bool.or_eq_false_iff.mp other).1
    rw [turnFrames_other other, turnFrames_other other, quiet]
    rfl

/-- What becomes of a turn: it ends, or it goes on and the last sequence
number is that of an event. -/
def Played (s : HttpAgentAdapter) (n i : ℕ) (r : Request) (c : String) (fs : List Frame)
    (first : ℕ) (es : List OutboundEvent) : Prop :=
  match turnEnd es with
  | some e => s.Ended i (r.finished n c (fs ++ turnFrames es) e) c
  | none => ∃ sequence, s.InTurn n i r c (fs ++ turnFrames es) sequence ∧
      (sequence = first ∨ ∃ d ∈ es, d.sequence = sequence)

theorem Played.cons {rest : List OutboundEvent} {first : ℕ} (running : e.isTerminal = false)
    (played : s.Played n i r c (fs ++ turnFrames [e]) e.sequence rest) :
    s.Played n i r c fs first (e :: rest) := by
  have frames : fs ++ turnFrames (e :: rest) = fs ++ turnFrames [e] ++ turnFrames rest := by
    rw [turnFrames_cons, running, List.append_assoc]
    rfl
  have ends : turnEnd (e :: rest) = turnEnd rest := List.find?_cons_of_neg (by simp [running])
  unfold Played at played ⊢
  rw [ends, frames]
  cases last : turnEnd rest with
  | some d =>
    rw [last] at played
    exact played
  | none =>
    rw [last] at played
    obtain ⟨sequence, turn, origin⟩ := played
    refine ⟨sequence, turn, Or.inr ?_⟩
    rcases origin with rfl | ⟨d, inside, same⟩
    · exact ⟨e, List.mem_cons_self, rfl⟩
    · exact ⟨d, List.mem_cons_of_mem _ inside, same⟩

theorem Played.ended {rest : List OutboundEvent} {first : ℕ} (terminal : e.isTerminal = true)
    (ended : s.Ended i (r.finished n c (fs ++ turnFrames [e]) e) c) :
    s.Played n i r c fs first (e :: rest) := by
  have ends : turnEnd (e :: rest) = some e := List.find?_cons_of_pos terminal
  unfold Played
  rw [ends, turnFrames_cons, terminal]
  exact ended

theorem InTurn.arrive (turn : s.InTurn n i r c fs sequence) (attentive : r.Attentive)
    (sequel : s.Sequel r c sequence es) :
    (s.arrive es).Played n i r c fs sequence (es.map Prod.fst) := by
  induction es generalizing s fs sequence with
  | nil => exact ⟨sequence, by simpa [turnFrames, HttpAgentAdapter.arrive] using turn, Or.inl rfl⟩
  | cons p es ih =>
    obtain ⟨own, same⟩ := sequel.own p List.mem_cons_self
    have delivered := turn.deliverEvent attentive same (sequel.later p List.mem_cons_self)
    have accepted : s.acceptEvent p.1 p.2 = s.deliverEvent n p.1 := by
      unfold HttpAgentAdapter.acceptEvent
      simp [own, turn.mapped, turn.active]
    have head := sequel.head
    rw [accepted] at head
    show (arrive (s.handleCoreEvent p.1 p.2) es).Played n i r c fs sequence _
    cases terminal : p.1.isTerminal with
    | true =>
      rw [terminal] at delivered
      refine Played.ended terminal ?_
      refine Ended.arrive ?_ sequel.tail
      rw [head]
      exact Ended.rememberEvent delivered.1 _
    | false =>
      rw [terminal] at delivered
      refine Played.cons terminal (ih ?_ sequel.tail)
      rw [head]
      exact InTurn.rememberEvent delivered _

/-- Early events are delivered like others. -/
theorem InTurn.deliverAll {l : List OutboundEvent} (turn : s.InTurn n i r c fs sequence)
    (attentive : r.Attentive) (own : ∀ e ∈ l, e.conversationKey = r.conversationKey)
    (later : ∀ e ∈ l, sequence < e.sequence) (increasing : Increasing l) :
    (deliverAll n s l).Played n i r c fs sequence l := by
  induction l generalizing s fs sequence with
  | nil => exact ⟨sequence, by simpa [turnFrames, HttpAgentAdapter.deliverAll] using turn, Or.inl rfl⟩
  | cons e l ih =>
    have delivered := turn.deliverEvent attentive (own e List.mem_cons_self)
      (later e List.mem_cons_self)
    have next : HttpAgentAdapter.deliverAll n s (e :: l) =
        HttpAgentAdapter.deliverAll n (s.deliverEvent n e) l := by
      rw [HttpAgentAdapter.deliverAll, turn.active]
      rfl
    rw [next]
    cases terminal : e.isTerminal with
    | true =>
      rw [terminal] at delivered
      have stopped : HttpAgentAdapter.deliverAll n (s.deliverEvent n e) l = s.deliverEvent n e := by
        cases l with
        | nil => rfl
        | cons d l =>
          rw [HttpAgentAdapter.deliverAll, delivered.2]
          rfl
      rw [stopped]
      exact Played.ended terminal delivered.1
    | false =>
      rw [terminal] at delivered
      exact Played.cons terminal (ih delivered
        (fun d inside => own d (List.mem_cons_of_mem _ inside))
        (fun d inside => (List.pairwise_cons.mp increasing).1 d inside)
        (List.pairwise_cons.mp increasing).2)

/-! ### What is kept of early events -/

/-- The events that a tracker keeps, in order: all that matter up to the
first terminal one, and no other terminal one. -/
def keptOf : List OutboundEvent → List OutboundEvent
  | [] => []
  | e :: rest =>
      if e.isTerminal then e :: rest.filter (·.body.isBestEffort)
      else if e.body.isBestEffort then e :: keptOf rest
      else keptOf rest

theorem not_terminal_of_bestEffort (light : e.body.isBestEffort = true) :
    e.isTerminal = false := by
  unfold OutboundEvent.isTerminal
  cases body : e.body <;> simp_all [EventBody.isBestEffort, EventBody.isTerminal]

theorem not_bestEffort_of_terminal (terminal : e.isTerminal = true) :
    e.body.isBestEffort = false := by
  by_contra light
  rw [not_terminal_of_bestEffort ((Bool.not_eq_false _).mp light)] at terminal
  cases terminal

theorem keptOf_sublist (l : List OutboundEvent) : (keptOf l).Sublist l := by
  induction l with
  | nil => exact List.Sublist.refl _
  | cons e l ih =>
    rw [keptOf]
    split_ifs
    · exact (List.filter_sublist).cons_cons e
    · exact ih.cons_cons e
    · exact ih.cons e

theorem keptOf_perm (l : List OutboundEvent) :
    (keptOf l).Perm (l.filter (·.body.isBestEffort) ++ (turnEnd l).toList) := by
  induction l with
  | nil => exact List.Perm.refl _
  | cons e l ih =>
    rw [keptOf]
    split_ifs with terminal light
    · have heavy := not_bestEffort_of_terminal terminal
      rw [turnEnd, List.find?_cons_of_pos terminal, List.filter_cons_of_neg (by simp [heavy])]
      exact (List.perm_append_singleton e _).symm
    · rw [turnEnd, List.find?_cons_of_neg terminal, List.filter_cons_of_pos (by exact light)]
      exact ih.cons e
    · rw [turnEnd, List.find?_cons_of_neg terminal, List.filter_cons_of_neg (by exact light)]
      exact ih

theorem turnEnd_keptOf (l : List OutboundEvent) : turnEnd (keptOf l) = turnEnd l := by
  induction l with
  | nil => rfl
  | cons e l ih =>
    rw [keptOf]
    split_ifs with terminal light
    · rw [turnEnd, turnEnd, List.find?_cons_of_pos terminal, List.find?_cons_of_pos terminal]
    · rw [turnEnd, turnEnd, List.find?_cons_of_neg terminal, List.find?_cons_of_neg terminal]
      exact ih
    · rw [turnEnd, turnEnd, List.find?_cons_of_neg terminal]
      exact ih

theorem turnFrames_keptOf (l : List OutboundEvent) : turnFrames (keptOf l) = turnFrames l := by
  induction l with
  | nil => rfl
  | cons e l ih =>
    rw [keptOf]
    split_ifs with terminal light
    · rw [turnFrames_terminal terminal, turnFrames_terminal terminal]
    · rw [turnFrames_cons, turnFrames_cons e l, ih]
    · rw [ih, turnFrames_other]
      simp [isKept, terminal, light]

/-- What a tracker holds after these early events. -/
structure Holds (t : TurnTracker) (c : String) (seen : List (OutboundEvent × ℕ)) : Prop where
  correlationId : t.correlationId = c
  inactive : t.active = none
  buffered : t.buffered = (seen.map Prod.fst).filter (·.body.isBestEffort)
  bytes : t.bufferedBytes = ((seen.filter (·.1.body.isBestEffort)).map Prod.snd).sum
  terminal : t.terminal = turnEnd (seen.map Prod.fst)

/-- The early events fit into the buffer. -/
structure Fits (es : List (OutboundEvent × ℕ)) : Prop where
  count : (es.filter (·.1.body.isBestEffort)).length ≤ earlyEventLimit
  bytes : ((es.filter (·.1.body.isBestEffort)).map Prod.snd).sum ≤ earlyEventBytes

theorem Holds.replay {t : TurnTracker} {seen : List (OutboundEvent × ℕ)} (holds : Holds t c seen)
    (increasing : Increasing (seen.map Prod.fst)) : t.replay = keptOf (seen.map Prod.fst) := by
  have sublist := keptOf_sublist (seen.map Prod.fst)
  have sorted : Increasing (keptOf (seen.map Prod.fst)) := increasing.sublist sublist
  have perm := keptOf_perm (seen.map Prod.fst)
  rw [← holds.buffered, ← holds.terminal] at perm
  have perm' : t.replay.Perm (keptOf (seen.map Prod.fst)) :=
    (List.mergeSort_perm _ _).trans perm.symm
  have ordered : t.replay.Pairwise fun a b => a.sequence ≤ b.sequence := by
    have sorted' : (t.replay).Pairwise fun a b => decide (a.sequence ≤ b.sequence) = true :=
      List.pairwise_mergeSort (by simp; omega) (by simp; omega) _
    exact sorted'.imp (by simp)
  refine List.Perm.eq_of_pairwise ?_ ordered (sorted.imp fun h => h.le) perm'
  intro a b left right ab ba
  have left' := sublist.subset (perm'.subset left)
  have right' := sublist.subset right
  have distinct : ((seen.map Prod.fst).map (·.sequence)).Nodup :=
    List.pairwise_map.mpr (increasing.imp fun h => h.ne)
  exact List.inj_on_of_nodup_map distinct left' right' (Nat.le_antisymm ab ba)

/-- A new tracker holds nothing. -/
theorem holds_new {seen : List (OutboundEvent × ℕ)} (nothing : ∀ p ∈ seen, isKept p.1 = false)
    (conversationKey : String) (timer : Bool) : Holds (.new c conversationKey timer) c seen where
  correlationId := rfl
  inactive := rfl
  buffered := by
    refine (List.filter_eq_nil_iff.mpr fun e inside => ?_).symm
    obtain ⟨p, there, rfl⟩ := List.mem_map.mp inside
    simp [(Bool.or_eq_false_iff.mp (nothing p there)).2]
  bytes := by
    have none : seen.filter (·.1.body.isBestEffort) = [] :=
      List.filter_eq_nil_iff.mpr fun p there => by
        simp [(Bool.or_eq_false_iff.mp (nothing p there)).2]
    rw [none]
    rfl
  terminal := by
    refine (List.find?_eq_none.mpr fun e inside => ?_).symm
    obtain ⟨p, there, rfl⟩ := List.mem_map.mp inside
    simp [(Bool.or_eq_false_iff.mp (nothing p there)).1]

theorem Holds.skip {t : TurnTracker} {seen : List (OutboundEvent × ℕ)} (holds : Holds t c seen)
    (other : isKept p.1 = false) : Holds t c (seen ++ [p]) := by
  obtain ⟨quiet, light⟩ := Bool.or_eq_false_iff.mp other
  refine ⟨holds.correlationId, holds.inactive, ?_, ?_, ?_⟩
  · rw [holds.buffered]
    simp [light]
  · rw [holds.bytes]
    simp [light]
  · rw [holds.terminal, turnEnd, turnEnd, List.map_append, List.find?_append]
    simp [quiet]

theorem Holds.keep_terminal {t : TurnTracker} {seen : List (OutboundEvent × ℕ)}
    (holds : Holds t c seen) (terminal : p.1.isTerminal = true)
    (later : ∀ q ∈ seen, q.1.sequence < p.1.sequence) :
    t.keep p.1 p.2 = { t with terminal := t.terminal.or (some p.1) } := by
  rw [TurnTracker.keep, if_pos terminal]
  cases first : t.terminal with
  | none => rfl
  | some d =>
    have found : d ∈ seen.map Prod.fst := List.mem_of_find?_eq_some (holds.terminal.symm.trans first)
    obtain ⟨q, there, rfl⟩ := List.mem_map.mp found
    have earlier := later q there
    show (if p.1.sequence < q.1.sequence then _ else t) = _
    rw [if_neg (by omega), Option.some_or, ← first]

theorem Holds.keep_light {t : TurnTracker} {seen : List (OutboundEvent × ℕ)}
    (holds : Holds t c seen) (light : p.1.body.isBestEffort = true) (fits : Fits (seen ++ [p])) :
    t.keep p.1 p.2 =
      { t with buffered := t.buffered ++ [p.1], bufferedBytes := t.bufferedBytes + p.2 } := by
  have count : t.buffered.length + 1 ≤ earlyEventLimit := by
    have total := fits.count
    rw [List.filter_append, List.filter_cons_of_pos (by exact light), List.length_append] at total
    rw [holds.buffered, List.filter_map, List.length_map]
    exact total
  have bytes : t.bufferedBytes + p.2 ≤ earlyEventBytes := by
    have total := fits.bytes
    rw [List.filter_append, List.filter_cons_of_pos (by exact light), List.map_append,
      List.sum_append] at total
    rw [holds.bytes]
    simpa using total
  rw [TurnTracker.keep, if_neg (by simp [not_terminal_of_bestEffort light]), if_neg (by omega)]

/-- One more event is kept. -/
theorem Holds.keep {t : TurnTracker} {seen : List (OutboundEvent × ℕ)} (holds : Holds t c seen)
    (kept : isKept p.1 = true) (later : ∀ q ∈ seen, q.1.sequence < p.1.sequence)
    (fits : Fits (seen ++ [p])) : Holds (t.keep p.1 p.2) c (seen ++ [p]) := by
  cases terminal : p.1.isTerminal with
  | true =>
    have heavy := not_bestEffort_of_terminal terminal
    rw [holds.keep_terminal terminal later]
    refine ⟨holds.correlationId, holds.inactive, ?_, ?_, ?_⟩
    · simp [holds.buffered, heavy]
    · simp [holds.bytes, heavy]
    · simp [holds.terminal, turnEnd, terminal]
  | false =>
    have light : p.1.body.isBestEffort = true := by simpa [isKept, terminal] using kept
    rw [holds.keep_light light fits]
    refine ⟨holds.correlationId, holds.inactive, ?_, ?_, ?_⟩
    · simp [holds.buffered, light]
    · simp [holds.bytes, light]
    · simp [holds.terminal, turnEnd, terminal]

/-! ### Before the turn begins -/

/-- The request is being posted, and the map holds what is kept. -/
structure Early (s : HttpAgentAdapter) (i : ℕ) (r : Request) (c : String)
    (seen : List (OutboundEvent × ℕ)) : Prop where
  request : s.requests i = some r
  tracker : (s.trackers c = none ∧ ∀ p ∈ seen, isKept p.1 = false) ∨
    ∃ n, s.trackers c = some n ∧ Holds (s.objects n) c seen

variable {seen : List (OutboundEvent × ℕ)}

theorem Early.acceptEvent (early : s.Early i r c seen) (own : p.1.correlationId = c)
    (later : ∀ q ∈ seen, q.1.sequence < p.1.sequence) (fits : Fits (seen ++ [p])) :
    (s.acceptEvent p.1 p.2).Early i r c (seen ++ [p]) := by
  unfold HttpAgentAdapter.acceptEvent
  rw [own]
  rcases early.tracker with ⟨none, nothing⟩ | ⟨n, there, holds⟩
  · simp only [none]
    split_ifs with kept
    · refine ⟨early.request, Or.inr ⟨s.nextTracker, ?_, ?_⟩⟩
      · simp [addTracker, TurnTracker.keep_frame, TurnTracker.new]
      · have new := (holds_new (c := c) nothing p.1.conversationKey true).keep kept later fits
        simpa [addTracker] using new
    · refine ⟨early.request, Or.inl ⟨none, fun q inside => ?_⟩⟩
      rcases List.mem_append.mp inside with before | last
      · exact nothing q before
      · obtain rfl := List.mem_singleton.mp last
        exact (Bool.not_eq_true _).mp kept
  · simp only [there, holds.inactive, Option.isSome_none, Bool.false_eq_true, if_false]
    split_ifs with kept
    · exact ⟨early.request, Or.inr ⟨n, there, by simpa using holds.keep kept later fits⟩⟩
    · exact ⟨early.request, Or.inr ⟨n, there, holds.skip ((Bool.not_eq_true _).mp kept)⟩⟩

theorem Fits.of_append {a b : List (OutboundEvent × ℕ)} (fits : Fits (a ++ b)) : Fits a := by
  have count := fits.count
  have bytes := fits.bytes
  rw [List.filter_append] at count bytes
  rw [List.length_append] at count
  rw [List.map_append, List.sum_append] at bytes
  exact ⟨by omega, by omega⟩

theorem Early.arrive (early : s.Early i r c seen) (sequel : s.Sequel r c sequence es)
    (later : ∀ q ∈ seen, ∀ p ∈ es, q.1.sequence < p.1.sequence) (fits : Fits (seen ++ es)) :
    (s.arrive es).Early i r c (seen ++ es) := by
  induction es generalizing s seen sequence with
  | nil => simpa [HttpAgentAdapter.arrive] using early
  | cons p es ih =>
    have split : seen ++ p :: es = seen ++ [p] ++ es := by simp
    rw [split] at fits ⊢
    have accepted := early.acceptEvent (sequel.own p List.mem_cons_self).1
      (fun q inside => later q inside p List.mem_cons_self) fits.of_append
    refine ih (s := s.handleCoreEvent p.1 p.2) ?_ sequel.tail ?_ fits
    · rw [sequel.head]
      exact ⟨accepted.request, accepted.tracker⟩
    · intro q inside p' inside'
      rcases List.mem_append.mp inside with before | last
      · exact later q before p' (List.mem_cons_of_mem _ inside')
      · obtain rfl := List.mem_singleton.mp last
        exact sequel.tail.later p' inside'

theorem Sequel.arrive {es' : List (OutboundEvent × ℕ)}
    (sequel : s.Sequel r c sequence (es ++ es')) : (s.arrive es).Sequel r c sequence es' := by
  induction es generalizing s sequence with
  | nil => exact sequel
  | cons p es ih =>
    have rest := ih (s := s.handleCoreEvent p.1 p.2) sequel.tail
    exact { rest with
      later := fun q inside =>
        sequel.later q (List.mem_cons_of_mem _ (List.mem_append_right _ inside)) }

/-- Of the state only the ids that it remembers matter. -/
theorem Sequel.of_sameIds {t : HttpAgentAdapter} (sequel : s.Sequel r c sequence es)
    (same : SameIds s t) {later : ℕ} (bound : ∀ p ∈ es, later < p.1.sequence) :
    t.Sequel r c later es :=
  { sequel with
    later := bound
    new := fun p inside => same.ids ▸ sequel.new p inside }

/-! ### The turn begins -/

theorem claimTracker_holds (early : s.Early i r c seen) :
    (s.claimTracker c r.conversationKey).1.trackers c =
        some (s.claimTracker c r.conversationKey).2 ∧
      Holds ((s.claimTracker c r.conversationKey).1.objects
        (s.claimTracker c r.conversationKey).2) c seen ∧
      (s.claimTracker c r.conversationKey).1.requests i = some r := by
  unfold HttpAgentAdapter.claimTracker
  rcases early.tracker with ⟨none, nothing⟩ | ⟨n, there, holds⟩
  · rw [none]
    have new := holds_new (c := c) nothing r.conversationKey false
    exact ⟨by simp [addTracker, TurnTracker.new], by simpa [addTracker] using new, early.request⟩
  · rw [there]
    exact ⟨there, holds, early.request⟩

theorem startStream_eq (attentive : r.Attentive) (stream : r.streamRequested = true) :
    (r.setStage (.awaiting n)).startStream n c = (r.sofar n c [], false) := by
  simp [Request.startStream, Request.push, Request.addFrame, Request.setStage, Request.sofar,
    attentive.unanswered, attentive.takes, stream]

theorem activate_inTurn (mapped : s.trackers c = some n) (id : (s.objects n).correlationId = c)
    (attentive : r.Attentive) : (s.activate n i r).InTurn n i r c [] 0 := by
  have present : r.res.destroyed = false := by rw [attentive.unanswered]
  cases stream : r.streamRequested with
  | false =>
    simp only [activate, stream, Bool.false_and, Bool.false_eq_true, if_false]
    exact ⟨mapped, by simpa using id, by simp [stream], by simp [Request.sofar, stream]⟩
  | true =>
    have started := startStream_eq (n := n) (c := c) attentive stream
    simp only [activate, stream, present, Bool.not_false, Bool.and_self, if_true, onStream,
      setRequest_requests, setRequest_objects, setTracker_objects, Function.update_self, id, started]
    exact ⟨mapped, by simp, by simp [stream], by simp⟩

/-- The early events are delivered when the turn begins. -/
theorem Early.beginTurn (early : s.Early i r c seen) (attentive : r.Attentive)
    (own : ∀ p ∈ seen, p.1.conversationKey = r.conversationKey)
    (positive : ∀ p ∈ seen, 0 < p.1.sequence) (increasing : Increasing (seen.map Prod.fst)) :
    ∃ n t, s.beginTurn c i r = some t ∧ t.Played n i r c [] 0 (seen.map Prod.fst) := by
  obtain ⟨mapped, holds, -⟩ := claimTracker_holds early
  have turn := activate_inTurn mapped holds.correlationId attentive (i := i)
  generalize claimed : s.claimTracker c r.conversationKey = claim at mapped holds turn
  obtain ⟨u, n⟩ := claim
  have emptied : ((u.activate n i r).setTracker n { (u.activate n i r).objects n with
      buffered := [], bufferedBytes := 0, terminal := none }).InTurn n i r c [] 0 :=
    ⟨turn.mapped, by simp [turn.correlationId], by simp [turn.active], turn.request⟩
  have members : ∀ e ∈ keptOf (seen.map Prod.fst), ∃ p ∈ seen, p.1 = e := fun e inside =>
    List.mem_map.mp ((keptOf_sublist _).subset inside)
  have played := emptied.deliverAll (l := keptOf (seen.map Prod.fst)) attentive
    (fun e inside => by
      obtain ⟨p, there, rfl⟩ := members e inside
      exact own p there)
    (fun e inside => by
      obtain ⟨p, there, rfl⟩ := members e inside
      exact positive p there)
    (increasing.sublist (keptOf_sublist _))
  have begun : s.beginTurn c i r = some (HttpAgentAdapter.deliverAll n
      ((u.activate n i r).setTracker n { (u.activate n i r).objects n with
        buffered := [], bufferedBytes := 0, terminal := none }) (keptOf (seen.map Prod.fst))) := by
    have idle : (u.objects n).active.isSome = false := by rw [holds.inactive]; rfl
    rw [HttpAgentAdapter.beginTurn, claimed, ← holds.replay increasing]
    exact if_neg (by simp [idle])
  refine ⟨n, _, begun, ?_⟩
  unfold Played at played ⊢
  rw [turnEnd_keptOf, turnFrames_keptOf] at played
  cases last : turnEnd (seen.map Prod.fst) with
  | some e =>
    rw [last] at played
    exact played
  | none =>
    rw [last] at played
    obtain ⟨sequence, turn, origin⟩ := played
    refine ⟨sequence, turn, origin.imp_right ?_⟩
    rintro ⟨d, inside, same⟩
    exact ⟨d, (keptOf_sublist _).subset inside, same⟩

/-! ### The answer -/

/-- What the client has been sent, and how far the handler is. -/
def answer (r : Request) : Stage × List Frame × List (ℕ × JsonBody) :=
  (r.stage, r.res.frames, r.res.json)

theorem Ended.settle (ended : s.Ended i (r.finished n c fs e) c) (attentive : r.Attentive) :
    ∃ t, s.settle i = some t ∧ (t.requests i).map answer = some
      (if r.streamRequested then (.done, .accepted c :: fs, [])
      else (.done, [], [(terminalStatus e, .turn r.agentId r.conversationKey c e)])) := by
  have request := ended.request
  cases stream : r.streamRequested with
  | true =>
    have finished : r.finished n c fs e = { r with
        stage := .resolved c e
        res := ⟨true, true, false, .accepted c :: fs, []⟩
        sse := some ⟨true, false, n⟩ } := by simp [Request.finished, stream]
    rw [finished] at request
    refine ⟨s.conclude i _, by simp only [HttpAgentAdapter.settle, request, stream, if_true]; rfl, ?_⟩
    simp [conclude, answer, Request.setStage]
  | false =>
    have finished : r.finished n c fs e = r.setStage (.resolved c e) := by
      simp [Request.finished, stream]
    rw [finished] at request
    have step : s.settle i = some (s.conclude i ((r.setStage (.resolved c e)).sendJson
        (terminalStatus e) (.turn r.agentId r.conversationKey c e))) := by
      simp [HttpAgentAdapter.settle, request, Request.setStage, stream]
    refine ⟨_, step, ?_⟩
    simp [conclude, answer, Request.setStage, Request.sendJson, ServerResponse.sendJson,
      attentive.unanswered]

/-- Some events, the answer of the core, the other events, and the handler
of the request at last. -/
def schedule (before after : List (OutboundEvent × ℕ)) (i : ℕ) (c : String) : List Action :=
  before.map (fun p => .event p.1 p.2) ++ .answered i c ::
    (after.map (fun p => .event p.1 p.2) ++ [.settle i])

end HttpAgentAdapter

end OmpBundler.HttpAdapter
