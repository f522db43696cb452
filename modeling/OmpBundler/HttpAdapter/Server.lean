import Mathlib.Logic.Function.Basic
import Mathlib.Tactic.Simps.Basic
import Mathlib.Tactic.SplitIfs
import OmpBundler.Contracts
import OmpBundler.HttpAdapter.Sse
import OmpBundler.Library.Transition
import OmpBundler.Library.Utf16

/-!
The HTTP adapter: turns, their trackers and their timers.

A request is handled in pieces that run without interruption: it is checked
and posted to the core, the answer of the core begins the turn, and the end
of the turn answers the request. Events of the core, two kinds of timers,
the client who goes away and `close` come in between in any order. Trackers
are objects that timers and streams refer to by number, so one that has left
the map is still there.

Reading a body is not modelled: a request or an event is what is left when
its body has been read.
-/

namespace OmpBundler.HttpAdapter

open Library

def recentEventLimit : ℕ := 1000
def earlyEventLimit : ℕ := 256
def earlyEventBytes : ℕ := 256 * 1024
def maxConversationKeyLength : ℕ := 512

/-! ### Responses -/

/-- What `formatSse` is applied to. -/
inductive Frame where
  | accepted (correlationId : String)
  | event (name : SseName) (event : OutboundEvent)
  | error (message : String)
  deriving DecidableEq, Repr

/-- The frames that end a turn. -/
def Frame.isTerminal : Frame → Bool
  | .accepted _ => false
  | .event name _ => name.isTerminal
  | .error _ => true

/-- The id of a frame. -/
def Frame.id : Frame → Option ℕ
  | .event _ e => some e.sequence
  | _ => none

/-- The body of a JSON answer. -/
inductive JsonBody where
  | error (message : String)
  | turn (agentId conversationKey correlationId : String) (event : OutboundEvent)
  deriving DecidableEq, Repr

structure ServerResponse where
  headersSent : Bool
  ended : Bool
  destroyed : Bool
  /-- The frames that have been written. -/
  frames : List Frame
  /-- The JSON answers that have been sent, with their status. -/
  json : List (ℕ × JsonBody)

def ServerResponse.sendJson (res : ServerResponse) (status : ℕ) (body : JsonBody) :
    ServerResponse :=
  if res.headersSent ∨ res.ended ∨ res.destroyed then res
  else { res with headersSent := true, ended := true, json := res.json ++ [(status, body)] }

/-- The state of an `SseResponse`. -/
structure SseResponse where
  closed : Bool
  /-- Whether its handler is attached to the response. -/
  listening : Bool
  /-- The tracker that it tells when it detaches. -/
  tracker : ℕ

/-- How far the handler of a request has come. -/
inductive Stage where
  | posting
  /-- It waits for the end of a turn. -/
  | awaiting (tracker : ℕ)
  | resolved (correlationId : String) (event : OutboundEvent)
  | rejected (status : ℕ) (message : String)
  | done
  deriving DecidableEq, Repr

structure Request where
  agentId : String
  conversationKey : String
  streamRequested : Bool
  /-- Whether the connection takes the frame with this index without a
  backlog. -/
  takes : ℕ → Bool
  /-- Whether the last frame can be written. -/
  ends : Bool
  stage : Stage
  res : ServerResponse
  sse : Option SseResponse

namespace Request

/-- The key of the conversation. -/
def conversation (r : Request) : String × String := (r.agentId, r.conversationKey)

def setStage (r : Request) (stage : Stage) : Request := { r with stage := stage }

def sendJson (r : Request) (status : ℕ) (body : JsonBody) : Request :=
  { r with res := r.res.sendJson status body }

/-- Close the stream. -/
def shut (r : Request) (sse : SseResponse) : Request :=
  { r with sse := some { sse with closed := true, listening := false } }

def destroyIf (r : Request) (destroy : Bool) : Request :=
  { r with res := { r.res with destroyed := r.res.destroyed || destroy } }

/-- Whether the stream tells its tracker is the second component, here and
below. -/
def detach (r : Request) (destroy : Bool) : Request × Bool :=
  match r.sse with
  | none => (r, false)
  | some sse => if sse.closed then (r, false) else ((r.shut sse).destroyIf destroy, true)

def addFrame (r : Request) (frame : Frame) : Request :=
  { r with res := { r.res with headersSent := true, frames := r.res.frames ++ [frame] } }

def push (r : Request) (frame : Frame) : Request × Bool :=
  match r.sse with
  | none => (r, false)
  | some sse =>
      if sse.closed then (r, false)
      else if r.res.destroyed then r.detach true
      else
        let taken := r.takes r.res.frames.length
        let r := r.addFrame frame
        if taken then (r, false) else r.detach true

def finish (r : Request) (frame : Frame) : Request :=
  match r.sse with
  | none => r
  | some sse =>
      if sse.closed then r
      else
        let r := r.shut sse
        if r.res.destroyed then r
        else if r.ends then
          let r := r.addFrame frame
          { r with res := { r.res with ended := true } }
        else r.destroyIf true

/-- Attach a stream to the response and start it. -/
def startStream (r : Request) (tracker : ℕ) (correlationId : String) : Request × Bool :=
  { r with sse := some ⟨false, true, tracker⟩ }.push (.accepted correlationId)

end Request

/-! ### Turns -/

structure ActiveTurn where
  conversationKey : String
  /-- The request whose promise it settles. -/
  request : ℕ
  lastSequence : ℕ
  /-- Whether the request has a stream that is attached. -/
  stream : Bool

structure TurnTracker where
  correlationId : String
  conversationKey : String
  buffered : List OutboundEvent
  bufferedBytes : ℕ
  terminal : Option OutboundEvent
  active : Option ActiveTurn
  /-- Whether the timer that removes an early tracker is armed. -/
  expiryTimer : Bool
  /-- Whether the timer of the turn is armed. -/
  turnTimer : Bool

namespace TurnTracker

def new (correlationId conversationKey : String) (expiryTimer : Bool) : TurnTracker :=
  ⟨correlationId, conversationKey, [], 0, none, none, expiryTimer, false⟩

/-- The turn is over. -/
def reset (t : TurnTracker) : TurnTracker :=
  { t with
    buffered := []
    bufferedBytes := 0
    terminal := none
    active := none
    expiryTimer := false
    turnTimer := false }

/-- Keep an early event: a terminal one if there is no earlier one, another
one while there is room. -/
def keep (t : TurnTracker) (event : OutboundEvent) (bytes : ℕ) : TurnTracker :=
  if event.isTerminal then
    match t.terminal with
    | some terminal =>
        if event.sequence < terminal.sequence then { t with terminal := some event } else t
    | none => { t with terminal := some event }
  else if t.buffered.length ≥ earlyEventLimit ∨ t.bufferedBytes + bytes > earlyEventBytes then t
  else { t with buffered := t.buffered ++ [event], bufferedBytes := t.bufferedBytes + bytes }

/-- Only what is kept changes. -/
theorem keep_frame (t : TurnTracker) (event : OutboundEvent) (bytes : ℕ) :
    (t.keep event bytes).active = t.active ∧
      (t.keep event bytes).correlationId = t.correlationId ∧
      (t.keep event bytes).expiryTimer = t.expiryTimer ∧
      (t.keep event bytes).turnTimer = t.turnTimer := by
  unfold keep
  cases t.terminal <;> simp only [] <;> split_ifs <;> exact ⟨rfl, rfl, rfl, rfl⟩

/-- The early events in the order of their sequence numbers. -/
def replay (t : TurnTracker) : List OutboundEvent :=
  (t.buffered ++ t.terminal.toList).mergeSort fun left right => left.sequence ≤ right.sequence

end TurnTracker

structure HttpAdapterConfig where
  apiToken : Option String
  agents : List String

structure HttpAgentAdapter where
  closing : Bool
  inFlightConversations : List (String × String)
  /-- The map from a correlation to its tracker. -/
  trackers : String → Option ℕ
  objects : ℕ → TurnTracker
  nextTracker : ℕ
  requests : ℕ → Option Request
  nextRequest : ℕ
  recentEventIds : List String
  recentEventOrder : List String
  /-- Every id that has been remembered since the start. -/
  remembered : List String
  /-- Those since the adapter has forgotten them all. -/
  rememberedSince : List String

namespace HttpAgentAdapter

variable (s : HttpAgentAdapter)

def fresh : HttpAgentAdapter where
  closing := false
  inFlightConversations := []
  trackers _ := none
  objects _ := .new "" "" false
  nextTracker := 0
  requests _ := none
  nextRequest := 0
  recentEventIds := []
  recentEventOrder := []
  remembered := []
  rememberedSince := []

@[simps]
def setTracker (n : ℕ) (t : TurnTracker) : HttpAgentAdapter :=
  { s with objects := Function.update s.objects n t }

@[simps]
def setRequest (i : ℕ) (r : Request) : HttpAgentAdapter :=
  { s with requests := Function.update s.requests i (some r) }

/-- Change a request that is there. -/
def updateRequest (i : ℕ) (f : Request → Request) : HttpAgentAdapter :=
  match s.requests i with
  | some r => s.setRequest i (f r)
  | none => s

/-- Remove a tracker from the map, if it is the one in the map. -/
def removeTracker (n : ℕ) : HttpAgentAdapter :=
  let correlationId := (s.objects n).correlationId
  if s.trackers correlationId = some n then
    { s with trackers := Function.update s.trackers correlationId none }
  else s

section Remove

variable {s}

@[simp] theorem removeTracker_objects (n : ℕ) : (s.removeTracker n).objects = s.objects := by
  simp only [removeTracker]
  split_ifs <;> rfl

@[simp] theorem removeTracker_requests (n : ℕ) : (s.removeTracker n).requests = s.requests := by
  simp only [removeTracker]
  split_ifs <;> rfl

@[simp] theorem removeTracker_nextTracker (n : ℕ) :
    (s.removeTracker n).nextTracker = s.nextTracker := by
  simp only [removeTracker]
  split_ifs <;> rfl

@[simp] theorem removeTracker_nextRequest (n : ℕ) :
    (s.removeTracker n).nextRequest = s.nextRequest := by
  simp only [removeTracker]
  split_ifs <;> rfl

@[simp] theorem removeTracker_locks (n : ℕ) :
    (s.removeTracker n).inFlightConversations = s.inFlightConversations := by
  simp only [removeTracker]
  split_ifs <;> rfl

/-- The tracker is no longer in the map, and the others are. -/
theorem removeTracker_trackers (n : ℕ) (c : String) : (s.removeTracker n).trackers c =
    if c = (s.objects n).correlationId ∧ s.trackers c = some n then none else s.trackers c := by
  simp only [removeTracker]
  by_cases same : c = (s.objects n).correlationId
  · subst same
    split_ifs <;> simp_all
  · split_ifs <;> simp_all

end Remove

/-- A stream has detached from its turn. -/
def onDetach (n i : ℕ) : HttpAgentAdapter :=
  match (s.objects n).active with
  | some active =>
      if active.request = i then
        s.setTracker n { s.objects n with active := some { active with stream := false } }
      else s
  | none => s

/-- Let the stream of a request do something. -/
def onStream (i : ℕ) (f : Request → Request × Bool) : HttpAgentAdapter :=
  match s.requests i with
  | none => s
  | some r =>
      let t := s.setRequest i (f r).1
      match (f r).2, (f r).1.sse with
      | true, some sse => t.onDetach sse.tracker i
      | _, _ => t

/-- The turn of a tracker is over: its stream gets the last frame and its
promise is settled. -/
def endTurn (n : ℕ) (active : ActiveTurn) (last : Request → Request) (stage : Stage) :
    HttpAgentAdapter :=
  let s := (s.setTracker n (s.objects n).reset).removeTracker n
  s.updateRequest active.request fun r =>
    (if active.stream then last r else r).setStage stage

/-- The name of the last frame. -/
def sseEvent (event : OutboundEvent) : SseName :=
  match event.body with
  | .turnReply _ _ _ => .completed
  | .turnCancelled => .cancelled
  | _ => .error

def completeTurn (n : ℕ) (event : OutboundEvent) : HttpAgentAdapter :=
  match (s.objects n).active with
  | none => s
  | some active =>
      s.endTurn n active (fun r => r.finish (.event (sseEvent event) event))
        (.resolved (s.objects n).correlationId event)

def failTurn (n : ℕ) (status : ℕ) (message : String) (destroyStream : Bool) :
    HttpAgentAdapter :=
  match (s.objects n).active with
  | none => s
  | some active =>
      s.endTurn n active
        (fun r => if destroyStream then (r.detach true).1 else r.finish (.error message))
        (.rejected status message)

def pushEvent (active : ActiveTurn) (name : SseName) (event : OutboundEvent) : HttpAgentAdapter :=
  if active.stream then s.onStream active.request fun r => r.push (.event name event) else s

def deliverEvent (n : ℕ) (event : OutboundEvent) : HttpAgentAdapter :=
  match (s.objects n).active with
  | none => s
  | some active =>
      if event.conversationKey ≠ active.conversationKey then
        s.failTurn n 502 "core returned a mismatched conversation" false
      else if event.sequence ≤ active.lastSequence then
        if event.isTerminal then s.completeTurn n event else s
      else
        let s := s.setTracker n
          { s.objects n with active := some { active with lastSequence := event.sequence } }
        match event.body with
        | .turnDelta _ => s.pushEvent active .delta event
        | .turnProgress _ => s.pushEvent active .progress event
        | _ => if event.isTerminal then s.completeTurn n event else s

/-- Put a new tracker into the map. -/
def addTracker (t : TurnTracker) : HttpAgentAdapter :=
  { s.setTracker s.nextTracker t with
    trackers := Function.update s.trackers t.correlationId (some s.nextTracker)
    nextTracker := s.nextTracker + 1 }

/-- The events that an early tracker may keep. -/
def isKept (event : OutboundEvent) : Bool := event.isTerminal || event.body.isBestEffort

def acceptEvent (event : OutboundEvent) (bytes : ℕ) : HttpAgentAdapter :=
  match s.trackers event.correlationId with
  | some n =>
      if (s.objects n).active.isSome then s.deliverEvent n event
      else if isKept event then s.setTracker n ((s.objects n).keep event bytes)
      else s
  | none =>
      if isKept event then
        s.addTracker ((TurnTracker.new event.correlationId event.conversationKey true).keep
          event bytes)
      else s

/-- Beyond the limit the oldest id is taken out again. -/
def rememberEvent (eventId : String) : HttpAgentAdapter :=
  let ids := if eventId ∈ s.recentEventIds then s.recentEventIds else s.recentEventIds ++ [eventId]
  let order := s.recentEventOrder ++ [eventId]
  let full := decide (order.length > recentEventLimit)
  { s with
    recentEventIds := if full then ids.filter fun id => order.head? ≠ some id else ids
    recentEventOrder := if full then order.tail else order
    remembered := s.remembered ++ [eventId]
    rememberedSince := s.rememberedSince ++ [eventId] }

/-- What `parseOutboundEvent` checks of the fields that the model has. -/
def isWellFormed (event : OutboundEvent) : Bool :=
  decide (event.eventId ≠ "" ∧ event.conversationKey ≠ "" ∧ event.correlationId ≠ "" ∧
    1 ≤ event.sequence) &&
  match event.body with
  | .turnDelta text => decide (text ≠ "")
  | _ => true

def handleCoreEvent (event : OutboundEvent) (bytes : ℕ) : HttpAgentAdapter :=
  if ¬ isWellFormed event then s
  else if event.eventId ∈ s.recentEventIds then s
  else (s.acceptEvent event bytes).rememberEvent event.eventId

section Ids

variable {s} {t : HttpAgentAdapter}

/-- Whether the adapter closes, and the ids it remembers, are the same. -/
structure SameIds (s t : HttpAgentAdapter) : Prop where
  closing : t.closing = s.closing
  ids : t.recentEventIds = s.recentEventIds
  order : t.recentEventOrder = s.recentEventOrder
  remembered : t.remembered = s.remembered
  since : t.rememberedSince = s.rememberedSince

theorem SameIds.refl (s : HttpAgentAdapter) : SameIds s s := ⟨rfl, rfl, rfl, rfl, rfl⟩

theorem SameIds.setTracker (same : SameIds s t) (n : ℕ) (tracker : TurnTracker) :
    SameIds s (t.setTracker n tracker) :=
  ⟨same.closing, same.ids, same.order, same.remembered, same.since⟩

theorem SameIds.setRequest (same : SameIds s t) (i : ℕ) (r : Request) :
    SameIds s (t.setRequest i r) :=
  ⟨same.closing, same.ids, same.order, same.remembered, same.since⟩

theorem SameIds.addTracker (same : SameIds s t) (tracker : TurnTracker) :
    SameIds s (t.addTracker tracker) :=
  ⟨same.closing, same.ids, same.order, same.remembered, same.since⟩

theorem SameIds.updateRequest (same : SameIds s t) (i : ℕ) (f : Request → Request) :
    SameIds s (t.updateRequest i f) := by
  unfold HttpAgentAdapter.updateRequest
  cases t.requests i with
  | none => exact same
  | some r => exact same.setRequest i _

theorem SameIds.removeTracker (same : SameIds s t) (n : ℕ) : SameIds s (t.removeTracker n) := by
  simp only [HttpAgentAdapter.removeTracker]
  split_ifs
  · exact ⟨same.closing, same.ids, same.order, same.remembered, same.since⟩
  · exact same

theorem SameIds.onDetach (same : SameIds s t) (n i : ℕ) : SameIds s (t.onDetach n i) := by
  unfold HttpAgentAdapter.onDetach
  cases (t.objects n).active with
  | none => exact same
  | some active =>
    simp only []
    split_ifs
    · exact same.setTracker n _
    · exact same

theorem SameIds.onStream (same : SameIds s t) (i : ℕ) (f : Request → Request × Bool) :
    SameIds s (t.onStream i f) := by
  unfold HttpAgentAdapter.onStream
  cases t.requests i with
  | none => exact same
  | some r =>
    simp only []
    split
    · exact (same.setRequest i _).onDetach _ i
    · exact same.setRequest i _

theorem SameIds.endTurn (same : SameIds s t) (n : ℕ) (active : ActiveTurn)
    (last : Request → Request) (stage : Stage) : SameIds s (t.endTurn n active last stage) :=
  ((same.setTracker n _).removeTracker n).updateRequest _ _

theorem SameIds.completeTurn (same : SameIds s t) (n : ℕ) (event : OutboundEvent) :
    SameIds s (t.completeTurn n event) := by
  unfold HttpAgentAdapter.completeTurn
  cases (t.objects n).active with
  | none => exact same
  | some active => exact same.endTurn n active _ _

theorem SameIds.failTurn (same : SameIds s t) (n status : ℕ) (message : String) (destroy : Bool) :
    SameIds s (t.failTurn n status message destroy) := by
  unfold HttpAgentAdapter.failTurn
  cases (t.objects n).active with
  | none => exact same
  | some active => exact same.endTurn n active _ _

theorem SameIds.pushEvent (same : SameIds s t) (active : ActiveTurn) (name : SseName)
    (event : OutboundEvent) : SameIds s (t.pushEvent active name event) := by
  unfold HttpAgentAdapter.pushEvent
  split_ifs
  · exact same.onStream _ _
  · exact same

theorem SameIds.deliverEvent (same : SameIds s t) (n : ℕ) (event : OutboundEvent) :
    SameIds s (t.deliverEvent n event) := by
  unfold HttpAgentAdapter.deliverEvent
  cases (t.objects n).active with
  | none => exact same
  | some active =>
    simp only []
    split_ifs
    · exact same.failTurn n _ _ _
    · exact same.completeTurn n event
    · exact same
    · cases event.body
      case turnDelta => exact (same.setTracker n _).pushEvent _ _ _
      case turnProgress => exact (same.setTracker n _).pushEvent _ _ _
      all_goals exact (same.setTracker n _).completeTurn n event
    · cases event.body
      case turnDelta => exact (same.setTracker n _).pushEvent _ _ _
      case turnProgress => exact (same.setTracker n _).pushEvent _ _ _
      all_goals exact same.setTracker n _

theorem SameIds.acceptEvent (same : SameIds s t) (event : OutboundEvent) (bytes : ℕ) :
    SameIds s (t.acceptEvent event bytes) := by
  unfold HttpAgentAdapter.acceptEvent
  cases t.trackers event.correlationId with
  | none =>
    simp only []
    split_ifs
    · exact same.addTracker _
    · exact same
  | some n =>
    simp only []
    split_ifs
    · exact same.deliverEvent n event
    · exact same.setTracker n _
    · exact same

end Ids

/-! ### Requests -/

/-- The body of a request. -/
inductive PublicBody where
  | tooLarge
  | malformed
  | message (text : String)
  deriving DecidableEq, Repr

/-- A request whose body has been read. -/
structure PublicRequest where
  authorization : Option String
  agentId : String
  conversationKey : String
  isJson : Bool
  body : PublicBody
  streamRequested : Bool
  /-- The client has gone already. -/
  gone : Bool
  takes : ℕ → Bool
  ends : Bool

def authenticatePublic (config : HttpAdapterConfig) (authorization : Option String) : Bool :=
  match config.apiToken with
  | none | some "" => true
  | some token =>
      match authorization with
      | none => false
      | some value => value = "Bearer " ++ token

/-- Why a request is refused before it is posted, if it is. -/
def refusal (config : HttpAdapterConfig) (q : PublicRequest) : Option (ℕ × String) :=
  let length := (Utf16.codeUnits q.conversationKey).length
  if ¬ authenticatePublic config q.authorization then some (401, "invalid bearer token")
  else if q.agentId ∉ config.agents then some (404, "unknown agent")
  else if length = 0 ∨ length > maxConversationKeyLength then
    some (400, s!"conversationKey must contain 1-{maxConversationKeyLength} characters")
  else if ¬ q.isJson then some (415, "content-type must be application/json")
  else
    match q.body with
    | .tooLarge => some (413, "request body too large")
    | .malformed => some (400, "body must be \x7b\"message\":\"non-empty text\"\x7d")
    | .message _ => none

def PublicRequest.opened (q : PublicRequest) : Request where
  agentId := q.agentId
  conversationKey := q.conversationKey
  streamRequested := q.streamRequested
  takes := q.takes
  ends := q.ends
  stage := .posting
  res := ⟨false, false, q.gone, [], []⟩
  sse := none

def addRequest (r : Request) : HttpAgentAdapter :=
  { s.setRequest s.nextRequest r with nextRequest := s.nextRequest + 1 }

/-- `handleMessage` up to the request to the core. -/
def handleMessage (config : HttpAdapterConfig) (q : PublicRequest) : HttpAgentAdapter :=
  let r := q.opened
  match refusal config q with
  | some (status, message) => s.addRequest ((r.sendJson status (.error message)).setStage .done)
  | none =>
      if r.conversation ∈ s.inFlightConversations then
        s.addRequest ((r.sendJson 409
          (.error "conversation already has an in-flight turn")).setStage .done)
      else
        { s.addRequest r with
          inFlightConversations := s.inFlightConversations ++ [r.conversation] }

/-- The handler of a request returns. -/
def conclude (i : ℕ) (r : Request) : HttpAgentAdapter :=
  { s.setRequest i (r.setStage .done) with
    inFlightConversations := s.inFlightConversations.erase r.conversation }

/-- The handler of a request throws. -/
def reject (i : ℕ) (r : Request) (status : ℕ) (message : String) : HttpAgentAdapter :=
  s.conclude i
    (if r.res.destroyed ∨ r.res.headersSent then r else r.sendJson status (.error message))

/-- Deliver early events while the turn goes on. -/
def deliverAll (n : ℕ) : HttpAgentAdapter → List OutboundEvent → HttpAgentAdapter
  | s, [] => s
  | s, event :: rest =>
      if (s.objects n).active.isSome then deliverAll n (s.deliverEvent n event) rest else s

/-- The tracker of a correlation, a new one if there is none. -/
def claimTracker (correlationId conversationKey : String) : HttpAgentAdapter × ℕ :=
  match s.trackers correlationId with
  | some n => (s, n)
  | none => (s.addTracker (.new correlationId conversationKey false), s.nextTracker)

/-- Make the turn of a tracker the turn of a request. -/
def activate (n i : ℕ) (r : Request) : HttpAgentAdapter :=
  let stream := r.streamRequested && !r.res.destroyed
  let s := (s.setTracker n { s.objects n with
    expiryTimer := false
    turnTimer := true
    active := some ⟨r.conversationKey, i, 0, stream⟩ }).setRequest i (r.setStage (.awaiting n))
  if stream then s.onStream i fun r => r.startStream n (s.objects n).correlationId else s

/-- `none` when the correlation is in use. -/
def beginTurn (correlationId : String) (i : ℕ) (r : Request) : Option HttpAgentAdapter :=
  let (s, n) := s.claimTracker correlationId r.conversationKey
  if (s.objects n).active.isSome then none
  else
    let replay := (s.objects n).replay
    let s := s.activate n i r
    let s := s.setTracker n
      { s.objects n with buffered := [], bufferedBytes := 0, terminal := none }
    some (deliverAll n s replay)

section Ids

variable {s} {t : HttpAgentAdapter}

theorem SameIds.deliverAll (same : SameIds s t) (n : ℕ) (l : List OutboundEvent) :
    SameIds s (deliverAll n t l) := by
  induction l generalizing t with
  | nil => exact same
  | cons event l ih =>
    rw [HttpAgentAdapter.deliverAll]
    split_ifs
    · exact ih (same.deliverEvent n event)
    · exact same

theorem SameIds.activate (same : SameIds s t) (n i : ℕ) (r : Request) :
    SameIds s (t.activate n i r) := by
  simp only [HttpAgentAdapter.activate]
  split_ifs
  · exact ((same.setTracker n _).setRequest i _).onStream i _
  · exact (same.setTracker n _).setRequest i _

theorem SameIds.claimTracker (same : SameIds s t) (c conversationKey : String) :
    SameIds s (t.claimTracker c conversationKey).1 := by
  unfold HttpAgentAdapter.claimTracker
  cases t.trackers c with
  | some n => exact same
  | none => exact same.addTracker _

theorem SameIds.beginTurn (same : SameIds s t) {u : HttpAgentAdapter} {c : String} {i : ℕ}
    {r : Request} (begun : t.beginTurn c i r = some u) : SameIds s u := by
  simp only [HttpAgentAdapter.beginTurn] at begun
  split_ifs at begun
  obtain rfl := Option.some.inj begun
  exact (((same.claimTracker c _).activate _ i r).setTracker _ _).deliverAll _ _

end Ids

/-- The core has accepted the message of a request. -/
def answered (i : ℕ) (correlationId : String) : Option HttpAgentAdapter :=
  match s.requests i with
  | some r =>
      if r.stage = .posting then
        if s.closing then some (s.reject i r 503 "HTTP adapter is shutting down")
        else
          match s.beginTurn correlationId i r with
          | some s => some s
          | none => some (s.reject i r 502 "core reused an active correlation")
      else none
  | none => none

/-- The request to the core has failed. -/
def failed (i : ℕ) (message : String) : Option HttpAgentAdapter :=
  match s.requests i with
  | some r => if r.stage = .posting then some (s.reject i r 502 message) else none
  | none => none

/-- The status of the JSON answer that ends a turn. -/
def terminalStatus (event : OutboundEvent) : ℕ :=
  match event.body with
  | .turnError _ _ _ => 502
  | .turnCancelled => 409
  | _ => 200

/-- The handler of a request goes on when its turn is over. -/
def settle (i : ℕ) : Option HttpAgentAdapter :=
  match s.requests i with
  | some r =>
      match r.stage with
      | .resolved correlationId event =>
          some (s.conclude i
            (if r.streamRequested then r
            else r.sendJson (terminalStatus event)
              (.turn r.agentId r.conversationKey correlationId event)))
      | .rejected status message => some (s.reject i r status message)
      | _ => none
  | none => none

/-! ### Timers, clients and the end -/

def turnTimedOut (n : ℕ) : Option HttpAgentAdapter :=
  if (s.objects n).turnTimer then
    some ((s.setTracker n { s.objects n with turnTimer := false }).failTurn n 504
      "agent turn timed out" false)
  else none

def expired (n : ℕ) : Option HttpAgentAdapter :=
  if (s.objects n).expiryTimer then
    let s := s.setTracker n { s.objects n with expiryTimer := false }
    some (if (s.objects n).active.isNone then s.removeTracker n else s)
  else none

def disconnect (i : ℕ) : HttpAgentAdapter := s.updateRequest i fun r => r.destroyIf true

/-- The response emits `close`. -/
def closeEmitted (i : ℕ) : Option HttpAgentAdapter :=
  match s.requests i with
  | some r =>
      match r.sse with
      | some sse =>
          if r.res.destroyed ∧ sse.listening then some (s.onStream i fun r => r.detach false)
          else none
      | none => none
  | none => none

/-- What `close` does with one tracker. -/
def shutTracker (n : ℕ) : HttpAgentAdapter :=
  if (s.objects n).active.isSome then s.failTurn n 503 "HTTP adapter is shutting down" true
  else s.setTracker n { s.objects n with expiryTimer := false }

/-- The trackers in the map, in the order in which they were put there. -/
def mapped : List ℕ :=
  (List.range s.nextTracker).filter fun n => s.trackers (s.objects n).correlationId = some n

def close : HttpAgentAdapter :=
  if s.closing then s
  else
    let s := s.mapped.foldl shutTracker { s with closing := true }
    { s with
      trackers := fun _ => none
      inFlightConversations := []
      recentEventIds := []
      recentEventOrder := []
      rememberedSince := [] }

inductive Action where
  | request (q : PublicRequest)
  | answered (i : ℕ) (correlationId : String)
  | failed (i : ℕ) (message : String)
  | settle (i : ℕ)
  | event (event : OutboundEvent) (bytes : ℕ)
  | turnTimedOut (n : ℕ)
  | expired (n : ℕ)
  | disconnect (i : ℕ)
  | closeEmitted (i : ℕ)
  | close

def step (config : HttpAdapterConfig) : Action → Option HttpAgentAdapter
  | .request q => some (s.handleMessage config q)
  | .answered i correlationId => s.answered i correlationId
  | .failed i message => s.failed i message
  | .settle i => s.settle i
  | .event event bytes => some (s.handleCoreEvent event bytes)
  | .turnTimedOut n => s.turnTimedOut n
  | .expired n => s.expired n
  | .disconnect i => some (s.disconnect i)
  | .closeEmitted i => s.closeEmitted i
  | .close => some s.close

def machine (config : HttpAdapterConfig) : Transition.Machine HttpAgentAdapter Action where
  init s := s = fresh
  step s := step s config

end HttpAgentAdapter

end OmpBundler.HttpAdapter
