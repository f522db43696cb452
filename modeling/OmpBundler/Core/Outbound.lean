import Mathlib.Data.List.Sort
import Mathlib.Logic.Embedding.Basic
import Mathlib.Logic.Function.Basic
import Mathlib.Tactic.Simps.Basic
import OmpBundler.Core.OutboundEmitter
import OmpBundler.Library.Transition

/-!
The outbox, the emitters of a process and their deliveries.

The outbox is durable; the emitters are objects of the process and are gone
after a crash. Each emitter has a chain of deliveries, of which the first
one runs. Code that runs without interruption may write to the outbox more
than once, and call hooks that write elsewhere, and a crash may fall between
any two of these writes. What such code has still to do is therefore kept in
`todo`: while there is something in it, the process does nothing else, and
each piece of it writes at most once.

The answers of hooks and adapters are part of the actions. The log records
what no part of the program keeps: which events came out, which were posted
and which were acknowledged.
-/

namespace OmpBundler.Core

open Library

/-- What the emitters of a process have in common. -/
structure EmitterOptions where
  progressThresholdMs : ℕ
  retryDelaysMs : List ℕ
  /-- The callback URL of an adapter, if it is registered. -/
  resolveAdapterTarget : String → Option String
  /-- Identifiers that are drawn at random and are all different. -/
  uuid : ℕ ↪ String

/-- Status of a durable outbox row. -/
inductive OutboxStatus where
  | pending
  | delivered
  | permanentFailure
  deriving DecidableEq, Repr

/-- A persisted durable event; the payload is the event. -/
structure OutboxRow where
  adapterId : String
  event : OutboundEvent
  status : OutboxStatus
  attempts : ℕ
  lastError : Option String
  deriving DecidableEq, Repr

/-- Whether the row belongs to the correlation. -/
def OutboxRow.isOf (row : OutboxRow) (adapterId correlationId : String) : Bool :=
  row.adapterId = adapterId && row.event.correlationId = correlationId

/-- The rows of the outbox, oldest first. -/
abbrev Outbox := List OutboxRow

namespace Outbox

/-- The highest persisted number of a correlation. -/
def maxSequence (outbox : Outbox) (adapterId correlationId : String) : ℕ :=
  ((outbox.filter (·.isOf adapterId correlationId)).map (·.event.sequence)).foldr max 0

/-- Whether a terminal of the correlation is persisted. -/
def hasTerminal (outbox : Outbox) (adapterId correlationId : String) : Bool :=
  outbox.any fun row => row.isOf adapterId correlationId && row.event.isTerminal

/-- The row of an event. -/
def row (outbox : Outbox) (eventId : String) : Option OutboxRow :=
  outbox.find? fun row => row.event.eventId = eventId

/-- The pending rows of a correlation by sequence. -/
def pendingRows (outbox : Outbox) (adapterId correlationId : String) : List OutboxRow :=
  (outbox.filter fun row => row.isOf adapterId correlationId && row.status = .pending).mergeSort
    fun a b => a.event.sequence ≤ b.event.sequence

/-- Change the row of an event. -/
def update (outbox : Outbox) (eventId : String) (f : OutboxRow → OutboxRow) : Outbox :=
  outbox.map fun row => if row.event.eventId = eventId then f row else row

def markDelivered (outbox : Outbox) (eventId : String) (attempts : ℕ) : Outbox :=
  outbox.update eventId fun row =>
    { row with status := .delivered, attempts := attempts, lastError := none }

def recordAttempt (outbox : Outbox) (eventId : String) (attempts : ℕ) (error : String) :
    Outbox :=
  outbox.update eventId fun row => { row with attempts := attempts, lastError := some error }

def markPermanentFailure (outbox : Outbox) (eventId error : String) : Outbox :=
  outbox.update eventId fun row =>
    { row with status := .permanentFailure, lastError := some error }

/-- Make a permanent failure pending again, with the retry schedule ahead. -/
def resetFailure (outbox : Outbox) (eventId : String) : Outbox :=
  outbox.update eventId fun row =>
    if row.status = .permanentFailure then
      { row with status := .pending, attempts := 0, lastError := none }
    else row

end Outbox

/-- What a link of a delivery chain is to do. -/
inductive Payload where
  /-- Deliver a persisted event of which so many POSTs have been made. -/
  | durable (event : OutboundEvent) (attempts : ℕ)
  | bestEffort (event : OutboundEvent)
  /-- Report that the prepared hook has thrown. -/
  | rejection
  deriving DecidableEq, Repr

/-- A link of a delivery chain. -/
structure Delivery where
  id : ℕ
  payload : Payload
  deriving DecidableEq, Repr

/-- Where the first delivery of a chain stands. -/
inductive DeliveryStage where
  | queued
  /-- Waiting out the delay before this attempt. -/
  | sleeping (callbackUrl : String) (attempt : ℕ)
  /-- Waiting for the adapter's answer. -/
  | posting (callbackUrl : String) (attempt : ℕ)
  deriving DecidableEq, Repr

/-- The deliveries of an emitter. -/
structure DeliveryChain where
  deliveries : List Delivery
  stage : DeliveryStage
  /-- The deliveries that the `resumePending` in progress waits for. -/
  resuming : Option (List ℕ)
  /-- The explicit retries in progress, with their deliveries. -/
  retrying : List (String × ℕ)
  deriving DecidableEq, Repr

/-- A chain without deliveries. -/
def DeliveryChain.empty : DeliveryChain := ⟨[], .queued, none, []⟩

/-- The answer of an adapter to a POST. -/
inductive Response where
  | status (code : ℕ)
  /-- A network error or a timeout. -/
  | error (message : String)
  deriving DecidableEq, Repr

/-- Whether the adapter has acknowledged the event. -/
def Response.ok : Response → Bool
  | .status code => 200 ≤ code && code < 300
  | .error _ => false

/-- The text that is recorded for an answer that is no acknowledgement. -/
def Response.errorText (callbackUrl : String) : Response → String
  | .status code => "adapter " ++ callbackUrl ++ " responded " ++ toString code
  | .error message => message

/-- Code that is still to run before anything else; `emitter` is the number
of the emitter object. -/
inductive Op where
  /-- Draw the number of an event, and `deliverDurable` up to its insert or
  `deliverBestEffort`. -/
  | emit (emitter : ℕ) (event : OutboundEvent)
  /-- `deliverDurable` up to its insert, for a saved event. -/
  | deliver (emitter : ℕ) (event : OutboundEvent)
  /-- `persistEvent` and the enqueueing of the POST. -/
  | insert (emitter : ℕ) (event : OutboundEvent)
  /-- The prepared hook of an explicit retry. -/
  | prepareRetry (emitter : ℕ) (event : OutboundEvent)
  /-- The reset of the row of an explicit retry. -/
  | retry (emitter : ℕ) (event : OutboundEvent)
  /-- The delivered hook for a row that is delivered already. -/
  | confirm (emitter : ℕ) (event : OutboundEvent)
  /-- The delivered hook of the delivery that runs. -/
  | delivered (emitter : ℕ) (event : OutboundEvent)
  /-- The failed hook of the delivery that runs. -/
  | failed (emitter : ℕ) (event : OutboundEvent) (error : String)
  deriving DecidableEq, Repr

/-- The emitter that a piece of code belongs to. -/
def Op.emitter : Op → ℕ
  | .emit k _ | .deliver k _ | .insert k _ | .prepareRetry k _ | .retry k _ | .confirm k _ | .delivered k _
  | .failed k _ _ => k

/-- What is worth remembering of a run. -/
inductive Entry where
  /-- The emitter object was made for the correlation. -/
  | born (emitter : ℕ) (adapterId correlationId : String)
  | generated (emitter : ℕ) (adapterId : String) (event : OutboundEvent)
  /-- The event was persisted, or handed to the chain if it is best-effort. -/
  | out (emitter : ℕ) (adapterId : String) (event : OutboundEvent)
  | posted (adapterId : String) (event : OutboundEvent)
  /-- The adapter has acknowledged the event, and its row was marked. -/
  | acked (adapterId : String) (event : OutboundEvent)
  deriving DecidableEq, Repr

/-- The outbox, and the emitters of the process that runs. -/
structure Outbound where
  outbox : Outbox
  emitterOf : ℕ → Option OutboundEmitter
  chainOf : ℕ → DeliveryChain
  todo : List Op
  nextEmitter : ℕ
  nextEvent : ℕ
  nextDelivery : ℕ
  log : List Entry

namespace Outbound

/-- An empty outbox, and no process yet. -/
def initial : Outbound where
  outbox := []
  emitterOf _ := none
  chainOf _ := .empty
  todo := []
  nextEmitter := 0
  nextEvent := 0
  nextDelivery := 0
  log := []

/-! ### Updates -/

@[simps]
def setEmitter (s : Outbound) (k : ℕ) (e : OutboundEmitter) : Outbound :=
  { s with emitterOf := Function.update s.emitterOf k (some e) }

@[simps]
def setChain (s : Outbound) (k : ℕ) (chain : DeliveryChain) : Outbound :=
  { s with chainOf := Function.update s.chainOf k chain }

/-- Remember. -/
@[simps]
def note (s : Outbound) (entry : Entry) : Outbound := { s with log := s.log ++ [entry] }

/-- Write to the outbox. -/
@[simps]
def write (s : Outbound) (outbox : Outbox) : Outbound := { s with outbox := outbox }

@[simps]
def setTodo (s : Outbound) (todo : List Op) : Outbound := { s with todo := todo }

/-- Append a delivery to the chain of an emitter. -/
@[simps]
def enqueue (s : Outbound) (k : ℕ) (payload : Payload) : Outbound :=
  { s with
    chainOf := Function.update s.chainOf k
      { s.chainOf k with
        deliveries := (s.chainOf k).deliveries ++ [⟨s.nextDelivery, payload⟩] }
    nextDelivery := s.nextDelivery + 1 }

/-- Append several deliveries. -/
def enqueueAll (s : Outbound) (k : ℕ) (payloads : List Payload) : Outbound :=
  payloads.foldl (fun s payload => s.enqueue k payload) s

/-! ### The emitter's operations -/

/-- The constructor of an emitter, which reads the outbox. -/
def create (o : EmitterOptions) (s : Outbound)
    (adapterId conversationKey correlationId : String) : Outbound :=
  { (s.setEmitter s.nextEmitter (.create adapterId conversationKey correlationId
      o.progressThresholdMs (s.outbox.maxSequence adapterId correlationId)
      (s.outbox.hasTerminal adapterId correlationId))).note
        (.born s.nextEmitter adapterId correlationId) with
    nextEmitter := s.nextEmitter + 1 }

/-- The events of a call, with fresh identifiers. -/
def eventsOf (o : EmitterOptions) (e : OutboundEmitter) : ℕ → List Draft → List OutboundEvent
  | _, [] => []
  | n, draft :: rest =>
      ⟨o.uuid n, e.conversationKey, e.correlationId, draft.sequence, draft.body⟩ ::
        eventsOf o e (n + 1) rest

/-- Call a method of an emitter: what it hands over is to be delivered. -/
def call (o : EmitterOptions) (s : Outbound) (k : ℕ) (e : OutboundEmitter) (now : ℤ)
    (m : OutboundEmitter.Call) : Outbound :=
  let e := e.call now m
  { s.setEmitter k { e with drafts := [] } with
    todo := s.todo ++ (eventsOf o e s.nextEvent e.drafts).map (.emit k)
    nextEvent := s.nextEvent + e.drafts.length }

/-- Enqueue the deliveries of rows, and wait for them. -/
def redrive (s : Outbound) (k : ℕ) (rows : List OutboxRow) : Outbound :=
  let t := s.enqueueAll k (rows.map fun row => .durable row.event row.attempts)
  let tails := (List.range rows.length).map (s.nextDelivery + ·)
  t.setChain k { t.chainOf k with resuming := if tails = [] then none else some tails }

/-- Re-drive every pending row, unless that is in progress or the database
is closed. -/
def resumePending (s : Outbound) (k : ℕ) (e : OutboundEmitter) : Outbound :=
  if (s.chainOf k).resuming.isSome || e.closed then s
  else s.redrive k (s.outbox.pendingRows e.adapterId e.correlationId)

/-- The row of an event as the queries of one emitter find it. -/
def rowOf (s : Outbound) (e : OutboundEmitter) (eventId : String) : Option OutboxRow :=
  s.outbox.find? fun row =>
    row.event.eventId = eventId && row.isOf e.adapterId e.correlationId

/-- Retry one permanent failure, unless that is in progress or the database
is closed. -/
def retryPermanentFailure (s : Outbound) (k : ℕ) (e : OutboundEmitter) (eventId : String) :
    Outbound :=
  if ((s.chainOf k).retrying.any fun r => r.1 = eventId) || e.closed then s
  else
    match s.rowOf e eventId with
    | some row =>
        if row.status = .permanentFailure then s.setTodo (s.todo ++ [.prepareRetry k row.event])
        else s
    | none => s

/-- Reconcile a saved terminal with the outbox, and redeliver it. -/
def redeliverDurable (s : Outbound) (k : ℕ) (e : OutboundEmitter) (event : OutboundEvent) :
    Outbound :=
  if e.closed then s
  else
    match s.rowOf e event.eventId with
    | none => s.setTodo (s.todo ++ [.deliver k event])
    | some row =>
        if row.event ≠ event then s
        else
          match row.status with
          | .pending => s.resumePending k e
          | .permanentFailure => s.retryPermanentFailure k e event.eventId
          | .delivered => s.setTodo (s.todo ++ [.confirm k event])

/-! ### Deliveries -/

/-- The first delivery settles, and the next one may begin. A `resumePending`
is over when all its deliveries are fulfilled or one is rejected. -/
def settle (s : Outbound) (k : ℕ) (fulfilled : Bool) : Outbound :=
  match (s.chainOf k).deliveries with
  | [] => s
  | d :: rest =>
      let resuming :=
        match (s.chainOf k).resuming with
        | none => none
        | some tails =>
            if d.id ∈ tails then
              if fulfilled && tails.erase d.id ≠ [] then some (tails.erase d.id) else none
            else some tails
      s.setChain k ⟨rest, .queued, resuming, (s.chainOf k).retrying.filter fun r => r.2 ≠ d.id⟩

/-- Retain the event as a permanent failure and call the failed hook. -/
def fail (s : Outbound) (k : ℕ) (e : OutboundEmitter) (event : OutboundEvent)
    (error : String) : Outbound :=
  if e.closed then s.settle k false
  else
    (s.write (s.outbox.markPermanentFailure event.eventId error)).setTodo
      (s.todo ++ [.failed k event error])

/-- Make a POST. -/
def post (s : Outbound) (k : ℕ) (e : OutboundEmitter) (event : OutboundEvent)
    (callbackUrl : String) (attempt : ℕ) : Outbound :=
  (s.setChain k { s.chainOf k with stage := .posting callbackUrl attempt }).note
    (.posted e.adapterId event)

/-- The head of the loop of `deliverPayload`. -/
def attempt (o : EmitterOptions) (s : Outbound) (k : ℕ) (e : OutboundEmitter)
    (event : OutboundEvent) (callbackUrl : String) (attempt : ℕ) (lastError : String) :
    Outbound :=
  if attempt < 1 + o.retryDelaysMs.length then
    if 0 < attempt ∧ 0 < o.retryDelaysMs.getD (attempt - 1) 0 then
      s.setChain k { s.chainOf k with stage := .sleeping callbackUrl attempt }
    else s.post k e event callbackUrl attempt
  else s.fail k e event lastError

/-- The first delivery of the chain begins. -/
def begin (o : EmitterOptions) (s : Outbound) (k : ℕ) (e : OutboundEmitter) :
    Payload → Outbound
  | .rejection => s.settle k false
  | .bestEffort event =>
      match o.resolveAdapterTarget e.adapterId with
      | none => s.settle k true
      | some callbackUrl => s.post k e event callbackUrl 0
  | .durable event attempts =>
      match o.resolveAdapterTarget e.adapterId with
      | none =>
          s.fail k e event ("no adapter target registered for \"" ++ e.adapterId ++ "\"")
      | some callbackUrl => s.attempt o k e event callbackUrl attempts ""

/-- The adapter answers. On a closed database the row can neither be marked
nor the attempt recorded, and the delivery is rejected. -/
def answer (o : EmitterOptions) (s : Outbound) (k : ℕ) (e : OutboundEmitter)
    (callbackUrl : String) (attempt : ℕ) (response : Response) : Payload → Outbound
  | .rejection => s
  | .bestEffort _ => s.settle k true
  | .durable event _ =>
      if e.closed then s.settle k false
      else if response.ok then
        ((s.write (s.outbox.markDelivered event.eventId (attempt + 1))).note
          (.acked e.adapterId event)).setTodo (s.todo ++ [.delivered k event])
      else
        let error := response.errorText callbackUrl
        (s.write (s.outbox.recordAttempt event.eventId (attempt + 1) error)).attempt o k e event
          callbackUrl (attempt + 1) error

/-! ### Code that runs before anything else -/

/-- The prepared hook of a durable event: it may veto the event, and the
rejection is reported by the chain. -/
def deliverDurable (s : Outbound) (k : ℕ) (event : OutboundEvent) :
    Except String Unit → Outbound
  | .ok _ => s.setTodo (.insert k event :: s.todo)
  | .error _ => s.enqueue k .rejection

def deliverBestEffort (s : Outbound) (k : ℕ) (e : OutboundEmitter) (event : OutboundEvent) :
    Outbound :=
  (s.note (.out k e.adapterId event)).enqueue k (.bestEffort event)

/-- Persist an event and enqueue its POST. An identifier that exists already
is an idempotent replay or a conflict; a conflict, or a closed database, ends
the code that runs. -/
def insert (s : Outbound) (k : ℕ) (e : OutboundEmitter) (event : OutboundEvent) : Outbound :=
  if e.closed then s.setTodo []
  else
    match s.outbox.row event.eventId with
    | some row =>
        if row.adapterId = e.adapterId ∧ row.event = event then s else s.setTodo []
    | none =>
        ((s.write (s.outbox ++ [⟨e.adapterId, event, .pending, 0, none⟩])).note
          (.out k e.adapterId event)).enqueue k (.durable event 0)

/-- Reset the row of an explicit retry and enqueue its POST. -/
def retry (s : Outbound) (k : ℕ) (event : OutboundEvent) : Outbound :=
  let t := (s.write (s.outbox.resetFailure event.eventId)).enqueue k (.durable event 0)
  t.setChain k
    { t.chainOf k with retrying := (t.chainOf k).retrying ++ [(event.eventId, s.nextDelivery)] }

/-- The delivered hook has run in the delivery's `try`: if it has thrown, the
attempt counts as failed. -/
def afterDelivered (o : EmitterOptions) (s : Outbound) (k : ℕ) (e : OutboundEmitter)
    (event : OutboundEvent) : Except String Unit → Outbound
  | .ok _ => s.settle k true
  | .error message =>
      match (s.chainOf k).stage with
      | .posting callbackUrl attempt =>
          (s.write (s.outbox.recordAttempt event.eventId (attempt + 1) message)).attempt o k e
            event callbackUrl (attempt + 1) message
      | _ => s

/-- One piece of code, with what the hook it calls has answered. -/
def runOp (o : EmitterOptions) (s : Outbound) (e : OutboundEmitter)
    (hook : Except String Unit) : Op → Outbound
  | .emit k event =>
      let s := s.note (.generated k e.adapterId event)
      if event.body.isBestEffort then s.deliverBestEffort k e event
      else s.deliverDurable k event hook
  | .deliver k event => s.deliverDurable k event hook
  | .insert k event => s.insert k e event
  | .prepareRetry k event =>
      match hook with
      | .ok _ => s.setTodo (.retry k event :: s.todo)
      | .error _ => s
  | .retry k event => s.retry k event
  | .confirm _ _ => s
  | .delivered k event => s.afterDelivered o k e event hook
  | .failed k _ _ => s.settle k (match hook with | .ok _ => true | .error _ => false)

/-- The process dies. -/
@[simps]
def crash (s : Outbound) : Outbound :=
  { s with emitterOf := fun _ => none, chainOf := fun _ => .empty, todo := [] }

/-! ### The machine -/

/-- What may happen; the emitters are those of the process that runs. -/
inductive Action where
  | create (adapterId conversationKey correlationId : String)
  | call (emitter : ℕ) (now : ℤ) (m : OutboundEmitter.Call)
  | resumePending (emitter : ℕ)
  | retryPermanentFailure (emitter : ℕ) (eventId : String)
  | redeliverDurable (emitter : ℕ) (event : OutboundEvent)
  | close (emitter : ℕ)
  /-- The next piece of the code that runs; the hook it calls, if any,
  answers this. -/
  | run (hook : Except String Unit)
  /-- The first delivery of the chain begins. -/
  | begin (emitter : ℕ)
  /-- The delay of a retry is over. -/
  | wake (emitter : ℕ)
  | answer (emitter : ℕ) (response : Response)
  /-- The process dies, and another one takes over. -/
  | crash
  deriving DecidableEq, Repr

/-- The saved events are those that a prepared hook has seen. -/
def isSaved (s : Outbound) (e : OutboundEmitter) (event : OutboundEvent) : Bool :=
  event.correlationId = e.correlationId && !event.body.isBestEffort &&
    s.log.any fun
      | .generated _ adapterId other => adapterId = e.adapterId && other = event
      | _ => false

/-- What an action does when no code is running. -/
def react (o : EmitterOptions) (s : Outbound) : Action → Option Outbound
  | .create adapterId conversationKey correlationId =>
      some (s.create o adapterId conversationKey correlationId)
  | .call k now m => (s.emitterOf k).map fun e => s.call o k e now m
  | .resumePending k => (s.emitterOf k).map fun e => s.resumePending k e
  | .retryPermanentFailure k eventId =>
      (s.emitterOf k).map fun e => s.retryPermanentFailure k e eventId
  | .redeliverDurable k event =>
      (s.emitterOf k).bind fun e =>
        if s.isSaved e event then some (s.redeliverDurable k e event) else none
  | .close k => (s.emitterOf k).map fun e => s.setEmitter k { e with closed := true }
  | .begin k =>
      (s.emitterOf k).bind fun e =>
        match (s.chainOf k).deliveries, (s.chainOf k).stage with
        | d :: _, .queued => some (s.begin o k e d.payload)
        | _, _ => none
  | .wake k =>
      (s.emitterOf k).bind fun e =>
        match (s.chainOf k).deliveries, (s.chainOf k).stage with
        | ⟨_, .durable event _⟩ :: _, .sleeping callbackUrl attempt =>
            some (s.post k e event callbackUrl attempt)
        | _, _ => none
  | .answer k response =>
      (s.emitterOf k).bind fun e =>
        match (s.chainOf k).deliveries, (s.chainOf k).stage with
        | d :: _, .posting callbackUrl attempt =>
            some (s.answer o k e callbackUrl attempt response d.payload)
        | _, _ => none
  | .run _ | .crash => none

/-- What an action does. Code that runs is not interrupted, except by the
death of the process. -/
def step (o : EmitterOptions) (s : Outbound) : Action → Option Outbound
  | .crash => some s.crash
  | .run hook =>
      match s.todo with
      | [] => none
      | op :: rest =>
          (s.emitterOf op.emitter).map fun e => (s.setTodo rest).runOp o e hook op
  | a => if s.todo = [] then s.react o a else none

/-- The machine of the outbox under a configuration. -/
def machine (o : EmitterOptions) : Transition.Machine Outbound Action where
  init s := s = initial
  step := step o

end Outbound

end OmpBundler.Core
