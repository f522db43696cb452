import OmpBundler.Core.AdapterRegistry
import OmpBundler.Core.InboundValidation
import OmpBundler.Library.JsString

/-!
The idempotency store of inbound messages.

One row records one message: the correlation that it has been given, the
hash of its canonical form, and how far its ingest and the delivery of its
response have come. Each operation reads, decides, and runs at most one
statement, whose number of changed rows it checks; what it throws is a
result like any other, and the store is returned in either case.

The clock is an argument, in milliseconds: the timestamps of the source are
ordered like the numbers that they show.
-/

namespace OmpBundler.Core

open Library

/-- The primary key of a row. -/
structure MessageKey where
  adapterId : String
  messageId : String
  deriving DecidableEq, Repr

inductive IngestState where
  | pending
  | completed
  deriving DecidableEq, Repr

inductive DeliveryState where
  | pending
  | saved
  | sent
  | failed
  deriving DecidableEq, Repr

/-- The other columns of a row. -/
structure IdempotencyRow where
  conversationKey : String
  correlationId : String
  /-- SHA-256 of the canonicalized message. -/
  payloadHash : String
  ingestState : IngestState
  deliveryState : DeliveryState
  /-- The saved terminal event. -/
  response : Option OutboundEvent
  /-- The reason of a failed delivery. -/
  errorText : Option String
  createdAt : ℤ
  updatedAt : ℤ
  deriving DecidableEq, Repr

/-- The rows, in the order of their insertion. -/
structure IdempotencyStore where
  rows : OrderedMap MessageKey IdempotencyRow

/-- What an operation throws. -/
inductive StoreError where
  | idempotencyConflict (adapterId messageId incomingHash existingHash : String)
  | invalidStateTransition (adapterId messageId detail : String)
  | error (message : String)
  deriving DecidableEq, Repr

/-- What `beginInbound` has found or made. -/
inductive BeginInboundResult where
  | created (correlationId : String)
  | pending (correlationId : String)
  | responseSaved (correlationId : String) (response : Option OutboundEvent)
  | alreadySent (correlationId : String)
  | deliveryFailed (correlationId : String) (response : Option OutboundEvent) (error : String)
  deriving DecidableEq, Repr

/-- The correlation of the row, whatever its state. -/
def BeginInboundResult.correlationId : BeginInboundResult → String
  | .created c | .pending c | .responseSaved c _ | .alreadySent c | .deliveryFailed c _ _ => c

/-! ### Hashes and error texts -/

/-- How numbers are written, and the hash function. -/
structure PayloadDigest where
  numberText : ℚ → List Char
  sha256 : String → String

/-- The text that is hashed for a message. -/
def PayloadDigest.canonicalText (d : PayloadDigest) (value : JsValue) : String :=
  value.canonicalize.stringify d.numberText

/-- SHA-256 over the canonicalized message. -/
def canonicalPayloadHash (d : PayloadDigest) (value : JsValue) : String :=
  d.sha256 (d.canonicalText value)

/-- Maximum length of the error text of a row, in code units. -/
def maxErrorTextLen : ℕ := 2000

/-- The characters that fit into so many code units. -/
def sliceUnits : ℕ → List Char → List Char
  | _, [] => []
  | n, c :: rest => if unitWidth c ≤ n then c :: sliceUnits (n - unitWidth c) rest else []

/-- Collapse white space, and cut off what is too long. -/
def curateErrorText (text : String) : String :=
  let collapsed := JsString.trimChars (JsString.collapse text.toList)
  if utf16Length (String.ofList collapsed) ≤ maxErrorTextLen then String.ofList collapsed
  else String.ofList (sliceUnits (maxErrorTextLen - 3) collapsed) ++ "..."

/-- The words for a state of the ingest. -/
def IngestState.text : IngestState → String
  | .pending => "pending"
  | .completed => "completed"

/-- The words for a state of the delivery. -/
def DeliveryState.text : DeliveryState → String
  | .pending => "pending"
  | .saved => "saved"
  | .sent => "sent"
  | .failed => "failed"

/-- The words for a message in an error. -/
def MessageKey.text (key : MessageKey) : String :=
  "adapter=\"" ++ key.adapterId ++ "\" message=\"" ++ key.messageId ++ "\""

namespace IdempotencyStore

/-- A database without rows. -/
def empty : IdempotencyStore := ⟨.empty⟩

/-- The row of a message. -/
def getEntry (s : IdempotencyStore) (key : MessageKey) : Option IdempotencyRow := s.rows.get key

/-! ### Statements -/

/-- Update the rows that meet a condition; the second component is the
number of changes. -/
def updateWhere (s : IdempotencyStore) (condition : MessageKey → IdempotencyRow → Bool)
    (set : IdempotencyRow → IdempotencyRow) : IdempotencyStore × ℕ :=
  (⟨s.rows.mapValues fun key row => if condition key row then set row else row⟩,
    (s.rows.entries.filter fun e => condition e.1 e.2).length)

/-- Delete the row of a message if it meets a condition. -/
def deleteWhere (s : IdempotencyStore) (key : MessageKey) (condition : IdempotencyRow → Bool) :
    IdempotencyStore × ℕ :=
  if (s.rows.get key).any condition then (⟨s.rows.delete key⟩, 1) else (s, 0)

/-- The order of the rows of a correlation. -/
def entryLe (a b : MessageKey × IdempotencyRow) : Bool :=
  decide (a.2.createdAt < b.2.createdAt) ||
    (decide (a.2.createdAt = b.2.createdAt) && decide (a.1.messageId ≤ b.1.messageId))

/-- The rows attached to a correlation of an adapter. -/
def getEntriesByCorrelation (s : IdempotencyStore) (adapterId correlationId : String) :
    List (MessageKey × IdempotencyRow) :=
  (s.rows.entries.filter fun e =>
    e.1.adapterId = adapterId && e.2.correlationId = correlationId).insertionSort
      fun a b => entryLe a b

/-- The terminal event of a message while its delivery is not confirmed. -/
def getSavedResponse (s : IdempotencyStore) (key : MessageKey) : Option OutboundEvent :=
  match s.getEntry key with
  | none => none
  | some row =>
      if row.deliveryState = .saved ∨ row.deliveryState = .failed then row.response else none

/-! ### Errors -/

def noEntry (key : MessageKey) : StoreError :=
  .invalidStateTransition key.adapterId key.messageId ("no idempotency entry for " ++ key.text)

/-- What is thrown when an update has found no row in the expected state. -/
def assertRowExists (s : IdempotencyStore) (key : MessageKey) (field expected : String)
    (actual : IdempotencyRow → String) : StoreError :=
  match s.getEntry key with
  | none => noEntry key
  | some row =>
      .invalidStateTransition key.adapterId key.messageId
        ("expected " ++ field ++ "=" ++ expected ++ " for " ++ key.text ++ " but found " ++ field
          ++ "=" ++ actual row)

/-- The end of an operation whose statement has run: it throws if no row has
changed. -/
def requireChange (run : IdempotencyStore × ℕ) (error : IdempotencyStore → StoreError) :
    Except StoreError Unit × IdempotencyStore :=
  if run.2 = 0 then (.error (error run.1), run.1) else (.ok (), run.1)

/-! ### Operations -/

/-- The result for a row whose hash is that of the message. -/
def classifyExisting (row : IdempotencyRow) : BeginInboundResult :=
  match row.deliveryState with
  | .sent => .alreadySent row.correlationId
  | .saved => .responseSaved row.correlationId row.response
  | .failed => .deliveryFailed row.correlationId row.response (row.errorText.getD "")
  | .pending => .pending row.correlationId

/-- A row of a message that has just arrived. -/
def newRow (now : ℤ) (conversationKey correlationId payloadHash : String) : IdempotencyRow where
  conversationKey := conversationKey
  correlationId := correlationId
  payloadHash := payloadHash
  ingestState := .pending
  deliveryState := .pending
  response := none
  errorText := none
  createdAt := now
  updatedAt := now

/-- Insert a fresh row or classify the existing one. `value` is the object
that the message was read from. -/
def beginInbound (d : PayloadDigest) (s : IdempotencyStore) (now : ℤ) (uuid adapterId : String)
    (message : InboundMessage) (value : JsValue) (correlationId : Option String) :
    Except StoreError BeginInboundResult × IdempotencyStore :=
  if adapterId = "" then (.error (.error "adapterId is required"), s)
  else if message.messageId = "" then (.error (.error "message.messageId is required"), s)
  else if correlationId = some "" then
    (.error (.error "correlationId must be non-empty when provided"), s)
  else
    let payloadHash := canonicalPayloadHash d value
    let key : MessageKey := ⟨adapterId, message.messageId⟩
    match s.getEntry key with
    | none =>
        let assigned := correlationId.getD uuid
        (.ok (.created assigned),
          ⟨s.rows.set key (newRow now message.conversationKey assigned payloadHash)⟩)
    | some existing =>
        if existing.payloadHash ≠ payloadHash then
          (.error (.idempotencyConflict adapterId message.messageId payloadHash
            existing.payloadHash), s)
        else (.ok (classifyExisting existing), s)

/-- Remove a row while it is fully pending. -/
def discardPendingInbound (s : IdempotencyStore) (key : MessageKey) :
    Except StoreError Unit × IdempotencyStore :=
  requireChange
    (s.deleteWhere key fun row =>
      row.ingestState = .pending && row.deliveryState = .pending && row.response.isNone)
    fun t =>
      match t.getEntry key with
      | none => noEntry key
      | some _ =>
          .invalidStateTransition key.adapterId key.messageId
            ("cannot discard accepted idempotency entry for " ++ key.text)

/-- Ingest pending to completed. -/
def markIngestComplete (s : IdempotencyStore) (now : ℤ) (key : MessageKey) :
    Except StoreError Unit × IdempotencyStore :=
  requireChange
    (s.updateWhere (fun k row => k = key && row.ingestState = .pending)
      fun row => { row with ingestState := .completed, updatedAt := now })
    fun t => t.assertRowExists key "ingest_state" "pending" (·.ingestState.text)

/-- What saving a terminal event makes of a row. -/
def saveEvent (now : ℤ) (event : OutboundEvent) (row : IdempotencyRow) : IdempotencyRow :=
  { row with
    ingestState := .completed
    deliveryState := .saved
    response := some event
    errorText := none
    updatedAt := now }

/-- What a confirmed delivery makes of a row. -/
def markRowSent (now : ℤ) (row : IdempotencyRow) : IdempotencyRow :=
  { row with deliveryState := .sent, errorText := none, updatedAt := now }

/-- What a failed delivery makes of a row. -/
def markRowFailed (now : ℤ) (error : String) (row : IdempotencyRow) : IdempotencyRow :=
  { row with
    deliveryState := .failed, errorText := some (curateErrorText error), updatedAt := now }

/-- Save the terminal event of one message before its delivery. -/
def saveResponse (s : IdempotencyStore) (now : ℤ) (key : MessageKey) (event : OutboundEvent) :
    Except StoreError Unit × IdempotencyStore :=
  if event.isTerminal = false then
    (.error (.error ("saveResponse accepts only terminal events, got \""
      ++ event.body.typeText ++ "\"")), s)
  else
    match s.getEntry key with
    | none => (.error (noEntry key), s)
    | some row =>
        if row.correlationId ≠ event.correlationId then
          (.error (.error ("event.correlationId mismatch for " ++ key.text ++ " (expected "
            ++ row.correlationId ++ ", got " ++ event.correlationId ++ ")")), s)
        else if row.conversationKey ≠ event.conversationKey then
          (.error (.error ("event.conversationKey mismatch for " ++ key.text ++ " (expected "
            ++ row.conversationKey ++ ", got " ++ event.conversationKey ++ ")")), s)
        else
          requireChange
            (s.updateWhere (fun k row => k = key && row.deliveryState = .pending)
              (saveEvent now event))
            fun t => .invalidStateTransition key.adapterId key.messageId
              ("saveResponse requires delivery_state=pending for " ++ key.text
                ++ " but found delivery_state="
                ++ ((t.getEntry key).map (·.deliveryState.text)).getD "absent")

/-- Confirm the delivery of one response. -/
def markSent (s : IdempotencyStore) (now : ℤ) (key : MessageKey) :
    Except StoreError Unit × IdempotencyStore :=
  requireChange
    (s.updateWhere
      (fun k row => k = key && (row.deliveryState = .saved || row.deliveryState = .failed))
      (markRowSent now))
    fun t => t.assertRowExists key "delivery_state" "saved|failed" (·.deliveryState.text)

/-- Record that a delivery has failed; the response is kept. -/
def markFailed (s : IdempotencyStore) (now : ℤ) (key : MessageKey) (error : String) :
    Except StoreError Unit × IdempotencyStore :=
  requireChange
    (s.updateWhere (fun k row => k = key && row.deliveryState = .saved)
      (markRowFailed now error))
    fun t => t.assertRowExists key "delivery_state" "saved" (·.deliveryState.text)

/-- The rows of a correlation in a state. -/
def inState (adapterId correlationId : String) (states : DeliveryState → Bool)
    (key : MessageKey) (row : IdempotencyRow) : Bool :=
  key.adapterId = adapterId && row.correlationId = correlationId && states row.deliveryState

/-- Update the rows of a correlation that are in a state, unless there are
none; as many have to change as have been counted. -/
def updateCorrelation (s : IdempotencyStore) (adapterId correlationId : String)
    (states : DeliveryState → Bool) (counted : ℕ) (set : IdempotencyRow → IdempotencyRow)
    (changed : String) : Except StoreError Unit × IdempotencyStore :=
  if counted = 0 then (.ok (), s)
  else
    let (t, changes) := s.updateWhere (inState adapterId correlationId states) set
    if changes ≠ counted then
      (.error (.error ("correlation \"" ++ correlationId ++ "\" changed while " ++ changed)), t)
    else (.ok (), t)

/-- How many rows are in a state. -/
def countIn (entries : List (MessageKey × IdempotencyRow)) (states : DeliveryState → Bool) : ℕ :=
  (entries.filter fun e => states e.2.deliveryState).length

/-- What keeps a terminal event from being saved in a row. -/
def saveObstacle (event : OutboundEvent) (e : MessageKey × IdempotencyRow) : Option StoreError :=
  if e.2.conversationKey ≠ event.conversationKey then
    some (.error ("event.conversationKey mismatch for " ++ e.1.text))
  else if e.2.deliveryState ≠ .pending ∧ e.2.response.map (·.eventId) ≠ some event.eventId then
    some (.error ("terminal event mismatch for " ++ e.1.text))
  else none

/-- Save one terminal event in every row of a correlation. -/
def saveResponseForCorrelation (s : IdempotencyStore) (now : ℤ)
    (adapterId correlationId : String) (event : OutboundEvent) :
    Except StoreError Unit × IdempotencyStore :=
  if event.isTerminal = false then
    (.error (.error ("correlation response must be terminal, got \"" ++ event.body.typeText
      ++ "\"")), s)
  else if event.correlationId ≠ correlationId then
    (.error (.error ("event.correlationId mismatch for correlation \"" ++ correlationId
      ++ "\"")), s)
  else
    let entries := s.getEntriesByCorrelation adapterId correlationId
    if entries = [] then
      (.error (.error ("no idempotency entries for correlation \"" ++ correlationId ++ "\"")), s)
    else
      match entries.findSome? (saveObstacle event) with
      | some error => (.error error, s)
      | none =>
          s.updateCorrelation adapterId correlationId (· = .pending)
            (countIn entries (· = .pending)) (saveEvent now event) "saving its response"

/-- What keeps the outcome of a delivery from being recorded in a row. -/
def outcomeObstacle (eventId words : String) (e : MessageKey × IdempotencyRow) :
    Option StoreError :=
  if e.2.response.map (·.eventId) ≠ some eventId ∨ e.2.deliveryState = .pending then
    some (.error (words ++ " for " ++ e.1.text))
  else none

/-- Mark the terminal response of a correlation sent in all its rows. -/
def markCorrelationSent (s : IdempotencyStore) (now : ℤ) (adapterId correlationId eventId : String) :
    Except StoreError Unit × IdempotencyStore :=
  let entries := s.getEntriesByCorrelation adapterId correlationId
  match entries.findSome? (outcomeObstacle eventId "cannot confirm terminal delivery") with
  | some error => (.error error, s)
  | none =>
      s.updateCorrelation adapterId correlationId (fun d => d = .saved || d = .failed)
        (countIn entries (· ≠ .sent)) (markRowSent now) "marking it sent"

/-- Retain one delivery failure in all rows of a correlation that are saved. -/
def markCorrelationFailed (s : IdempotencyStore) (now : ℤ)
    (adapterId correlationId eventId error : String) :
    Except StoreError Unit × IdempotencyStore :=
  let entries := s.getEntriesByCorrelation adapterId correlationId
  match entries.findSome? (outcomeObstacle eventId "cannot record terminal failure") with
  | some error => (.error error, s)
  | none =>
      s.updateCorrelation adapterId correlationId (· = .saved) (countIn entries (· = .saved))
        (markRowFailed now error) "marking it failed"

/-! ### Sequences of operations -/

/-- A call of one of the operations. -/
inductive Operation where
  | beginInbound (uuid adapterId : String) (message : InboundMessage) (value : JsValue)
      (correlationId : Option String)
  | discardPendingInbound (key : MessageKey)
  | markIngestComplete (key : MessageKey)
  | saveResponse (key : MessageKey) (event : OutboundEvent)
  | markSent (key : MessageKey)
  | markFailed (key : MessageKey) (error : String)
  | saveResponseForCorrelation (adapterId correlationId : String) (event : OutboundEvent)
  | markCorrelationSent (adapterId correlationId eventId : String)
  | markCorrelationFailed (adapterId correlationId eventId error : String)

/-- Drop the value of a result. -/
def outcome {α : Type} (performed : Except StoreError α × IdempotencyStore) :
    Except StoreError Unit × IdempotencyStore :=
  (performed.1.map fun _ => (), performed.2)

/-- Call an operation, and see whether it throws. -/
def perform (d : PayloadDigest) (s : IdempotencyStore) (now : ℤ) :
    Operation → Except StoreError Unit × IdempotencyStore
  | .beginInbound uuid adapterId message value correlationId =>
      outcome (s.beginInbound d now uuid adapterId message value correlationId)
  | .discardPendingInbound key => s.discardPendingInbound key
  | .markIngestComplete key => s.markIngestComplete now key
  | .saveResponse key event => s.saveResponse now key event
  | .markSent key => s.markSent now key
  | .markFailed key error => s.markFailed now key error
  | .saveResponseForCorrelation adapterId correlationId event =>
      s.saveResponseForCorrelation now adapterId correlationId event
  | .markCorrelationSent adapterId correlationId eventId =>
      s.markCorrelationSent now adapterId correlationId eventId
  | .markCorrelationFailed adapterId correlationId eventId error =>
      s.markCorrelationFailed now adapterId correlationId eventId error

end IdempotencyStore

end OmpBundler.Core
