import Mathlib.Data.Rat.Floor
import Mathlib.Logic.Function.Basic
import OmpBundler.Core.InboundValidation
import OmpBundler.Library.Base64
import OmpBundler.Library.Fallible

/-!
The lines that an `omp --mode rpc` process writes.

Each line is a frame, or a chunk of one. Chunks are collected by the id of
their sequence, and the last one of a sequence gives the frame, which is
then processed like any other.

What is wrong with a chunk is announced as an error of the child. An error
that nobody listens to is thrown where it is announced, so the sequence it
belongs to, which would be dropped next, stays; whether somebody listens is
therefore an argument.
-/

namespace OmpBundler.Core

open Library Library.Fallible

/-- What the language does with texts and values. -/
structure Json where
  /-- `JSON.parse`; none if it throws. -/
  parse : String → Option JsValue
  /-- What a value is worth in a comparison; none if it is not a number. -/
  toNumber : JsValue → Option ℚ
  /-- How a value is written in a text. -/
  display : JsValue → String
  number : ∀ q, toNumber (.number q) = some q
  /-- A text that begins with a byte order mark is not JSON. -/
  bom : ∀ text, parse (String.ofList (Char.ofNat 0xFEFF :: text)) = none

/-- A language that parses the texts of a table and no others. -/
def Json.ofTable (table : List (String × JsValue))
    (marked : ∀ p ∈ table, p.1.toList.head? ≠ some (Char.ofNat 0xFEFF)) : Json where
  parse text := OrderedMap.lookup text table
  toNumber
    | .number q => some q
    | _ => none
  display
    | .number q => toString q.num
    | _ => ""
  number _ := rfl
  bom text := by
    rw [OrderedMap.lookup_eq_none]
    intro mem
    obtain ⟨p, known, same⟩ := List.mem_map.mp mem
    exact marked p known (by simp [same])

/-- The value of a property of a value; only objects have any. -/
def propertyOf (value : JsValue) (name : String) : JsValue :=
  match value with
  | .object properties => property properties name
  | _ => .undefined

/-- The type of a frame. -/
def frameType (frame : JsValue) : Option String :=
  match propertyOf frame "type" with
  | .string type => some type
  | _ => none

/-- What `typeof` calls an object, null apart. -/
def isObject : JsValue → Bool
  | .object _ | .array _ => true
  | _ => false

/-- `Number.MAX_SAFE_INTEGER`. -/
def maxSafeInteger : ℕ := 2 ^ 53 - 1

/-- A safe integer that is not negative. -/
def safeNatural : JsValue → Option ℕ
  | .number q =>
      if q.den = 1 ∧ 0 ≤ q.num ∧ q.num ≤ maxSafeInteger then some q.num.toNat else none
  | _ => none

/-- The id of a sequence. -/
def validChunkId : JsValue → Option String
  | .string id => if id ≠ "" ∧ (Utf16.codeUnits id).length ≤ 128 then some id else none
  | _ => none

theorem validChunkId_eq_some {v : JsValue} {id : String} :
    validChunkId v = some id ↔
      v = .string id ∧ id ≠ "" ∧ (Utf16.codeUnits id).length ≤ 128 := by
  cases v with
  | string text =>
      simp only [validChunkId, JsValue.string.injEq]
      constructor
      · intro valid
        split at valid
        case isTrue sized =>
            obtain rfl := Option.some.inj valid
            exact ⟨rfl, sized⟩
        case isFalse => simp at valid
      · rintro ⟨rfl, sized⟩
        rw [if_pos sized]
  | _ => simp [validChunkId]

def defaultMaxFrameBytes : ℕ := 1024 * 1024
def defaultMaxReassembledBytes : ℕ := 64 * 1024 * 1024
def chunkPayloadBytes : ℕ := 256 * 1024

/-- The text of bytes in UTF-8, without a byte order mark; none if they are
not UTF-8. -/
def decodeUtf8 (bytes : List UInt8) : Option String :=
  (String.fromUTF8? bytes.toByteArray).map fun text =>
    match text.toList with
    | c :: rest => if c = Char.ofNat 0xFEFF then String.ofList rest else text
    | [] => text

/-- A sequence of chunks that is not complete. -/
structure PendingChunks where
  chunkId : String
  count : ℕ
  byteLength : ℕ
  nextIndex : ℕ
  chunks : List (List UInt8)
  receivedBytes : ℕ
  deriving DecidableEq

/-- Count the bytes of a chunk. -/
def PendingChunks.countBytes (pending : PendingChunks) (bytes : List UInt8) : PendingChunks :=
  { pending with receivedBytes := pending.receivedBytes + bytes.length }

/-- Count the bytes of a chunk and append it. -/
def PendingChunks.push (pending : PendingChunks) (bytes : List UInt8) : PendingChunks :=
  { pending.countBytes bytes with
    chunks := pending.chunks ++ [bytes]
    nextIndex := pending.nextIndex + 1 }

/-- What a chunk says about itself. -/
structure ChunkHeader where
  chunkId : String
  index : ℕ
  count : ℕ
  byteLength : ℕ
  deriving DecidableEq

/-- The sequence that a chunk begins. -/
def ChunkHeader.pending (header : ChunkHeader) : PendingChunks where
  chunkId := header.chunkId
  count := header.count
  byteLength := header.byteLength
  nextIndex := 0
  chunks := []
  receivedBytes := 0

/-- The header is what the chunk says. -/
def ChunkHeader.Describes (header : ChunkHeader) (chunk : JsValue) : Prop :=
  propertyOf chunk "chunkId" = .string header.chunkId ∧
    safeNatural (propertyOf chunk "index") = some header.index ∧
    safeNatural (propertyOf chunk "count") = some header.count ∧
    safeNatural (propertyOf chunk "byteLength") = some header.byteLength

/-- What a child keeps of the lines it has read. -/
structure FrameReader where
  protocolVersion : ℕ
  /-- The last `ready` frame. -/
  ready : Option JsValue
  pendingChunks : String → Option PendingChunks

/-- What becomes of a line. -/
inductive LineResult where
  | nothing
  | parseError
  /-- An error is announced. -/
  | rejected (error : String)
  /-- The frame is processed. -/
  | processed (frame : JsValue)

def LineResult.isRejected : LineResult → Bool
  | .rejected _ => true
  | _ => false

namespace FrameReader

/-- The reader of a new child. -/
def new : FrameReader where
  protocolVersion := 1
  ready := none
  pendingChunks _ := none

/-- Protocol version 2 has been negotiated. -/
def negotiated (s : FrameReader) : FrameReader := { s with protocolVersion := 2 }

/-- Put `pending` in place of what is held for a sequence. -/
def holding (s : FrameReader) (chunkId : String) (pending : Option PendingChunks) : FrameReader :=
  { s with pendingChunks := Function.update s.pendingChunks chunkId pending }

/-- Announce an error about a sequence and drop it. When nobody listens,
the announcement throws first. -/
def drop (s : FrameReader) (listened : Bool) (chunkId : String) : FrameReader :=
  if listened then s.holding chunkId none else s

/-- A limit of the last `ready` frame. -/
def limit (s : FrameReader) (name : String) (default : ℕ) : JsValue :=
  match s.ready with
  | none => .number default
  | some frame =>
      match propertyOf frame name with
      | .undefined | .null => .number default
      | value => value

def maxFrame (s : FrameReader) : JsValue := s.limit "maxFrameBytes" defaultMaxFrameBytes

def maxReassembled (s : FrameReader) : JsValue :=
  s.limit "maxReassembledFrameBytes" defaultMaxReassembledBytes

section Chunks

variable (json : Json)

/-- The number of chunks that a frame may have; none if the limit is not a
number. -/
def maxCount (s : FrameReader) : Option ℤ :=
  (json.toNumber s.maxReassembled).map fun bytes => ⌈bytes / (chunkPayloadBytes : ℚ)⌉

/-- `n` is above a limit. -/
def Exceeds (n : ℕ) (limit : JsValue) : Prop := ∃ q ∈ json.toNumber limit, q < n

/-- `n` is below a limit. -/
def Below (n : ℕ) (limit : JsValue) : Prop := ∃ q ∈ json.toNumber limit, (n : ℚ) < q

instance (n : ℕ) (limit : JsValue) : Decidable (Exceeds json n limit) :=
  inferInstanceAs (Decidable (∃ q ∈ json.toNumber limit, q < n))

instance (n : ℕ) (limit : JsValue) : Decidable (Below json n limit) :=
  inferInstanceAs (Decidable (∃ q ∈ json.toNumber limit, (n : ℚ) < q))

/-- The checks of what a chunk says about itself. -/
def checkHeader (s : FrameReader) (chunk : JsValue) : Except String ChunkHeader := do
  require (2 ≤ s.protocolVersion) "rpc_chunk received before v2 negotiation"
  let chunkId ← (validChunkId (propertyOf chunk "chunkId")).elim
    (.error "invalid rpc_chunk chunkId") .ok
  let index ← (safeNatural (propertyOf chunk "index")).elim (.error "invalid rpc_chunk index") .ok
  let count ← (safeNatural (propertyOf chunk "count")).elim (.error "invalid rpc_chunk count") .ok
  require (2 ≤ count) "invalid rpc_chunk count"
  require (index < count) "rpc_chunk index out of range"
  require (∀ m ∈ s.maxCount json, (count : ℤ) ≤ m)
    ("rpc_chunk count exceeds maximum (" ++ toString count ++ " > "
      ++ ((s.maxCount json).elim "" toString) ++ ")")
  let byteLength ← (safeNatural (propertyOf chunk "byteLength")).elim
    (.error "invalid rpc_chunk byteLength") .ok
  require (¬ Below json byteLength s.maxFrame)
    ("rpc_chunk byteLength must be >= maxFrameBytes (" ++ toString byteLength ++ " < "
      ++ json.display s.maxFrame ++ ")")
  require (¬ Exceeds json byteLength s.maxReassembled)
    ("rpc_chunk byteLength exceeds maxReassembledFrameBytes (" ++ toString byteLength ++ " > "
      ++ json.display s.maxReassembled ++ ")")
  return { chunkId, index, count, byteLength }

/-- The bytes of a chunk. -/
def decodePayload (chunk : JsValue) : Except String (List UInt8) :=
  match propertyOf chunk "data" with
  | .string data =>
      if data = "" then .error "invalid rpc_chunk base64 data"
      else
        match Base64.decode data.toList with
        | none => .error "invalid rpc_chunk base64 data"
        | some bytes => do
            require (Base64.encode bytes = data.toList) "rpc_chunk base64 round-trip mismatch"
            require (bytes.length ≤ chunkPayloadBytes) "rpc_chunk payload exceeds transport limit"
            return bytes
  | _ => .error "invalid rpc_chunk base64 data"

/-- The frame that the bytes of a whole sequence encode. Announcing that it
is not an object throws when nobody listens, and the failure is announced
instead. -/
def reassemble (listened : Bool) (bytes : List UInt8) : Except String JsValue :=
  match (decodeUtf8 bytes).bind json.parse with
  | none => .error "failed to parse reassembled frame"
  | some frame =>
      if isObject frame then .ok frame
      else if listened then .error "reassembled frame is not an object"
      else .error "failed to parse reassembled frame"

/-- Take the bytes of a chunk into its sequence. -/
def accumulate (s : FrameReader) (listened : Bool) (id : String) (pending : PendingChunks)
    (bytes : List UInt8) : FrameReader × Except String (Option JsValue) :=
  if pending.byteLength < pending.receivedBytes + bytes.length then
    ((s.holding id (some (pending.countBytes bytes))).drop listened id,
      .error "rpc_chunk accumulated bytes exceed declared byteLength")
  else if pending.nextIndex + 1 < pending.count then
    (s.holding id (some (pending.push bytes)), .ok none)
  else if pending.receivedBytes + bytes.length ≠ pending.byteLength then
    ((s.holding id (some (pending.push bytes))).drop listened id,
      .error "rpc_chunk length mismatch")
  else
    (s.holding id none, (reassemble json listened (pending.chunks ++ [bytes]).flatten).map some)

/-- Take a chunk in: an error, or the frame if it is complete. -/
def processChunk (s : FrameReader) (listened : Bool) (chunk : JsValue) :
    FrameReader × Except String (Option JsValue) :=
  match s.checkHeader json chunk with
  | .error text => (s, .error text)
  | .ok header =>
      let id := header.chunkId
      if s.pendingChunks id = none ∧ header.index ≠ 0 then
        (s, .error "rpc_chunk sequence must start at index 0")
      else
        let pending := (s.pendingChunks id).getD header.pending
        let s := s.holding id (some pending)
        if pending.chunkId ≠ id ∨ pending.count ≠ header.count ∨
            pending.byteLength ≠ header.byteLength ∨ pending.nextIndex ≠ header.index then
          (s.drop listened id, .error "rpc_chunk sequence mismatch")
        else
          match decodePayload chunk with
          | .error text => (s.drop listened id, .error text)
          | .ok bytes => s.accumulate json listened id pending bytes

end Chunks

/-- Process a frame. What it means to the commands and the events is not
modelled here; a `ready` frame sets the limits. -/
def processFrame (s : FrameReader) (frame : JsValue) : FrameReader :=
  if frameType frame = some "ready" then { s with ready := some frame } else s

/-- Process a line. -/
def processLine (json : Json) (s : FrameReader) (listened : Bool) (line : String) :
    FrameReader × LineResult :=
  match json.parse line with
  | none => (s, .parseError)
  | some frame =>
      if !isObject frame then (s, .nothing)
      else if frameType frame = some "rpc_chunk" then
        match s.processChunk json listened frame with
        | (s, .error text) => (s, .rejected text)
        | (s, .ok none) => (s, .nothing)
        | (s, .ok (some frame)) => (s.processFrame frame, .processed frame)
      else (s.processFrame frame, .processed frame)

/-- What happens to a reader. -/
inductive Input where
  /-- A line arrives; `listened` says whether the consumer listens to the
  errors of the child. -/
  | line (listened : Bool) (text : String)
  | negotiated

def step (json : Json) (s : FrameReader) : Input → FrameReader × LineResult
  | .line listened text => s.processLine json listened text
  | .negotiated => (s.negotiated, .nothing)

/-- What becomes of a list of inputs. -/
def run (json : Json) : FrameReader → List Input → FrameReader × List LineResult
  | s, [] => (s, [])
  | s, input :: rest =>
      let (t, result) := step json s input
      let (u, results) := run json t rest
      (u, result :: results)

/-! ### What the checks let through -/

section Checks

variable {json : Json} {s : FrameReader} {chunk : JsValue}

/-- The limits admit a frame of this length in this number of chunks. -/
def Admits (json : Json) (s : FrameReader) (count byteLength : ℕ) : Prop :=
  (∀ m ∈ s.maxCount json, (count : ℤ) ≤ m) ∧ ¬ Below json byteLength s.maxFrame ∧
    ¬ Exceeds json byteLength s.maxReassembled

theorem checkHeader_eq_ok {header : ChunkHeader} :
    s.checkHeader json chunk = .ok header ↔
      2 ≤ s.protocolVersion ∧ header.Describes chunk ∧ header.chunkId ≠ "" ∧
        (Utf16.codeUnits header.chunkId).length ≤ 128 ∧ 2 ≤ header.count ∧
        header.index < header.count ∧ s.Admits json header.count header.byteLength := by
  obtain ⟨id, index, count, byteLength⟩ := header
  simp only [checkHeader, require_bind, elim_bind, validChunkId_eq_some, pure, Except.pure,
    Except.ok.injEq, ChunkHeader.mk.injEq, ChunkHeader.Describes, Admits]
  constructor
  · rintro ⟨version, i, ⟨named, nonempty, short⟩, j, first, c, second, two, within, few, n,
      third, low, high, rfl, rfl, rfl, rfl⟩
    exact ⟨version, ⟨named, first, second, third⟩, nonempty, short, two, within, few, low, high⟩
  · rintro ⟨version, ⟨named, first, second, third⟩, nonempty, short, two, within, few, low, high⟩
    exact ⟨version, id, ⟨named, nonempty, short⟩, index, first, count, second, two, within, few,
      byteLength, third, low, high, rfl, rfl, rfl, rfl⟩

theorem decodePayload_eq_ok {bytes : List UInt8} :
    decodePayload chunk = .ok bytes ↔
      ∃ data, propertyOf chunk "data" = .string data ∧ data ≠ "" ∧
        Base64.decode data.toList = some bytes ∧ Base64.encode bytes = data.toList ∧
        bytes.length ≤ chunkPayloadBytes := by
  unfold decodePayload
  split
  case h_1 data given =>
      simp only [given, JsValue.string.injEq, exists_eq_left']
      split
      case isTrue empty => simp [empty]
      case isFalse nonempty =>
          cases decoded : Base64.decode data.toList with
          | none => simp
          | some decoded =>
              simp only [require_bind, pure, Except.pure, Except.ok.injEq, Option.some.injEq]
              constructor
              · rintro ⟨canonical, short, rfl⟩
                exact ⟨nonempty, rfl, canonical, short⟩
              · rintro ⟨_, rfl, canonical, short⟩
                exact ⟨canonical, short, rfl⟩
  case h_2 other =>
      simp only [reduceCtorEq, false_iff]
      rintro ⟨data, given, _⟩
      exact other data given

end Checks

end FrameReader

end OmpBundler.Core
