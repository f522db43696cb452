import OmpBundler.Core.ChunkTransport
import OmpBundler.Library.Transition

/-!
What is reassembled from chunks.

The trace of a reader lists its inputs with what became of them. A frame
that is reassembled is traced back to chunks of the trace: `Collects` says
that the trace ends with a run of chunks of one sequence that were all
taken, in the order of their indexes from 0 on, and that every other chunk
of this sequence since the first of them was rejected.

The invariant is about what is held for each sequence. A sequence whose
last error was thrown, because nobody listened, is held on: it may have
counted bytes that it has not taken, or have taken its last chunk and
failed. It is never completed then, so the run of its chunks matters only
as long as it can be.
-/

namespace OmpBundler.Core

open Library

/-- An input with what became of it. -/
abbrev TraceEntry := FrameReader.Input × LineResult

namespace FrameReader

variable (json : Json)

/-- The input is a chunk with this header and these bytes, and was not
rejected. -/
def Taken (e : TraceEntry) (header : ChunkHeader) (bytes : List UInt8) : Prop :=
  ∃ listened line chunk, e.1 = .line listened line ∧ json.parse line = some chunk ∧
    frameType chunk = some "rpc_chunk" ∧ header.Describes chunk ∧
    decodePayload chunk = .ok bytes ∧ e.2.isRejected = false

/-- The trace ends with a run of chunks of the sequence, which carry these
bytes. -/
inductive Collects (id : String) (count byteLength : ℕ) :
    List TraceEntry → List (List UInt8) → Prop
  | first {trace : List TraceEntry} {e : TraceEntry} {bytes : List UInt8} :
      Taken json e ⟨id, 0, count, byteLength⟩ bytes →
      Collects id count byteLength (trace ++ [e]) [bytes]
  | next {trace : List TraceEntry} {chunks : List (List UInt8)} {e : TraceEntry}
      {bytes : List UInt8} :
      Collects id count byteLength trace chunks →
      Taken json e ⟨id, chunks.length, count, byteLength⟩ bytes →
      Collects id count byteLength (trace ++ [e]) (chunks ++ [bytes])
  /-- No chunk of the sequence is taken. -/
  | pass {trace : List TraceEntry} {chunks : List (List UInt8)} {e : TraceEntry} :
      Collects id count byteLength trace chunks →
      (∀ header bytes, header.chunkId = id → ¬ Taken json e header bytes) →
      Collects id count byteLength (trace ++ [e]) chunks

/-- The frame that the bytes encode, if any. -/
def encoded (bytes : List UInt8) : Option JsValue := (decodeUtf8 bytes).bind json.parse

/-- The trace ends with all chunks of one sequence, and they encode the
frame. -/
def Reassembled (trace : List TraceEntry) (frame : JsValue) : Prop :=
  ∃ id count byteLength chunks, Collects json id count byteLength trace chunks ∧
    chunks.length = count ∧ chunks.flatten.length = byteLength ∧
    encoded json chunks.flatten = some frame

/-- A chunk that made the child process a frame. -/
def Emits (e : TraceEntry) (frame : JsValue) : Prop :=
  ∃ listened line chunk, e.1 = .line listened line ∧ json.parse line = some chunk ∧
    frameType chunk = some "rpc_chunk" ∧ e.2 = .processed frame

/-- The input is the last chunk of a sequence that is held, and these are
the bytes of all its chunks. -/
def Completes (s : FrameReader) (input : Input) (bytes : List UInt8) : Prop :=
  ∃ listened line chunk header pending piece, input = .line listened line ∧
    json.parse line = some chunk ∧ frameType chunk = some "rpc_chunk" ∧
    s.checkHeader json chunk = .ok header ∧
    s.pendingChunks header.chunkId = some pending ∧ pending.chunkId = header.chunkId ∧
    pending.count = header.count ∧ pending.byteLength = header.byteLength ∧
    pending.nextIndex = header.index ∧ header.index + 1 = header.count ∧
    decodePayload chunk = .ok piece ∧
    pending.receivedBytes + piece.length = pending.byteLength ∧
    bytes = (pending.chunks ++ [piece]).flatten

end FrameReader

/-- A reader with its trace. -/
structure TracedReader where
  reader : FrameReader
  trace : List TraceEntry

namespace TracedReader

open FrameReader

def initial : TracedReader := ⟨.new, []⟩

def step (json : Json) (s : TracedReader) (input : Input) : TracedReader :=
  let (reader, result) := FrameReader.step json s.reader input
  { reader, trace := s.trace ++ [(input, result)] }

def machine (json : Json) : Transition.Machine TracedReader Input where
  init s := s = initial
  step s input := some (s.step json input)

/-- Every frame that was reassembled is the JSON object that the chunks of
one sequence encode, and no more bytes are held than were declared. -/
def Exact (json : Json) (s : TracedReader) : Prop :=
  (∀ before e after frame, s.trace = before ++ e :: after → Emits json e frame →
    Reassembled json (before ++ [e]) frame ∧ ∃ properties, frame = .object properties) ∧
  ∀ id pending, s.reader.pendingChunks id = some pending →
    pending.chunks.flatten.length ≤ pending.byteLength

/-- The input does not complete a sequence whose bytes encode an array. -/
def NoArray (json : Json) (s : TracedReader) (input : Input) : Prop :=
  ∀ bytes elements, Completes json s.reader input bytes →
    encoded json bytes ≠ some (.array elements)

/-! ### What a chunk does -/

section Chunk

variable {json : Json}

/-- What is held for a sequence is consistent with the trace. -/
structure Held (json : Json) (trace : List TraceEntry) (id : String) (p : PendingChunks) :
    Prop where
  named : p.chunkId = id
  next : p.nextIndex = p.chunks.length
  bounded : p.chunks.flatten.length ≤ p.byteLength
  /-- More bytes may have been counted than taken; then there are too many. -/
  counted : p.nextIndex < p.count →
    p.receivedBytes = p.chunks.flatten.length ∨ p.byteLength < p.receivedBytes
  collects : p.nextIndex < p.count → p.chunks ≠ [] →
    Collects json id p.count p.byteLength trace p.chunks

/-- Whatever is held is. -/
def Sound (json : Json) (s : TracedReader) : Prop :=
  ∀ id p, s.reader.pendingChunks id = some p → Held json s.trace id p

theorem Held.begin (header : ChunkHeader) (trace : List TraceEntry) :
    Held json trace header.chunkId header.pending where
  named := rfl
  next := rfl
  bounded := Nat.zero_le _
  counted _ := .inl rfl
  collects _ some_chunk := absurd rfl some_chunk

/-- Without a chunk that is taken, what is held stays consistent. -/
theorem Held.pass {trace : List TraceEntry} {id : String} {p : PendingChunks} {e : TraceEntry}
    (held : Held json trace id p)
    (untaken : ∀ header bytes, header.chunkId = id → ¬ Taken json e header bytes) :
    Held json (trace ++ [e]) id p :=
  { held with collects := fun open_ some_chunk => .pass (held.collects open_ some_chunk) untaken }

/-- The next chunk of a sequence prolongs its run. -/
theorem Held.collects_push {trace : List TraceEntry} {id : String} {p : PendingChunks}
    {e : TraceEntry} {bytes : List UInt8} (held : Held json trace id p) (early : p.nextIndex < p.count)
    (taken : Taken json e ⟨id, p.nextIndex, p.count, p.byteLength⟩ bytes) :
    Collects json id p.count p.byteLength (trace ++ [e]) (p.chunks ++ [bytes]) := by
  by_cases none_yet : p.chunks = []
  · rw [held.next, none_yet] at taken
    rw [none_yet]
    exact .first taken
  · rw [held.next] at taken
    exact .next (held.collects early none_yet) taken

/-- What a sequence may be left as when an error about it is thrown. -/
inductive Leftover (p : PendingChunks) : PendingChunks → Prop
  | same : Leftover p p
  | counted (bytes : List UInt8) :
      p.byteLength < p.receivedBytes + bytes.length → Leftover p (p.countBytes bytes)
  | pushed (bytes : List UInt8) : p.nextIndex < p.count →
      p.receivedBytes + bytes.length ≤ p.byteLength → p.count ≤ p.nextIndex + 1 →
      Leftover p (p.push bytes)

/-- What a chunk leads to: the reader after it and its result. -/
inductive ChunkStep (json : Json) (s : FrameReader) (chunk : JsValue) :
    FrameReader → Except String (Option JsValue) → Prop
  | refused (text : String) : ChunkStep json s chunk s (.error text)
  | dropped (header : ChunkHeader) (text : String) :
      ChunkStep json s chunk (s.holding header.chunkId none) (.error text)
  | thrown (header : ChunkHeader) (p : PendingChunks) (text : String) :
      Leftover ((s.pendingChunks header.chunkId).getD header.pending) p →
      ChunkStep json s chunk (s.holding header.chunkId (some p)) (.error text)
  | kept (header : ChunkHeader) (pending : PendingChunks) (bytes : List UInt8) :
      s.checkHeader json chunk = .ok header →
      pending = (s.pendingChunks header.chunkId).getD header.pending →
      pending.count = header.count → pending.byteLength = header.byteLength →
      pending.nextIndex = header.index → decodePayload chunk = .ok bytes →
      pending.receivedBytes + bytes.length ≤ pending.byteLength →
      pending.nextIndex + 1 < pending.count →
      ChunkStep json s chunk (s.holding header.chunkId (some (pending.push bytes))) (.ok none)
  | complete (header : ChunkHeader) (pending : PendingChunks) (bytes : List UInt8)
      (listened : Bool) :
      s.checkHeader json chunk = .ok header →
      s.pendingChunks header.chunkId = some pending → pending.chunkId = header.chunkId →
      pending.count = header.count → pending.byteLength = header.byteLength →
      pending.nextIndex = header.index → header.index + 1 = header.count →
      decodePayload chunk = .ok bytes →
      pending.receivedBytes + bytes.length = pending.byteLength →
      ChunkStep json s chunk (s.holding header.chunkId none)
        ((reassemble json listened (pending.chunks ++ [bytes]).flatten).map some)

/-- An error about a sequence drops it or, if it is thrown, leaves it. -/
theorem ChunkStep.of_drop {s : FrameReader} {chunk : JsValue} {header : ChunkHeader}
    {p : PendingChunks} (listened : Bool) (text : String)
    (leftover : Leftover ((s.pendingChunks header.chunkId).getD header.pending) p) :
    ChunkStep json s chunk ((s.holding header.chunkId (some p)).drop listened header.chunkId)
      (.error text) := by
  cases listened with
  | false => exact .thrown header p text leftover
  | true =>
      have gone : (s.holding header.chunkId (some p)).drop true header.chunkId =
          s.holding header.chunkId none := by
        simp [drop, holding]
      rw [gone]
      exact .dropped header text

theorem processChunk_step (s : FrameReader) (listened : Bool) (chunk : JsValue) :
    ChunkStep json s chunk (s.processChunk json listened chunk).1
      (s.processChunk json listened chunk).2 := by
  unfold processChunk
  split
  case h_1 text _ => exact .refused text
  case h_2 header checked =>
  dsimp only
  split
  · exact .refused _
  case isFalse begun =>
  split
  · exact .of_drop listened _ .same
  case isFalse matched =>
  simp only [not_or, not_not] at matched
  obtain ⟨named, count, byteLength, index⟩ := matched
  split
  case h_1 text _ => exact .of_drop listened text .same
  case h_2 bytes decoded =>
  obtain ⟨_, _, _, _, two, within, _⟩ := checkHeader_eq_ok.mp checked
  have twice (q : Option PendingChunks) (p : Option PendingChunks) :
      (s.holding header.chunkId p).holding header.chunkId q = s.holding header.chunkId q := by
    simp [holding]
  unfold accumulate
  split
  case isTrue exceeds =>
      rw [twice]
      exact .of_drop listened _ (.counted bytes exceeds)
  case isFalse fits =>
  have fits := Nat.not_lt.mp fits
  split
  case isTrue more =>
      rw [twice]
      exact .kept header _ bytes checked rfl count byteLength index decoded fits more
  case isFalse last =>
  have last := Nat.not_lt.mp last
  split
  case isTrue =>
      rw [twice]
      exact .of_drop listened _ (.pushed bytes (by omega) fits last)
  case isFalse whole =>
      rw [twice]
      have index_pos : header.index ≠ 0 := by omega
      cases found : s.pendingChunks header.chunkId with
      | none => exact absurd ⟨found, index_pos⟩ begun
      | some pending =>
          simp only [found, Option.getD_some] at named count byteLength index whole last ⊢
          exact .complete header pending bytes listened checked found named count byteLength index
            (by omega) decoded (not_not.mp whole)

theorem untaken_of_rejected {e : TraceEntry} (rejected : e.2.isRejected = true)
    (header : ChunkHeader) (bytes : List UInt8) : ¬ Taken json e header bytes := by
  rintro ⟨_, _, _, _, _, _, _, _, taken⟩
  simp [rejected] at taken

theorem Held.leftover {trace : List TraceEntry} {id : String} {p q : PendingChunks}
    {e : TraceEntry} (held : Held json trace id p) (leftover : Leftover p q)
    (rejected : e.2.isRejected = true) : Held json (trace ++ [e]) id q := by
  have untaken (header : ChunkHeader) (bytes : List UInt8) (_ : header.chunkId = id) :
      ¬ Taken json e header bytes :=
    untaken_of_rejected rejected header bytes
  cases leftover with
  | same => exact held.pass untaken
  | counted bytes exceeds =>
      exact { held.pass untaken with counted := fun _ => .inr exceeds }
  | pushed bytes early fits last =>
      have taken : p.receivedBytes = p.chunks.flatten.length :=
        (held.counted early).resolve_right (by omega)
      refine ⟨held.named, ?_, ?_, fun open_ => ?_, fun open_ => ?_⟩
      · simp [PendingChunks.push, held.next]
      · have size : (p.push bytes).chunks.flatten.length = p.chunks.flatten.length + bytes.length := by
          simp [PendingChunks.push]
        rw [size, ← taken]
        exact fits
      · exact absurd open_ (Nat.not_lt.mpr last)
      · exact absurd open_ (Nat.not_lt.mpr last)

theorem Held.kept {trace : List TraceEntry} {id : String} {p : PendingChunks} {e : TraceEntry}
    {bytes : List UInt8} (held : Held json trace id p)
    (fits : p.receivedBytes + bytes.length ≤ p.byteLength) (more : p.nextIndex + 1 < p.count)
    (taken : Taken json e ⟨id, p.nextIndex, p.count, p.byteLength⟩ bytes) :
    Held json (trace ++ [e]) id (p.push bytes) := by
  have early : p.nextIndex < p.count := by omega
  have counted : p.receivedBytes = p.chunks.flatten.length :=
    (held.counted early).resolve_right (by omega)
  have size : (p.push bytes).chunks.flatten.length = p.chunks.flatten.length + bytes.length := by
    simp [PendingChunks.push]
  refine ⟨held.named, ?_, ?_, fun _ => .inl ?_, fun _ _ => held.collects_push early taken⟩
  · simp [PendingChunks.push, held.next]
  · rw [size, ← counted]
    exact fits
  · rw [size, ← counted]
    rfl

variable {s : TracedReader}

/-- What holds of one sequence and of the others holds of all. -/
theorem Sound.holding (sound : Sound json s) {e : TraceEntry} {id : String}
    {q : Option PendingChunks}
    (others : ∀ other, other ≠ id → ∀ header bytes, header.chunkId = other →
      ¬ Taken json e header bytes)
    (own : ∀ p, q = some p → Held json (s.trace ++ [e]) id p) :
    Sound json ⟨s.reader.holding id q, s.trace ++ [e]⟩ := by
  intro other p known
  by_cases same : other = id
  · subst same
    exact own p (by simpa [FrameReader.holding] using known)
  · have before : s.reader.pendingChunks other = some p := by
      simpa [FrameReader.holding, Function.update_of_ne same] using known
    exact (sound other p before).pass (others other same)

theorem Sound.pass (sound : Sound json s) {e : TraceEntry} {reader : FrameReader}
    (same : reader.pendingChunks = s.reader.pendingChunks)
    (untaken : ∀ header bytes, ¬ Taken json e header bytes) :
    Sound json ⟨reader, s.trace ++ [e]⟩ := by
  intro id p known
  exact (sound id p (same ▸ known)).pass fun header bytes _ => untaken header bytes

/-- What is taken from the map for a chunk is consistent. -/
theorem Sound.getD (sound : Sound json s) (header : ChunkHeader) :
    Held json s.trace header.chunkId
      ((s.reader.pendingChunks header.chunkId).getD header.pending) := by
  cases known : s.reader.pendingChunks header.chunkId with
  | none => exact .begin header s.trace
  | some p => exact sound _ p known

/-- Whether a chunk gave an error. -/
def gaveError : Except String (Option JsValue) → Bool
  | .error _ => true
  | .ok _ => false

/-- A chunk keeps what is held consistent; if it gives a frame, its
sequence encodes the frame. -/
theorem sound_chunk (sound : Sound json s) (listened : Bool) {line : String} {chunk : JsValue}
    (parsed : json.parse line = some chunk) (type : frameType chunk = some "rpc_chunk")
    {t : FrameReader} {r : Except String (Option JsValue)}
    (taken : ChunkStep json s.reader chunk t r) (result : LineResult)
    (reported : result.isRejected = gaveError r) :
    Sound json ⟨t, s.trace ++ [(.line listened line, result)]⟩ ∧
      ∀ frame, r = .ok (some frame) → ∃ bytes,
        Completes json s.reader (.line listened line) bytes ∧ encoded json bytes = some frame ∧
        isObject frame = true ∧
        Reassembled json (s.trace ++ [(.line listened line, result)]) frame := by
  -- A chunk whose header passed is taken for no other sequence.
  have others (header : ChunkHeader) (checked : s.reader.checkHeader json chunk = .ok header)
      (other : String) (ne : other ≠ header.chunkId) (header' : ChunkHeader) (bytes : List UInt8)
      (named : header'.chunkId = other) :
      ¬ Taken json (.line listened line, result) header' bytes := by
    rintro ⟨_, line', chunk', input, parsed', _, ⟨describes, _⟩, _⟩
    obtain ⟨rfl, rfl⟩ := FrameReader.Input.line.inj input
    obtain rfl : chunk = chunk' := Option.some.inj (parsed ▸ parsed')
    obtain ⟨_, ⟨own, _⟩, _⟩ := checkHeader_eq_ok.mp checked
    rw [own, JsValue.string.injEq] at describes
    exact ne (named ▸ describes.symm)
  have own (header : ChunkHeader) (checked : s.reader.checkHeader json chunk = .ok header)
      (bytes : List UInt8) (decoded : decodePayload chunk = .ok bytes)
      (accepted : result.isRejected = false) :
      Taken json (.line listened line, result) header bytes :=
    ⟨listened, line, chunk, rfl, parsed, type, (checkHeader_eq_ok.mp checked).2.1, decoded,
      accepted⟩
  cases taken with
  | refused text =>
      exact ⟨sound.pass rfl fun header bytes => untaken_of_rejected reported header bytes, nofun⟩
  | dropped header text =>
      exact ⟨sound.holding (fun _ _ header bytes _ => untaken_of_rejected reported header bytes)
        nofun, nofun⟩
  | thrown header p text leftover =>
      refine ⟨sound.holding (fun _ _ header bytes _ => untaken_of_rejected reported header bytes)
        ?_, nofun⟩
      rintro _ ⟨⟩
      exact (sound.getD header).leftover leftover reported
  | kept header pending bytes checked from_map count byteLength index decoded fits more =>
      refine ⟨sound.holding (others header checked) ?_, nofun⟩
      rintro _ ⟨⟩
      have held := sound.getD header
      rw [← from_map] at held
      refine held.kept fits more ?_
      rw [index, count, byteLength]
      exact own header checked bytes decoded reported
  | complete header pending bytes heard checked found named count byteLength index last decoded
      whole =>
      refine ⟨sound.holding (others header checked) nofun, ?_⟩
      intro frame reassembled
      have encodes : encoded json (pending.chunks ++ [bytes]).flatten = some frame ∧
          isObject frame = true := by
        unfold reassemble at reassembled
        split at reassembled
        case h_1 => simp [Except.map] at reassembled
        case h_2 value decodes =>
            split at reassembled
            case isTrue object =>
                obtain rfl : value = frame := by simpa [Except.map] using reassembled
                exact ⟨decodes, object⟩
            case isFalse =>
                split at reassembled <;> simp [Except.map] at reassembled
      have held := sound _ _ found
      have early : pending.nextIndex < pending.count := by omega
      have counted : pending.receivedBytes = pending.chunks.flatten.length :=
        (held.counted early).resolve_right (by omega)
      have accepted : result.isRejected = false := by
        rw [reported, reassembled]
        rfl
      refine ⟨_, ⟨listened, line, chunk, header, pending, bytes, rfl, parsed, type, checked, found,
        named, count, byteLength, index, last, decoded, whole, rfl⟩, encodes.1, encodes.2,
        header.chunkId, pending.count, pending.byteLength, pending.chunks ++ [bytes], ?_, ?_, ?_,
        encodes.1⟩
      · refine held.collects_push early ?_
        rw [index, count, byteLength]
        exact own header checked bytes decoded accepted
      · rw [List.length_append, List.length_singleton, ← held.next]
        omega
      · rw [List.flatten_append, List.length_append, ← counted]
        simpa using whole

/-- Only objects have a type. -/
theorem isObject_of_frameType {frame : JsValue} {type : String}
    (typed : frameType frame = some type) : isObject frame = true := by
  cases frame with
  | object => rfl
  | _ => simp [frameType, propertyOf] at typed

@[simp] theorem processFrame_pendingChunks (reader : FrameReader) (frame : JsValue) :
    (reader.processFrame frame).pendingChunks = reader.pendingChunks := by
  unfold processFrame
  split <;> rfl

/-- An input keeps what is held consistent; if it is a chunk and gives a
frame, its sequence encodes the frame. -/
theorem sound_step (sound : Sound json s) (input : Input) :
    Sound json (s.step json input) ∧
      ∀ frame, Emits json (input, (FrameReader.step json s.reader input).2) frame → ∃ bytes,
        Completes json s.reader input bytes ∧ encoded json bytes = some frame ∧
        isObject frame = true ∧ Reassembled json (s.step json input).trace frame := by
  cases input with
  | negotiated =>
      refine ⟨sound.pass rfl ?_, ?_⟩
      · rintro _ _ ⟨_, _, _, ⟨⟩, _⟩
      · rintro _ ⟨_, _, _, ⟨⟩, _⟩
  | line listened line =>
      have silent (unchunked : ∀ chunk, json.parse line = some chunk →
          frameType chunk ≠ some "rpc_chunk") (result : LineResult) :
          (∀ header bytes, ¬ Taken json (.line listened line, result) header bytes) ∧
            ∀ frame, ¬ Emits json (.line listened line, result) frame := by
        constructor
        · rintro _ _ ⟨_, _, chunk, input, parsed, type, _⟩
          obtain ⟨rfl, rfl⟩ := FrameReader.Input.line.inj input
          exact unchunked chunk parsed type
        · rintro _ ⟨_, _, chunk, input, parsed, type, _⟩
          obtain ⟨rfl, rfl⟩ := FrameReader.Input.line.inj input
          exact unchunked chunk parsed type
      simp only [TracedReader.step, FrameReader.step, processLine]
      cases parsed : json.parse line with
      | none =>
          have silent := silent (by simp [parsed]) .parseError
          exact ⟨sound.pass rfl silent.1, fun frame emits => (silent.2 frame emits).elim⟩
      | some frame =>
          dsimp only
          by_cases type : frameType frame = some "rpc_chunk"
          · simp only [isObject_of_frameType type, type, Bool.not_true, Bool.false_eq_true, if_false,
              if_true]
            have taken : ChunkStep json s.reader frame _ _ := processChunk_step s.reader listened frame
            rcases chunked : s.reader.processChunk json listened frame with
              ⟨t, text | _ | reassembled⟩ <;> rw [chunked] at taken
            · have chunk := sound_chunk sound listened parsed type taken (.rejected text)
                rfl
              refine ⟨chunk.1, ?_⟩
              rintro _ ⟨_, _, _, _, _, _, ⟨⟩⟩
            · have chunk := sound_chunk sound listened parsed type taken .nothing rfl
              refine ⟨chunk.1, ?_⟩
              rintro _ ⟨_, _, _, _, _, _, ⟨⟩⟩
            · have chunk := sound_chunk sound listened parsed type taken
                (.processed reassembled) rfl
              refine ⟨?_, ?_⟩
              · intro id p known
                exact chunk.1 id p (by simpa using known)
              · rintro _ ⟨_, _, _, _, _, _, ⟨⟩⟩
                exact chunk.2 _ rfl
          · have silent := silent (by
              rintro chunk parsed'
              obtain rfl : frame = chunk := Option.some.inj (parsed ▸ parsed')
              exact type)
            split
            case isTrue =>
                exact ⟨sound.pass rfl (silent _).1, fun f emits => ((silent _).2 f emits).elim⟩
            case isFalse =>
                dsimp only
                exact ⟨sound.pass (by simp) (silent _).1,
                  fun f emits => ((silent _).2 f emits).elim⟩

/-- The last chunk of a sequence whose bytes encode what passes for an
object gives it. -/
theorem Completes.processed {reader : FrameReader} {input : Input} {bytes : List UInt8}
    {frame : JsValue} (completes : Completes json reader input bytes)
    (encodes : encoded json bytes = some frame) (object : isObject frame = true) :
    (FrameReader.step json reader input).2 = .processed frame := by
  obtain ⟨listened, line, chunk, header, pending, piece, rfl, parsed, type, checked, found, named,
    count, byteLength, index, last, decoded, whole, rfl⟩ := completes
  have reassembled : reassemble json listened (pending.chunks ++ [piece]).flatten = .ok frame := by
    simp only [encoded] at encodes
    unfold reassemble
    rw [encodes]
    exact if_pos object
  have chunked : (reader.processChunk json listened chunk).2 = .ok (some frame) := by
    simp only [processChunk, checked, found, Option.getD_some]
    rw [if_neg (by simp), if_neg (by simp [named, count, byteLength, index])]
    simp only [decoded, accumulate]
    rw [if_neg (by omega), if_neg (by omega), if_neg (by omega), reassembled]
    rfl
  simp only [FrameReader.step, processLine, parsed, isObject_of_frameType type, type, Bool.not_true,
    Bool.false_eq_true, if_false, if_true]
  rcases taken : reader.processChunk json listened chunk with ⟨t, text | _ | result⟩ <;>
    simp only [taken, Except.ok.injEq, reduceCtorEq, Option.some.injEq] at chunked
  rw [chunked]

theorem exact_step_iff (sound : Sound json s) (exact : s.Exact json) (input : Input) :
    (s.step json input).Exact json ↔ s.NoArray json input := by
  obtain ⟨sound_after, emitted⟩ := sound_step sound input
  constructor
  · rintro ⟨proper, _⟩ bytes elements completes encodes
    have processed := Completes.processed completes encodes rfl
    obtain ⟨listened, line, chunk, header, pending, piece, rfl, parsed, type, _⟩ := completes
    obtain ⟨_, properties, object⟩ := proper s.trace
      (.line listened line, (FrameReader.step json s.reader (.line listened line)).2) [] _ rfl
      ⟨listened, line, chunk, rfl, parsed, type, processed⟩
    simp at object
  · intro unlisted
    refine ⟨fun before e after frame split emits => ?_, fun id p known =>
      (sound_after id p known).bounded⟩
    have whole : s.trace ++ [(input, (FrameReader.step json s.reader input).2)] =
        before ++ e :: after := split
    rcases List.eq_nil_or_concat after with rfl | ⟨earlier, latest, rfl⟩
    · obtain ⟨rfl, same⟩ := List.append_inj' whole rfl
      obtain rfl := List.singleton_inj.mp same
      obtain ⟨bytes, completes, encodes, object, reassembled⟩ := emitted frame emits
      refine ⟨reassembled, ?_⟩
      cases frame with
      | object properties => exact ⟨properties, rfl⟩
      | array elements => exact absurd encodes (unlisted bytes elements completes)
      | _ => simp [isObject] at object
    · rw [List.concat_eq_append, ← List.cons_append, ← List.append_assoc] at whole
      obtain ⟨before_same, _⟩ := List.append_inj' whole rfl
      exact exact.1 before e earlier frame before_same emits

end Chunk

theorem sound_initial (json : Json) : Sound json initial := by
  intro id p known
  simp [initial, FrameReader.new] at known

theorem exact_initial (json : Json) : initial.Exact json := by
  constructor
  · intro before e after frame split
    simp [initial] at split
  · intro id p known
    simp [initial, FrameReader.new] at known

/-- The runs throughout which every reassembled frame is the object that
its chunks encode, and no more bytes are held than were declared, are those
in which no sequence whose bytes encode an array is completed. -/
theorem reassembly_exact_iff (json : Json) (inputs : List Input) :
    (machine json).Throughout (Exact json) initial inputs ↔
      (machine json).EachStep (NoArray json) initial inputs :=
  Transition.Machine.throughout_iff_eachStep (sound_initial json) (exact_initial json)
    (fun _ input _ sound taken => Option.some.inj taken ▸ (sound_step sound input).1)
    fun _ input _ sound exact taken => Option.some.inj taken ▸ exact_step_iff sound exact input

/-! ### An array in two chunks -/

def arrayJson : Json :=
  .ofTable [(readyText "2", readyValue 2), (chunkText "0" "Ww==", chunkValue 0 "Ww=="),
    (chunkText "1" "XQ==", chunkValue 1 "XQ=="), ("[]", .array [])] (by
      simp only [List.forall_mem_cons, head_chunkText, head_readyText]
      decide)

/-- The reader when the limits have been made small, version 2 has been
negotiated, and the first of two chunks of `[]` has arrived. -/
def arrayBegun : TracedReader :=
  [.line true (readyText "2"), .negotiated, .line true (chunkText "0" "Ww==")].foldl
    (TracedReader.step arrayJson) initial

/-- An array was processed as a frame. -/
def LineResult.isArray : LineResult → Bool
  | .processed (.array _) => true
  | _ => false

/-- Not every frame that is reassembled is an object. -/
theorem arrays_are_reassembled :
    ¬ ∀ (json : Json) (inputs : List Input), (machine json).Throughout (Exact json) initial inputs := by
  intro literal
  have exact : (arrayBegun.step arrayJson (.line true (chunkText "1" "XQ=="))).Exact arrayJson :=
    (literal arrayJson [.line true (readyText "2"), .negotiated, .line true (chunkText "0" "Ww=="),
      .line true (chunkText "1" "XQ==")]).last rfl
  have emitted : (LineResult.isArray (FrameReader.step arrayJson arrayBegun.reader
      (.line true (chunkText "1" "XQ=="))).2) = true := by decide +kernel
  unfold LineResult.isArray at emitted
  split at emitted
  case h_2 => simp at emitted
  case h_1 elements processed =>
      obtain ⟨_, properties, object⟩ := exact.1 arrayBegun.trace
        (.line true (chunkText "1" "XQ=="), _) [] (.array elements) rfl
        ⟨true, chunkText "1" "XQ==", chunkValue 1 "XQ==", rfl, by rfl, by rfl, processed⟩
      simp at object

end TracedReader

end OmpBundler.Core
