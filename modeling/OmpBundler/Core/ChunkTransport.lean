import OmpBundler.Core.RpcFrames

/-!
Frames that arrive in chunks.

A transmission is the list of the lines that carry the pieces of one frame,
woven into whatever else the child reads. The reader does with them what
it would do without them and with the frame in the place of the last one,
as long as the limits admit each chunk when it arrives.

The argument is a simulation: beside a reader that has not seen the chunks
runs one that differs from it in what it holds for their sequence.
-/

namespace OmpBundler.Core

open Library

namespace FrameReader

/-- A frame in the pieces that it is sent in. -/
structure Transmission (json : Json) where
  chunkId : String
  /-- The text of the frame. -/
  text : String
  properties : List (String × JsValue)
  pieces : List (List UInt8)
  parses : json.parse text = some (.object properties)
  whole : pieces.flatten.toByteArray = text.toUTF8
  several : 2 ≤ pieces.length
  sized : ∀ piece ∈ pieces, piece ≠ [] ∧ piece.length ≤ chunkPayloadBytes
  named : chunkId ≠ ""
  short : (Utf16.codeUnits chunkId).length ≤ 128

/-- An input among which a transmission is sent. -/
inductive Entry where
  /-- A line of the transmission. -/
  | own (listened : Bool) (line : String)
  | other (input : Input)

namespace Entry

def input : Entry → Input
  | .own listened line => .line listened line
  | .other input => input

def isOwn : Entry → Bool
  | .own .. => true
  | .other _ => false

end Entry

namespace Transmission

variable {json : Json} (x : Transmission json)

/-- The frame that is sent. -/
def frame : JsValue := .object x.properties

/-- A line that carries a piece. -/
def Line (index : ℕ) (piece : List UInt8) (line : String) : Prop :=
  ∃ chunk, json.parse line = some chunk ∧ frameType chunk = some "rpc_chunk" ∧
    (ChunkHeader.mk x.chunkId index x.pieces.length x.pieces.flatten.length).Describes chunk ∧
    propertyOf chunk "data" = .string (String.ofList (Base64.encode piece))

/-- An input that is no chunk of the transmission. -/
def Foreign (input : Input) : Prop :=
  ∀ listened line chunk, input = .line listened line → json.parse line = some chunk →
    frameType chunk = some "rpc_chunk" → propertyOf chunk "chunkId" ≠ .string x.chunkId

/-- The entries carry these pieces, in their order and from this index on,
among other inputs. -/
def Carries : ℕ → List (List UInt8) → List Entry → Prop
  | _, pieces, [] => pieces = []
  | index, pieces, .other input :: rest => x.Foreign input ∧ Carries index pieces rest
  | index, piece :: pieces, .own _ line :: rest =>
      x.Line index piece line ∧ Carries (index + 1) pieces rest
  | _, [], .own .. :: _ => False

/-- What becomes of the entries if the chunks were not there and the frame
were sent in the place of the last one. -/
def ideal : FrameReader → List Entry → FrameReader × List LineResult
  | s, [] => (s, [])
  | s, .other input :: rest =>
      let (t, result) := step json s input
      let (u, results) := ideal t rest
      (u, result :: results)
  | s, .own .. :: rest =>
      if rest.any Entry.isOwn then
        let (u, results) := ideal s rest
        (u, .nothing :: results)
      else
        let (u, results) := ideal (s.processFrame x.frame) rest
        (u, .processed x.frame :: results)

/-- What is held for the transmission when these pieces have arrived. -/
def held (done : List (List UInt8)) : PendingChunks where
  chunkId := x.chunkId
  count := x.pieces.length
  byteLength := x.pieces.flatten.length
  nextIndex := done.length
  chunks := done
  receivedBytes := done.flatten.length

/-- The same, in the map. -/
def entry (done : List (List UInt8)) : Option PendingChunks :=
  if done = [] then none else some (x.held done)

end Transmission

variable {json : Json}

/-! ### Bytes and text -/

theorem fromUTF8?_toUTF8 (text : String) : String.fromUTF8? text.toUTF8 = some text := by
  rw [String.toUTF8_eq_toByteArray, String.fromUTF8?, dif_pos text.isValidUTF8]
  rfl

theorem Transmission.decodes (x : Transmission json) :
    decodeUtf8 x.pieces.flatten = some x.text := by
  unfold decodeUtf8
  rw [x.whole, fromUTF8?_toUTF8, Option.map_some, Option.some.injEq]
  split
  case h_1 c rest chars =>
      split
      case isFalse => rfl
      case isTrue mark =>
          have bom : x.text = String.ofList (Char.ofNat 0xFEFF :: rest) := by
            rw [← mark, ← chars, String.ofList_toList]
          have fails := json.bom rest
          rw [← bom, x.parses] at fails
          simp at fails
  case h_2 => rfl

theorem Transmission.reassembles (x : Transmission json) (listened : Bool) :
    reassemble json listened x.pieces.flatten = .ok x.frame := by
  simp [reassemble, x.decodes, x.parses, isObject, Transmission.frame]

/-! ### A chunk of the transmission -/

section Own

variable {x : Transmission json} {s : FrameReader} {listened : Bool} {index : ℕ}
  {piece : List UInt8} {line : String} {done : List (List UInt8)}

theorem holding_holding (p q : Option PendingChunks) (id : String) :
    (s.holding id p).holding id q = s.holding id q := by
  simp [holding]

theorem holding_none {id : String} (unheld : s.pendingChunks id = none) : s.holding id none = s := by
  simp only [holding]
  rw [← unheld, Function.update_eq_self]

/-- What is taken from the map for a chunk of the transmission. -/
theorem Transmission.getD_entry (done : List (List UInt8)) :
    (x.entry done).getD (ChunkHeader.mk x.chunkId done.length x.pieces.length
      x.pieces.flatten.length).pending = x.held done := by
  unfold Transmission.entry
  split
  case isTrue none_yet =>
      subst none_yet
      rfl
  case isFalse => rfl

/-- The checks let a piece through. -/
theorem Transmission.payload {chunk : JsValue} (mem : piece ∈ x.pieces)
    (data : propertyOf chunk "data" = .string (String.ofList (Base64.encode piece))) :
    decodePayload chunk = .ok piece := by
  obtain ⟨nonempty, short⟩ := x.sized piece mem
  refine decodePayload_eq_ok.mpr ⟨_, data, ?_, ?_, ?_, short⟩
  · intro empty
    have chars := congrArg String.toList empty
    rw [String.toList_ofList] at chars
    exact nonempty (Base64.encode_eq_nil.mp chars)
  · rw [String.toList_ofList]
    exact Base64.decode_encode piece
  · rw [String.toList_ofList]

/-- A piece that is not the last one is kept. -/
theorem Transmission.accumulate_next {rest : List (List UInt8)}
    (pieces : x.pieces = done ++ piece :: rest) (more : rest ≠ []) :
    s.accumulate json listened x.chunkId (x.held done) piece =
      (s.holding x.chunkId (x.entry (done ++ [piece])), .ok none) := by
  have fits : ¬ (x.held done).byteLength < (x.held done).receivedBytes + piece.length := by
    simp only [Transmission.held, pieces, List.flatten_append, List.flatten_cons,
      List.length_append]
    omega
  have early : (x.held done).nextIndex + 1 < (x.held done).count := by
    have := List.length_pos_of_ne_nil more
    simp only [Transmission.held, pieces, List.length_append, List.length_cons]
    omega
  have next : (x.held done).push piece = x.held (done ++ [piece]) := by
    simp [PendingChunks.push, PendingChunks.countBytes, Transmission.held]
  unfold accumulate
  rw [if_neg fits, if_pos early, next]
  simp [Transmission.entry, Transmission.held]

/-- With the last piece the frame is complete. -/
theorem Transmission.accumulate_last (pieces : x.pieces = done ++ [piece]) :
    s.accumulate json listened x.chunkId (x.held done) piece =
      (s.holding x.chunkId none, .ok (some x.frame)) := by
  have whole : (done ++ [piece]).flatten = x.pieces.flatten := by rw [pieces]
  have size : (x.held done).receivedBytes + piece.length = (x.held done).byteLength := by
    simp [Transmission.held, ← whole]
  have count : (x.held done).nextIndex + 1 = (x.held done).count := by
    simp [Transmission.held, pieces]
  unfold accumulate
  rw [if_neg size.le.not_gt, if_neg count.ge.not_gt, if_neg (not_not.mpr size)]
  show (_, (reassemble json listened (done ++ [piece]).flatten).map some) = _
  rw [whole, x.reassembles]
  rfl

/-- A chunk of the transmission is accumulated. -/
theorem Transmission.processLine_own {rest : List (List UInt8)}
    (pieces : x.pieces = done ++ piece :: rest) (carried : x.Line done.length piece line)
    (version : 2 ≤ s.protocolVersion) (admits : s.Admits json x.pieces.length x.pieces.flatten.length)
    (at_id : s.pendingChunks x.chunkId = x.entry done) :
    s.processLine json listened line =
      match s.accumulate json listened x.chunkId (x.held done) piece with
      | (s, .error text) => (s, .rejected text)
      | (s, .ok none) => (s, .nothing)
      | (s, .ok (some frame)) => (s.processFrame frame, .processed frame) := by
  obtain ⟨chunk, parsed, type, describes, data⟩ := carried
  have several := x.several
  have position : done.length < x.pieces.length := by
    rw [pieces, List.length_append, List.length_cons]
    omega
  have header : s.checkHeader json chunk = .ok ⟨x.chunkId, done.length, x.pieces.length,
      x.pieces.flatten.length⟩ :=
    checkHeader_eq_ok.mpr ⟨version, describes, x.named, x.short, several, position, admits⟩
  have object : isObject chunk = true := by
    cases chunk with
    | object => rfl
    | _ => simp [frameType, propertyOf] at type
  have payload : decodePayload chunk = .ok piece := x.payload (by simp [pieces]) data
  have started : ¬ (x.entry done = none ∧ done.length ≠ 0) := by
    rintro ⟨nothing, later⟩
    simp only [Transmission.entry] at nothing
    split at nothing
    case isTrue empty => simp [empty] at later
    case isFalse => simp at nothing
  have chunked : s.processChunk json listened chunk =
      s.accumulate json listened x.chunkId (x.held done) piece := by
    simp only [processChunk, header, at_id, payload, Transmission.getD_entry]
    rw [if_neg started, if_neg (by simp [Transmission.held])]
    simp [accumulate, Transmission.held, holding_holding, drop]
  simp only [processLine, parsed, object, type, chunked]
  rfl

/-- A chunk that is not the last one is kept. -/
theorem Transmission.processLine_next {rest : List (List UInt8)}
    (pieces : x.pieces = done ++ piece :: rest) (more : rest ≠ [])
    (carried : x.Line done.length piece line) (version : 2 ≤ s.protocolVersion)
    (admits : s.Admits json x.pieces.length x.pieces.flatten.length) :
    (s.holding x.chunkId (x.entry done)).processLine json listened line =
      (s.holding x.chunkId (x.entry (done ++ [piece])), .nothing) := by
  have own : (s.holding x.chunkId (x.entry done)).processLine json listened line = _ :=
    x.processLine_own pieces carried version admits (by simp [holding])
  rw [own, x.accumulate_next pieces more, holding_holding]

/-- With the last chunk the frame is processed. -/
theorem Transmission.processLine_last (pieces : x.pieces = done ++ [piece])
    (carried : x.Line done.length piece line) (version : 2 ≤ s.protocolVersion)
    (admits : s.Admits json x.pieces.length x.pieces.flatten.length)
    (unheld : s.pendingChunks x.chunkId = none) :
    (s.holding x.chunkId (x.entry done)).processLine json listened line =
      (s.processFrame x.frame, .processed x.frame) := by
  have own : (s.holding x.chunkId (x.entry done)).processLine json listened line = _ :=
    x.processLine_own pieces carried version admits (by simp [holding])
  rw [own, x.accumulate_last pieces, holding_holding, holding_none unheld]

end Own

/-! ### What is held for one sequence does not matter to the others -/

section Foreign

variable {s : FrameReader} {id other : String} {p : Option PendingChunks}

theorem holding_comm (ne : other ≠ id) (q : Option PendingChunks) :
    (s.holding id p).holding other q = (s.holding other q).holding id p := by
  simp only [holding]
  rw [Function.update_comm ne.symm]

theorem holding_drop (ne : other ≠ id) (listened : Bool) :
    (s.holding id p).drop listened other = (s.drop listened other).holding id p := by
  cases listened with
  | true => exact holding_comm ne none
  | false => rfl

theorem holding_processFrame (frame : JsValue) :
    (s.holding id p).processFrame frame = (s.processFrame frame).holding id p := by
  unfold processFrame
  split <;> rfl

theorem holding_accumulate (ne : other ≠ id) (listened : Bool) (pending : PendingChunks)
    (bytes : List UInt8) :
    (s.holding id p).accumulate json listened other pending bytes =
      ((s.accumulate json listened other pending bytes).1.holding id p,
        (s.accumulate json listened other pending bytes).2) := by
  unfold accumulate
  rw [holding_comm ne, holding_drop ne, holding_comm ne, holding_drop ne, holding_comm ne]
  split
  · rfl
  split
  · rfl
  split <;> rfl

theorem holding_processChunk {chunk : JsValue} (listened : Bool)
    (ne : propertyOf chunk "chunkId" ≠ .string id) :
    (s.holding id p).processChunk json listened chunk =
      ((s.processChunk json listened chunk).1.holding id p,
        (s.processChunk json listened chunk).2) := by
  have same : (s.holding id p).checkHeader json chunk = s.checkHeader json chunk := rfl
  unfold processChunk
  rw [same]
  cases checked : s.checkHeader json chunk with
  | error => rfl
  | ok header =>
      have own : header.chunkId ≠ id := fun same => by
        obtain ⟨_, ⟨named, _⟩, _⟩ := checkHeader_eq_ok.mp checked
        exact ne (same ▸ named)
      have lookup : (s.holding id p).pendingChunks header.chunkId =
          s.pendingChunks header.chunkId := Function.update_of_ne own _ _
      dsimp only
      rw [lookup]
      split
      · rfl
      rw [holding_comm own]
      split
      · rw [holding_drop own]
      cases decodePayload chunk with
      | error => rw [holding_drop own]
      | ok bytes => exact holding_accumulate own listened _ bytes

/-- Without an input of its own, a sequence stays as it is and changes
nothing. -/
theorem step_holding {x : Transmission json} {input : Input} (foreign : x.Foreign input) :
    step json (s.holding x.chunkId p) input =
      ((step json s input).1.holding x.chunkId p, (step json s input).2) := by
  cases input with
  | negotiated => rfl
  | line listened line =>
      simp only [step, processLine]
      cases parsed : json.parse line with
      | none => rfl
      | some frame =>
          dsimp only
          split
          · rfl
          split
          case isFalse => rw [holding_processFrame]
          case isTrue type =>
              rw [holding_processChunk listened (foreign listened line frame rfl parsed type)]
              rcases s.processChunk json listened frame with ⟨t, _ | _ | _⟩
              · rfl
              · rfl
              · simp only [holding_processFrame]

end Foreign

/-! ### The simulation -/

section Simulation

variable {x : Transmission json} {s : FrameReader}

theorem step_version (input : Input) (version : 2 ≤ s.protocolVersion) :
    2 ≤ (step json s input).1.protocolVersion := by
  have processed (t : FrameReader) (frame : JsValue) :
      (t.processFrame frame).protocolVersion = t.protocolVersion := by
    unfold processFrame
    split <;> rfl
  have dropped (t : FrameReader) (listened : Bool) (id : String) :
      (t.drop listened id).protocolVersion = t.protocolVersion := by
    cases listened <;> rfl
  have accumulated (t : FrameReader) (listened : Bool) (id : String) (pending : PendingChunks)
      (bytes : List UInt8) :
      (t.accumulate json listened id pending bytes).1.protocolVersion = t.protocolVersion := by
    unfold accumulate
    split
    · exact dropped _ _ _
    split
    · rfl
    split
    · exact dropped _ _ _
    · rfl
  have chunked (listened : Bool) (chunk : JsValue) :
      (s.processChunk json listened chunk).1.protocolVersion = s.protocolVersion := by
    unfold processChunk
    split
    · rfl
    dsimp only
    split
    · rfl
    split
    · exact dropped _ _ _
    split
    · exact dropped _ _ _
    · exact accumulated _ _ _ _ _
  cases input with
  | negotiated => exact Nat.le_refl 2
  | line listened line =>
      simp only [step, processLine]
      split
      · exact version
      split
      · exact version
      split
      case isFalse =>
          rw [processed]
          exact version
      case isTrue frame _ _ _ =>
          have kept : 2 ≤ (s.processChunk json listened frame).1.protocolVersion := by
            rw [chunked]
            exact version
          rcases taken : s.processChunk json listened frame with ⟨t, _ | _ | frame⟩ <;>
            rw [taken] at kept
          · exact kept
          · exact kept
          · show 2 ≤ (t.processFrame frame).protocolVersion
            rw [processed]
            exact kept

/-- A sequence that is not held stays so without an input of its own. -/
theorem step_unheld {input : Input} (foreign : x.Foreign input)
    (unheld : s.pendingChunks x.chunkId = none) :
    (step json s input).1.pendingChunks x.chunkId = none := by
  have stays := step_holding (p := none) (s := s) foreign
  rw [holding_none unheld] at stays
  rw [stays]
  simp [holding]

theorem any_isOwn {index : ℕ} {pieces : List (List UInt8)} {entries : List Entry}
    (carries : x.Carries index pieces entries) :
    entries.any Entry.isOwn = true ↔ pieces ≠ [] := by
  induction entries generalizing index pieces with
  | nil => simp [show pieces = [] from carries]
  | cons e rest ih =>
      cases e with
      | other input => simpa [Entry.isOwn] using ih carries.2
      | own listened line =>
          cases pieces with
          | nil => exact carries.elim
          | cons piece pieces => simp [Entry.isOwn]

/-- After the last chunk nothing is different. -/
theorem run_after {index : ℕ} {entries : List Entry} (carries : x.Carries index [] entries) :
    run json s (entries.map Entry.input) = x.ideal s entries := by
  induction entries generalizing s with
  | nil => rfl
  | cons e rest ih =>
      cases e with
      | own listened line => exact carries.elim
      | other input => simp only [List.map_cons, run, Entry.input, Transmission.ideal, ih carries.2]

/-- Up to the last chunk the readers differ in what they hold for the
sequence. -/
theorem run_before {done pieces : List (List UInt8)} {entries : List Entry}
    (all : x.pieces = done ++ pieces) (missing : pieces ≠ [])
    (carries : x.Carries done.length pieces entries) (version : 2 ≤ s.protocolVersion)
    (unheld : s.pendingChunks x.chunkId = none)
    (admits : ∀ before listened line after, entries = before ++ .own listened line :: after →
      (run json (s.holding x.chunkId (x.entry done)) (before.map Entry.input)).1.Admits json
        x.pieces.length x.pieces.flatten.length) :
    run json (s.holding x.chunkId (x.entry done)) (entries.map Entry.input) = x.ideal s entries := by
  induction entries generalizing s done pieces with
  | nil => exact absurd carries missing
  | cons e rest ih =>
      cases e with
      | other input =>
          obtain ⟨foreign, carries⟩ := carries
          have next := step_holding (p := x.entry done) (s := s) foreign
          simp only [List.map_cons, run, Entry.input, Transmission.ideal, next]
          rw [ih all missing carries (step_version input version) (step_unheld foreign unheld)]
          intro before listened line after split
          have admitted := admits (.other input :: before) listened line after (by simp [split])
          simpa only [List.map_cons, run, Entry.input, next] using admitted
      | own listened line =>
          cases pieces with
          | nil => exact absurd rfl missing
          | cons piece pieces =>
              obtain ⟨carried, carries⟩ := carries
              have admitted := admits [] listened line rest rfl
              cases pieces with
              | nil =>
                  have last : rest.any Entry.isOwn = false := by
                    simpa using (any_isOwn carries).not
                  have taken : step json (s.holding x.chunkId (x.entry done)) (.line listened line) =
                      (s.processFrame x.frame, .processed x.frame) :=
                    x.processLine_last all carried version admitted unheld
                  simp only [List.map_cons, run, Entry.input, Transmission.ideal, taken, last,
                    Bool.false_eq_true, if_false, run_after carries]
              | cons next pieces =>
                  have more : rest.any Entry.isOwn = true := (any_isOwn carries).mpr (by simp)
                  have taken : step json (s.holding x.chunkId (x.entry done)) (.line listened line) =
                      (s.holding x.chunkId (x.entry (done ++ [piece])), .nothing) :=
                    x.processLine_next all (by simp) carried version admitted
                  simp only [List.map_cons, run, Entry.input, Transmission.ideal, taken, more, if_true]
                  rw [ih (by simp [all]) (by simp : next :: pieces ≠ []) (by simpa using carries) version
                    unheld]
                  intro before listened' line' after split
                  have admitted := admits (.own listened line :: before) listened' line' after
                    (by simp [split])
                  simpa only [List.map_cons, run, Entry.input, taken] using admitted

/-- A frame that is sent in chunks is processed once, with its last chunk,
and everything else is processed as if the chunks were not there. -/
theorem chunks_round_trip (x : Transmission json) (s : FrameReader) (entries : List Entry)
    (carries : x.Carries 0 x.pieces entries) (version : 2 ≤ s.protocolVersion)
    (unheld : s.pendingChunks x.chunkId = none)
    (admits : ∀ before listened line after, entries = before ++ .own listened line :: after →
      (run json s (before.map Entry.input)).1.Admits json x.pieces.length
        x.pieces.flatten.length) :
    run json s (entries.map Entry.input) = x.ideal s entries := by
  have missing : x.pieces ≠ [] := by
    have := x.several
    rintro empty
    simp [empty] at this
  have same : s.holding x.chunkId (x.entry []) = s := holding_none unheld
  have simulated : run json (s.holding x.chunkId (x.entry [])) (entries.map Entry.input) = _ :=
    run_before rfl missing carries version unheld (by rw [same]; exact admits)
  rwa [same] at simulated

end Simulation

/-! ### An empty object in two chunks -/

/-- The line of a chunk of the sequence `c1`. -/
def chunkText (index data : String) : String :=
  "\x7b\"type\":\"rpc_chunk\",\"chunkId\":\"c1\",\"index\":" ++ index
    ++ ",\"count\":2,\"byteLength\":2,\"data\":\"" ++ data ++ "\"\x7d"

/-- Its value. -/
def chunkValue (index : ℕ) (data : String) : JsValue :=
  .object [("type", .string "rpc_chunk"), ("chunkId", .string "c1"), ("index", .number index),
    ("count", .number 2), ("byteLength", .number 2), ("data", .string data)]

/-- The value of a ready frame that admits frames of `least` bytes on in two
chunks. -/
def readyValue (least : ℕ) : JsValue :=
  .object [("type", .string "ready"), ("maxFrameBytes", .number least),
    ("maxReassembledFrameBytes", .number 524288)]

/-- Its line. -/
def readyText (least : String) : String :=
  "\x7b\"type\":\"ready\",\"maxFrameBytes\":" ++ least
    ++ ",\"maxReassembledFrameBytes\":524288\x7d"

theorem head_chunkText (index data : String) :
    (chunkText index data).toList.head? = some '\x7b' := by
  have opening : "\x7b\"type\":\"rpc_chunk\",\"chunkId\":\"c1\",\"index\":".toList = '\x7b' :: _ :=
    String.toList_ofList
  delta chunkText
  simp only [String.toList_append, opening, List.cons_append, List.head?_cons]

theorem head_readyText (least : String) : (readyText least).toList.head? = some '\x7b' := by
  have opening : "\x7b\"type\":\"ready\",\"maxFrameBytes\":".toList = '\x7b' :: _ :=
    String.toList_ofList
  delta readyText
  simp only [String.toList_append, opening, List.cons_append, List.head?_cons]

def sampleJson : Json :=
  .ofTable [(chunkText "0" "ew==", chunkValue 0 "ew=="), (chunkText "1" "fQ==", chunkValue 1 "fQ=="),
    (readyText "4096", readyValue 4096), ("\x7b\x7d", .object [])] (by
      simp only [List.forall_mem_cons, head_chunkText, head_readyText]
      decide)

/-- The empty object in two chunks. -/
def sampleTransmission : Transmission sampleJson where
  chunkId := "c1"
  text := "\x7b\x7d"
  properties := []
  pieces := [[0x7B], [0x7D]]
  parses := by rfl
  whole := by rfl
  several := by decide
  sized := by decide
  named := by decide
  short := by decide

/-- A reader after the negotiation, with small limits. -/
def sampleReader : FrameReader := { new.negotiated with ready := some (readyValue 2) }

theorem sampleTransmission_line₀ :
    sampleTransmission.Line 0 [0x7B] (chunkText "0" "ew==") :=
  ⟨chunkValue 0 "ew==", by rfl, by rfl, ⟨by rfl, by rfl, by rfl, by rfl⟩, by rfl⟩

theorem sampleTransmission_line₁ :
    sampleTransmission.Line 1 [0x7D] (chunkText "1" "fQ==") :=
  ⟨chunkValue 1 "fQ==", by rfl, by rfl, ⟨by rfl, by rfl, by rfl, by rfl⟩, by rfl⟩

theorem sampleReader_admits : sampleReader.Admits sampleJson 2 2 := by
  have count : sampleReader.maxCount sampleJson = some 2 := by decide +kernel
  refine ⟨?_, by decide +kernel, by decide +kernel⟩
  rw [count]
  simp

theorem chunks_round_trip_sample :
    run sampleJson sampleReader
        [.line true (chunkText "0" "ew=="), .line true (chunkText "1" "fQ==")] =
      sampleTransmission.ideal sampleReader
        [.own true (chunkText "0" "ew=="), .own true (chunkText "1" "fQ==")] :=
  chunks_round_trip sampleTransmission sampleReader
    [.own true (chunkText "0" "ew=="), .own true (chunkText "1" "fQ==")]
    ⟨sampleTransmission_line₀, sampleTransmission_line₁, rfl⟩ (by decide) rfl (by
      rintro (_ | ⟨first, _ | ⟨second, before⟩⟩) listened line after split
      · exact sampleReader_admits
      · obtain ⟨rfl, _⟩ := List.cons.inj split
        have next : step sampleJson sampleReader (.line true (chunkText "0" "ew==")) =
            (sampleReader.holding "c1" (sampleTransmission.entry [[0x7B]]), .nothing) := by
          have same : sampleReader.holding "c1" (sampleTransmission.entry []) = sampleReader :=
            holding_none rfl
          have taken : (sampleReader.holding sampleTransmission.chunkId
              (sampleTransmission.entry [])).processLine sampleJson true (chunkText "0" "ew==") = _ :=
            sampleTransmission.processLine_next rfl (by simp : [([0x7D] : List UInt8)] ≠ []) sampleTransmission_line₀
              (by decide) sampleReader_admits
          rw [show sampleTransmission.chunkId = "c1" from rfl, same] at taken
          exact taken
        simp only [List.map_cons, List.map_nil, Entry.input, run, next]
        exact sampleReader_admits
      · have length := congrArg List.length split
        simp at length)

/-- Plain frames may come between the chunks, but not every one leaves the
transmission alone: a ready frame may raise the limit beyond its length. -/
theorem ready_frame_interrupts :
    ¬ ∀ (json : Json) (x : Transmission json) (s : FrameReader) (entries : List Entry),
      x.Carries 0 x.pieces entries → 2 ≤ s.protocolVersion → s.pendingChunks x.chunkId = none →
      s.Admits json x.pieces.length x.pieces.flatten.length →
      run json s (entries.map Entry.input) = x.ideal s entries := by
  intro literal
  have foreign : sampleTransmission.Foreign (.line true (readyText "4096")) := by
    rintro _ _ chunk ⟨rfl, rfl⟩ parsed type
    obtain rfl : readyValue 4096 = chunk := Option.some.inj parsed
    simp [frameType, propertyOf, property, readyValue, OrderedMap.lookup] at type
  have same := literal sampleJson sampleTransmission sampleReader
    [.own true (chunkText "0" "ew=="), .other (.line true (readyText "4096")),
      .own true (chunkText "1" "fQ==")]
    ⟨sampleTransmission_line₀, foreign, sampleTransmission_line₁, rfl⟩ (by decide) rfl
    sampleReader_admits
  have rejected := congrArg (fun r : FrameReader × List LineResult => r.2.map LineResult.isRejected)
    same
  revert rejected
  decide +kernel

end FrameReader

end OmpBundler.Core
