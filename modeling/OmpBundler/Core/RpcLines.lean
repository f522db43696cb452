import OmpBundler.Core.ChunkSoundness
import OmpBundler.Library.JsString
import OmpBundler.Library.LineStream

/-!
The standard output of an `omp --mode rpc` process, as `RpcChild` reads it.

The text arrives in data events. `onStdoutData` takes lines off its buffer
and has each of them processed before it looks for the next. Version 2 of
the protocol is in force once `negotiateProtocolV2` has gone on behind its
`await`, which is after the data event that brought the response.

Handlers of the consumer run while a line is processed. What they throw
leaves the loop, and so does an error that nobody listens to.
-/

namespace OmpBundler.Core

open Library

namespace FrameReader

open Fallible

variable {json : Json} {s : FrameReader} {listened : Bool}

/-! ### What the version is used for -/

theorem negotiated_drop (id : String) :
    s.negotiated.drop listened id = (s.drop listened id).negotiated := by
  cases listened <;> rfl

theorem negotiated_processFrame (frame : JsValue) :
    s.negotiated.processFrame frame = (s.processFrame frame).negotiated := by
  unfold processFrame
  split <;> rfl

theorem negotiated_accumulate (id : String) (pending : PendingChunks) (bytes : List UInt8) :
    s.negotiated.accumulate json listened id pending bytes =
      ((s.accumulate json listened id pending bytes).1.negotiated,
        (s.accumulate json listened id pending bytes).2) := by
  have holding (p : Option PendingChunks) :
      s.negotiated.holding id p = (s.holding id p).negotiated := rfl
  unfold accumulate
  simp only [holding, negotiated_drop]
  split
  · rfl
  split
  · rfl
  split <;> rfl

/-- Once it is 2, the version makes no difference to a chunk. -/
theorem negotiated_processChunk {chunk : JsValue} (version : 2 ≤ s.protocolVersion) :
    s.negotiated.processChunk json listened chunk =
      ((s.processChunk json listened chunk).1.negotiated,
        (s.processChunk json listened chunk).2) := by
  have same : s.negotiated.checkHeader json chunk = s.checkHeader json chunk := by
    have early (t : FrameReader) (holds : 2 ≤ t.protocolVersion) :
        require (2 ≤ t.protocolVersion) "rpc_chunk received before v2 negotiation" = .ok () :=
      require_eq_ok.mpr holds
    unfold checkHeader
    rw [early s version, early s.negotiated (Nat.le_refl 2)]
    rfl
  have holding (id : String) (p : Option PendingChunks) :
      s.negotiated.holding id p = (s.holding id p).negotiated := rfl
  have pending : s.negotiated.pendingChunks = s.pendingChunks := rfl
  unfold processChunk
  rw [same]
  cases s.checkHeader json chunk with
  | error => rfl
  | ok header =>
      simp only [holding, pending, negotiated_drop]
      split
      · rfl
      split
      · rfl
      cases decodePayload chunk with
      | error => rfl
      | ok bytes => exact negotiated_accumulate _ _ bytes

/-- It makes none to a line that is no chunk. -/
theorem negotiated_processLine {line : String}
    (unaffected : 2 ≤ s.protocolVersion ∨
      ∀ frame, json.parse line = some frame → frameType frame ≠ some "rpc_chunk") :
    s.negotiated.processLine json listened line =
      ((s.processLine json listened line).1.negotiated,
        (s.processLine json listened line).2) := by
  unfold processLine
  cases parsed : json.parse line with
  | none => rfl
  | some frame =>
      simp only [negotiated_processFrame]
      split
      · rfl
      split
      case isFalse => rfl
      case isTrue type =>
          have version := unaffected.resolve_right fun plain => plain frame parsed type
          rw [negotiated_processChunk version]
          rcases s.processChunk json listened frame with ⟨t, _ | _ | _⟩
          · rfl
          · rfl
          · simp only [negotiated_processFrame]

/-! ### Chunks that come too early -/

/-- The error about a chunk in version 1. -/
def earlyText : String := "rpc_chunk received before v2 negotiation"

/-- A text that begins otherwise is another text. -/
theorem ne_earlyText {start rest : String} (differs : ¬ start.toList <+: earlyText.toList) :
    start ++ rest ≠ earlyText := by
  intro same
  refine differs ?_
  rw [← same, String.toList_append]
  exact List.prefix_append _ _

theorem checkHeader_avoids {chunk : JsValue} (version : 2 ≤ s.protocolVersion) :
    Avoids earlyText (s.checkHeader json chunk) := by
  have passed : require (2 ≤ s.protocolVersion) "rpc_chunk received before v2 negotiation" = .ok () :=
    require_eq_ok.mpr version
  unfold checkHeader
  rw [passed]
  refine avoids_bind (avoids_ok ()) fun _ => ?_
  refine avoids_bind (avoids_elim _ (by decide)) fun _ => ?_
  refine avoids_bind (avoids_elim _ (by decide)) fun _ => ?_
  refine avoids_bind (avoids_elim _ (by decide)) fun _ => ?_
  refine avoids_bind (avoids_require (by decide)) fun _ => ?_
  refine avoids_bind (avoids_require (by decide)) fun _ => ?_
  refine avoids_bind (avoids_require ?_) fun _ => ?_
  · rw [String.append_assoc, String.append_assoc, String.append_assoc]
    exact ne_earlyText (by decide)
  refine avoids_bind (avoids_elim _ (by decide)) fun _ => ?_
  refine avoids_bind (avoids_require ?_) fun _ => ?_
  · rw [String.append_assoc, String.append_assoc, String.append_assoc]
    exact ne_earlyText (by decide)
  refine avoids_bind (avoids_require ?_) fun _ => avoids_ok _
  rw [String.append_assoc, String.append_assoc, String.append_assoc]
  exact ne_earlyText (by decide)

theorem decodePayload_avoids (chunk : JsValue) : Avoids earlyText (decodePayload chunk) := by
  unfold decodePayload
  split
  case h_2 => exact avoids_error (by decide)
  split
  case isTrue => exact avoids_error (by decide)
  split
  case h_1 => exact avoids_error (by decide)
  refine avoids_bind (avoids_require (by decide)) fun _ => ?_
  exact avoids_bind (avoids_require (by decide)) fun _ => avoids_ok _

theorem accumulate_avoids (id : String) (pending : PendingChunks) (bytes : List UInt8) :
    Avoids earlyText (s.accumulate json listened id pending bytes).2 := by
  unfold accumulate
  split
  · exact avoids_error (by decide)
  split
  · exact avoids_ok _
  split
  · exact avoids_error (by decide)
  unfold reassemble
  split
  · exact avoids_error (by decide)
  split
  · exact avoids_ok _
  split <;> exact avoids_error (by decide)

/-- Only in version 1 is a chunk called early. -/
theorem processChunk_avoids {chunk : JsValue} (version : 2 ≤ s.protocolVersion) :
    Avoids earlyText (s.processChunk json listened chunk).2 := by
  have header : Avoids earlyText (s.checkHeader json chunk) := checkHeader_avoids version
  have payload := decodePayload_avoids chunk
  unfold processChunk
  cases checked : s.checkHeader json chunk with
  | error text => exact avoids_error fun same => header (same ▸ checked)
  | ok header =>
      dsimp only
      split
      · exact avoids_error (by decide)
      split
      · exact avoids_error (by decide)
      cases decoded : decodePayload chunk with
      | error text => exact avoids_error fun same => payload (same ▸ decoded)
      | ok bytes => exact accumulate_avoids _ _ bytes

/-- A chunk in version 1 is an error. -/
theorem processLine_early {line : String} {frame : JsValue} (version : s.protocolVersion < 2)
    (parsed : json.parse line = some frame) (chunk : frameType frame = some "rpc_chunk") :
    s.processLine json listened line = (s, .rejected earlyText) := by
  have refused : s.checkHeader json frame = .error earlyText := by
    have failed : require (2 ≤ s.protocolVersion) "rpc_chunk received before v2 negotiation" =
        .error earlyText := if_neg (by omega)
    unfold checkHeader
    rw [failed]
    rfl
  unfold processLine processChunk
  simp only [parsed, TracedReader.isObject_of_frameType chunk, chunk, refused, Bool.not_true,
    Bool.false_eq_true, if_false, if_true]

theorem processLine_late {line : String} (version : 2 ≤ s.protocolVersion) :
    (s.processLine json listened line).2 ≠ .rejected earlyText := by
  unfold processLine
  split
  · exact nofun
  split
  · exact nofun
  split
  case isFalse => exact nofun
  case isTrue frame _ _ _ =>
      have avoids : Avoids earlyText (s.processChunk json listened frame).2 :=
        processChunk_avoids version
      rcases taken : s.processChunk json listened frame with ⟨t, text | _ | result⟩
      · intro same
        rw [taken] at avoids
        exact avoids (congrArg Except.error (LineResult.rejected.inj same))
      · exact nofun
      · exact nofun

end FrameReader

/-- What a condition makes of a value. -/
def truthy : JsValue → Bool
  | .undefined | .null => false
  | .bool value => value
  | .number q => q ≠ 0
  | .string text => text ≠ ""
  | .array _ | .object _ => true

/-- Those who listen to a child; `κ` is what they keep. -/
structure Consumer (κ : Type*) where
  /-- An error that is announced about the line is heard: somebody listens to
  the errors, and no listener throws. -/
  hears : κ → String → Bool
  /-- A handler throws when it is told what became of the line. -/
  throws : κ → String → LineResult → Bool
  react : κ → String → LineResult → κ

/-- What an `RpcChild` keeps between lines, the buffer apart. -/
structure LineState (κ : Type*) where
  reader : FrameReader
  /-- The ids of the `negotiate_protocol` commands without a response. -/
  negotiating : List String
  /-- A response has granted version 2, and `negotiateProtocolV2` is about to
  go on. -/
  granted : Bool
  consumer : κ

namespace LineState

variable {κ : Type*}

/-- A response ends the wait of the command that it names. -/
def answer (c : LineState κ) (frame : JsValue) : LineState κ :=
  if frameType frame = some "response" then
    match propertyOf frame "id" with
    | .string id =>
        if id ∈ c.negotiating then
          { c with
            negotiating := c.negotiating.erase id
            granted := c.granted || truthy (propertyOf frame "success") }
        else c
    | _ => c
  else c

/-- `negotiateProtocolV2` goes on. -/
def negotiate (c : LineState κ) : LineState κ :=
  if c.granted then { c with reader := c.reader.negotiated, granted := false } else c

section Lines

variable (json : Json) (consumer : Consumer κ)

/-- `processLine`. -/
def processed (c : LineState κ) (line : String) : FrameReader × LineResult :=
  c.reader.processLine json (consumer.hears c.consumer line) line

/-- What is kept after a line. -/
def after (c : LineState κ) (line : String) : LineState κ :=
  let (reader, result) := c.processed json consumer line
  let c := { c with reader, consumer := consumer.react c.consumer line result }
  match result with
  | .processed frame => c.answer frame
  | _ => c

/-- Processing the line throws. -/
def throws (c : LineState κ) (line : String) : Bool :=
  match (c.processed json consumer line).2 with
  | .nothing => false
  | .rejected _ => !consumer.hears c.consumer line
  | result => consumer.throws c.consumer line result

/-- The line is a chunk of a frame. -/
def IsChunk (line : String) : Prop :=
  ∃ frame, json.parse line = some frame ∧ frameType frame = some "rpc_chunk"

end Lines

end LineState

/-! ### The loop -/

/-- `line.trim()`, unless nothing is left of it. -/
def trimmedLine (line : Lines.Line) : Option String :=
  let text := String.ofList (JsString.trimChars line)
  if text = "" then none else some text

namespace LineState

variable {κ : Type*} {json : Json} {consumer : Consumer κ}

theorem negotiate_of_granted {c : LineState κ} (granted : c.granted = true) :
    c.negotiate = { c with reader := c.reader.negotiated, granted := false } := if_pos granted

theorem negotiate_of_not_granted {c : LineState κ} (granted : ¬ c.granted = true) :
    c.negotiate = c := if_neg granted

theorem negotiate_negotiate (c : LineState κ) : c.negotiate.negotiate = c.negotiate := by
  by_cases granted : c.granted = true
  · rw [negotiate_of_granted granted]
    rfl
  · rw [negotiate_of_not_granted granted, negotiate_of_not_granted granted]

/-- The line is a chunk that comes behind the response, in the same data
event. -/
def Early (json : Json) (c : LineState κ) (line : String) : Prop :=
  c.granted = true ∧ c.reader.protocolVersion < 2 ∧ IsChunk json line

/-- The continuation makes no difference to any other line. -/
theorem processed_negotiate {c : LineState κ} {line : String} (late : ¬ c.Early json line)
    (granted : c.granted = true) :
    c.negotiate.processed json consumer line =
      ((c.processed json consumer line).1.negotiated, (c.processed json consumer line).2) := by
  rw [negotiate_of_granted granted]
  refine FrameReader.negotiated_processLine ?_
  by_cases version : 2 ≤ c.reader.protocolVersion
  · exact .inl version
  · refine .inr fun frame parsed type => late ?_
    exact ⟨granted, by omega, frame, parsed, type⟩

theorem result_eq_iff (c : LineState κ) (line : String) :
    (c.processed json consumer line).2 = (c.negotiate.processed json consumer line).2 ↔
      ¬ c.Early json line := by
  constructor
  · rintro same ⟨granted, version, frame, parsed, chunk⟩
    have early : (c.processed json consumer line).2 = .rejected FrameReader.earlyText := by
      rw [processed, FrameReader.processLine_early version parsed chunk]
    rw [early, negotiate_of_granted granted] at same
    exact FrameReader.processLine_late (Nat.le_refl 2) same.symm
  · intro late
    by_cases granted : c.granted = true
    · rw [processed_negotiate late granted]
    · rw [negotiate_of_not_granted granted]

/-- A response may be processed before the continuation or after it. -/
theorem negotiate_answer {c : LineState κ} (granted : c.granted = true) (frame : JsValue) :
    (c.answer frame).negotiate = (c.negotiate.answer frame).negotiate := by
  rw [negotiate_of_granted granted]
  unfold answer
  split
  case isFalse => simp [negotiate, granted]
  split
  case h_2 => simp [negotiate, granted]
  split
  case isFalse => simp [negotiate, granted]
  case isTrue =>
      simp only [negotiate, granted, Bool.true_or, if_true, Bool.false_or]
      cases truthy (propertyOf frame "success") <;> rfl

/-- A line that does not depend on the continuation leaves the same behind
before it and after it. -/
theorem negotiate_after {c : LineState κ} {line : String} (late : ¬ c.Early json line) :
    (c.after json consumer line).negotiate = (c.negotiate.after json consumer line).negotiate := by
  by_cases granted : c.granted = true
  case neg => rw [negotiate_of_not_granted granted]
  unfold after
  rw [processed_negotiate late granted]
  rcases c.processed json consumer line with ⟨reader, result⟩
  have moved (k : κ) : ({ c.negotiate with
      reader := reader.negotiated, consumer := k } : LineState κ) =
      ({ c with reader := reader, consumer := k } : LineState κ).negotiate := by
    rw [negotiate_of_granted granted, negotiate_of_granted (by exact granted)]
  have same : c.negotiate.consumer = c.consumer := by rw [negotiate_of_granted granted]
  dsimp only
  rw [same, moved]
  cases result with
  | processed frame =>
      refine negotiate_answer ?_ frame
      exact granted
  | _ => exact (negotiate_negotiate _).symm

/-- `RpcChild` reads lines. -/
def lineReader (json : Json) (consumer : Consumer κ) :
    LineStream.Reader (LineState κ) String LineResult where
  clean := trimmedLine
  next := after json consumer
  result c line := (c.processed json consumer line).2
  throws := throws json consumer
  settle := negotiate
  settle_settle := negotiate_negotiate
  settle_next c line same := negotiate_after ((result_eq_iff c line).mp same)

/-- Of the lines that one data event completes, no chunk comes behind the
response that grants version 2, and none that throws has a line behind
it. -/
def Orderly (json : Json) (consumer : Consumer κ) : LineState κ → List Lines.Line → Prop
  | _, [] => True
  | c, text :: lines =>
      match trimmedLine text with
      | none => Orderly json consumer c lines
      | some line =>
          ¬ c.Early json line ∧ (c.throws json consumer line = true → lines = []) ∧
            Orderly json consumer (c.after json consumer line) lines

theorem steady_iff_orderly (c : LineState κ) (lines : List Lines.Line) :
    (lineReader json consumer).Steady c lines ↔ Orderly json consumer c lines := by
  induction lines generalizing c with
  | nil => exact Iff.rfl
  | cons text lines ih =>
      have clean : (lineReader json consumer).clean text = trimmedLine text := rfl
      rw [LineStream.Reader.Steady, Orderly, clean]
      cases trimmedLine text with
      | none => exact ih c
      | some line => exact and_congr (result_eq_iff c line) (and_congr_right' (ih _))

end LineState

/-! ### The standard output -/

/-- The state of a child while its standard output arrives: what it keeps,
its buffer, and the lines that it has processed with what became of them. -/
abbrev Stdout (κ : Type*) := LineStream.Stream (LineState κ) String LineResult

namespace Stdout

open LineStream

variable {κ : Type*}

/-- A child between two data events whose buffer is empty. -/
def idle (reader : FrameReader) (negotiating : List String) (k : κ) : Stdout κ :=
  ⟨⟨reader, negotiating, false, k⟩, [], [], []⟩

section Events

variable (json : Json) (consumer : Consumer κ)

/-- A data event: the loop of `onStdoutData`, and what goes on behind an
`await` when it is over. -/
def onStdoutData (s : Stdout κ) (data : List Char) : Stdout κ :=
  (LineState.lineReader json consumer).receive s data

/-- The data events as actions. -/
def machine : Transition.Machine (Stdout κ) (List Char) :=
  (LineState.lineReader json consumer).machine

/-- The state after some data events. -/
def after (s : Stdout κ) (events : List (List Char)) : Stdout κ :=
  events.foldl (onStdoutData json consumer) s

/-- The lines of the text are processed as if each came alone; they are the
lines that a newline ends and that are not blank, each once and in order;
and the buffer is the text behind the last newline. -/
def AsLines (c : LineState κ) (s : Stdout κ) : Prop :=
  s.log = ((LineState.lineReader json consumer).oneByOne c (completeLines s.text)).2 ∧
    s.log.map Prod.fst = (completeLines s.text).filterMap trimmedLine ∧
    s.buffer = unfinished s.text

/-- The lines that a data event completes are orderly. -/
def OrderlyData (s : Stdout κ) (data : List Char) : Prop :=
  LineState.Orderly json consumer s.core (completeLines (s.buffer ++ data))

end Events

variable {json : Json} {consumer : Consumer κ}

theorem orderlyData_eq : OrderlyData json consumer = (LineState.lineReader json consumer).Whole := by
  funext s data
  exact propext (LineState.steady_iff_orderly s.core _).symm

theorem asLines_eq (reader : FrameReader) (negotiating : List String) (k : κ) :
    AsLines json consumer (idle reader negotiating k).core =
      (LineState.lineReader json consumer).Exact (idle reader negotiating k).core := by
  funext s
  refine propext ⟨fun lines => ⟨lines.1, lines.2.2⟩, fun exact => ⟨exact.1, ?_, exact.2⟩⟩
  exact Reader.Exact.lines exact

/-- Whatever the text and the data events in which it arrives: after each
event the lines have been processed as if each had come alone, once and in
order, and the rest is in the buffer, if and only if each event completes
orderly lines. Then the frames and the errors depend on the text alone. And
there always are such events: those of one character each. -/
theorem stdout_splits_iff (json : Json) (consumer : Consumer κ) (reader : FrameReader)
    (negotiating : List String) (k : κ) :
    (∀ events, (machine json consumer).Throughout
        (AsLines json consumer (idle reader negotiating k).core) (idle reader negotiating k) events ↔
      (machine json consumer).EachStep (OrderlyData json consumer) (idle reader negotiating k)
        events) ∧
    (∀ events others, events.flatten = others.flatten →
      (machine json consumer).EachStep (OrderlyData json consumer) (idle reader negotiating k)
        events →
      (machine json consumer).EachStep (OrderlyData json consumer) (idle reader negotiating k)
        others →
      ((idle reader negotiating k).after json consumer events).log =
          ((idle reader negotiating k).after json consumer others).log ∧
        ((idle reader negotiating k).after json consumer events).buffer =
          ((idle reader negotiating k).after json consumer others).buffer) ∧
    ∀ text : List Char, (machine json consumer).EachStep (OrderlyData json consumer)
      (idle reader negotiating k) (text.map fun x => [x]) := by
  have started : idle reader negotiating k =
      (LineState.lineReader json consumer).start (idle reader negotiating k).core := rfl
  rw [asLines_eq, orderlyData_eq, machine, started]
  refine ⟨fun events => Reader.throughout_exact_iff _ events, ?_,
    fun text => Reader.whole_singletons _ text⟩
  intro events others same orderly orderly'
  exact Reader.receiveAll_congr orderly orderly' same

/-! ### A chunk behind the response -/

/-- The line of a response that grants version 2. -/
def responseText : String :=
  "\x7b\"type\":\"response\",\"id\":\"1\",\"command\":\"negotiate_protocol\",\"success\":true\x7d"

/-- Its value. -/
def responseValue : JsValue :=
  .object [("type", .string "response"), ("id", .string "1"),
    ("command", .string "negotiate_protocol"), ("success", .bool true)]

/-- A response, the two chunks of a frame, and the frame. -/
def negotiationJson : Json :=
  .ofTable [(responseText, responseValue),
    (FrameReader.chunkText "0" "ew==", FrameReader.chunkValue 0 "ew=="),
    (FrameReader.chunkText "1" "fQ==", FrameReader.chunkValue 1 "fQ=="),
    ("\x7b\x7d", .object [])] (by
      have head : responseText.toList = '\x7b' :: _ := String.toList_ofList
      simp only [List.forall_mem_cons, FrameReader.head_chunkText, head, List.head?_cons]
      decide)

/-- A consumer that hears every error and throws nothing. -/
def quiet : Consumer Unit where
  hears _ _ := true
  throws _ _ _ := false
  react k _ _ := k

/-- A child that has sent `negotiate_protocol` under the id 1. -/
def negotiatingChild : Stdout Unit :=
  idle { FrameReader.new with ready := some (FrameReader.readyValue 2) } ["1"] ()

/-- The response. -/
def responseData : List Char := Lines.unlines Lines.lf [responseText.toList]

/-- The chunks. -/
def chunkData : List Char :=
  Lines.unlines Lines.lf [(FrameReader.chunkText "0" "ew==").toList,
    (FrameReader.chunkText "1" "fQ==").toList]

/-- Character by character, response and chunks are read as if each line had
come alone. -/
theorem stdout_splits_iff_characters :
    (machine negotiationJson quiet).Throughout (AsLines negotiationJson quiet negotiatingChild.core)
      negotiatingChild ((responseData ++ chunkData).map fun x => [x]) :=
  let ⟨exact_iff, _, single⟩ :=
    stdout_splits_iff negotiationJson quiet negotiatingChild.core.reader ["1"] ()
  (exact_iff _).mpr (single _)

/-- The same text may give a frame or two errors: the chunks are rejected
when they come with the response in one data event. -/
theorem splitting_matters :
    ¬ ∀ (json : Json) (consumer : Consumer Unit) (reader : FrameReader) (negotiating : List String)
      (events others : List (List Char)), events.flatten = others.flatten →
      ((idle reader negotiating ()).after json consumer events).log =
        ((idle reader negotiating ()).after json consumer others).log := by
  intro literal
  have same := literal negotiationJson quiet negotiatingChild.core.reader ["1"]
    [responseData ++ chunkData] [responseData, chunkData] (by simp)
  have rejected := congrArg (List.map fun e : String × LineResult => e.2.isRejected) same
  simp only [after, List.foldl, onStdoutData, Reader.receive_eq] at rejected
  revert rejected
  decide +kernel

end Stdout

end OmpBundler.Core
