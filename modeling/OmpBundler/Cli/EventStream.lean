import OmpBundler.HttpAdapter.Sse
import OmpBundler.Library.Utf8

/-!
The terminal client reads the event stream of the HTTP adapter.

The bytes come in chunks of any size. They are decoded, cut into lines, and
the lines are collected to events; an empty line ends an event. The main
result says that what the adapter has written is reported as it was written,
and that a stream which breaks off anywhere is an error.
-/

namespace OmpBundler.Cli

open Library Utf8 HttpAdapter

structure SseEvent (ν : Type) where
  type : String
  data : Json ν

/-- The state of the `IncrementalSseParser`, with the events that it has
reported. -/
structure SseParser (ν : Type) where
  bufferedText : List Char
  eventName : List Char
  dataLines : List (List Char)
  terminalSeen : Bool
  reported : List (SseEvent ν)

namespace SseParser

variable {ν : Type} (F : NumberFormat ν)

def fresh : SseParser ν := ⟨[], [], [], false, []⟩

/-- An empty line. The second component is the error, if one is thrown. -/
def dispatchFrame (p : SseParser ν) : SseParser ν × Option String :=
  let type := String.ofList p.eventName
  if p.eventName = [] ∧ p.dataLines = [] then (p, none)
  else if p.terminalSeen then (p, some "received an event after the terminal event")
  else if p.eventName = [] then (p, some "SSE frame is missing an event type")
  else if p.dataLines = [] then (p, some s!"SSE \"{type}\" frame is missing data")
  else
    match Json.parse F (['\n'].intercalate p.dataLines) with
    | none => (p, some s!"SSE \"{type}\" frame contains invalid JSON data")
    | some data =>
        ({ p with
            eventName := []
            dataLines := []
            terminalSeen := p.terminalSeen || decide (type ∈ ["completed", "error", "cancelled"])
            reported := p.reported ++ [⟨type, data⟩] }, none)

/-- What stands behind the colon, without one leading space. -/
def fieldValue (line : List Char) : List Char :=
  match (line.dropWhile (· ≠ ':')).drop 1 with
  | ' ' :: value => value
  | value => value

def consumeLine (p : SseParser ν) (line : List Char) : SseParser ν × Option String :=
  if line = [] then p.dispatchFrame F
  else if line.head? = some ':' then (p, none)
  else
    let field := String.ofList (line.takeWhile (· ≠ ':'))
    let value := fieldValue line
    if field = "event" then ({ p with eventName := value }, none)
    else if field = "data" then ({ p with dataLines := p.dataLines ++ [value] }, none)
    else if field = "id" ∨ field = "retry" then (p, none)
    else (p, some s!"unsupported SSE field \"{field}\"")

/-- A line without the carriage return at its end. -/
def stripReturn (line : List Char) : List Char :=
  if line.getLast? = some '\r' then line.dropLast else line

/-- Consume the lines that are complete and keep what is left over; `line` is
the beginning of the current line. -/
def scan (p : SseParser ν) (line : List Char) : List Char → SseParser ν × Option String
  | [] => ({ p with bufferedText := line }, none)
  | c :: rest =>
      if c = '\n' then
        match p.consumeLine F (stripReturn line) with
        | (p, none) => scan p [] rest
        | (p, some detail) => ({ p with bufferedText := rest }, some detail)
      else scan p (line ++ [c]) rest

def feed (p : SseParser ν) (text : List Char) : SseParser ν × Option String :=
  p.scan F [] (p.bufferedText ++ text)

def finish (p : SseParser ν) : Option String :=
  if p.bufferedText ≠ [] then some "stream ended in the middle of an SSE line"
  else if p.eventName ≠ [] ∨ p.dataLines ≠ [] then
    some "stream ended before an SSE frame terminator"
  else if p.terminalSeen then none
  else some "stream ended before a completed or error event"

end SseParser

/-- How a stream comes to its end: it is complete, reading fails, or the
user interrupts it. -/
inductive Ending where
  | done
  | failed (message : String)
  | aborted
  deriving DecidableEq, Repr

section Consume

variable {ν : Type} (F : NumberFormat ν)

/-- Read the chunks one after the other. -/
def consumeChunks (ending : Ending) :
    TextDecoder → SseParser ν → List (List UInt8) → SseParser ν × Option String
  | decoder, parser, [] =>
      match ending with
      | .aborted => (parser, none)
      | .failed message => (parser, some s!"stream read failed: {message}")
      | .done =>
          match decoder.flush with
          | none => (parser, some "stream contained invalid UTF-8")
          | some text =>
              match parser.feed F text with
              | (parser, none) => (parser, parser.finish)
              | (parser, some detail) => (parser, some detail)
  | decoder, parser, chunk :: rest =>
      match decoder.decode chunk with
      | none => (parser, some "stream contained invalid UTF-8")
      | some (decoder, text) =>
          match parser.feed F text with
          | (parser, none) => consumeChunks ending decoder parser rest
          | (parser, some detail) => (parser, some detail)

/-- The events that are reported, and the error that is thrown, if any. -/
def consumeEventStream (chunks : List (List UInt8)) (ending : Ending) :
    List (SseEvent ν) × Option String :=
  let (parser, error) := consumeChunks F ending .fresh .fresh chunks
  (parser.reported, error.map fun detail => s!"agent event stream protocol error: {detail}")

end Consume

/-! ### Scanning in pieces -/

namespace SseParser

variable {ν : Type} (F : NumberFormat ν)

/-- Lines are consumed without a look at what is left over. -/
theorem consumeLine_buffered (p : SseParser ν) (left line : List Char) :
    ({ p with bufferedText := left } : SseParser ν).consumeLine F line =
      ({ (p.consumeLine F line).1 with bufferedText := left }, (p.consumeLine F line).2) := by
  simp only [consumeLine, dispatchFrame]
  split_ifs
  all_goals try rfl
  cases Json.parse F (['\n'].intercalate p.dataLines) <;> rfl

theorem scan_line {p p' : SseParser ν} {line : List Char}
    (consumed : p.consumeLine F (stripReturn line) = (p', none)) (rest : List Char) :
    p.scan F line ('\n' :: rest) = p'.scan F [] rest := by
  rw [scan, if_pos rfl, consumed]

theorem scan_failed {p p' : SseParser ν} {line : List Char} {detail : String}
    (consumed : p.consumeLine F (stripReturn line) = (p', some detail)) (rest : List Char) :
    p.scan F line ('\n' :: rest) = ({ p' with bufferedText := rest }, some detail) := by
  rw [scan, if_pos rfl, consumed]

theorem scan_char {c : Char} (inside : c ≠ '\n') (p : SseParser ν) (line rest : List Char) :
    p.scan F line (c :: rest) = p.scan F (line ++ [c]) rest := by
  rw [scan, if_neg inside]

theorem scan_buffered (p : SseParser ν) (left line text : List Char) :
    ({ p with bufferedText := left } : SseParser ν).scan F line text = p.scan F line text := by
  induction text generalizing p line with
  | nil => rfl
  | cons c rest ih =>
    by_cases newline : c = '\n'
    · subst newline
      have moved := consumeLine_buffered F p left (stripReturn line)
      rcases consumed : p.consumeLine F (stripReturn line) with ⟨p', _ | detail⟩
      · rw [consumed] at moved
        rw [scan_line F consumed, scan_line F moved, ih]
      · rw [consumed] at moved
        rw [scan_failed F consumed, scan_failed F moved]
    · rw [scan_char F newline, scan_char F newline, ih]

/-- After an error nothing is consumed. -/
theorem scan_append (p : SseParser ν) (line a b : List Char) : p.scan F line (a ++ b) =
    match p.scan F line a with
    | (p', none) => p'.scan F p'.bufferedText b
    | (p', some detail) => ({ p' with bufferedText := p'.bufferedText ++ b }, some detail) := by
  induction a generalizing p line with
  | nil => exact (scan_buffered F p line line b).symm
  | cons c a ih =>
    by_cases newline : c = '\n'
    · subst newline
      rcases consumed : p.consumeLine F (stripReturn line) with ⟨p', _ | detail⟩
      · rw [List.cons_append, scan_line F consumed, scan_line F consumed, ih]
      · rw [List.cons_append, scan_failed F consumed, scan_failed F consumed]
    · rw [List.cons_append, scan_char F newline, scan_char F newline, ih]

theorem scan_inside {l : List Char} (inside : '\n' ∉ l) (p : SseParser ν) (line text : List Char) :
    p.scan F line (l ++ text) = p.scan F (line ++ l) text := by
  induction l generalizing line with
  | nil => simp
  | cons c l ih =>
    rw [List.mem_cons, not_or] at inside
    rw [List.cons_append, scan_char F (Ne.symm inside.1), ih inside.2, List.append_assoc]
    rfl

/-- What is left over is no complete line. -/
theorem scan_left {p p' : SseParser ν} {line text : List Char} (opened : '\n' ∉ line)
    (scanned : p.scan F line text = (p', none)) : '\n' ∉ p'.bufferedText := by
  induction text generalizing p line with
  | nil =>
    obtain rfl : { p with bufferedText := line } = p' := (Prod.mk.inj scanned).1
    exact opened
  | cons c rest ih =>
    by_cases newline : c = '\n'
    · subst newline
      rcases consumed : p.consumeLine F (stripReturn line) with ⟨q, _ | detail⟩
      · rw [scan_line F consumed] at scanned
        exact ih List.not_mem_nil scanned
      · rw [scan_failed F consumed] at scanned
        cases (Prod.mk.inj scanned).2
    · rw [scan_char F newline] at scanned
      refine ih ?_ scanned
      rw [List.mem_append, List.mem_singleton, not_or]
      exact ⟨opened, Ne.symm newline⟩

/-- A text may be fed in two pieces. -/
theorem feed_append {p p' : SseParser ν} {a : List Char}
    (fed : p.feed F a = (p', none)) (b : List Char) : p.feed F (a ++ b) = p'.feed F b := by
  have left : '\n' ∉ p'.bufferedText := scan_left F List.not_mem_nil fed
  unfold feed at fed ⊢
  rw [← List.append_assoc, scan_append, fed, scan_inside F left, List.nil_append]

theorem feed_nil {p : SseParser ν} (left : '\n' ∉ p.bufferedText) : p.feed F [] = (p, none) := by
  rw [feed, scan_inside F left, List.nil_append, scan]

/-- The end of the turn is not forgotten. -/
theorem consumeLine_terminalSeen {p : SseParser ν} (seen : p.terminalSeen = true)
    (line : List Char) : (p.consumeLine F line).1.terminalSeen = true := by
  simp only [consumeLine, dispatchFrame, seen]
  split_ifs <;> simp [seen]

theorem scan_terminalSeen {p : SseParser ν} (seen : p.terminalSeen = true)
    (line text : List Char) : (p.scan F line text).1.terminalSeen = true := by
  induction text generalizing p line with
  | nil => exact seen
  | cons c rest ih =>
    by_cases newline : c = '\n'
    · subst newline
      have after := consumeLine_terminalSeen F seen (stripReturn line)
      rcases consumed : p.consumeLine F (stripReturn line) with ⟨p', _ | detail⟩
      · rw [consumed] at after
        rw [scan_line F consumed]
        exact ih after []
      · rw [consumed] at after
        rw [scan_failed F consumed]
        exact after
    · rw [scan_char F newline]
      exact ih seen _

/-- What is read without an error and without the end of the turn, may break
off anywhere: there is no error and no end before. -/
theorem scan_prefix {p p' : SseParser ν} {line a b : List Char}
    (scanned : p.scan F line (a ++ b) = (p', none)) (unseen : p'.terminalSeen = false) :
    ∃ q, p.scan F line a = (q, none) ∧ q.terminalSeen = false := by
  rw [scan_append] at scanned
  rcases first : p.scan F line a with ⟨q, _ | detail⟩
  · rw [first] at scanned
    replace scanned : q.scan F q.bufferedText b = (p', none) := scanned
    refine ⟨q, rfl, ?_⟩
    by_contra seen
    have after := scan_terminalSeen F ((Bool.not_eq_false _).mp seen) q.bufferedText b
    rw [scanned] at after
    rw [after] at unseen
    cases unseen
  · rw [first] at scanned
    cases (Prod.mk.inj scanned).2

theorem finish_unseen {p : SseParser ν} (unseen : p.terminalSeen = false) :
    p.finish.isSome = true := by
  simp only [finish, unseen]
  split_ifs <;> first | rfl | contradiction

/-! ### One event -/

theorem stripReturn_printable {line : List Char} (printable : Json.Printable line) :
    stripReturn line = line := by
  refine if_neg fun last => ?_
  exact absurd (printable _ (List.mem_of_getLast? last)) (by decide)

theorem newline_not_mem {line : List Char} (printable : Json.Printable line) : '\n' ∉ line :=
  fun inside => absurd (printable _ inside) (by decide)

/-- A line of printable characters. -/
theorem scan_whole {p p' : SseParser ν} {line : List Char} (printable : Json.Printable line)
    (consumed : p.consumeLine F line = (p', none)) (rest : List Char) :
    p.scan F [] (line ++ '\n' :: rest) = p'.scan F [] rest := by
  rw [scan_inside F (newline_not_mem printable), List.nil_append]
  exact scan_line F (by rw [stripReturn_printable printable, consumed]) rest

theorem takeWhile_field {field : List Char} (plain : ':' ∉ field) (rest : List Char) :
    (field ++ ':' :: rest).takeWhile (· ≠ ':') = field ∧
      (field ++ ':' :: rest).dropWhile (· ≠ ':') = ':' :: rest := by
  have keep : ∀ c ∈ field, decide (c ≠ ':') = true := by
    intro c inside
    rw [decide_eq_true_eq]
    rintro rfl
    exact plain inside
  rw [List.takeWhile_append_of_pos keep, List.dropWhile_append_of_pos keep,
    List.takeWhile_cons_of_neg (by simp), List.dropWhile_cons_of_neg (by simp), List.append_nil]
  exact ⟨rfl, rfl⟩

/-- A line with a field and its value. -/
theorem consumeLine_field (p : SseParser ν) (c : Char) (field : List Char)
    (plain : ':' ∉ c :: field) (value : List Char) :
    p.consumeLine F (c :: field ++ ": ".toList ++ value) =
      if String.ofList (c :: field) = "event" then ({ p with eventName := value }, none)
      else if String.ofList (c :: field) = "data" then
        ({ p with dataLines := p.dataLines ++ [value] }, none)
      else if String.ofList (c :: field) = "id" ∨ String.ofList (c :: field) = "retry" then (p, none)
      else (p, some s!"unsupported SSE field \"{String.ofList (c :: field)}\"") := by
  obtain ⟨name, behind⟩ := takeWhile_field plain (' ' :: value)
  have line : c :: field ++ ": ".toList ++ value = c :: field ++ ':' :: ' ' :: value := by
    rw [List.append_assoc]
    rfl
  have first : c ≠ ':' := fun same => plain (same ▸ List.mem_cons_self)
  have text : fieldValue (c :: field ++ ':' :: ' ' :: value) = value := by
    rw [fieldValue, behind]
    rfl
  rw [line, consumeLine, if_neg (by simp), if_neg (by simpa using first), text, name]

end SseParser

/-! ### A stream of the adapter -/

/-- One event as the adapter sends it. -/
structure SseFrame (ν : Type) where
  name : SseName
  data : Json ν
  id : Option ν
  proper : data.WellFormed

namespace SseFrame

variable {ν : Type} (F : NumberFormat ν)

def text (f : SseFrame ν) : List Char := formatSse F f.name.text (some f.data) f.id

def event (f : SseFrame ν) : SseEvent ν := ⟨f.name.text, f.data⟩

/-- The text before the empty line. -/
def body (f : SseFrame ν) : List Char :=
  (match f.id with
    | none => []
    | some id => "id: ".toList ++ F.text id ++ ['\n']) ++
  ("event: ".toList ++ f.name.text.toList ++ '\n' ::
    ("data: ".toList ++ f.data.stringify F ++ ['\n']))

theorem text_eq (f : SseFrame ν) : f.text F = f.body F ++ ['\n'] := by
  have line : "\ndata: ".toList = '\n' :: "data: ".toList := by decide
  have ends : "\n\n".toList = ['\n', '\n'] := by decide
  unfold text formatSse body
  rw [line, ends]
  generalize "data: ".toList = data
  generalize "event: ".toList = name
  cases f.id <;>
    simp only [Option.map_some, Option.getD_some, List.append_assoc, List.cons_append,
      List.nil_append]

end SseFrame

/-- Between two events. -/
def SseParser.clean {ν : Type} (reported : List (SseEvent ν)) : SseParser ν :=
  ⟨[], [], [], false, reported⟩

section RoundTrip

variable {ν : Type} (F : NumberFormat ν)

open SseParser

theorem name_printable (name : SseName) : Json.Printable name.text.toList := by
  cases name <;> decide

/-- Before the empty line the event is collected. -/
theorem scan_body (f : SseFrame ν) (reported : List (SseEvent ν)) (rest : List Char) :
    (clean reported).scan F [] (f.body F ++ rest) =
      SseParser.scan F ⟨[], f.name.text.toList, [f.data.stringify F], false, reported⟩ [] rest := by
  have named : (clean reported).consumeLine F ("event: ".toList ++ f.name.text.toList) =
      ({ clean reported with eventName := f.name.text.toList }, none) :=
    consumeLine_field F _ 'e' "vent".toList (by decide) _
  have filled : ∀ q : SseParser ν, q.consumeLine F ("data: ".toList ++ f.data.stringify F) =
      ({ q with dataLines := q.dataLines ++ [f.data.stringify F] }, none) := fun q =>
    consumeLine_field F q 'd' "ata".toList (by decide) _
  have eventLine : Json.Printable ("event: ".toList ++ f.name.text.toList) :=
    Json.printable_append.mpr ⟨by decide, name_printable f.name⟩
  have dataLine : Json.Printable ("data: ".toList ++ f.data.stringify F) :=
    Json.printable_append.mpr ⟨by decide, f.data.stringify_printable F⟩
  have fields : (clean reported).scan F [] ("event: ".toList ++ f.name.text.toList ++ '\n' ::
      ("data: ".toList ++ f.data.stringify F ++ '\n' :: rest)) =
      SseParser.scan F ⟨[], f.name.text.toList, [f.data.stringify F], false, reported⟩ [] rest := by
    rw [scan_whole F eventLine named, scan_whole F dataLine (filled _)]
    rfl
  unfold SseFrame.body
  cases f.id with
  | none =>
    have line : ([] : List Char) ++ ("event: ".toList ++ f.name.text.toList ++
        '\n' :: ("data: ".toList ++ f.data.stringify F ++ ['\n'])) ++ rest =
        "event: ".toList ++ f.name.text.toList ++ '\n' ::
          ("data: ".toList ++ f.data.stringify F ++ '\n' :: rest) := by
      simp only [List.append_assoc, List.cons_append, List.nil_append]
    exact (congrArg _ line).trans fields
  | some id =>
    have digits : Json.Printable (F.text id) := fun c inside =>
      Json.isNumberChar_printable (F.text_chars id c inside)
    have idLine : Json.Printable ("id: ".toList ++ F.text id) :=
      Json.printable_append.mpr ⟨by decide, digits⟩
    have skipped : (clean reported).consumeLine F ("id: ".toList ++ F.text id) =
        (clean reported, none) :=
      consumeLine_field F _ 'i' "d".toList (by decide) _
    have line : "id: ".toList ++ F.text id ++ ['\n'] ++ ("event: ".toList ++ f.name.text.toList ++
        '\n' :: ("data: ".toList ++ f.data.stringify F ++ ['\n'])) ++ rest =
        "id: ".toList ++ F.text id ++ '\n' :: ("event: ".toList ++ f.name.text.toList ++
          '\n' :: ("data: ".toList ++ f.data.stringify F ++ '\n' :: rest)) := by
      simp only [List.append_assoc, List.cons_append, List.nil_append]
    rw [line, scan_whole F idLine skipped]
    exact fields

theorem ends_iff (name : SseName) :
    decide (name.text ∈ ["completed", "error", "cancelled"]) = name.isTerminal := by
  cases name <;> decide

/-- The empty line reports it. -/
theorem scan_text (f : SseFrame ν) (reported : List (SseEvent ν)) (rest : List Char) :
    (clean reported).scan F [] (f.text F ++ rest) =
      SseParser.scan F ⟨[], [], [], f.name.isTerminal, reported ++ [f.event]⟩ [] rest := by
  rw [SseFrame.text_eq, List.append_assoc, scan_body]
  refine scan_whole F Json.printable_nil ?_ rest
  have named : f.name.text.toList ≠ [] := by cases f.name <;> decide
  have parsed : Json.parse F (['\n'].intercalate [f.data.stringify F]) = some f.data := by
    rw [List.intercalate_singleton]
    exact Json.parse_stringify F f.proper
  rw [consumeLine, if_pos rfl, dispatchFrame, if_neg (by simp), if_neg (by simp), if_neg named,
    if_neg (by simp), parsed]
  simp only [String.ofList_toList, Bool.false_or, ends_iff, SseFrame.event]

/-- The texts of some events. -/
def streamText (fs : List (SseFrame ν)) : List Char := fs.flatMap fun f => f.text F

theorem scan_stream {fs : List (SseFrame ν)} (running : ∀ f ∈ fs, f.name.isTerminal = false)
    (reported : List (SseEvent ν)) (rest : List Char) :
    (clean reported).scan F [] (streamText F fs ++ rest) =
      (clean (reported ++ fs.map SseFrame.event)).scan F [] rest := by
  induction fs generalizing reported with
  | nil => simp [streamText]
  | cons f fs ih =>
    obtain ⟨first, more⟩ := List.forall_mem_cons.mp running
    have next := ih more (reported ++ [f.event])
    rw [streamText, List.flatMap_cons, List.append_assoc, scan_text, first]
    rw [streamText] at next
    rw [show (⟨[], [], [], false, reported ++ [f.event]⟩ : SseParser ν) =
      clean (reported ++ [f.event]) from rfl, next, List.append_assoc]
    rfl

/-! ### Chunks -/

/-- The chunks are read as their concatenation is, as long as there is no
error. -/
theorem consumeChunks_eq (ending : Ending) {chunks : List (List UInt8)} {t : TextDecoder}
    {d : Decoder} {read : List Char} {p p' : SseParser ν}
    (decoded : t.decoder.run chunks.flatten = some (d, read))
    (unmarked : t.begun = true ∨ read.head? ≠ some mark)
    (left : '\n' ∉ p.bufferedText) (fed : p.feed F read = (p', none)) :
    ∃ begun, consumeChunks F ending t p chunks = consumeChunks F ending ⟨d, begun⟩ p' [] := by
  induction chunks generalizing t read p with
  | nil =>
    obtain ⟨rfl, rfl⟩ : t.decoder = d ∧ [] = read := by simpa [Decoder.run] using decoded
    obtain rfl : p = p' := by
      rw [feed_nil F left] at fed
      exact (Prod.mk.inj fed).1
    exact ⟨t.begun, rfl⟩
  | cons chunk rest ih =>
    obtain ⟨e, cs, cs', first, second, rfl⟩ := Decoder.run_split decoded
    have unmarked' : t.begun = true ∨ cs.head? ≠ some mark := by
      refine unmarked.imp_right fun other marked => other ?_
      rw [List.head?_append, marked]
      rfl
    have decodes := TextDecoder.decode_eq first unmarked'
    rcases piece : p.feed F cs with ⟨q, _ | detail⟩
    · have more : q.feed F cs' = (p', none) := by rw [← feed_append F piece, fed]
      have left' : '\n' ∉ q.bufferedText := scan_left F List.not_mem_nil piece
      have unmarked'' : (t.begun || decide (cs ≠ [])) = true ∨ cs'.head? ≠ some mark := by
        rcases unmarked with begun | other
        · exact Or.inl (by rw [begun, Bool.true_or])
        · cases cs with
          | nil => exact Or.inr other
          | cons c l => exact Or.inl (by simp)
      obtain ⟨begun, same⟩ := ih (t := ⟨e, t.begun || decide (cs ≠ [])⟩) second unmarked'' left' more
      refine ⟨begun, ?_⟩
      rw [consumeChunks, decodes]
      simp only [piece]
      exact same
    · have failed := scan_append F p [] (p.bufferedText ++ cs) cs'
      rw [show p.scan F [] (p.bufferedText ++ cs) = (q, some detail) from piece] at failed
      rw [feed, ← List.append_assoc, failed] at fed
      cases (Prod.mk.inj fed).2

/-! ### The round trip -/

theorem streamText_concat (fs : List (SseFrame ν)) (last : SseFrame ν) :
    streamText F (fs ++ [last]) = streamText F fs ++ last.body F ++ ['\n'] := by
  rw [streamText, List.flatMap_append, List.flatMap_singleton, SseFrame.text_eq,
    ← List.append_assoc]
  rfl

theorem text_eq_cons (f : SseFrame ν) : ∃ c rest, f.text F = c :: rest ∧ c ≠ mark := by
  have eventName : "event: ".toList = 'e' :: "vent: ".toList := by decide
  have idName : "id: ".toList = 'i' :: "d: ".toList := by decide
  unfold SseFrame.text formatSse
  rw [eventName, idName]
  generalize "vent: ".toList = a
  generalize "d: ".toList = b
  cases f.id with
  | none => exact ⟨'e', _, by simp only [List.nil_append, List.cons_append]; rfl, by decide⟩
  | some id => exact ⟨'i', _, by simp only [List.cons_append]; rfl, by decide⟩

/-- A stream begins with the name of a field. -/
theorem streamText_head? (fs : List (SseFrame ν)) : (streamText F fs).head? ≠ some mark := by
  cases fs with
  | nil => exact nofun
  | cons f fs =>
    obtain ⟨c, rest, text, other⟩ := text_eq_cons F f
    rw [streamText, List.flatMap_cons, text]
    exact fun same => other (Option.some.inj same)

/-- All of the stream. -/
theorem consumeEventStream_whole {fs : List (SseFrame ν)} {last : SseFrame ν}
    (running : ∀ f ∈ fs, f.name.isTerminal = false) (ends : last.name.isTerminal = true)
    {chunks : List (List UInt8)}
    (whole : chunks.flatten = encode (streamText F (fs ++ [last]))) :
    consumeEventStream F chunks .done = ((fs ++ [last]).map SseFrame.event, none) := by
  have decoded : Decoder.start.run chunks.flatten =
      some (Decoder.start, streamText F (fs ++ [last])) := by
    rw [whole, Decoder.run_encode]
  have fed : (SseParser.fresh : SseParser ν).feed F (streamText F (fs ++ [last])) =
      (⟨[], [], [], true, (fs ++ [last]).map SseFrame.event⟩, none) := by
    have text : streamText F (fs ++ [last]) = streamText F fs ++ (last.text F ++ []) := by
      rw [streamText, List.flatMap_append, List.flatMap_singleton, List.append_nil]
      rfl
    show (clean []).scan F [] ([] ++ _) = _
    rw [text, List.nil_append, scan_stream F running, scan_text, ends, List.nil_append, List.map_append]
    rfl
  obtain ⟨begun, same⟩ := consumeChunks_eq F .done (t := .fresh) decoded
    (Or.inr (streamText_head? F _)) (by simp [SseParser.fresh]) fed
  rw [consumeEventStream, same]
  rfl

/-- A part of the stream. -/
theorem consumeEventStream_cut {fs : List (SseFrame ν)} {last : SseFrame ν}
    (running : ∀ f ∈ fs, f.name.isTerminal = false) {chunks : List (List UInt8)}
    {rest : List UInt8} (cut : chunks.flatten ++ rest = encode (streamText F (fs ++ [last])))
    (more : rest ≠ []) {ending : Ending} (kept : ending ≠ .aborted) :
    (consumeEventStream F chunks ending).2.isSome = true := by
  obtain ⟨d, read, owed, decoded, ⟨left, part⟩, bytes⟩ := Decoder.run_prefix cut
  have missing : left ≠ [] := by
    rintro rfl
    rw [List.append_nil] at part
    rw [bytes, part, List.append_assoc] at cut
    exact more (List.append_eq_nil_iff.mp (List.append_right_eq_self.mp cut)).2
  have text : read ++ left.dropLast = streamText F fs ++ last.body F := by
    rw [streamText_concat, ← List.dropLast_append_getLast missing, ← List.append_assoc] at part
    exact (List.append_inj_left' part rfl)
  have collected : (clean []).scan F [] (streamText F fs ++ last.body F) =
      (⟨[], last.name.text.toList, [last.data.stringify F], false, fs.map SseFrame.event⟩, none) := by
    have body := scan_body F last (fs.map SseFrame.event) []
    rw [List.append_nil] at body
    rw [scan_stream F running, List.nil_append, body]
    rfl
  rw [← text] at collected
  obtain ⟨q, scanned, unseen⟩ := scan_prefix F collected rfl
  have unmarked : read.head? ≠ some mark := by
    intro marked
    apply streamText_head? F (fs ++ [last])
    rw [← part, List.head?_append, marked]
    rfl
  obtain ⟨begun, same⟩ := consumeChunks_eq F ending (t := .fresh) decoded (Or.inr unmarked)
    (p := .fresh) (by simp [SseParser.fresh]) scanned
  have left' : '\n' ∉ q.bufferedText := scan_left F List.not_mem_nil scanned
  have failed : (consumeChunks F ending ⟨d, begun⟩ q []).2.isSome = true := by
    cases ending with
    | aborted => exact absurd rfl kept
    | failed message => rfl
    | done =>
      rw [consumeChunks, TextDecoder.flush]
      split_ifs
      · simp only [feed_nil F left']
        exact finish_unseen unseen
      · rfl
  rw [consumeEventStream, same]
  simpa using failed

/-- What the adapter writes is reported as it was written, however the bytes
are cut into chunks; and if the stream breaks off before its end, between
two bytes anywhere, that is an error. -/
theorem event_stream_round_trip {fs : List (SseFrame ν)} {last : SseFrame ν}
    (running : ∀ f ∈ fs, f.name.isTerminal = false) (ends : last.name.isTerminal = true) :
    (∀ chunks : List (List UInt8), chunks.flatten = encode (streamText F (fs ++ [last])) →
      consumeEventStream F chunks .done = ((fs ++ [last]).map SseFrame.event, none)) ∧
    (∀ (chunks : List (List UInt8)) (rest : List UInt8) (ending : Ending),
      chunks.flatten ++ rest = encode (streamText F (fs ++ [last])) → rest ≠ [] →
      ending ≠ .aborted → (consumeEventStream F chunks ending).2.isSome = true) :=
  ⟨fun _ whole => consumeEventStream_whole F running ends whole,
    fun _ _ _ cut more kept => consumeEventStream_cut F running cut more kept⟩

end RoundTrip

/-- A delta with a line feed, a colon, a pair of surrogates and half of one. -/
def sampleDelta : SseFrame ℕ where
  name := .delta
  data := .object [("text".toList.map fun c => UInt16.ofNat c.toNat,
    .string [10, 58, 0xD83D, 0xDE00, 0xD800])]
  id := some 1
  proper := .object _ (by simp) (by
    intro p inside
    obtain rfl := List.mem_singleton.mp inside
    exact .string _)

def sampleEnd : SseFrame ℕ := ⟨.completed, .array [.number 42, .null], some 2, .array _ (by
  intro v inside
  rcases List.mem_cons.mp inside with rfl | last
  · exact .number 42
  · obtain rfl := List.mem_singleton.mp last
    exact .null)⟩

/-- Byte by byte, and without the last byte. -/
theorem sample_round_trip :
    consumeEventStream .decimal
      ((encode (streamText .decimal [sampleDelta, sampleEnd])).map fun b => [b]) .done =
        ([sampleDelta.event, sampleEnd.event], none) ∧
    (consumeEventStream .decimal
      [(encode (streamText .decimal [sampleDelta, sampleEnd])).dropLast] .done).2.isSome = true := by
  have round := event_stream_round_trip .decimal
    (show ∀ f ∈ [sampleDelta], f.name.isTerminal = false by decide)
    (show sampleEnd.name.isTerminal = true by decide)
  have bytes : encode (streamText .decimal [sampleDelta, sampleEnd]) ≠ [] := by decide +kernel
  have cut := List.dropLast_append_getLast bytes
  constructor
  · apply round.1
    rw [← List.flatMap_def]
    exact List.flatMap_singleton' _
  · refine round.2 _ [List.getLast _ bytes] .done ?_ (List.cons_ne_nil _ []) (by decide)
    rw [List.flatten_singleton]
    exact cut

end OmpBundler.Cli
