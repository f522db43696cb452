import OmpBundler.Library.Lines
import OmpBundler.Library.Transition

/-!
A program that reads a text line by line while the text arrives in pieces.

The program keeps what it has not read in a buffer. When a piece arrives it
takes lines off the buffer until no newline is left, or until handling a
line throws. Work that is queued meanwhile is done when the piece has been
dealt with, not between its lines.

So the way in which a text is cut into pieces can matter for two reasons
only: a line that throws keeps the lines behind it waiting for the next
piece, and a line may depend on work that is still queued. Pieces without
either are read as if each line had come alone.
-/

namespace Library.LineStream

open Library.Lines Library.Transition

/-! ### Lines and what is behind them -/

/-- The lines of a text that are ended by a newline, and the text behind the
last newline. -/
def splitText : List Char → List Line × Line
  | [] => ([], [])
  | c :: rest =>
      if c = '\n' then ([] :: (splitText rest).1, (splitText rest).2)
      else
        match splitText rest with
        | ([], tail) => ([], c :: tail)
        | (l :: ls, tail) => ((c :: l) :: ls, tail)

def completeLines (text : List Char) : List Line := (splitText text).1

def unfinished (text : List Char) : Line := (splitText text).2

theorem splitText_line {l : Line} (noNewline : '\n' ∉ l) (rest : List Char) :
    splitText (l ++ '\n' :: rest) = (l :: (splitText rest).1, (splitText rest).2) := by
  induction l with
  | nil => rw [List.nil_append, splitText, if_pos rfl]
  | cons c l ih =>
      rw [List.mem_cons, not_or] at noNewline
      rw [List.cons_append, splitText, if_neg (Ne.symm noNewline.1), ih noNewline.2]

theorem splitText_last {l : Line} (noNewline : '\n' ∉ l) : splitText l = ([], l) := by
  induction l with
  | nil => rfl
  | cons c l ih =>
      rw [List.mem_cons, not_or] at noNewline
      rw [splitText, if_neg (Ne.symm noNewline.1), ih noNewline.2]

theorem splitText_unlines {ls : List Line} {tail : Line} (noNewline : ∀ l ∈ ls, '\n' ∉ l)
    (last : '\n' ∉ tail) : splitText (unlines lf ls ++ tail) = (ls, tail) := by
  induction ls with
  | nil => exact splitText_last last
  | cons l ls ih =>
      obtain ⟨first, others⟩ := List.forall_mem_cons.mp noNewline
      rw [unlines_cons, List.append_assoc, List.cons_append, splitText_line first, ih others]

/-- The text again, and no newline in its lines. -/
theorem splitText_spec (text : List Char) :
    text = unlines lf (completeLines text) ++ unfinished text ∧
      (∀ l ∈ completeLines text, '\n' ∉ l) ∧ '\n' ∉ unfinished text := by
  obtain ⟨ls, tail, rfl, noNewline, last⟩ := exists_unlines text
  rw [completeLines, unfinished, splitText_unlines noNewline last]
  exact ⟨rfl, noNewline, last⟩

theorem unlines_eq_nil {ls : List Line} : unlines lf ls = [] ↔ ls = [] := by
  cases ls with
  | nil => simp [unlines]
  | cons l ls => simp [unlines_cons]

theorem unlines_append (ls ms : List Line) :
    unlines lf (ls ++ ms) = unlines lf ls ++ unlines lf ms :=
  List.flatMap_append

/-- What arrives behind an unfinished line finishes it. -/
theorem splitText_append (text data : List Char) :
    splitText (text ++ data) =
      (completeLines text ++ completeLines (unfinished text ++ data),
        unfinished (unfinished text ++ data)) := by
  obtain ⟨whole, noNewline, _⟩ := splitText_spec text
  obtain ⟨more, noNewline', last⟩ := splitText_spec (unfinished text ++ data)
  have joined : text ++ data = unlines lf (completeLines text ++
      completeLines (unfinished text ++ data)) ++ unfinished (unfinished text ++ data) := by
    rw [unlines_append, List.append_assoc, ← more, ← List.append_assoc, ← whole]
  conv_lhs => rw [joined]
  refine splitText_unlines ?_ last
  intro l mem
  exact (List.mem_append.mp mem).elim (noNewline l) (noNewline' l)

/-- `indexOf` and `slice`: the first line of a text and what follows its
newline. -/
def cutLine (text : List Char) : Option (Line × List Char) :=
  if '\n' ∈ text then some (text.take (text.idxOf '\n'), text.drop (text.idxOf '\n' + 1))
  else none

theorem cutLine_line {l : Line} (noNewline : '\n' ∉ l) (rest : List Char) :
    cutLine (l ++ '\n' :: rest) = some (l, rest) := by
  have position : (l ++ '\n' :: rest).idxOf '\n' = l.length := by
    rw [List.idxOf_append_of_notMem noNewline, List.idxOf_cons_self, Nat.add_zero]
  have split : l ++ '\n' :: rest = (l ++ ['\n']) ++ rest := by simp
  rw [cutLine, if_pos (by simp), position, List.take_left, split]
  congr 2
  exact List.drop_left' (by simp)

theorem cutLine_last {l : Line} (noNewline : '\n' ∉ l) : cutLine l = none := if_neg noNewline

theorem length_cutLine {text rest : List Char} {l : Line} (cut : cutLine text = some (l, rest)) :
    rest.length < text.length := by
  unfold cutLine at cut
  split at cut
  case isFalse => cases cut
  case isTrue mem =>
      obtain ⟨_, rfl⟩ := Prod.mk.inj (Option.some.inj cut)
      have := List.length_pos_of_mem mem
      rw [List.length_drop]
      omega

/-! ### Readers -/

/-- A program that reads lines: `σ` is what it keeps, `τ` a line as it takes
it, `ρ` what becomes of a line. -/
structure Reader (σ τ ρ : Type*) where
  /-- The line in a piece of text; none if it is skipped. -/
  clean : Line → Option τ
  next : σ → τ → σ
  result : σ → τ → ρ
  /-- Handling the line throws, after all that it does. -/
  throws : σ → τ → Bool
  /-- Do the work that is queued. -/
  settle : σ → σ
  settle_settle : ∀ c, settle (settle c) = settle c
  /-- A line that does not depend on the queued work leaves the same behind,
  whether the work has been done or not. -/
  settle_next : ∀ c l, result c l = result (settle c) l →
    settle (next c l) = settle (next (settle c) l)

/-- The state of a program while a text arrives. -/
structure Stream (σ τ ρ : Type*) where
  core : σ
  buffer : List Char
  /-- The lines that have been handled, with what became of them. -/
  log : List (τ × ρ)
  /-- All that has arrived. -/
  text : List Char

namespace Reader

variable {σ τ ρ : Type*} (R : Reader σ τ ρ)

/-- A line is handled. -/
def handle (s : Stream σ τ ρ) (l : τ) : Stream σ τ ρ :=
  { s with core := R.next s.core l, log := s.log ++ [(l, R.result s.core l)] }

/-- Take lines off the buffer. -/
def loop (s : Stream σ τ ρ) : Stream σ τ ρ :=
  match _cut : cutLine s.buffer with
  | none => s
  | some (line, rest) =>
      let s' := { s with buffer := rest }
      match R.clean line with
      | none => loop s'
      | some l => if R.throws s.core l then R.handle s' l else loop (R.handle s' l)
termination_by s.buffer.length
decreasing_by
  · exact length_cutLine _cut
  · exact length_cutLine _cut

/-- A piece of the text arrives. -/
def receive (s : Stream σ τ ρ) (data : List Char) : Stream σ τ ρ :=
  let t := R.loop { s with buffer := s.buffer ++ data, text := s.text ++ data }
  { t with core := R.settle t.core }

/-- A state in which no work is queued and nothing has arrived. -/
def start (c : σ) : Stream σ τ ρ := ⟨R.settle c, [], [], []⟩

/-- The pieces of a text as actions. -/
def machine : Machine (Stream σ τ ρ) (List Char) where
  init s := ∃ c, s = R.start c
  step s data := some (R.receive s data)

/-- The lines up to the first that throws: what is kept then, what has
become of them, and the lines that have not been taken. -/
def walk : σ → List Line → σ × List (τ × ρ) × List Line
  | c, [] => (c, [], [])
  | c, line :: lines =>
      match R.clean line with
      | none => walk c lines
      | some l =>
          if R.throws c l then (R.next c l, [(l, R.result c l)], lines)
          else
            let (d, entries, left) := walk (R.next c l) lines
            (d, (l, R.result c l) :: entries, left)

/-- Each line alone: the queued work is done before the next one. -/
def oneByOne : σ → List Line → σ × List (τ × ρ)
  | c, [] => (c, [])
  | c, line :: lines =>
      match R.clean line with
      | none => oneByOne c lines
      | some l =>
          let (d, entries) := oneByOne (R.settle (R.next c l)) lines
          (d, (l, R.result c l) :: entries)

/-- No line depends on queued work, and none that throws has a line behind
it. -/
def Steady : σ → List Line → Prop
  | _, [] => True
  | c, line :: lines =>
      match R.clean line with
      | none => Steady c lines
      | some l =>
          R.result c l = R.result (R.settle c) l ∧ (R.throws c l = true → lines = []) ∧
            Steady (R.next c l) lines

/-- The lines that have been handled are those of the text, each once and
in order, with what becomes of them when each comes alone; and what waits in
the buffer is the text behind the last newline. -/
def Exact (c : σ) (s : Stream σ τ ρ) : Prop :=
  s.log = (R.oneByOne (R.settle c) (completeLines s.text)).2 ∧ s.buffer = unfinished s.text

/-- The lines that the piece completes are steady. -/
def Whole (s : Stream σ τ ρ) (data : List Char) : Prop :=
  R.Steady s.core (completeLines (s.buffer ++ data))

/-! ### One piece -/

section Piece

variable {R}

example (c : σ) : (R.walk c []).2.1 = (R.oneByOne c []).2 ∧ R.Steady c [] := by
  simp [walk, oneByOne, Steady]

/-- The loop walks through the complete lines of the buffer. -/
theorem loop_unlines {ls : List Line} {tail : Line} (noNewline : ∀ l ∈ ls, '\n' ∉ l)
    (last : '\n' ∉ tail) (c : σ) (log : List (τ × ρ)) (text : List Char) :
    R.loop ⟨c, unlines lf ls ++ tail, log, text⟩ =
      ⟨(R.walk c ls).1, unlines lf (R.walk c ls).2.2 ++ tail, log ++ (R.walk c ls).2.1, text⟩ := by
  induction ls generalizing c log with
  | nil =>
      rw [loop]
      have cut : cutLine (unlines lf [] ++ tail) = none := cutLine_last last
      split
      case h_1 => simp [walk]
      case h_2 cut' => rw [cut] at cut'; cases cut'
  | cons line lines ih =>
      obtain ⟨first, others⟩ := List.forall_mem_cons.mp noNewline
      have cut : cutLine (unlines lf (line :: lines) ++ tail) =
          some (line, unlines lf lines ++ tail) := by
        rw [unlines_cons, List.append_assoc, List.cons_append, cutLine_line first]
      rw [loop]
      split
      case h_1 cut' => rw [cut] at cut'; cases cut'
      case h_2 line' rest cut' =>
          rw [cut] at cut'
          obtain ⟨rfl, rfl⟩ := Prod.mk.inj (Option.some.inj cut')
          rw [walk]
          cases cleaned : R.clean line with
          | none => exact ih others c log
          | some l =>
              by_cases throws : R.throws c l = true
              · simp [throws, handle]
              · simp only [throws, handle, Bool.false_eq_true, if_false]
                rw [ih others, List.append_assoc]
                rfl

/-- The lines of a piece are handled as if each came alone exactly if they
are steady. -/
theorem walk_exact_iff (c : σ) (ls : List Line) :
    ((R.walk c ls).2.1 = (R.oneByOne (R.settle c) ls).2 ∧ (R.walk c ls).2.2 = []) ↔
      R.Steady c ls := by
  induction ls generalizing c with
  | nil => simp [walk, oneByOne, Steady]
  | cons line lines ih =>
      rw [walk, oneByOne, Steady]
      cases cleaned : R.clean line with
      | none => exact ih c
      | some l =>
          by_cases same : R.result c l = R.result (R.settle c) l
          case neg =>
              by_cases throws : R.throws c l = true <;> simp [throws, same]
          case pos =>
              have later := ih (R.next c l)
              rw [R.settle_next c l same] at later
              by_cases throws : R.throws c l = true
              · simp only [throws, if_true, same, true_and, forall_const]
                constructor
                · rintro ⟨_, rfl⟩
                  exact ⟨rfl, trivial⟩
                · rintro ⟨rfl, _⟩
                  exact ⟨rfl, rfl⟩
              · simp only [throws, Bool.false_eq_true, if_false, same, List.cons.injEq, true_and,
                  false_imp_iff]
                exact later

/-- Steady lines leave behind what they leave when each comes alone. -/
theorem Steady.core {c : σ} {ls : List Line} (steady : R.Steady c ls) :
    R.settle (R.walk c ls).1 = (R.oneByOne (R.settle c) ls).1 := by
  induction ls generalizing c with
  | nil => rfl
  | cons line lines ih =>
      rw [walk, oneByOne]
      rw [Steady] at steady
      cases cleaned : R.clean line with
      | none =>
          rw [cleaned] at steady
          exact ih steady
      | some l =>
          rw [cleaned] at steady
          obtain ⟨same, alone, rest⟩ := steady
          by_cases throws : R.throws c l = true
          · obtain rfl := alone throws
            simp only [throws, if_true]
            exact R.settle_next c l same
          · simp only [throws, Bool.false_eq_true, if_false]
            rw [ih rest, R.settle_next c l same]

theorem oneByOne_append (c : σ) (ls ms : List Line) :
    R.oneByOne c (ls ++ ms) =
      ((R.oneByOne (R.oneByOne c ls).1 ms).1,
        (R.oneByOne c ls).2 ++ (R.oneByOne (R.oneByOne c ls).1 ms).2) := by
  induction ls generalizing c with
  | nil => rfl
  | cons line lines ih =>
      rw [List.cons_append, oneByOne, oneByOne]
      cases cleaned : R.clean line with
      | none => exact ih c
      | some l =>
          simp only [ih, List.cons_append]

/-- No work is queued when a line that came alone has been dealt with. -/
theorem settle_oneByOne {c : σ} (settled : R.settle c = c) (ls : List Line) :
    R.settle (R.oneByOne c ls).1 = (R.oneByOne c ls).1 := by
  induction ls generalizing c with
  | nil => exact settled
  | cons line lines ih =>
      rw [oneByOne]
      cases cleaned : R.clean line with
      | none => exact ih settled
      | some l => exact ih (R.settle_settle _)

/-- What a piece does. -/
theorem receive_eq (s : Stream σ τ ρ) (data : List Char) :
    R.receive s data =
      let ls := completeLines (s.buffer ++ data)
      let tail := unfinished (s.buffer ++ data)
      ⟨R.settle (R.walk s.core ls).1, unlines lf (R.walk s.core ls).2.2 ++ tail,
        s.log ++ (R.walk s.core ls).2.1, s.text ++ data⟩ := by
  obtain ⟨whole, noNewline, last⟩ := splitText_spec (s.buffer ++ data)
  rw [receive]
  conv_lhs => rw [whole]
  rw [loop_unlines noNewline last]

end Piece

/-! ### All pieces -/

section Run

variable {R} {c : σ} {s : Stream σ τ ρ}

/-- Every line so far has been handled as if it had come alone. -/
def Aligned (R : Reader σ τ ρ) (c : σ) (s : Stream σ τ ρ) : Prop :=
  R.Exact c s ∧ s.core = (R.oneByOne (R.settle c) (completeLines s.text)).1

theorem aligned_start (c : σ) : R.Aligned c (R.start c) := ⟨⟨rfl, rfl⟩, rfl⟩

/-- A piece is exact if and only if the lines that it completes are steady. -/
theorem Aligned.exact_iff (aligned : R.Aligned c s) (data : List Char) :
    R.Exact c (R.receive s data) ↔ R.Whole s data := by
  obtain ⟨⟨log, buffer⟩, core⟩ := aligned
  have settled : R.settle s.core = s.core := by
    rw [core]
    exact settle_oneByOne (R.settle_settle c) _
  have split := splitText_append s.text data
  rw [← buffer] at split
  have lines : completeLines (s.text ++ data) = _ := congrArg Prod.fst split
  have tail : unfinished (s.text ++ data) = _ := congrArg Prod.snd split
  rw [Whole, ← walk_exact_iff, settled, Exact, receive_eq]
  simp only
  rw [lines, tail, oneByOne_append, ← core, log, List.append_cancel_left_eq,
    List.append_left_eq_self, unlines_eq_nil]

theorem Aligned.receive (aligned : R.Aligned c s) {data : List Char} (whole : R.Whole s data) :
    R.Aligned c (R.receive s data) := by
  refine ⟨(aligned.exact_iff data).mpr whole, ?_⟩
  obtain ⟨⟨_, buffer⟩, core⟩ := aligned
  have settled : R.settle s.core = s.core := by
    rw [core]
    exact settle_oneByOne (R.settle_settle c) _
  have lines : completeLines (s.text ++ data) = _ :=
    congrArg Prod.fst (splitText_append s.text data)
  rw [receive_eq]
  simp only
  rw [Steady.core whole, settled, lines, oneByOne_append, ← core, ← buffer]

/-- A text is read as if each of its lines had come alone, after each of
the pieces in which it arrives, if and only if each piece completes steady
lines. -/
theorem throughout_exact_iff (c : σ) (pieces : List (List Char)) :
    R.machine.Throughout (R.Exact c) (R.start c) pieces ↔
      R.machine.EachStep R.Whole (R.start c) pieces :=
  Machine.throughout_iff_eachStep_of_kept (I := R.Aligned c) (aligned_start c)
    (fun _ aligned => aligned.1)
    (fun _ _ _ aligned whole taken => Option.some.inj taken ▸ aligned.receive whole)
    fun _ data _ aligned taken exact =>
      (aligned.exact_iff data).mp (Option.some.inj taken ▸ exact)

/-- A piece of one character completes at most one line, in a state in which
no work is queued. -/
theorem Aligned.whole_singleton (aligned : R.Aligned c s) (x : Char) : R.Whole s [x] := by
  obtain ⟨⟨_, buffer⟩, core⟩ := aligned
  have settled : R.settle s.core = s.core := by
    rw [core]
    exact settle_oneByOne (R.settle_settle c) _
  have noNewline : '\n' ∉ s.buffer := by
    rw [buffer]
    exact (splitText_spec s.text).2.2
  rw [Whole, completeLines]
  by_cases newline : x = '\n'
  · subst newline
    rw [splitText_line noNewline, Steady]
    cases cleaned : R.clean s.buffer with
    | none => trivial
    | some l =>
        refine ⟨by rw [settled], fun _ => rfl, ?_⟩
        trivial
  · have unended : '\n' ∉ s.buffer ++ [x] := by
      rw [List.mem_append, List.mem_singleton, not_or]
      exact ⟨noNewline, Ne.symm newline⟩
    rw [splitText_last unended]
    trivial

/-- A text that arrives character by character is read so. -/
theorem whole_singletons (c : σ) (text : List Char) :
    R.machine.EachStep R.Whole (R.start c) (text.map fun x => [x]) := by
  have each (s : Stream σ τ ρ) (aligned : R.Aligned c s) :
      R.machine.EachStep R.Whole s (text.map fun x => [x]) := by
    induction text generalizing s with
    | nil => trivial
    | cons x text ih =>
        intro t taken
        obtain rfl := Option.some.inj taken
        exact ⟨aligned.whole_singleton x, ih _ (aligned.receive (aligned.whole_singleton x))⟩
  exact each _ (aligned_start c)

/-- The state after some pieces. -/
def receiveAll (R : Reader σ τ ρ) (s : Stream σ τ ρ) (pieces : List (List Char)) :
    Stream σ τ ρ :=
  pieces.foldl R.receive s

theorem exec_machine (s : Stream σ τ ρ) (pieces : List (List Char)) :
    R.machine.exec Always s pieces = some (R.receiveAll s pieces) := by
  induction pieces generalizing s with
  | nil => rfl
  | cons data pieces ih => exact ih (R.receive s data)

theorem text_receiveAll (s : Stream σ τ ρ) (pieces : List (List Char)) :
    (R.receiveAll s pieces).text = s.text ++ pieces.flatten := by
  induction pieces generalizing s with
  | nil => simp [receiveAll]
  | cons data pieces ih =>
      have received : (R.receive s data).text = s.text ++ data := by rw [receive_eq]
      rw [receiveAll, List.foldl_cons, ← receiveAll, ih, received, List.flatten_cons,
        List.append_assoc]

/-- What becomes of a text does not depend on the pieces in which it
arrives, as long as each completes steady lines. -/
theorem receiveAll_congr {pieces others : List (List Char)}
    (whole : R.machine.EachStep R.Whole (R.start c) pieces)
    (whole' : R.machine.EachStep R.Whole (R.start c) others)
    (same : pieces.flatten = others.flatten) :
    (R.receiveAll (R.start c) pieces).log = (R.receiveAll (R.start c) others).log ∧
      (R.receiveAll (R.start c) pieces).buffer = (R.receiveAll (R.start c) others).buffer := by
  have text : (R.receiveAll (R.start c) pieces).text = (R.receiveAll (R.start c) others).text := by
    rw [text_receiveAll, text_receiveAll, same]
  obtain ⟨log, buffer⟩ := ((throughout_exact_iff c pieces).mpr whole).last (exec_machine _ _)
  obtain ⟨log', buffer'⟩ := ((throughout_exact_iff c others).mpr whole').last (exec_machine _ _)
  exact ⟨by rw [log, log', text], by rw [buffer, buffer', text]⟩

/-- The lines that have been handled are those of the text that are not
skipped. -/
theorem Exact.lines (exact : R.Exact c s) :
    s.log.map Prod.fst = (completeLines s.text).filterMap R.clean := by
  have handled (ls : List Line) (c : σ) :
      (R.oneByOne c ls).2.map Prod.fst = ls.filterMap R.clean := by
    induction ls generalizing c with
    | nil => rfl
    | cons line lines ih =>
        rw [oneByOne, List.filterMap_cons]
        cases cleaned : R.clean line with
        | none => exact ih c
        | some l => exact congrArg (l :: ·) (ih _)
  rw [exact.1, handled]

end Run

end Reader

end Library.LineStream
