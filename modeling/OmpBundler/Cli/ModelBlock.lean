import Mathlib.Data.List.TakeWhile
import OmpBundler.Cli.EnvBlocks

/-!
The model block of an env file.

The old blocks are removed from the last one to the first. What follows a block
has then been moved up to the block in front of it: a row or a blank line that
comes to stand behind its rows is taken for one of its own. The lines outside of
the blocks are all kept, if and only if this does not happen.
-/

namespace OmpBundler.Cli

open Library Library.Lines
open JsString (isSpace)

/-! ### Rows of the block -/

theorem isSpace_of_isEnvChar {c : Char} (env : isEnvChar c = true) : isSpace c = false := by
  by_contra space
  simp only [isSpace, Bool.not_eq_false, Bool.or_eq_true, decide_eq_true_eq, Bool.and_eq_true,
    List.mem_cons, List.not_mem_nil, or_false] at space
  simp only [isEnvChar, Bool.or_eq_true, decide_eq_true_eq, Char.isDigit_iff_toNat] at env
  rcases env with (upper | digit) | rfl
  · have bounds : 65 ≤ c.toNat ∧ c.toNat ≤ 90 := by
      have between : (decide (c.val ≥ 'A'.val ∧ c.val ≤ 'Z'.val)) = true := upper
      exact of_decide_eq_true between
    omega
  · have bounds : 48 ≤ c.toNat ∧ c.toNat ≤ 57 := digit
    omega
  · exact absurd space (by decide)

theorem isEnvName_eq_true {name : Line} (valid : isEnvName name = true) :
    ∃ c rest, name = c :: rest ∧ c.isDigit = false ∧ ∀ x ∈ name, isEnvChar x = true := by
  cases name with
  | nil => cases valid
  | cons c rest =>
      rw [isEnvName, Bool.and_eq_true, List.all_eq_true, Bool.not_eq_true'] at valid
      exact ⟨c, rest, rfl, valid.1, valid.2⟩

theorem rowName_assignment {name : Line} (env : ∀ x ∈ name, isEnvChar x = true) (value : Line) :
    rowName (name ++ '=' :: value) = some name := by
  have equals : isEnvChar '=' = false ∧ isSpace '=' = false := by decide
  have body : (name ++ '=' :: value).dropWhile isSpace = name ++ '=' :: value := by
    cases name with
    | nil => exact List.dropWhile_cons_of_neg (by simp [equals.2])
    | cons c rest =>
        exact List.dropWhile_cons_of_neg
          (by simp [isSpace_of_isEnvChar (env c List.mem_cons_self)])
  have rest : (name ++ '=' :: value).dropWhile isEnvChar = '=' :: value := by
    rw [List.dropWhile_append_of_pos env, List.dropWhile_cons_of_neg (by simp [equals.1])]
  have taken : (name ++ '=' :: value).takeWhile isEnvChar = name := by
    rw [List.takeWhile_append_of_pos env, List.takeWhile_cons_of_neg (by simp [equals.1]),
      List.append_nil]
  have stop : ('=' :: value).dropWhile isSpace = '=' :: value :=
    List.dropWhile_cons_of_neg (by simp [equals.2])
  simp only [rowName, body, rest, taken, stop]

theorem isAssignment_assignment {name : Line} (valid : isEnvName name = true) (value : Line) :
    isAssignment (name ++ '=' :: value) = true := by
  obtain ⟨c, rest, rfl, noDigit, env⟩ := isEnvName_eq_true valid
  rw [isAssignment, rowName_assignment env]
  simp [noDigit]

/-! ### Removing the blocks -/

/-- The rows of a block and a blank line behind it. -/
def dropBlock (lines : List Line) : List Line := dropBlankLine (lines.dropWhile isAssignment)

/-- The lines outside of the blocks, where `inside` says that a block is open. -/
def outsideFrom : Bool → List Line → List Line
  | _, [] => []
  | inside, line :: lines =>
      if isModelHeading line then outsideFrom true lines
      else if inside && isAssignment line then outsideFrom true lines
      else if inside && isBlankLine line then outsideFrom false lines
      else line :: outsideFrom false lines

/-- The lines that are left, where `inside` says that a block is open. -/
def leftFrom (inside : Bool) (lines : List Line) : List Line :=
  if inside then dropBlock (removeModelBlocks lines) else removeModelBlocks lines

theorem dropBlankLine_sublist (lines : List Line) : (dropBlankLine lines).Sublist lines := by
  cases lines with
  | nil => exact .slnil
  | cons l rest =>
      rw [dropBlankLine]
      split_ifs
      · exact List.sublist_cons_self l rest
      · exact .refl _

theorem dropBlock_suffix (lines : List Line) : dropBlock lines <:+ lines := by
  have blank : dropBlankLine (lines.dropWhile isAssignment) <:+ lines.dropWhile isAssignment := by
    cases lines.dropWhile isAssignment with
    | nil => exact List.suffix_refl _
    | cons l rest =>
        rw [dropBlankLine]
        split_ifs
        · exact List.suffix_cons l rest
        · exact List.suffix_refl _
  exact blank.trans (List.dropWhile_suffix _)

/-- A line that would be taken for one of a block in front of it. -/
def Joins (lines : List Line) : Prop :=
  ∃ l ∈ lines.head?, isAssignment l = true ∨ isBlankLine l = true

theorem dropBlock_eq_self {lines : List Line} (apart : ¬Joins lines) : dropBlock lines = lines := by
  cases lines with
  | nil => rfl
  | cons l rest =>
      have other : ¬isAssignment l = true ∧ ¬isBlankLine l = true :=
        not_or.mp fun joins => apart ⟨l, rfl, joins⟩
      rw [dropBlock, List.dropWhile_cons_of_neg other.1, dropBlankLine, if_neg other.2]

theorem dropBlock_length {lines : List Line} (joins : Joins lines) :
    (dropBlock lines).length < lines.length := by
  obtain ⟨l, first, joins⟩ := joins
  obtain ⟨rest, rfl⟩ := List.head?_eq_some_iff.mp first
  by_cases assignment : isAssignment l = true
  · rw [dropBlock, List.dropWhile_cons_of_pos assignment]
    have short := (dropBlock_suffix rest).length_le
    exact Nat.lt_succ_of_le short
  · have blank := joins.resolve_left assignment
    rw [dropBlock, List.dropWhile_cons_of_neg assignment, dropBlankLine, if_pos blank]
    exact Nat.lt_succ_self _

/-- Where both agree on the rest, they treat a line in the same way, unless a
heading stands behind the rows of a block. -/
theorem leftFrom_cons (inside : Bool) (line : Line) (lines : List Line) :
    leftFrom inside (line :: lines) =
      if isModelHeading line then
        if inside then dropBlock (leftFrom true lines) else leftFrom true lines
      else if inside && isAssignment line then leftFrom true lines
      else if inside && isBlankLine line then leftFrom false lines
      else line :: leftFrom false lines := by
  cases heading : isModelHeading line with
  | true => cases inside <;> simp [leftFrom, removeModelBlocks, heading, dropBlock]
  | false =>
      cases inside with
      | false => simp [leftFrom, removeModelBlocks, heading]
      | true =>
          cases assignment : isAssignment line with
          | true => simp [leftFrom, removeModelBlocks, heading, dropBlock, assignment]
          | false =>
              cases blank : isBlankLine line <;>
                simp [leftFrom, removeModelBlocks, heading, dropBlock, assignment, dropBlankLine, blank]

theorem leftFrom_sublist (inside : Bool) (lines : List Line) :
    (leftFrom inside lines).Sublist (outsideFrom inside lines) := by
  induction lines generalizing inside with
  | nil => cases inside <;> exact .slnil
  | cons line lines ih =>
      rw [leftFrom_cons, outsideFrom]
      split_ifs
      · exact (dropBlock_suffix _).sublist.trans (ih true)
      · exact ih true
      · exact ih true
      · exact ih false
      · exact (ih false).cons_cons line

/-! ### The separator -/

/-- Whether a blank line will be added behind some lines: `shown` says so for the
line in front of them. -/
def ended (add : Bool) : Bool → List Line → Bool
  | shown, [] => shown
  | _, line :: lines => ended add (add && !isBlankLine line) lines

/-- Some lines with the blank line behind them. -/
def closed (add shown : Bool) (lines : List Line) : List Line :=
  lines ++ if ended add shown lines then [[]] else []

theorem closed_cons (add shown : Bool) (line : Line) (lines : List Line) :
    closed add shown (line :: lines) = line :: closed add (add && !isBlankLine line) lines := rfl

theorem ended_append (add shown : Bool) (lines : List Line) (line : Line) :
    ended add shown (lines ++ [line]) = (add && !isBlankLine line) := by
  induction lines generalizing shown with
  | nil => rfl
  | cons l lines ih => exact ih _

theorem closed_separator (lines : List Line) :
    closed true false lines = lines ++ separator lines := by
  rcases List.eq_nil_or_concat lines with rfl | ⟨front, last, rfl⟩
  · rfl
  · rw [List.concat_eq_append, closed, ended_append, separator, List.getLast?_concat]
    cases blank : isBlankLine last <;> simp [blank]

theorem ended_false (lines : List Line) : ended false false lines = false := by
  induction lines with
  | nil => rfl
  | cons line lines ih => exact ih

theorem closed_false (lines : List Line) : closed false false lines = lines := by
  rw [closed, ended_false]
  simp

theorem mem_separator {lines : List Line} {line : Line} (listed : line ∈ separator lines) :
    line = [] := by
  unfold separator at listed
  split at listed
  · split_ifs at listed
    · cases listed
    · exact List.mem_singleton.mp listed
  · cases listed

/-- Two lists, one of them part of the other, that are the same with a blank line
behind them. -/
theorem closed_eq_iff {add shown : Bool} {part whole : List Line} (sub : part.Sublist whole) :
    closed add shown part = closed add shown whole ↔
      part = whole ∨ whole = part ++ [[]] ∧ ended add shown part = true := by
  constructor
  · intro same
    by_cases long : part.length = whole.length
    · exact .inl (sub.eq_of_length long)
    have less := Nat.lt_of_le_of_ne sub.length_le long
    have lengths := congrArg List.length same
    unfold closed at same lengths
    cases left : ended add shown part <;> cases right : ended add shown whole <;>
      simp [left, right] at same lengths
    · omega
    · omega
    · exact .inr ⟨same.symm, rfl⟩
    · omega
  · rintro (rfl | ⟨rfl, shows⟩)
    · rfl
    · have none : ended add shown (part ++ [[]]) = false := by
        rw [ended_append]
        simp [isBlankLine]
      rw [closed, closed, shows, none]
      simp

/-- A line that joins the block in front of it is lost, except for an empty one
that ends the text and is added again. -/
theorem dropBlock_closed_iff {add shown : Bool} {part whole : List Line}
    (sub : part.Sublist whole) : closed add shown (dropBlock part) = closed add shown whole ↔
      (¬Joins whole ∨ shown = true ∧ whole = [[]]) ∧
        closed add shown part = closed add shown whole := by
  have suffix := dropBlock_suffix part
  have emptyLast : dropBlock [[]] = [] := by decide
  have joinsEmpty : Joins [[]] := ⟨[], rfl, .inr rfl⟩
  rw [closed_eq_iff (suffix.sublist.trans sub), closed_eq_iff sub]
  constructor
  · rintro (same | ⟨same, shows⟩)
    · have equal : part = whole := sub.eq_of_length_le (same ▸ suffix.length_le)
      refine ⟨.inl fun joins => ?_, .inl equal⟩
      have less := dropBlock_length (equal ▸ joins)
      rw [same, equal] at less
      exact absurd less (Nat.lt_irrefl _)
    · have long : whole.length = (dropBlock part).length + 1 := by rw [same]; simp
      rcases Nat.lt_or_ge part.length whole.length with less | more
      · -- Nothing is dropped here: the line has been lost further behind.
        have kept : dropBlock part = part := suffix.sublist.eq_of_length_le (by omega)
        rw [kept] at same shows
        refine ⟨?_, .inr ⟨same, shows⟩⟩
        cases part with
        | nil => exact .inr ⟨shows, same⟩
        | cons l rest =>
            refine .inl fun joins => ?_
            have first : Joins (l :: rest) := by
              obtain ⟨m, head, joins⟩ := joins
              rw [same] at head
              exact ⟨m, head, joins⟩
            have less := dropBlock_length first
            rw [kept] at less
            exact absurd less (Nat.lt_irrefl _)
      · -- One line is dropped, and it is the last one.
        obtain rfl := sub.eq_of_length_le more
        obtain ⟨front, split⟩ := suffix
        have one : front.length = 1 := by
          have total := congrArg List.length split
          rw [List.length_append] at total
          omega
        obtain ⟨l, rfl⟩ := List.length_eq_one_iff.mp one
        rcases List.eq_nil_or_concat (dropBlock part) with none | ⟨more, last, text⟩
        · rw [none] at same shows
          exact ⟨.inr ⟨shows, same⟩, .inl rfl⟩
        · rw [List.concat_eq_append] at text
          rw [text, ended_append] at shows
          rw [text, same, text, ← List.append_assoc] at split
          have equal := (List.append_inj' split rfl).2
          rw [List.cons.inj equal |>.1] at shows
          simp [isBlankLine] at shows
  · rintro ⟨apart, same | ⟨same, shows⟩⟩
    · subst same
      rcases apart with apart | ⟨shows, rfl⟩
      · exact .inl (dropBlock_eq_self apart)
      · rw [emptyLast]
        exact .inr ⟨rfl, shows⟩
    · cases part with
      | nil =>
          rcases apart with apart | ⟨shows, -⟩
          · exact absurd (same ▸ joinsEmpty) apart
          · exact .inr ⟨same, shows⟩
      | cons l rest =>
          have kept : dropBlock (l :: rest) = l :: rest := by
            refine dropBlock_eq_self fun joins => ?_
            rcases apart with apart | ⟨-, single⟩
            · obtain ⟨m, head, joins⟩ := joins
              exact apart ⟨m, by rw [same]; exact head, joins⟩
            · rw [single] at same
              cases rest <;> cases same
          rw [kept]
          exact .inr ⟨same, shows⟩

/-- No block stands directly behind the rows of another one in such a way that
the next line outside of the blocks joins the first of them. An empty line does
not matter if it is the last one and the one in front of it is not blank: it is
added again, where `add` says so. -/
def Detached (add : Bool) : Bool → Bool → List Line → Prop
  | _, _, [] => True
  | shown, inside, line :: lines =>
      if isModelHeading line then
        (inside = true → ¬Joins (outsideFrom true lines) ∨
          shown = true ∧ outsideFrom true lines = [[]]) ∧ Detached add shown true lines
      else if inside && isAssignment line then Detached add shown true lines
      else if inside && isBlankLine line then Detached add shown false lines
      else Detached add (add && !isBlankLine line) false lines

/-- The lines that are left are those outside of the blocks, if and only if the
blocks are detached. -/
theorem closed_left_iff (add shown inside : Bool) (lines : List Line) :
    closed add shown (leftFrom inside lines) = closed add shown (outsideFrom inside lines) ↔
      Detached add shown inside lines := by
  induction lines generalizing shown inside with
  | nil => cases inside <;> exact ⟨fun _ => trivial, fun _ => rfl⟩
  | cons line lines ih =>
      rw [leftFrom_cons, outsideFrom, Detached]
      split_ifs with heading open'
      · rw [dropBlock_closed_iff (leftFrom_sublist true lines), ih shown true]
        simp [open']
      · rw [ih shown true]
        simp [open']
      · exact ih shown true
      · exact ih shown false
      · rw [closed_cons, closed_cons, List.cons_inj_right]
        exact ih _ false

/-! ### Texts -/

theorem head_ne_hash {line : Line} (other : line.head? ≠ some '#') :
    isModelHeading line = false := by
  have first : ∀ l : Line, isModelHeading l = true → l.head? = some '#' := by
    intro l heading
    rw [isModelHeading, Bool.or_eq_true, decide_eq_true_eq] at heading
    rcases heading with same | connection
    · rw [same]
      rfl
    · simp only [isConnectionHeading, Bool.and_eq_true] at connection
      obtain ⟨rest, rfl⟩ := List.isPrefixOf_iff_prefix.mp connection.1.1.1
      rfl
  by_contra heading
  exact other (first line (Bool.not_eq_false _ ▸ heading))

/-- The rows of the block are what the code takes for rows of a block, and they
may be written. -/
structure IsRow (row : Line) : Prop where
  assignment : isAssignment row = true
  noHeading : isModelHeading row = false
  noNewline : '\n' ∉ row
  plain : ¬EndsCr row

theorem isRow_assignment {name : Line} (valid : isEnvName name = true) :
    IsRow (name ++ ['=']) := by
  obtain ⟨c, rest, same, noDigit, env⟩ := isEnvName_eq_true valid
  refine ⟨isAssignment_assignment valid [], head_ne_hash ?_, ?_, ?_⟩
  · subst same
    rintro first
    cases first
    exact absurd (env '#' List.mem_cons_self) (by decide)
  · intro inside
    rcases List.mem_append.mp inside with inside | inside
    · exact absurd (env _ inside) (by decide)
    · exact absurd (List.mem_singleton.mp inside) (by decide)
  · simp [EndsCr]

theorem isModelHeading_modelEnvHeading : isModelHeading modelEnvHeading = true := by
  rw [isModelHeading, decide_eq_true rfl, Bool.true_or]

theorem removeModelBlocks_noHeading (lines : List Line) :
    ∀ line ∈ removeModelBlocks lines, isModelHeading line = false := by
  induction lines with
  | nil => nofun
  | cons line lines ih =>
      rw [removeModelBlocks]
      split_ifs with heading
      · exact fun l listed => ih l ((dropBlock_suffix _).subset listed)
      · exact List.forall_mem_cons.mpr ⟨Bool.not_eq_true _ ▸ heading, ih⟩

theorem removeModelBlocks_subset (lines : List Line) : removeModelBlocks lines ⊆ lines := by
  induction lines with
  | nil => exact List.Subset.refl _
  | cons line lines ih =>
      rw [removeModelBlocks]
      split_ifs
      · exact fun l listed =>
          List.mem_cons_of_mem _ (ih ((dropBlock_suffix _).subset listed))
      · exact List.cons_subset_cons _ ih

theorem outsideFrom_subset (inside : Bool) (lines : List Line) :
    outsideFrom inside lines ⊆ lines := by
  induction lines generalizing inside with
  | nil => exact List.Subset.refl _
  | cons line lines ih =>
      rw [outsideFrom]
      split_ifs
      · exact List.subset_cons_of_subset _ (ih true)
      · exact List.subset_cons_of_subset _ (ih true)
      · exact List.subset_cons_of_subset _ (ih false)
      · exact List.cons_subset_cons _ (ih false)

/-- Lines without a heading are left as they are. -/
theorem removeModelBlocks_append {front : List Line}
    (none : ∀ line ∈ front, isModelHeading line = false) (lines : List Line) :
    removeModelBlocks (front ++ lines) = front ++ removeModelBlocks lines := by
  induction front with
  | nil => rfl
  | cons line front ih =>
      obtain ⟨first, others⟩ := List.forall_mem_cons.mp none
      rw [List.cons_append, removeModelBlocks, ih others]
      simp [first]

theorem removeModelBlocks_rows {rows : List Line} (each : ∀ row ∈ rows, IsRow row) :
    removeModelBlocks (modelEnvHeading :: rows) = [] := by
  have none := removeModelBlocks_append (fun row listed => (each row listed).noHeading) []
  have all : rows.dropWhile isAssignment = [] :=
    List.dropWhile_eq_nil_iff.mpr fun row listed => (each row listed).assignment
  have heading := isModelHeading_modelEnvHeading
  rw [List.append_nil, removeModelBlocks, List.append_nil] at none
  rw [removeModelBlocks, none, all, heading]
  rfl

section Update

variable (localeLe : Line → Line → Bool)

/-- The rows of the block, in their order. -/
def modelRows (envNames : List String) : List Line :=
  (envAssignments envNames).mergeSort localeLe

variable {localeLe} {envNames : List String}

theorem modelRows_perm : (modelRows localeLe envNames).Perm (envAssignments envNames) :=
  List.mergeSort_perm _ _

theorem modelRows_eq_nil : modelRows localeLe envNames = [] ↔ envNames = [] := by
  rw [← List.length_eq_zero_iff, modelRows_perm.length_eq, List.length_eq_zero_iff, envAssignments,
    List.map_eq_nil_iff, ← List.length_eq_zero_iff, List.length_insertionSort,
    List.length_eq_zero_iff, List.dedup_eq_nil]

theorem mem_modelRows (valid : ∀ name ∈ envNames, isEnvName name.toList = true) :
    ∀ row ∈ modelRows localeLe envNames, IsRow row := by
  intro row listed
  obtain ⟨name, known, rfl⟩ := List.mem_map.mp (modelRows_perm.mem_iff.mp listed)
  rw [List.mem_insertionSort, List.mem_dedup] at known
  exact isRow_assignment (valid name known)

theorem find?_invalid (valid : ∀ name ∈ envNames, isEnvName name.toList = true) :
    ((envAssignments envNames).find? fun assignment =>
      !isEnvName (assignmentName assignment)) = none := by
  rw [List.find?_eq_none]
  intro assignment listed
  obtain ⟨name, known, rfl⟩ := List.mem_map.mp listed
  rw [List.mem_insertionSort, List.mem_dedup] at known
  have env := valid name known
  obtain ⟨-, -, -, -, chars⟩ := isEnvName_eq_true env
  have taken : (name.toList ++ ['=']).takeWhile (· ≠ '=') = name.toList := by
    rw [List.takeWhile_append_of_pos, List.takeWhile_cons_of_neg (by simp), List.append_nil]
    intro c inside
    rw [decide_eq_true_eq]
    rintro rfl
    exact absurd (chars _ inside) (by decide)
  rw [assignmentName, if_pos (by simp), taken, env]
  simp

theorem plain_heading : '\n' ∉ modelEnvHeading ∧ ¬EndsCr modelEnvHeading := by
  rw [modelEnvHeading_chars]
  decide

/-- The text has no other lines than the source, the block and the separator. -/
theorem updateManagedEnvBlock_lines {source : List Char}
    (writable : Writable (detectEol source) (linesOf source))
    (valid : ∀ name ∈ envNames, isEnvName name.toList = true) :
    ∃ text, updateManagedEnvBlock localeLe source modelEnvHeading (envAssignments envNames) =
        .ok text ∧
      ∀ line ∈ linesOf text,
        line ∈ linesOf source ∨ line = [] ∨ line = modelEnvHeading ∨ IsRow line := by
  have extra {line : Line} (new : line = [] ∨ line = modelEnvHeading ∨ IsRow line) :
      '\n' ∉ line ∧ ¬EndsCr line := by
    rcases new with same | same | row
    · rw [same]
      decide
    · rw [same]
      exact plain_heading
    · exact ⟨row.noNewline, row.plain⟩
  have written {lines : List Line} (each : ∀ line ∈ lines,
      line ∈ linesOf source ∨ line = [] ∨ line = modelEnvHeading ∨ IsRow line) :
      ∀ line ∈ linesOf (unlines (detectEol source) lines),
        line ∈ linesOf source ∨ line = [] ∨ line = modelEnvHeading ∨ IsRow line := by
    have writable' : Writable (detectEol source) lines :=
      writable.extend fun line listed => (each line listed).imp_right extra
    rw [writable'.linesOf_unlines]
    exact each
  have rows : ∀ row ∈ (envAssignments envNames).mergeSort localeLe, IsRow row :=
    mem_modelRows valid
  have split := List.takeWhile_append_dropWhile (p := (· ≠ modelEnvHeading)) (l := linesOf source)
  rw [updateManagedEnvBlock, find?_invalid valid]
  dsimp only
  cases found : (linesOf source).dropWhile (· ≠ modelEnvHeading) with
  | nil =>
      split_ifs
      · exact ⟨_, rfl, fun line listed => .inl listed⟩
      · refine ⟨_, rfl, written fun line listed => ?_⟩
        simp only [List.mem_append, List.mem_cons] at listed
        rcases listed with (listed | listed) | listed | listed
        · exact .inl listed
        · exact .inr (.inl (mem_separator listed))
        · exact .inr (.inr (.inl listed))
        · exact .inr (.inr (.inr (rows line listed)))
  | cons heading rest =>
      rw [found] at split
      have known : ∀ line ∈ (linesOf source).takeWhile (· ≠ modelEnvHeading), line ∈ linesOf source :=
        fun line listed => (List.takeWhile_sublist _).subset listed
      have after : ∀ line ∈ rest.dropWhile isManagedRow, line ∈ linesOf source := by
        intro line listed
        rw [← split]
        exact List.mem_append_right _
          (List.mem_cons_of_mem _ ((List.dropWhile_sublist _).subset listed))
      split_ifs
      · refine ⟨_, rfl, written fun line listed => ?_⟩
        rcases List.mem_append.mp listed with listed | listed
        · exact .inl (known line listed)
        · exact .inl (after line ((dropBlankLine_sublist _).subset listed))
      · refine ⟨_, rfl, written fun line listed => ?_⟩
        simp only [List.mem_append, List.mem_cons] at listed
        rcases listed with listed | listed | listed | listed
        · exact .inl (known line listed)
        · exact .inr (.inr (.inl listed))
        · exact .inr (.inr (.inr (rows line listed)))
        · exact .inl (after line listed)

/-- The block is put behind lines without one. -/
theorem updateManagedEnvBlock_append {source : List Char}
    (none : modelEnvHeading ∉ linesOf source)
    (valid : ∀ name ∈ envNames, isEnvName name.toList = true) :
    updateManagedEnvBlock localeLe source modelEnvHeading (envAssignments envNames) =
      .ok (if envNames = [] then source
        else unlines (detectEol source) (linesOf source ++ separator (linesOf source) ++
          modelEnvHeading :: modelRows localeLe envNames)) := by
  have all : (linesOf source).dropWhile (· ≠ modelEnvHeading) = [] := by
    rw [List.dropWhile_eq_nil_iff]
    intro line listed
    rw [decide_eq_true_eq]
    exact fun same => none (same ▸ listed)
  have rows : (envAssignments envNames).mergeSort localeLe = [] ↔ envNames = [] :=
    modelRows_eq_nil
  rw [updateManagedEnvBlock, find?_invalid valid]
  simp only [all, rows]
  split_ifs <;> rfl

/-- The text that is made of the lines that are left. -/
def modelText (localeLe : Line → Line → Bool) (eol : List Char) (left : List Line)
    (envNames : List String) : List Char :=
  if envNames = [] then unlines eol left
  else unlines (detectEol (unlines eol left))
    (left ++ separator left ++ modelEnvHeading :: modelRows localeLe envNames)

theorem updateModelEnvBlock_eq {source : List Char}
    (writable : Writable (detectEol source) (removeModelBlocks (linesOf source)))
    (valid : ∀ name ∈ envNames, isEnvName name.toList = true) :
    updateModelEnvBlock localeLe source envNames =
      .ok (modelText localeLe (detectEol source) (removeModelBlocks (linesOf source)) envNames) := by
  have lines := writable.linesOf_unlines
  have none : modelEnvHeading ∉
      linesOf (unlines (detectEol source) (removeModelBlocks (linesOf source))) := by
    rw [lines]
    intro listed
    have heading := removeModelBlocks_noHeading (linesOf source) _ listed
    rw [isModelHeading_modelEnvHeading] at heading
    cases heading
  rw [updateModelEnvBlock, updateManagedEnvBlock_append none valid, lines]
  rfl

/-- The ending of the text: that of the lines that are left. -/
theorem ending_of_writable {eol : List Char} {left : List Line} (writable : Writable eol left) :
    left = [] ∧ detectEol (unlines eol left) = lf ∨
      left ≠ [] ∧ detectEol (unlines eol left) = eol := by
  by_cases empty : left = []
  · subst empty
    exact .inl ⟨rfl, rfl⟩
  · exact .inr ⟨empty, writable.detectEol_unlines empty⟩

theorem writable_modelText {eol : List Char} {left : List Line} (writable : Writable eol left)
    (valid : ∀ name ∈ envNames, isEnvName name.toList = true) :
    Writable (detectEol (unlines eol left))
      (left ++ separator left ++ modelEnvHeading :: modelRows localeLe envNames) := by
  have left' : Writable (detectEol (unlines eol left)) left := by
    rcases ending_of_writable writable with ⟨rfl, short⟩ | ⟨-, same⟩
    · exact ⟨nofun, .inl ⟨short, nofun⟩⟩
    · rwa [same]
  refine left'.extend fun line listed => ?_
  simp only [List.mem_append, List.mem_cons] at listed
  rcases listed with (listed | listed) | same | listed
  · exact .inl listed
  · rw [mem_separator listed]
    exact .inr (by decide)
  · rw [same]
    exact .inr plain_heading
  · have row := mem_modelRows valid line listed
    exact .inr ⟨row.noNewline, row.plain⟩

/-- The lines of the text. -/
theorem linesOf_modelText {eol : List Char} {left : List Line} (writable : Writable eol left)
    (valid : ∀ name ∈ envNames, isEnvName name.toList = true) :
    linesOf (modelText localeLe eol left envNames) =
      if envNames = [] then left
      else left ++ separator left ++ modelEnvHeading :: modelRows localeLe envNames := by
  rw [modelText]
  split_ifs
  · exact writable.linesOf_unlines
  · exact (writable_modelText writable valid).linesOf_unlines

theorem separator_separator (lines : List Line) : separator (lines ++ separator lines) = [] := by
  rcases List.eq_nil_or_concat lines with rfl | ⟨front, last, rfl⟩
  · rfl
  · rw [List.concat_eq_append]
    cases blank : isBlankLine last with
    | true => simp [separator, blank]
    | false =>
        have added : separator (front ++ [last]) = [[]] := by simp [separator, blank]
        rw [added, separator, List.getLast?_concat]
        rfl

theorem removeModelBlocks_self {lines : List Line}
    (none : ∀ line ∈ lines, isModelHeading line = false) : removeModelBlocks lines = lines := by
  have kept := removeModelBlocks_append none []
  rwa [removeModelBlocks, List.append_nil] at kept

/-- The text stays as it is when it is updated again: the lines in front of the
block are left, and they end with a blank line. -/
theorem modelText_again {eol : List Char} {left : List Line} (writable : Writable eol left)
    (none : ∀ line ∈ left, isModelHeading line = false)
    (valid : ∀ name ∈ envNames, isEnvName name.toList = true) :
    updateModelEnvBlock localeLe (modelText localeLe eol left envNames) envNames =
      .ok (modelText localeLe eol left envNames) := by
  have same := removeModelBlocks_self none
  by_cases empty : envNames = []
  · have text : modelText localeLe eol left envNames = unlines eol left := if_pos empty
    have lines := writable.linesOf_unlines
    have ending := ending_of_writable writable
    have writable' : Writable (detectEol (unlines eol left)) left := by
      rcases ending with ⟨rfl, short⟩ | ⟨-, known⟩
      · exact ⟨nofun, .inl ⟨short, nofun⟩⟩
      · rwa [known]
    have again : updateModelEnvBlock localeLe (unlines eol left) envNames =
        .ok (modelText localeLe (detectEol (unlines eol left)) left envNames) := by
      have eq := @updateModelEnvBlock_eq localeLe envNames (unlines eol left) (by rwa [lines, same]) valid
      rwa [lines, same] at eq
    rw [text, again, modelText, if_pos empty]
    rcases ending with ⟨rfl, -⟩ | ⟨-, known⟩
    · rfl
    · rw [known]
  · -- The front of the text is what is left of it.
    have front : ∀ line ∈ left ++ separator left, isModelHeading line = false := by
      intro line listed
      rcases List.mem_append.mp listed with listed | listed
      · exact none line listed
      · rw [mem_separator listed]
        exact head_ne_hash nofun
    have rows := removeModelBlocks_rows (@mem_modelRows localeLe envNames valid)
    have writable' := @writable_modelText localeLe envNames eol left writable valid
    have known := writable'.detectEol_unlines (by simp)
    have lines := writable'.linesOf_unlines
    have text : modelText localeLe eol left envNames =
        unlines (detectEol (unlines eol left))
          (left ++ separator left ++ modelEnvHeading :: modelRows localeLe envNames) := if_neg empty
    have writable'' : Writable (detectEol (unlines eol left)) (left ++ separator left) :=
      writable'.extend fun line listed => .inl (List.mem_append_left _ listed)
    have ending : detectEol (unlines (detectEol (unlines eol left)) (left ++ separator left)) =
        detectEol (unlines eol left) := by
      rcases ending_of_writable writable'' with ⟨empty, short⟩ | ⟨-, same⟩
      · obtain ⟨rfl, -⟩ := List.append_eq_nil_iff.mp empty
        exact short
      · exact same
    rw [text, updateModelEnvBlock_eq _ valid, known, lines, removeModelBlocks_append front, rows,
      List.append_nil, modelText, if_neg empty, ending, separator_separator, List.append_nil]
    rwa [known, lines, removeModelBlocks_append front, rows, List.append_nil]

/-! ### The update -/

/-- The lines outside of the model blocks. The blank line behind a block belongs to
it. -/
def outsideLines (source : List Char) : List Line := outsideFrom false (linesOf source)

variable (localeLe envNames) in
/-- A text after the update: the lines outside of the blocks, one block with a row
for each name at its end, and no change by another update. -/
structure ModelBlockUpdated (source text : List Char) : Prop where
  lines : if envNames = [] then linesOf text = outsideLines source
    else ∃ rows, rows.Perm (envAssignments envNames) ∧ linesOf text =
      outsideLines source ++ separator (outsideLines source) ++ modelEnvHeading :: rows
  single : (linesOf text).countP isModelHeading = if envNames = [] then 0 else 1
  again : updateModelEnvBlock localeLe text envNames = .ok text

/-- What a source has to be like: no line ends with a carriage return that is not
part of a line ending, and the blocks are detached. -/
structure ModelSafe (source : List Char) (envNames : List String) : Prop where
  plain : hasCrlf source = false → ∀ line ∈ outsideLines source, ¬EndsCr line
  detached : Detached (decide (envNames ≠ [])) false false (linesOf source)

theorem left_sublist (source : List Char) :
    (removeModelBlocks (linesOf source)).Sublist (outsideLines source) :=
  leftFrom_sublist false (linesOf source)

theorem writable_left {source : List Char} (plain : hasCrlf source = false →
      ∀ line ∈ removeModelBlocks (linesOf source), ¬EndsCr line) :
    Writable (detectEol source) (removeModelBlocks (linesOf source)) := by
  refine ⟨fun line listed => newline_notMem_linesOf source line
    (removeModelBlocks_subset _ listed), ?_⟩
  rcases detectEol_cases source with ⟨short, none⟩ | ⟨long, -⟩
  · exact .inl ⟨short, plain none⟩
  · exact .inr long

/-- The lines of the text are those outside of the blocks, with the block, if and
only if the blocks are detached. -/
theorem modelText_lines_iff {source : List Char}
    (writable : Writable (detectEol source) (removeModelBlocks (linesOf source)))
    (valid : ∀ name ∈ envNames, isEnvName name.toList = true) :
    (if envNames = [] then
        linesOf (modelText localeLe (detectEol source) (removeModelBlocks (linesOf source))
          envNames) = outsideLines source
      else ∃ rows, rows.Perm (envAssignments envNames) ∧
        linesOf (modelText localeLe (detectEol source) (removeModelBlocks (linesOf source))
          envNames) =
          outsideLines source ++ separator (outsideLines source) ++ modelEnvHeading :: rows) ↔
      Detached (decide (envNames ≠ [])) false false (linesOf source) := by
  have left : leftFrom false (linesOf source) = removeModelBlocks (linesOf source) := rfl
  rw [linesOf_modelText writable valid, ← closed_left_iff, left]
  by_cases empty : envNames = []
  · have none : decide (envNames ≠ []) = false := decide_eq_false (not_not_intro empty)
    rw [if_pos empty, if_pos empty, none, closed_false, closed_false]
    rfl
  · have add : decide (envNames ≠ []) = true := decide_eq_true empty
    rw [if_neg empty, if_neg empty, add, closed_separator, closed_separator]
    constructor
    · rintro ⟨rows, perm, same⟩
      have length : (modelEnvHeading :: modelRows localeLe envNames).length =
          (modelEnvHeading :: rows).length := by
        rw [List.length_cons, List.length_cons, modelRows_perm.length_eq, perm.length_eq]
      exact (List.append_inj' same length).1
    · intro same
      exact ⟨_, modelRows_perm, congrArg (· ++ _) same⟩

/-- A text has only one line that ends with a carriage return, unless that is part
of its line endings. -/
theorem eq_of_endsCr {source : List Char} (none : hasCrlf source = false) {l m : Line}
    (left : l ∈ linesOf source) (right : m ∈ linesOf source) (ends : EndsCr l) (ends' : EndsCr m) :
    l = m := by
  have last : ∀ {line}, line ∈ linesOf source → EndsCr line →
      (linesOf source).getLast? = some line := by
    intro line listed ends
    rcases List.eq_nil_or_concat (linesOf source) with empty | ⟨front, end', text⟩
    · rw [empty] at listed
      cases listed
    · rw [List.concat_eq_append] at text
      have plain := plain_of_not_hasCrlf none
      rw [text, List.dropLast_concat] at plain
      rw [text, List.mem_append, List.mem_singleton] at listed
      rcases listed with listed | rfl
      · exact absurd ends (plain line listed)
      · rw [text, List.getLast?_concat]
  exact Option.some.inj ((last left ends).symm.trans (last right ends'))

/-- With a carriage return at the end of a line that is left, that line is not in
the text. -/
theorem plain_left {source text : List Char} (none : hasCrlf source = false)
    (valid : ∀ name ∈ envNames, isEnvName name.toList = true)
    (done : updateModelEnvBlock localeLe source envNames = .ok text)
    (kept : removeModelBlocks (linesOf source) ⊆ linesOf text) :
    ∀ line ∈ removeModelBlocks (linesOf source), ¬EndsCr line := by
  have short : detectEol source = lf := by rw [detectEol, none]; rfl
  have noNewline : ∀ line ∈ removeModelBlocks (linesOf source), '\n' ∉ line :=
    fun line listed => newline_notMem_linesOf source line (removeModelBlocks_subset _ listed)
  have writable := writable_linesOf_unlines (.inl rfl) noNewline
  obtain ⟨text', update, only⟩ := @updateManagedEnvBlock_lines localeLe envNames _ writable valid
  rw [updateModelEnvBlock, short, update] at done
  cases done
  intro line listed ends
  -- The line would be there without the carriage return only.
  rcases only line (kept listed) with known | same | same | row
  · rw [linesOf_unlines_lf noNewline, List.mem_map] at known
    obtain ⟨m, left, same⟩ := known
    have ends' : EndsCr m := by
      by_contra plain
      rw [chomp_of_not_endsCr plain] at same
      exact plain (same ▸ ends)
    have equal := eq_of_endsCr none (removeModelBlocks_subset _ listed)
      (removeModelBlocks_subset _ left) ends ends'
    rw [← equal, chomp, if_pos ends] at same
    have length := congrArg List.length same
    have nonempty : line ≠ [] := by
      rintro rfl
      cases ends
    rw [List.length_dropLast] at length
    have positive := List.length_pos_iff.mpr nonempty
    omega
  · rw [same] at ends
    cases ends
  · rw [same] at ends
    exact plain_heading.2 ends
  · exact row.plain ends

theorem ModelBlockUpdated.outside_subset {source text : List Char}
    (updated : ModelBlockUpdated localeLe envNames source text) :
    outsideLines source ⊆ linesOf text := by
  have lines := updated.lines
  split_ifs at lines
  · rw [lines]
    exact List.Subset.refl _
  · obtain ⟨rows, -, same⟩ := lines
    rw [same, List.append_assoc]
    exact List.subset_append_left _ _

/-- The update of the model block is right if and only if the source is safe. -/
theorem modelBlockUpdated_iff (source : List Char)
    (valid : ∀ name ∈ envNames, isEnvName name.toList = true) :
    ∃ text, updateModelEnvBlock localeLe source envNames = .ok text ∧
      (ModelBlockUpdated localeLe envNames source text ↔ ModelSafe source envNames) := by
  have outside := left_sublist source
  obtain ⟨text, done⟩ : ∃ text, updateModelEnvBlock localeLe source envNames = .ok text := by
    have known : detectEol source = lf ∨ detectEol source = crlf :=
      (detectEol_cases source).imp And.left And.left
    have writable := writable_linesOf_unlines known fun line listed =>
      newline_notMem_linesOf source line (removeModelBlocks_subset (linesOf source) listed)
    obtain ⟨text, update, -⟩ := @updateManagedEnvBlock_lines localeLe envNames _ writable valid
    exact ⟨text, update⟩
  refine ⟨text, done, ?_⟩
  constructor
  · intro updated
    have kept := updated.outside_subset
    have writable := writable_left fun none =>
      plain_left none valid done fun _ listed => kept (outside.subset listed)
    have eq := @updateModelEnvBlock_eq localeLe envNames source writable valid
    rw [done] at eq
    cases eq
    have detached := (modelText_lines_iff writable valid).mp updated.lines
    refine ⟨fun none line listed => ?_, detached⟩
    have same := (closed_left_iff _ false false (linesOf source)).mpr detached
    have found := List.mem_append_left (if ended (decide (envNames ≠ [])) false
      (outsideFrom false (linesOf source)) then [[]] else []) listed
    rw [outsideLines, ← closed, ← same, closed, List.mem_append] at found
    rcases found with left | added
    · have short : detectEol source = lf := by rw [detectEol, none]; rfl
      rcases writable.2 with ⟨-, plain⟩ | long
      · exact plain line left
      · rw [short] at long
        cases long
    · split_ifs at added
      · rw [List.mem_singleton.mp added]
        simp [EndsCr]
      · cases added
  · intro safe
    have writable := writable_left fun none line listed =>
      safe.plain none line (outside.subset listed)
    have eq := @updateModelEnvBlock_eq localeLe envNames source writable valid
    rw [done] at eq
    cases eq
    have headings := removeModelBlocks_noHeading (linesOf source)
    refine ⟨(modelText_lines_iff writable valid).mpr safe.detached, ?_,
      modelText_again writable headings valid⟩
    have none : (removeModelBlocks (linesOf source)).countP isModelHeading = 0 :=
      List.countP_eq_zero.mpr fun line listed => by
        rw [headings line listed]
        exact Bool.false_ne_true
    rw [linesOf_modelText writable valid]
    split_ifs
    · exact none
    · have rows : (modelRows localeLe envNames).countP isModelHeading = 0 :=
        List.countP_eq_zero.mpr fun row listed => by
          rw [(mem_modelRows valid row listed).noHeading]
          exact Bool.false_ne_true
      have blank : (separator (removeModelBlocks (linesOf source))).countP isModelHeading = 0 :=
        List.countP_eq_zero.mpr fun line listed => by
          have other : isModelHeading [] = false := head_ne_hash (by simp)
          rw [mem_separator listed, other]
          exact Bool.false_ne_true
      rw [List.countP_append, List.countP_append, none, blank,
        List.countP_cons_of_pos isModelHeading_modelEnvHeading, rows]

end Update

end OmpBundler.Cli
