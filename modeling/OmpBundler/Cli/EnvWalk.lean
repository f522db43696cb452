import OmpBundler.Cli.ModelBlock

/-!
The walk over the lines of an env file.

It keeps the lines of the model blocks, sets the adapter rows and drops the rows
that the Pumble block replaces. The same lines belong to the model blocks
afterwards, and another walk changes nothing.
-/

namespace OmpBundler.Cli

open Library Library.Lines
open JsString (isSpace)

/-! ### Rows -/

theorem isEnvChar_ne_equals {name : Line} (env : ∀ x ∈ name, isEnvChar x = true) :
    '=' ∉ name := by
  intro inside
  exact absurd (env _ inside) (by decide)

theorem isSpace_ne_equals {blank : Line} (space : ∀ x ∈ blank, isSpace x = true) :
    '=' ∉ blank := by
  intro inside
  exact absurd (space _ inside) (by decide)

theorem rowName_eq {line body value : Line} (start : line.dropWhile isSpace = body)
    (stop : (body.dropWhile isEnvChar).dropWhile isSpace = '=' :: value) :
    rowName line = some (body.takeWhile isEnvChar) := by
  simp only [rowName, start, stop]

/-- A row: a name with white space around it, and a value. -/
theorem rowName_row {lead name gap : Line} (before : ∀ x ∈ lead, isSpace x = true)
    (env : ∀ x ∈ name, isEnvChar x = true) (behind : ∀ x ∈ gap, isSpace x = true) (value : Line) :
    rowName (lead ++ (name ++ (gap ++ '=' :: value))) = some name := by
  have equals : isEnvChar '=' = false ∧ isSpace '=' = false := by decide
  have stop : (gap ++ '=' :: value).dropWhile isSpace = '=' :: value := by
    rw [List.dropWhile_append_of_pos behind, List.dropWhile_cons_of_neg (by simp [equals.2])]
  cases name with
  | nil =>
      have start : (lead ++ ([] ++ (gap ++ '=' :: value))).dropWhile isSpace = '=' :: value := by
        rw [List.dropWhile_append_of_pos before, List.nil_append, stop]
      rw [rowName_eq start, List.takeWhile_cons_of_neg (by simp [equals.1])]
      rw [List.dropWhile_cons_of_neg (by simp [equals.1]),
        List.dropWhile_cons_of_neg (by simp [equals.2])]
  | cons c rest =>
      have start : (lead ++ (c :: rest ++ (gap ++ '=' :: value))).dropWhile isSpace =
          c :: rest ++ (gap ++ '=' :: value) := by
        rw [List.dropWhile_append_of_pos before, List.cons_append, List.dropWhile_cons_of_neg]
        rw [isSpace_of_isEnvChar (env c List.mem_cons_self)]
        nofun
      obtain ⟨d, tail, text, other⟩ : ∃ d tail, gap ++ '=' :: value = d :: tail ∧
          ¬isEnvChar d = true := by
        cases gap with
        | nil => exact ⟨'=', value, rfl, by simp [equals.1]⟩
        | cons d gap =>
            refine ⟨d, _, rfl, fun env' => ?_⟩
            have space := behind d List.mem_cons_self
            rw [isSpace_of_isEnvChar env'] at space
            cases space
      have named : (c :: rest ++ (gap ++ '=' :: value)).takeWhile isEnvChar = c :: rest := by
        rw [List.takeWhile_append_of_pos env, text, List.takeWhile_cons_of_neg other,
          List.append_nil]
      rw [rowName_eq start, named]
      rw [List.dropWhile_append_of_pos env, text, List.dropWhile_cons_of_neg other, ← text, stop]

theorem row_of_rowName {line name : Line} (named : rowName line = some name) :
    ∃ lead gap value, line = lead ++ (name ++ (gap ++ '=' :: value)) ∧
      (∀ x ∈ lead, isSpace x = true) ∧ (∀ x ∈ name, isEnvChar x = true) ∧
      ∀ x ∈ gap, isSpace x = true := by
  dsimp only [rowName] at named
  split at named
  · rename_i value rest
    cases named
    refine ⟨line.takeWhile isSpace,
      ((line.dropWhile isSpace).dropWhile isEnvChar).takeWhile isSpace, value, ?_,
      fun x => List.mem_takeWhile_imp, fun x => List.mem_takeWhile_imp,
      fun x => List.mem_takeWhile_imp⟩
    rw [← rest, List.takeWhile_append_dropWhile, List.takeWhile_append_dropWhile,
      List.takeWhile_append_dropWhile]
  · cases named

theorem takeWhile_equals {front : Line} (none : '=' ∉ front) (value : Line) :
    (front ++ '=' :: value).takeWhile (· ≠ '=') = front := by
  rw [List.takeWhile_append_of_pos, List.takeWhile_cons_of_neg (by simp), List.append_nil]
  intro x inside
  rw [decide_eq_true_eq]
  rintro rfl
  exact none inside

theorem rowValue_equals {front : Line} (none : '=' ∉ front) (value : Line) :
    rowValue (front ++ '=' :: value) = value := by
  rw [rowValue, List.dropWhile_append_of_pos, List.dropWhile_cons_of_neg (by simp)]
  · rfl
  intro x inside
  rw [decide_eq_true_eq]
  rintro rfl
  exact none inside

/-- A row with its value set: the name is the same. -/
theorem setRow_spec {line name : Line} (named : rowName line = some name) (value : Line) :
    rowName (setRow line value) = some name ∧ rowValue (setRow line value) = value ∧
      setRow (setRow line value) value = setRow line value := by
  obtain ⟨lead, gap, old, rfl, before, env, behind⟩ := row_of_rowName named
  have none : '=' ∉ lead ++ (name ++ gap) := by
    simp only [List.mem_append, not_or]
    exact ⟨isSpace_ne_equals before, isEnvChar_ne_equals env, isSpace_ne_equals behind⟩
  have text : ∀ v : Line, lead ++ (name ++ (gap ++ '=' :: v)) =
      lead ++ (name ++ gap) ++ '=' :: v := by simp
  have row : setRow (lead ++ (name ++ (gap ++ '=' :: old))) value =
      lead ++ (name ++ gap) ++ '=' :: value := by
    rw [text, setRow, takeWhile_equals none]
  rw [row]
  refine ⟨?_, rowValue_equals none value, ?_⟩
  · rw [← text]
    exact rowName_row before env behind value
  · rw [setRow, takeWhile_equals none]

/-- A row of the adapter or of Pumble. -/
def IsPumbleRow (line : Line) : Prop :=
  ∃ name, rowName line = some name ∧ (name = adapterName ∨ isPumbleName name = true)

theorem IsPumbleRow.start {line : Line} (row : IsPumbleRow line) :
    ∃ c name rest, rowName line = some (c :: name) ∧ c.isDigit = false ∧ isEnvChar c = true ∧
      line.dropWhile isSpace = c :: rest := by
  obtain ⟨name, named, known⟩ := row
  obtain ⟨c, rest, rfl, noDigit⟩ : ∃ c rest, name = c :: rest ∧ c.isDigit = false := by
    rcases known with rfl | pumble
    · exact ⟨'O', _, rfl, rfl⟩
    · obtain ⟨rest, rfl⟩ := List.isPrefixOf_iff_prefix.mp pumble
      exact ⟨'P', _, rfl, rfl⟩
  obtain ⟨lead, gap, value, rfl, before, env, behind⟩ := row_of_rowName named
  have first := env c List.mem_cons_self
  refine ⟨c, rest, rest ++ (gap ++ '=' :: value), named, noDigit, first, ?_⟩
  rw [List.dropWhile_append_of_pos before, List.cons_append, List.dropWhile_cons_of_neg]
  rw [isSpace_of_isEnvChar first]
  nofun

theorem IsPumbleRow.assignment {line : Line} (row : IsPumbleRow line) :
    isAssignment line = true := by
  obtain ⟨c, name, rest, named, noDigit, -, -⟩ := row.start
  rw [isAssignment, named]
  simp [noDigit]

theorem IsPumbleRow.head {line : Line} (row : IsPumbleRow line) : line.head? ≠ some '#' := by
  obtain ⟨c, name, rest, -, -, first, start⟩ := row.start
  intro hash
  obtain ⟨tail, rfl⟩ := List.head?_eq_some_iff.mp hash
  rw [List.dropWhile_cons_of_neg (by decide)] at start
  cases start
  exact absurd first (by decide)

theorem IsPumbleRow.blockRow {line : Line} (row : IsPumbleRow line) :
    isPumbleBlockRow line = true := by
  obtain ⟨c, name, rest, -, -, first, start⟩ := row.start
  have space := isSpace_of_isEnvChar first
  have blank : isBlankLine line = false := by
    rw [isBlankLine, List.all_eq_false]
    refine ⟨c, (List.dropWhile_suffix isSpace).subset (start ▸ List.mem_cons_self), ?_⟩
    rw [space]
    exact Bool.false_ne_true
  have comment : isComment line = false := by
    rw [isComment, start, decide_eq_false_iff_not]
    rintro ⟨⟩
    exact absurd first (by decide)
  obtain ⟨name, named, known⟩ := row
  rw [isPumbleBlockRow, blank, comment, named]
  simpa using known

theorem isPumbleRow_of_blockRow {line : Line} (row : isPumbleBlockRow line = true) :
    IsPumbleRow line := by
  simp only [isPumbleBlockRow, Bool.and_eq_true, Option.any_eq_true, Bool.or_eq_true,
    decide_eq_true_eq] at row
  exact row.2

theorem isPumbleName_of_field {field : Line} (known : field ∈ pumbleRuntimeFields) :
    isPumbleName field = true := by
  have all : ∀ f ∈ pumbleRuntimeFields, isPumbleName f = true := by
    rw [pumbleRuntimeFields_chars]
    decide
  exact all field known

theorem isPumbleRow_of_replaced {line : Line} (replaced : isReplacedRow line = true) :
    IsPumbleRow line := by
  simp only [isReplacedRow, Option.any_eq_true, Bool.or_eq_true, Bool.and_eq_true,
    decide_eq_true_eq] at replaced
  obtain ⟨name, named, rfl | ⟨pumble, -⟩⟩ := replaced
  · exact ⟨agentIdName, named, .inr (by decide)⟩
  · exact ⟨name, named, .inr pumble⟩

theorem isPumbleRow_of_adapter {line : Line} (adapter : isAdapterRow line = true) :
    IsPumbleRow line := ⟨adapterName, of_decide_eq_true adapter, .inl rfl⟩

theorem adapter_not_replaced {line : Line} (adapter : isAdapterRow line = true) :
    isReplacedRow line = false := by
  rw [isReplacedRow, of_decide_eq_true adapter, pumbleRuntimeFields_chars, adapterName_chars]
  decide

/-! ### The walk over the lines -/

/-- The lines with what says whether they belong to a model block. -/
def flagged (inside : Bool) (lines : List Line) : List (Line × Bool) :=
  lines.zip (managedModelBlockLines inside lines)

theorem flagged_cons (inside : Bool) (line : Line) (lines : List Line) :
    flagged inside (line :: lines) = (line, isModelHeading line || inside && isAssignment line) ::
      flagged (isModelHeading line || inside && isAssignment line) lines := rfl

theorem length_managedModelBlockLines (inside : Bool) (lines : List Line) :
    (managedModelBlockLines inside lines).length = lines.length := by
  induction lines generalizing inside with
  | nil => rfl
  | cons line lines ih => exact congrArg (· + 1) (ih _)

theorem flagged_lines (inside : Bool) (lines : List Line) :
    (flagged inside lines).map Prod.fst = lines :=
  List.map_fst_zip (length_managedModelBlockLines inside lines).ge

/-- A change of the lines outside of model blocks. -/
def edit (change : Line → Option Line) (flags : List (Line × Bool)) : List (Line × Bool) :=
  flags.filterMap fun (line, model) =>
    if model then some (line, true) else (change line).map (·, false)

theorem edit_cons_model (change : Line → Option Line) (line : Line) (flags : List (Line × Bool)) :
    edit change ((line, true) :: flags) = (line, true) :: edit change flags := rfl

theorem edit_cons_none {change : Line → Option Line} {line : Line} (dropped : change line = none)
    (flags : List (Line × Bool)) : edit change ((line, false) :: flags) = edit change flags := by
  simp [edit, dropped]

theorem edit_cons_some {change : Line → Option Line} {line line' : Line}
    (changed : change line = some line') (flags : List (Line × Bool)) :
    edit change ((line, false) :: flags) = (line', false) :: edit change flags := by
  simp [edit, changed]

/-- A change that leaves the model blocks where they are: it drops only rows, and
what it changes stays a row or stays none. -/
structure KeepsBlocks (change : Line → Option Line) : Prop where
  dropped : ∀ line, change line = none → isAssignment line = true
  changed : ∀ line line', change line = some line' →
    isAssignment line' = isAssignment line ∧ isModelHeading line' = isModelHeading line

/-- After the change the same lines belong to the model blocks. -/
theorem flagged_edit {change : Line → Option Line} (keeps : KeepsBlocks change) (inside : Bool)
    (lines : List Line) : flagged inside ((edit change (flagged inside lines)).map Prod.fst) =
      edit change (flagged inside lines) := by
  induction lines generalizing inside with
  | nil => rfl
  | cons line lines ih =>
      rw [flagged_cons]
      cases own : isModelHeading line || inside && isAssignment line with
      | true =>
          rw [edit_cons_model, List.map_cons, flagged_cons, own, ih]
      | false =>
          cases changed : change line with
          | none =>
              -- A row is dropped: no model block is open here.
              have closed : inside = false := by
                simpa [keeps.dropped line changed] using (Bool.or_eq_false_iff.mp own).2
              rw [edit_cons_none changed, closed, ih]
          | some line' =>
              obtain ⟨assignment, heading⟩ := keeps.changed line line' changed
              rw [edit_cons_some changed, List.map_cons, flagged_cons, assignment, heading, own, ih]

theorem edit_append (change : Line → Option Line) (front back : List (Line × Bool)) :
    edit change (front ++ back) = edit change front ++ edit change back :=
  List.filterMap_append

/-- The rows that the block replaces are dropped. -/
def scrubRow (line : Line) : Option Line := if isReplacedRow line then none else some line

/-- The adapter rows are set. -/
def pointRow (line : Line) : Line :=
  if isAdapterRow line then setRow line "pumble".toList else line

/-- Both. -/
def changeRow (line : Line) : Option Line := (scrubRow line).map pointRow

theorem edit_change (flags : List (Line × Bool)) :
    edit (fun line => some (pointRow line)) (edit scrubRow flags) = edit changeRow flags := by
  rw [edit, edit, List.filterMap_filterMap]
  refine List.filterMap_congr fun (line, model) _ => ?_
  cases model with
  | true => rfl
  | false => cases scrubbed : scrubRow line <;> simp [changeRow, scrubbed]

theorem rowName_pointRow {line : Line} (adapter : isAdapterRow line = true) :
    isAdapterRow (pointRow line) = true ∧ rowValue (pointRow line) = "pumble".toList := by
  have named : rowName line = some adapterName := of_decide_eq_true adapter
  obtain ⟨name, value, -⟩ := setRow_spec named "pumble".toList
  rw [pointRow, if_pos adapter]
  exact ⟨decide_eq_true name, value⟩

theorem keepsBlocks_scrubRow : KeepsBlocks scrubRow := by
  refine ⟨fun line dropped => ?_, fun line line' changed => ?_⟩
  · rw [scrubRow] at dropped
    split_ifs at dropped with replaced
    exact (isPumbleRow_of_replaced replaced).assignment
  · rw [scrubRow] at changed
    split_ifs at changed
    cases changed
    exact ⟨rfl, rfl⟩

theorem keepsBlocks_pointRow : KeepsBlocks fun line => some (pointRow line) := by
  refine ⟨nofun, fun line line' changed => ?_⟩
  cases changed
  by_cases adapter : isAdapterRow line = true
  · have before := isPumbleRow_of_adapter adapter
    have after := isPumbleRow_of_adapter (rowName_pointRow adapter).1
    exact ⟨after.assignment.trans before.assignment.symm,
      (head_ne_hash after.head).trans (head_ne_hash before.head).symm⟩
  · rw [pointRow, if_neg adapter]
    exact ⟨rfl, rfl⟩

theorem flagged_edit_change (inside : Bool) (lines : List Line) :
    flagged inside ((edit changeRow (flagged inside lines)).map Prod.fst) =
      edit changeRow (flagged inside lines) := by
  rw [← edit_change, ← flagged_edit keepsBlocks_scrubRow,
    ← flagged_edit keepsBlocks_pointRow, flagged_lines]

theorem pointRow_again (line : Line) : pointRow (pointRow line) = pointRow line := by
  by_cases adapter : isAdapterRow line = true
  · have named : rowName line = some adapterName := of_decide_eq_true adapter
    obtain ⟨-, -, same⟩ := setRow_spec named "pumble".toList
    have point : pointRow line = setRow line "pumble".toList := if_pos adapter
    have again : pointRow (pointRow line) = setRow (pointRow line) "pumble".toList :=
      if_pos (rowName_pointRow adapter).1
    rw [again, point, same]
  · have point : pointRow line = line := if_neg adapter
    rw [point, point]

theorem scrubRow_pointRow {line : Line} (kept : isReplacedRow line = false) :
    scrubRow (pointRow line) = some (pointRow line) := by
  refine if_neg ?_
  by_cases adapter : isAdapterRow line = true
  · rw [adapter_not_replaced (rowName_pointRow adapter).1]
    nofun
  · rw [pointRow, if_neg adapter, kept]
    nofun

/-- What the walk has changed is not changed again. -/
theorem changeRow_again {line line' : Line} (changed : changeRow line = some line') :
    changeRow line' = some line' := by
  rw [changeRow, scrubRow] at changed
  split_ifs at changed with replaced
  · cases changed
  have same : line' = pointRow line := (Option.some.inj changed).symm
  rw [same, changeRow, scrubRow_pointRow (Bool.eq_false_iff.mpr replaced), Option.map_some,
    pointRow_again]

theorem edit_change_again (flags : List (Line × Bool)) :
    edit changeRow (edit changeRow flags) = edit changeRow flags := by
  rw [edit, edit, List.filterMap_filterMap]
  refine List.filterMap_congr fun (line, model) _ => ?_
  cases model with
  | true => rfl
  | false =>
      cases changed : changeRow line with
      | none => simp [changed]
      | some line' => simp [changed, changeRow_again changed]

/-! ### The block among the lines -/

theorem heading_plain : isModelHeading pumbleEnvHeading = false ∧
    isAssignment pumbleEnvHeading = false ∧ isAdapterRow pumbleEnvHeading = false ∧
    isReplacedRow pumbleEnvHeading = false ∧ isPumbleBlockRow pumbleEnvHeading = false := by
  rw [isModelHeading, modelEnvHeading_chars, pumbleEnvHeading_chars]
  decide

theorem isModelHeading_nil : isModelHeading [] = false := by
  rw [isModelHeading, modelEnvHeading_chars]
  decide

theorem pumbleEnvHeading_ne_nil : pumbleEnvHeading ≠ [] := by
  rw [pumbleEnvHeading_chars]
  exact List.cons_ne_nil _ _

theorem rowName_pumbleEnvHeading : rowName pumbleEnvHeading = none := by
  rw [pumbleEnvHeading_chars]
  decide

theorem plain_pumbleEnvHeading : '\n' ∉ pumbleEnvHeading ∧ ¬EndsCr pumbleEnvHeading := by
  rw [pumbleEnvHeading_chars]
  decide

/-- Lines that begin with no row of the block. -/
def Stops (lines : List Line) : Prop := ∀ line ∈ lines.head?, isPumbleBlockRow line = false

/-- The lines with a block among them, and what the block consists of. -/
structure Block (front rows back : List Line) : Prop where
  front : pumbleEnvHeading ∉ front
  rows : ∀ row ∈ rows, isPumbleBlockRow row = true
  back : Stops back

theorem exists_block (lines : List Line) : pumbleEnvHeading ∉ lines ∨
    ∃ front rows back, lines = front ++ pumbleEnvHeading :: (rows ++ back) ∧
      Block front rows back := by
  have split := List.takeWhile_append_dropWhile (p := (· ≠ pumbleEnvHeading)) (l := lines)
  cases found : lines.dropWhile (· ≠ pumbleEnvHeading) with
  | nil =>
      left
      intro listed
      have all := List.dropWhile_eq_nil_iff.mp found _ listed
      exact absurd rfl (of_decide_eq_true all)
  | cons heading rest =>
      right
      have same : heading = pumbleEnvHeading := by
        have stop := List.head?_dropWhile_not (· ≠ pumbleEnvHeading) lines
        rw [found] at stop
        simpa using stop
      rw [found, same] at split
      refine ⟨lines.takeWhile (· ≠ pumbleEnvHeading), rest.takeWhile isPumbleBlockRow,
        rest.dropWhile isPumbleBlockRow, ?_, ?_, ?_, ?_⟩
      · rw [List.takeWhile_append_dropWhile]
        exact split.symm
      · intro listed
        have other := List.mem_takeWhile_imp (p := (· ≠ pumbleEnvHeading)) listed
        simp at other
      · exact fun row => List.mem_takeWhile_imp
      · intro line first
        have stop := List.head?_dropWhile_not isPumbleBlockRow rest
        rw [Option.mem_def.mp first] at stop
        exact stop

theorem takeWhile_apart {lines : List Line} (none : pumbleEnvHeading ∉ lines) :
    lines.takeWhile (· ≠ pumbleEnvHeading) = lines := by
  rw [List.takeWhile_eq_self_iff]
  exact fun line listed => decide_eq_true fun same => none (same ▸ listed)

theorem dropWhile_apart {lines : List Line} (none : pumbleEnvHeading ∉ lines) :
    lines.dropWhile (· ≠ pumbleEnvHeading) = [] := by
  rw [List.dropWhile_eq_nil_iff]
  exact fun line listed => decide_eq_true fun same => none (same ▸ listed)

theorem flagged_heading (inside : Bool) (lines : List Line) :
    flagged inside (pumbleEnvHeading :: lines) =
      (pumbleEnvHeading, false) :: flagged false lines := by
  rw [flagged_cons, heading_plain.1, heading_plain.2.1, Bool.and_false, Bool.false_or]

theorem flagged_rows {rows : List Line} (each : ∀ row ∈ rows, isPumbleBlockRow row = true)
    (lines : List Line) :
    flagged false (rows ++ lines) = rows.map (·, false) ++ flagged false lines := by
  induction rows with
  | nil => rfl
  | cons row rows ih =>
      obtain ⟨first, others⟩ := List.forall_mem_cons.mp each
      have heading := head_ne_hash (isPumbleRow_of_blockRow first).head
      rw [List.cons_append, flagged_cons, heading, Bool.false_and, Bool.or_false, ih others]
      rfl

theorem flagged_append_heading (inside : Bool) (front lines : List Line) :
    flagged inside (front ++ pumbleEnvHeading :: lines) =
      flagged inside front ++ (pumbleEnvHeading, false) :: flagged false lines := by
  induction front generalizing inside with
  | nil => exact flagged_heading inside lines
  | cons line front ih =>
      rw [List.cons_append, flagged_cons, ih]
      rfl

/-- The lines that the filter of the code keeps. -/
def kept (flags : List (Line × Bool)) (blocks : List Bool) : List Line :=
  (flags.zip blocks).filterMap fun ((line, model), block) =>
    if model || block || !isReplacedRow line then some line else none

theorem kept_cons (line : Line) (model block : Bool) (flags : List (Line × Bool))
    (blocks : List Bool) : kept ((line, model) :: flags) (block :: blocks) =
      if model || block || !isReplacedRow line then line :: kept flags blocks
      else kept flags blocks := by
  rw [kept, List.zip_cons_cons, List.filterMap_cons]
  by_cases keep : (model || block || !isReplacedRow line) = true
  · simp only [keep, if_true]
    rfl
  · simp only [keep]
    rfl

theorem kept_append {flags : List (Line × Bool)} {blocks : List Bool}
    (same : flags.length = blocks.length) (flags' : List (Line × Bool)) (blocks' : List Bool) :
    kept (flags ++ flags') (blocks ++ blocks') = kept flags blocks ++ kept flags' blocks' := by
  rw [kept, List.zip_append same, List.filterMap_append]
  rfl

theorem kept_outside (flags : List (Line × Bool)) {lines : List Line}
    (same : flags.length = lines.length) :
    kept flags (lines.map fun _ => false) = (edit scrubRow flags).map Prod.fst := by
  induction flags generalizing lines with
  | nil => rfl
  | cons flag flags ih =>
      obtain ⟨line, model⟩ := flag
      obtain ⟨l, lines, rfl⟩ := List.exists_cons_of_length_eq_add_one same.symm
      specialize ih (Nat.succ.inj same)
      rw [List.map_cons, kept_cons, ih]
      cases model with
      | true => rfl
      | false =>
          cases replaced : isReplacedRow line with
          | true =>
              rw [edit_cons_none (by rw [scrubRow, replaced]; rfl)]
              rfl
          | false =>
              rw [@edit_cons_some _ line line (by rw [scrubRow, replaced]; rfl)]
              rfl

theorem kept_inside (flags : List (Line × Bool)) {lines : List Line}
    (same : flags.length = lines.length) :
    kept flags (lines.map fun _ => true) = flags.map Prod.fst := by
  induction flags generalizing lines with
  | nil => rfl
  | cons flag flags ih =>
      obtain ⟨line, model⟩ := flag
      obtain ⟨l, lines, rfl⟩ := List.exists_cons_of_length_eq_add_one same.symm
      specialize ih (Nat.succ.inj same)
      rw [List.map_cons, kept_cons, ih, Bool.or_true, Bool.true_or]
      rfl

theorem length_flagged (inside : Bool) (lines : List Line) :
    (flagged inside lines).length = lines.length := by
  rw [← List.length_map Prod.fst, flagged_lines]

section Among

variable {front rows back : List Line} (block : Block front rows back)

include block

theorem flagged_block (inside : Bool) :
    flagged inside (front ++ pumbleEnvHeading :: (rows ++ back)) = flagged inside front ++
      (pumbleEnvHeading, false) :: (rows.map (·, false) ++ flagged false back) := by
  rw [flagged_append_heading, flagged_rows block.rows]

theorem takeWhile_block : (front ++ pumbleEnvHeading :: (rows ++ back)).takeWhile
    (· ≠ pumbleEnvHeading) = front := by
  rw [List.takeWhile_append_of_pos, List.takeWhile_cons_of_neg (by simp), List.append_nil]
  exact fun line listed => decide_eq_true fun same => block.front (same ▸ listed)

theorem dropWhile_block : (front ++ pumbleEnvHeading :: (rows ++ back)).dropWhile
    (· ≠ pumbleEnvHeading) = pumbleEnvHeading :: (rows ++ back) := by
  rw [List.dropWhile_append_of_pos, List.dropWhile_cons_of_neg (by simp)]
  exact fun line listed => decide_eq_true fun same => block.front (same ▸ listed)

theorem rows_block : (rows ++ back).takeWhile isPumbleBlockRow = rows ∧
    (rows ++ back).dropWhile isPumbleBlockRow = back := by
  rw [List.takeWhile_append_of_pos block.rows, List.dropWhile_append_of_pos block.rows]
  cases back with
  | nil => simp
  | cons line back =>
      have stop : ¬isPumbleBlockRow line = true := by
        rw [block.back line rfl]
        nofun
      rw [List.takeWhile_cons_of_neg stop, List.dropWhile_cons_of_neg stop, List.append_nil]
      exact ⟨rfl, rfl⟩

theorem pumbleBlockLines_block : pumbleBlockLines (front ++ pumbleEnvHeading :: (rows ++ back)) =
    front.map (fun _ => false) ++
      true :: (rows.map (fun _ => true) ++ back.map fun _ => false) := by
  rw [pumbleBlockLines, takeWhile_block block, dropWhile_block block]
  simp only [(rows_block block).1, (rows_block block).2]

omit block in
theorem filteredLines_apart {lines : List Line} (none : pumbleEnvHeading ∉ lines) :
    filteredLines lines = (edit scrubRow (flagged false lines)).map Prod.fst := by
  have text : filteredLines lines = kept (flagged false lines) (pumbleBlockLines lines) := rfl
  rw [text, pumbleBlockLines, dropWhile_apart none, takeWhile_apart none, List.append_nil,
    kept_outside _ (length_flagged _ _)]

theorem filteredLines_block : filteredLines (front ++ pumbleEnvHeading :: (rows ++ back)) =
    (edit scrubRow (flagged false front)).map Prod.fst ++
      pumbleEnvHeading :: (rows ++ (edit scrubRow (flagged false back)).map Prod.fst) := by
  have inside : kept (rows.map (·, false)) (rows.map fun _ => true) = rows := by
    rw [kept_inside _ (List.length_map _), List.map_map]
    exact List.map_id rows
  have text : filteredLines (front ++ pumbleEnvHeading :: (rows ++ back)) =
      kept (flagged false (front ++ pumbleEnvHeading :: (rows ++ back)))
        (pumbleBlockLines (front ++ pumbleEnvHeading :: (rows ++ back))) := rfl
  rw [text, flagged_block block, pumbleBlockLines_block block, kept_append (by simp [length_flagged]),
    kept_outside _ (length_flagged _ _)]
  refine congrArg (_ ++ pumbleEnvHeading :: ·) ?_
  rw [← kept_outside _ (length_flagged false back)]
  conv_rhs => rw [← inside]
  exact kept_append (by simp) _ _

end Among

/-- A change of the rows of Pumble and the adapter only. -/
structure Spares (change : Line → Option Line) : Prop where
  other : ∀ line, isPumbleBlockRow line = false → change line = some line
  row : ∀ line line', isPumbleBlockRow line = true → change line = some line' →
    isPumbleBlockRow line' = true

theorem spares_scrubRow : Spares scrubRow := by
  refine ⟨fun line other => if_neg fun replaced => ?_, fun line line' row changed => ?_⟩
  · rw [(isPumbleRow_of_replaced replaced).blockRow] at other
    cases other
  · rw [scrubRow] at changed
    split_ifs at changed
    cases changed
    exact row

theorem spares_pointRow : Spares fun line => some (pointRow line) := by
  refine ⟨fun line other => congrArg some (if_neg fun adapter => ?_), fun line line' row changed => ?_⟩
  · rw [(isPumbleRow_of_adapter adapter).blockRow] at other
    cases other
  · cases changed
    by_cases adapter : isAdapterRow line = true
    · exact (isPumbleRow_of_adapter (rowName_pointRow adapter).1).blockRow
    · rwa [pointRow, if_neg adapter]

theorem spares_changeRow : Spares changeRow := by
  refine ⟨fun line other => ?_, fun line line' row changed => ?_⟩
  · rw [changeRow, spares_scrubRow.other line other]
    exact spares_pointRow.other line other
  · obtain ⟨middle, scrubbed, rfl⟩ := Option.map_eq_some_iff.mp changed
    exact spares_pointRow.row middle _ (spares_scrubRow.row line middle row scrubbed) rfl

theorem mem_edit {change : Line → Option Line} {flags : List (Line × Bool)} {line : Line}
    {model : Bool} (listed : (line, model) ∈ edit change flags) :
    model = true ∧ (line, true) ∈ flags ∨
      model = false ∧ ∃ before, (before, false) ∈ flags ∧ change before = some line := by
  obtain ⟨⟨before, own⟩, known, same⟩ := List.mem_filterMap.mp listed
  cases own with
  | true =>
      cases same
      exact .inl ⟨rfl, known⟩
  | false =>
      obtain ⟨after, changed, same⟩ := Option.map_eq_some_iff.mp same
      cases same
      exact .inr ⟨rfl, before, known, changed⟩

theorem mem_of_flagged {inside : Bool} {lines : List Line} {line : Line} {model : Bool}
    (listed : (line, model) ∈ flagged inside lines) : line ∈ lines :=
  List.of_mem_zip listed |>.1

theorem heading_notMem_edit {change : Line → Option Line} (spares : Spares change) {inside : Bool}
    {lines : List Line} (none : pumbleEnvHeading ∉ lines) :
    pumbleEnvHeading ∉ (edit change (flagged inside lines)).map Prod.fst := by
  intro listed
  obtain ⟨⟨line, model⟩, listed, same⟩ := List.mem_map.mp listed
  dsimp only at same
  rw [← same] at none
  rcases mem_edit listed with ⟨-, known⟩ | ⟨-, before, known, changed⟩
  · exact none (mem_of_flagged known)
  · cases row : isPumbleBlockRow before with
    | true =>
        have heading := spares.row before _ row changed
        rw [same, heading_plain.2.2.2.2] at heading
        cases heading
    | false =>
        rw [spares.other before row] at changed
        exact none (Option.some.inj changed ▸ mem_of_flagged known)

theorem stops_edit {change : Line → Option Line} (spares : Spares change) {lines : List Line}
    (stops : Stops lines) : Stops ((edit change (flagged false lines)).map Prod.fst) := by
  cases lines with
  | nil => exact stops
  | cons line lines =>
      have same := spares.other line (stops line rfl)
      rw [flagged_cons]
      intro l first
      cases own : isModelHeading line || false && isAssignment line with
      | true =>
          rw [own, edit_cons_model] at first
          cases first
          exact stops line rfl
      | false =>
          rw [own, edit_cons_some same] at first
          cases first
          exact stops line rfl

theorem Block.edit {front rows back : List Line} (block : Block front rows back)
    {change : Line → Option Line} (spares : Spares change) :
    Block ((edit change (flagged false front)).map Prod.fst) rows
      ((edit change (flagged false back)).map Prod.fst) :=
  ⟨heading_notMem_edit spares block.front, block.rows, stops_edit spares block.back⟩

end OmpBundler.Cli
