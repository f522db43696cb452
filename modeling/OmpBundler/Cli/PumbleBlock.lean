import OmpBundler.Cli.EnvWalk

/-!
The Pumble block of an env file.

The text has the block between two parts that the walk leaves as they are, so that
another update finds the same values and the same parts. The adapter row may be
lost: when the only one stands in the old block, it is set first and replaced with
the block afterwards.
-/

namespace OmpBundler.Cli

open Library Library.Lines
open JsString (isSpace)

/-! ### The adapter -/

/-- Whether there is an adapter row outside of the model blocks. -/
def hasAdapter (flags : List (Line × Bool)) : Bool :=
  flags.any fun (line, model) => !model && isAdapterRow line

/-- The adapter row that is put in front. -/
def adapterRow : Line := adapterName ++ "=pumble".toList

def adapterLead (found : Bool) : List Line := if found then [] else [adapterRow]

theorem withAdapter_eq (lines : List Line) :
    withAdapter lines = adapterLead (hasAdapter (flagged false lines)) ++
      (edit (fun line => some (pointRow line)) (flagged false lines)).map Prod.fst := by
  have set : ∀ flags : List (Line × Bool), (flags.map fun (line, model) =>
      if model || !isAdapterRow line then line else setRow line "pumble".toList) =
      (edit (fun line => some (pointRow line)) flags).map Prod.fst := by
    intro flags
    induction flags with
    | nil => rfl
    | cons flag flags ih =>
        obtain ⟨line, model⟩ := flag
        cases model with
        | true => exact congrArg (line :: ·) ih
        | false =>
            have same : (if (false || !isAdapterRow line) = true then line
                else setRow line "pumble".toList) = pointRow line := by
              rw [pointRow]
              cases isAdapterRow line <;> rfl
            exact congrArg₂ List.cons same ih
  have text : withAdapter lines = if hasAdapter (flagged false lines) then
      (flagged false lines).map (fun (line, model) =>
        if model || !isAdapterRow line then line else setRow line "pumble".toList)
      else adapterRow :: (flagged false lines).map (fun (line, model) =>
        if model || !isAdapterRow line then line else setRow line "pumble".toList) := rfl
  rw [text, set, adapterLead]
  split_ifs <;> rfl

theorem hasAdapter_append (front back : List (Line × Bool)) :
    hasAdapter (front ++ back) = (hasAdapter front || hasAdapter back) := List.any_append

theorem hasAdapter_scrub (flags : List (Line × Bool)) :
    hasAdapter (edit scrubRow flags) = hasAdapter flags := by
  induction flags with
  | nil => rfl
  | cons flag flags ih =>
      obtain ⟨line, model⟩ := flag
      cases model with
      | true => exact ih
      | false =>
          cases replaced : isReplacedRow line with
          | true =>
              have other : isAdapterRow line = false := by
                by_contra adapter
                rw [adapter_not_replaced (Bool.not_eq_false _ ▸ adapter)] at replaced
                cases replaced
              rw [edit_cons_none (by rw [scrubRow, replaced]; rfl), ih]
              simp [hasAdapter, other]
          | false =>
              rw [@edit_cons_some _ line line (by rw [scrubRow, replaced]; rfl)]
              exact congrArg (_ || ·) ih

theorem hasAdapter_block (front rows back : List (Line × Bool)) :
    hasAdapter (front ++ (pumbleEnvHeading, false) :: (rows ++ back)) =
      (hasAdapter front || (hasAdapter rows || hasAdapter back)) := by
  have heading : hasAdapter [(pumbleEnvHeading, false)] = false := by
    simp [hasAdapter, heading_plain.2.2.1]
  rw [hasAdapter_append, ← List.singleton_append, hasAdapter_append, heading, hasAdapter_append,
    Bool.false_or]

theorem edit_rows (rows : List Line) :
    edit (fun line => some (pointRow line)) (rows.map (·, false)) =
      (rows.map pointRow).map (·, false) := by
  induction rows with
  | nil => rfl
  | cons row rows ih => exact congrArg (_ :: ·) ih

/-! ### The text -/

/-- The lines around the block, after the walk. -/
def walked (lines : List Line) : List Line := (edit changeRow (flagged false lines)).map Prod.fst

theorem flagged_walked (lines : List Line) :
    flagged false (walked lines) = edit changeRow (flagged false lines) :=
  flagged_edit_change false lines

theorem adapterRow_plain : isModelHeading adapterRow = false ∧ pumbleEnvHeading ≠ adapterRow ∧
    isAdapterRow adapterRow = true ∧ rowValue adapterRow = "pumble".toList ∧
    changeRow adapterRow = some adapterRow ∧ ¬EndsCr adapterRow ∧ '\n' ∉ adapterRow := by
  rw [adapterRow, isModelHeading, modelEnvHeading_chars, pumbleEnvHeading_chars,
    adapterName_chars]
  decide

theorem heading_notMem_lead {found : Bool} {lines : List Line}
    (none : pumbleEnvHeading ∉ lines) : pumbleEnvHeading ∉ adapterLead found ++ lines := by
  intro listed
  rcases List.mem_append.mp listed with lead | listed
  · rw [adapterLead] at lead
    split_ifs at lead
    · cases lead
    · exact adapterRow_plain.2.1 (List.mem_singleton.mp lead)
  · exact none listed

theorem flagged_lead (found : Bool) (lines : List Line) :
    flagged false (adapterLead found ++ lines) =
      (adapterLead found).map (·, false) ++ flagged false lines := by
  cases found with
  | true => rfl
  | false =>
      have step : flagged false (adapterRow :: lines) = _ := flagged_cons false adapterRow lines
      rw [adapterRow_plain.1, Bool.false_and, Bool.or_false] at step
      exact step

/-- The block is put in place of the one that is there. -/
theorem updatedLines_block {front rows back : List Line} (block : Block front rows back) :
    updatedLines (front ++ pumbleEnvHeading :: (rows ++ back)) =
      adapterLead (hasAdapter
          (flagged false (front ++ pumbleEnvHeading :: (rows ++ back)))) ++ walked front ++
        (pumbleBlock (knownValue (front ++ pumbleEnvHeading :: (rows ++ back))) ++
          walked back) := by
  have scrubbed := block.edit spares_scrubRow
  have changed := block.edit spares_changeRow
  have rows' : ∀ row ∈ rows.map pointRow, isPumbleBlockRow row = true := by
    intro row listed
    obtain ⟨before, known, rfl⟩ := List.mem_map.mp listed
    exact spares_pointRow.row before _ (block.rows before known) rfl
  have filtered : withAdapter (filteredLines (front ++ pumbleEnvHeading :: (rows ++ back))) =
      (adapterLead (hasAdapter (flagged false (front ++ pumbleEnvHeading :: (rows ++ back)))) ++
        walked front) ++ pumbleEnvHeading :: (rows.map pointRow ++ walked back) := by
    have flags := flagged_block scrubbed false
    rw [flagged_edit keepsBlocks_scrubRow, flagged_edit keepsBlocks_scrubRow] at flags
    rw [filteredLines_block block, withAdapter_eq, flags, flagged_block block,
      hasAdapter_block, hasAdapter_block, hasAdapter_scrub, hasAdapter_scrub, edit_append,
      edit_change, List.append_assoc, List.map_append,
      @edit_cons_some (fun line => some (pointRow line)) _ _
        (spares_pointRow.other _ heading_plain.2.2.2.2), edit_append, edit_change, edit_rows,
      List.map_cons, List.map_append, List.map_map]
    have same : Prod.fst ∘ (fun row : Line => (row, false)) = id := rfl
    rw [same, List.map_id]
    rfl
  have block' : Block (adapterLead (hasAdapter
      (flagged false (front ++ pumbleEnvHeading :: (rows ++ back)))) ++ walked front)
      (rows.map pointRow) (walked back) :=
    ⟨heading_notMem_lead changed.front, rows', changed.back⟩
  rw [updatedLines, filtered, withBlock, takeWhile_block block', dropWhile_block block']
  simp only [(rows_block block').2]

/-- The block is put behind the other lines. -/
theorem updatedLines_apart {lines : List Line} (none : pumbleEnvHeading ∉ lines) :
    updatedLines lines =
      adapterLead (hasAdapter (flagged false lines)) ++ walked lines ++
        separator (adapterLead (hasAdapter (flagged false lines)) ++ walked lines) ++
          pumbleBlock (knownValue lines) := by
  have none' : pumbleEnvHeading ∉ walked lines :=
    heading_notMem_edit spares_changeRow none
  have filtered : withAdapter (filteredLines lines) =
      adapterLead (hasAdapter (flagged false lines)) ++ walked lines := by
    rw [withAdapter_eq, filteredLines_apart none, flagged_edit keepsBlocks_scrubRow,
      hasAdapter_scrub, edit_change]
    rfl
  rw [updatedLines, filtered, withBlock, dropWhile_apart (heading_notMem_lead none')]

/-! ### The values -/

/-- The rows of the block. -/
def blockRows (value : Line → Line) (fields : List Line) : List Line :=
  fields.map fun field => field ++ '=' :: value field

theorem pumbleBlock_eq (value : Line → Line) :
    pumbleBlock value = pumbleEnvHeading :: blockRows value pumbleRuntimeFields := rfl

theorem rowName_field {field : Line} (known : field ∈ pumbleRuntimeFields) (value : Line) :
    rowName (field ++ '=' :: value) = some field ∧ rowValue (field ++ '=' :: value) = value := by
  have all : ∀ f ∈ pumbleRuntimeFields, f.all isEnvChar = true := by
    rw [pumbleRuntimeFields_chars]
    decide
  have env : ∀ x ∈ field, isEnvChar x = true := List.all_eq_true.mp (all field known)
  exact ⟨rowName_assignment env value, rowValue_equals (isEnvChar_ne_equals env) value⟩

/-- The first value of a field. -/
def firstValue (field : Line) (flags : List (Line × Bool)) : Option Line :=
  flags.findSome? fun (line, model) =>
    if !model && rowName line = some field && !isBlankLine (rowValue line) then
      some (rowValue line)
    else none

theorem knownValue_eq (lines : List Line) (field : Line) :
    knownValue lines field = (firstValue field (flagged false lines)).getD [] := rfl

theorem knownValue_blank {lines : List Line} {field : Line}
    (blank : isBlankLine (knownValue lines field) = true) : knownValue lines field = [] := by
  rw [knownValue_eq] at blank ⊢
  cases found : firstValue field (flagged false lines) with
  | none => rfl
  | some value =>
      obtain ⟨⟨line, model⟩, -, same⟩ := List.exists_of_findSome?_eq_some found
      dsimp only at same
      split_ifs at same with matching
      rw [found, ← Option.some.inj same] at blank
      simp only [Option.getD_some] at blank
      simp [blank] at matching

theorem firstValue_eq_none {field : Line} {flags : List (Line × Bool)}
    (other : ∀ line, (line, false) ∈ flags → rowName line ≠ some field) :
    firstValue field flags = none := by
  rw [firstValue, List.findSome?_eq_none_iff]
  rintro ⟨line, model⟩ listed
  cases model with
  | true => simp
  | false => simp [other line listed]

theorem firstValue_cons (field line : Line) (flags : List (Line × Bool)) :
    firstValue field ((line, false) :: flags) =
      if rowName line = some field ∧ ¬isBlankLine (rowValue line) = true then some (rowValue line)
      else firstValue field flags := by
  rw [firstValue, List.findSome?_cons]
  by_cases found : rowName line = some field ∧ ¬isBlankLine (rowValue line) = true
  · simp [found.1, Bool.eq_false_iff.mpr found.2]
  · rw [if_neg found]
    have none : (!false && decide (rowName line = some field) && !isBlankLine (rowValue line)) =
        false := by simpa using found
    simp only [none]
    rfl

theorem firstValue_append (field : Line) (front back : List (Line × Bool)) :
    firstValue field (front ++ back) = (firstValue field front).or (firstValue field back) :=
  List.findSome?_append

/-- What the walk leaves has no row of the block. -/
theorem firstValue_change {field : Line} (known : field ∈ pumbleRuntimeFields)
    (flags : List (Line × Bool)) : firstValue field (edit changeRow flags) = none := by
  refine firstValue_eq_none fun line listed named => ?_
  obtain ⟨impossible, -⟩ | ⟨-, before, -, changed⟩ := mem_edit listed
  · cases impossible
  · have again := changeRow_again changed
    have replaced : isReplacedRow line = true := by
      rw [isReplacedRow, named]
      simp [isPumbleName_of_field known, known]
    rw [changeRow, scrubRow, if_pos replaced] at again
    cases again

theorem firstValue_rows {value : Line → Line} {fields : List Line}
    (each : ∀ f ∈ fields, f ∈ pumbleRuntimeFields) (field : Line) :
    firstValue field ((blockRows value fields).map (·, false)) =
      if field ∈ fields ∧ ¬isBlankLine (value field) = true then some (value field) else none := by
  induction fields with
  | nil => rfl
  | cons f fields ih =>
      obtain ⟨first, others⟩ := List.forall_mem_cons.mp each
      obtain ⟨name, val⟩ := rowName_field first (value f)
      rw [blockRows, List.map_cons, List.map_cons, firstValue_cons, name, val, ← blockRows, ih others]
      by_cases same : f = field
      · subst same
        by_cases blank : isBlankLine (value f) = true <;> simp [blank]
      · have other : ¬field = f := fun h => same h.symm
        simp [same, other]

theorem blockRows_plain {value : Line → Line} {row : Line}
    (listed : row ∈ blockRows value pumbleRuntimeFields) :
    isPumbleBlockRow row = true ∧ isAdapterRow row = false := by
  obtain ⟨field, known, rfl⟩ := List.mem_map.mp listed
  have named := (rowName_field known (value field)).1
  have other : adapterName ∉ pumbleRuntimeFields := by
    rw [pumbleRuntimeFields_chars, adapterName_chars]
    decide
  refine ⟨IsPumbleRow.blockRow ⟨field, named, .inr (isPumbleName_of_field known)⟩, ?_⟩
  rw [isAdapterRow, named, decide_eq_false_iff_not]
  intro same
  exact other (Option.some.inj same ▸ known)

/-! ### The parts of the text -/

/-- The lines outside of the block, with what says whether they belong to a model
block. -/
def outsideBlock (lines : List Line) : List (Line × Bool) :=
  flagged false (lines.takeWhile (· ≠ pumbleEnvHeading)) ++
    flagged false (((lines.dropWhile (· ≠ pumbleEnvHeading)).drop 1).dropWhile isPumbleBlockRow)

def isUntouched (flag : Line × Bool) : Bool := flag.2 || !isPumbleBlockRow flag.1

/-- The lines that are no rows of Pumble and the adapter, and those of the model
blocks. -/
def untouched (lines : List Line) : List Line :=
  ((flagged false lines).filter isUntouched).map Prod.fst

/-- What stands in front of the block and behind it. -/
structure Parts (lines front back : List Line) : Prop where
  noHeading : pumbleEnvHeading ∉ front
  stops : Stops back
  fixedFront : edit changeRow (flagged false front) = flagged false front
  fixedBack : edit changeRow (flagged false back) = flagged false back
  adapter : hasAdapter (flagged false front ++ flagged false back) =
    (hasAdapter (outsideBlock lines) || !hasAdapter (flagged false lines))
  sound : ∀ line model, (line, model) ∈ flagged false front ++ flagged false back →
    (line, model) ∈ edit changeRow (outsideBlock lines) ∨
      model = false ∧ (line = [] ∨ line = adapterRow)
  complete : ∀ flag ∈ edit changeRow (outsideBlock lines),
    flag ∈ flagged false front ++ flagged false back
  preserved : ∀ value, (untouched lines).Sublist (front ++ (pumbleBlock value ++ back))

theorem edit_walked (lines : List Line) :
    edit changeRow (flagged false (walked lines)) = flagged false (walked lines) := by
  rw [flagged_walked, edit_change_again]

theorem hasAdapter_point (flags : List (Line × Bool)) :
    hasAdapter (edit (fun line => some (pointRow line)) flags) = hasAdapter flags := by
  induction flags with
  | nil => rfl
  | cons flag flags ih =>
      obtain ⟨line, model⟩ := flag
      cases model with
      | true => exact ih
      | false =>
          have same : isAdapterRow (pointRow line) = isAdapterRow line := by
            cases adapter : isAdapterRow line with
            | true => exact (rowName_pointRow adapter).1
            | false => rw [pointRow, adapter, if_neg Bool.false_ne_true, adapter]
          exact congrArg₂ or same ih

theorem hasAdapter_change (flags : List (Line × Bool)) :
    hasAdapter (edit changeRow flags) = hasAdapter flags := by
  rw [← edit_change, hasAdapter_point, hasAdapter_scrub]

theorem pumbleBlock_congr {value value' : Line → Line}
    (same : ∀ field ∈ pumbleRuntimeFields, value field = value' field) :
    pumbleBlock value = pumbleBlock value' := by
  rw [pumbleBlock_eq, pumbleBlock_eq, blockRows, blockRows]
  refine congrArg _ (List.map_congr_left fun field listed => ?_)
  rw [same field listed]

/-- The values are read from the block that was written. -/
theorem knownValue_again {front back : List Line} {value : Line → Line}
    (block : Block front (blockRows value pumbleRuntimeFields) back)
    (fixedFront : edit changeRow (flagged false front) = flagged false front)
    (fixedBack : edit changeRow (flagged false back) = flagged false back)
    (values : ∀ field, isBlankLine (value field) = true → value field = []) {field : Line}
    (listed : field ∈ pumbleRuntimeFields) :
    knownValue (front ++ (pumbleBlock value ++ back)) field = value field := by
  have text : front ++ (pumbleBlock value ++ back) =
      front ++ pumbleEnvHeading :: (blockRows value pumbleRuntimeFields ++ back) := rfl
  have front' := firstValue_change listed (flagged false front)
  have back' := firstValue_change listed (flagged false back)
  rw [fixedFront] at front'
  rw [fixedBack] at back'
  have heading : firstValue field [(pumbleEnvHeading, false)] = none := by
    refine firstValue_eq_none fun line only named => ?_
    have same := (Prod.mk.inj (List.mem_singleton.mp only)).1
    rw [same, rowName_pumbleEnvHeading] at named
    cases named
  rw [knownValue_eq, text, flagged_block block, firstValue_append, front', Option.none_or,
    ← List.singleton_append, firstValue_append, heading, Option.none_or, firstValue_append, back',
    Option.or_none, firstValue_rows (fun f => id)]
  by_cases blank : isBlankLine (value field) = true
  · rw [if_neg fun both => both.2 blank]
    exact (values field blank).symm
  · rw [if_pos ⟨listed, blank⟩]
    rfl

/-- What the walk leaves of a text that is updated again: only the adapter row may
be put in front of it. -/
theorem updatedLines_again {front back : List Line} {value : Line → Line}
    (noHeading : pumbleEnvHeading ∉ front) (stops : Stops back)
    (fixedFront : edit changeRow (flagged false front) = flagged false front)
    (fixedBack : edit changeRow (flagged false back) = flagged false back)
    (values : ∀ field, isBlankLine (value field) = true → value field = []) :
    updatedLines (front ++ (pumbleBlock value ++ back)) =
      adapterLead (hasAdapter (flagged false front ++ flagged false back)) ++
        (front ++ (pumbleBlock value ++ back)) := by
  have block : Block front (blockRows value pumbleRuntimeFields) back :=
    ⟨noHeading, fun row listed => (blockRows_plain listed).1, stops⟩
  have text : front ++ (pumbleBlock value ++ back) =
      front ++ pumbleEnvHeading :: (blockRows value pumbleRuntimeFields ++ back) := rfl
  have rows : hasAdapter ((blockRows value pumbleRuntimeFields).map (·, false)) = false := by
    rw [hasAdapter, List.any_map, List.any_eq_false]
    intro row listed
    have other := (blockRows_plain listed).2
    simp [other]
  have found : hasAdapter (flagged false (front ++ (pumbleBlock value ++ back))) =
      hasAdapter (flagged false front ++ flagged false back) := by
    rw [text, flagged_block block, hasAdapter_block, rows, Bool.false_or, hasAdapter_append]
  have known : pumbleBlock (knownValue (front ++ (pumbleBlock value ++ back))) =
      pumbleBlock value :=
    pumbleBlock_congr fun field listed => knownValue_again block fixedFront fixedBack values listed
  have same : ∀ {lines : List Line}, edit changeRow (flagged false lines) = flagged false lines →
      walked lines = lines := by
    intro lines fixed
    rw [walked, fixed, flagged_lines]
  have eq := updatedLines_block block
  rw [← text, found, known, same fixedFront, same fixedBack, List.append_assoc] at eq
  exact eq

theorem untouched_sublist (flags : List (Line × Bool)) :
    ((flags.filter isUntouched).map Prod.fst).Sublist
      ((edit changeRow flags).map Prod.fst) := by
  induction flags with
  | nil => exact .slnil
  | cons flag flags ih =>
      obtain ⟨line, model⟩ := flag
      cases model with
      | true => exact ih.cons_cons line
      | false =>
          cases row : isPumbleBlockRow line with
          | true =>
              rw [List.filter_cons_of_neg (by simp [isUntouched, row])]
              cases changed : changeRow line with
              | none => rwa [edit_cons_none changed]
              | some line' =>
                  rw [edit_cons_some changed]
                  exact ih.cons line'
          | false =>
              rw [List.filter_cons_of_pos (by simp [isUntouched, row]),
                edit_cons_some (spares_changeRow.other line row)]
              exact ih.cons_cons line

theorem separator_cases (lines : List Line) : separator lines = [] ∨ separator lines = [[]] := by
  unfold separator
  split
  · split_ifs <;> simp
  · exact .inl rfl

/-- A blank line behind some lines belongs to no model block. -/
theorem flagged_separator (inside : Bool) (lines lines' : List Line) :
    flagged inside (lines ++ separator lines') =
      flagged inside lines ++ (separator lines').map (·, false) := by
  induction lines generalizing inside with
  | nil =>
      rcases separator_cases lines' with none | one
      · rw [none]
        rfl
      · rw [one, List.nil_append, flagged_cons, isModelHeading_nil]
        cases inside <;> rfl
  | cons line lines ih =>
      rw [List.cons_append, flagged_cons, ih]
      rfl

theorem edit_lead (found : Bool) :
    edit changeRow ((adapterLead found).map (·, false)) = (adapterLead found).map (·, false) := by
  cases found with
  | true => rfl
  | false => exact edit_cons_some adapterRow_plain.2.2.2.2.1 []

theorem edit_separator (lines : List Line) :
    edit changeRow ((separator lines).map (·, false)) = (separator lines).map (·, false) := by
  rcases separator_cases lines with none | one
  · rw [none]
    rfl
  · rw [one]
    exact edit_cons_some (spares_changeRow.other [] rfl) []

theorem hasAdapter_separator (lines : List Line) :
    hasAdapter ((separator lines).map (·, false)) = false := by
  rcases separator_cases lines with none | one
  · rw [none]
    rfl
  · rw [one]
    rfl

theorem hasAdapter_lead (found : Bool) :
    hasAdapter ((adapterLead found).map (·, false)) = !found := by
  cases found with
  | true => rfl
  | false => exact (Bool.or_false _).trans adapterRow_plain.2.2.1

theorem mem_lead {found : Bool} {line : Line} {model : Bool}
    (listed : (line, model) ∈ (adapterLead found).map (·, false)) :
    model = false ∧ line = adapterRow := by
  obtain ⟨row, known, same⟩ := List.mem_map.mp listed
  rw [adapterLead] at known
  split_ifs at known
  · cases known
  · exact ⟨(congrArg Prod.snd same).symm,
      (congrArg Prod.fst same).symm.trans (List.mem_singleton.mp known)⟩

theorem parts_block {front rows back : List Line} (block : Block front rows back) :
    Parts (front ++ pumbleEnvHeading :: (rows ++ back))
      (adapterLead (hasAdapter (flagged false (front ++ pumbleEnvHeading :: (rows ++ back)))) ++
        walked front) (walked back) := by
  have changed := block.edit spares_changeRow
  have outside : outsideBlock (front ++ pumbleEnvHeading :: (rows ++ back)) =
      flagged false front ++ flagged false back := by
    rw [outsideBlock, takeWhile_block block, dropWhile_block block, List.drop_one, List.tail_cons,
      (rows_block block).2]
  refine ⟨heading_notMem_lead changed.front, changed.back, ?_, edit_walked back, ?_, ?_, ?_, ?_⟩
  · rw [flagged_lead, edit_append, edit_walked, edit_lead]
  · rw [flagged_lead, outside, hasAdapter_append, hasAdapter_append, hasAdapter_lead,
      flagged_walked, flagged_walked, hasAdapter_change, hasAdapter_change, hasAdapter_append,
      Bool.or_assoc, Bool.or_comm]
  · intro line model listed
    rw [flagged_lead, flagged_walked, flagged_walked, List.append_assoc, ← edit_append,
      ← outside] at listed
    rcases List.mem_append.mp listed with lead | listed
    · exact .inr ⟨(mem_lead lead).1, .inr (mem_lead lead).2⟩
    · exact .inl listed
  · intro flag listed
    rw [outside, edit_append] at listed
    rw [flagged_lead, flagged_walked, flagged_walked, List.append_assoc]
    exact List.mem_append_right _ listed
  · intro value
    have none : (rows.map (·, false)).filter isUntouched = [] := by
      rw [List.filter_eq_nil_iff]
      rintro flag listed
      obtain ⟨row, known, rfl⟩ := List.mem_map.mp listed
      simp [isUntouched, block.rows row known]
    have heading : isUntouched (pumbleEnvHeading, false) = true := by
      rw [isUntouched, heading_plain.2.2.2.2]
      rfl
    rw [untouched, flagged_block block, List.filter_append, List.filter_cons_of_pos heading,
      List.filter_append, none, List.nil_append, List.map_append, List.map_cons]
    refine ((untouched_sublist _).trans (List.sublist_append_right _ _)).append ?_
    exact ((untouched_sublist _).trans (List.sublist_append_right _ _)).cons_cons _

theorem parts_apart {lines : List Line} (none : pumbleEnvHeading ∉ lines) :
    Parts lines (adapterLead (hasAdapter (flagged false lines)) ++ walked lines ++
      separator (adapterLead (hasAdapter (flagged false lines)) ++ walked lines)) [] := by
  have none' := @heading_notMem_edit _ spares_changeRow false _ none
  have outside : outsideBlock lines = flagged false lines := by
    rw [outsideBlock, takeWhile_apart none, dropWhile_apart none]
    exact List.append_nil _
  have flags : flagged false (adapterLead (hasAdapter (flagged false lines)) ++ walked lines ++
      separator (adapterLead (hasAdapter (flagged false lines)) ++ walked lines)) =
      (adapterLead (hasAdapter (flagged false lines))).map (·, false) ++
        (edit changeRow (flagged false lines) ++ (separator
          (adapterLead (hasAdapter (flagged false lines)) ++ walked lines)).map (·, false)) := by
    rw [flagged_separator, flagged_lead, flagged_walked, List.append_assoc]
  have empty : flagged false ([] : List Line) = [] := rfl
  refine ⟨?_, nofun, ?_, rfl, ?_, ?_, ?_, ?_⟩
  · rw [List.mem_append, not_or]
    refine ⟨heading_notMem_lead none', fun listed => ?_⟩
    exact pumbleEnvHeading_ne_nil (mem_separator listed)
  · rw [flags, edit_append, edit_append, edit_lead, edit_change_again, edit_separator]
  · rw [flags, outside, empty, List.append_nil, hasAdapter_append, hasAdapter_append,
      hasAdapter_lead, hasAdapter_change, hasAdapter_separator, Bool.or_false, Bool.or_comm]
  · intro line model listed
    rw [flags, empty, List.append_nil, ← outside] at listed
    rcases List.mem_append.mp listed with lead | listed
    · exact .inr ⟨(mem_lead lead).1, .inr (mem_lead lead).2⟩
    rcases List.mem_append.mp listed with listed | blank
    · exact .inl listed
    · obtain ⟨row, known, same⟩ := List.mem_map.mp blank
      exact .inr ⟨(congrArg Prod.snd same).symm,
        .inl ((congrArg Prod.fst same).symm.trans (mem_separator known))⟩
  · intro flag listed
    rw [outside] at listed
    rw [flags, empty, List.append_nil]
    exact List.mem_append_right _ (List.mem_append_left _ listed)
  · intro value
    have walk : (untouched lines).Sublist (walked lines) := untouched_sublist _
    rw [List.append_assoc, List.append_assoc]
    exact (walk.trans (List.sublist_append_left _ _)).trans (List.sublist_append_right _ _)

/-- The text has the block between two parts. -/
theorem exists_parts (lines : List Line) : ∃ front back, Parts lines front back ∧
    updatedLines lines = front ++ (pumbleBlock (knownValue lines) ++ back) := by
  rcases exists_block lines with none | ⟨front, rows, back, rfl, block⟩
  · refine ⟨_, _, parts_apart none, ?_⟩
    rw [updatedLines_apart none, List.append_nil]
  · exact ⟨_, _, parts_block block, updatedLines_block block⟩

/-! ### The update -/

/-- A text after the update: the adapter is set to Pumble, each field has one row
with the value that it had outside of the model blocks, the other lines are kept in
their order, and another update changes nothing. -/
structure PumbleBlockUpdated (source text : List Char) : Prop where
  adapter : ∃ line ∈ linesOf text, isAdapterRow line = true
  pointed : ∀ line ∈ linesOf text, isAdapterRow line = true → rowValue line = "pumble".toList
  fields : ∀ field ∈ pumbleRuntimeFields,
    (linesOf text).filter (fun line => rowName line = some field) =
      [field ++ '=' :: knownValue (linesOf source) field]
  preserved : (untouched (linesOf source)).Sublist (linesOf text)
  again : updatePumbleBlock text = text

/-- What a source has to be like: an adapter row stands outside of the block if
there is one at all, no line that is kept and no value ends with a carriage return
that is not part of a line ending, and no model block has a row of the block or
another adapter. -/
structure PumbleSafe (source : List Char) : Prop where
  adapter : hasAdapter (flagged false (linesOf source)) = true →
    hasAdapter (outsideBlock (linesOf source)) = true
  plain : hasCrlf source = false →
    (∀ line model, (line, model) ∈ outsideBlock (linesOf source) →
      model = true ∨ isReplacedRow line = false ∧ isAdapterRow line = false → ¬EndsCr line) ∧
    ∀ field ∈ pumbleRuntimeFields, ¬EndsCr (knownValue (linesOf source) field)
  models : ∀ line, (line, true) ∈ outsideBlock (linesOf source) →
    (∀ field ∈ pumbleRuntimeFields, rowName line ≠ some field) ∧
    (isAdapterRow line = true → rowValue line = "pumble".toList)

theorem newline_notMem_pointRow {line : Line} (none : '\n' ∉ line) : '\n' ∉ pointRow line := by
  have pumble : '\n' ∉ '=' :: "pumble".toList := by decide
  rw [pointRow]
  split_ifs
  · rw [setRow, List.mem_append, not_or]
    exact ⟨fun inside => none ((List.takeWhile_sublist _).subset inside), pumble⟩
  · exact none

theorem plain_pointRow {line : Line} (adapter : isAdapterRow line = true) :
    ¬EndsCr (pointRow line) := by
  rw [pointRow, if_pos adapter, setRow, EndsCr]
  simp

theorem endsCr_row (front value : Line) : EndsCr (front ++ '=' :: value) ↔ EndsCr value := by
  rw [EndsCr, EndsCr, List.getLast?_append]
  cases value with
  | nil => simp
  | cons c value => simp [List.getLast?_cons_cons]

theorem knownValue_subset (lines : List Line) (field : Line) :
    knownValue lines field = [] ∨ ∃ line ∈ lines, knownValue lines field ⊆ line := by
  rw [knownValue_eq]
  cases found : firstValue field (flagged false lines) with
  | none => exact .inl rfl
  | some value =>
      obtain ⟨⟨line, model⟩, listed, same⟩ := List.exists_of_findSome?_eq_some found
      dsimp only at same
      split_ifs at same
      refine .inr ⟨line, mem_of_flagged listed, ?_⟩
      rw [Option.getD_some, ← Option.some.inj same, rowValue]
      exact ((List.drop_sublist _ _).trans (List.dropWhile_sublist _)).subset

theorem mem_outsideBlock {lines : List Line} {line : Line} {model : Bool}
    (listed : (line, model) ∈ outsideBlock lines) : line ∈ lines := by
  rcases List.mem_append.mp listed with front | back
  · exact (List.takeWhile_sublist _).subset (mem_of_flagged front)
  · exact (((List.dropWhile_sublist _).trans (List.drop_sublist _ _)).trans
      (List.dropWhile_sublist _)).subset (mem_of_flagged back)

/-- A line after the walk: one of a model block, or one outside of them that has
been pointed to Pumble. -/
theorem mem_walk {flags : List (Line × Bool)} {line : Line} {model : Bool}
    (listed : (line, model) ∈ edit changeRow flags) :
    model = true ∧ (line, true) ∈ flags ∨ model = false ∧ isReplacedRow line = false ∧
      ∃ before, (before, false) ∈ flags ∧ isReplacedRow before = false ∧ line = pointRow before := by
  refine (mem_edit listed).imp_right fun ⟨own, before, known, changed⟩ => ⟨own, ?_⟩
  have scrubbed : ∀ {l l'}, changeRow l = some l' → isReplacedRow l = false ∧ l' = pointRow l := by
    intro l l' changed
    rw [changeRow, scrubRow] at changed
    split_ifs at changed with replaced
    · cases changed
    · exact ⟨Bool.eq_false_iff.mpr replaced, (Option.some.inj changed).symm⟩
  exact ⟨(scrubbed (changeRow_again changed)).1, before, known, scrubbed changed⟩

section Written

variable {lines front back : List Line} (parts : Parts lines front back)
  (text : updatedLines lines = front ++ (pumbleBlock (knownValue lines) ++ back))

include parts text

/-- Each line of the text. -/
theorem mem_updatedLines {line : Line} (listed : line ∈ updatedLines lines) :
    (∃ model, (line, model) ∈ edit changeRow (outsideBlock lines)) ∨
      (line = [] ∨ line = adapterRow) ∨ line = pumbleEnvHeading ∨
      ∃ field ∈ pumbleRuntimeFields, line = field ++ '=' :: knownValue lines field := by
  have around : line ∈ front ++ back →
      (∃ model, (line, model) ∈ edit changeRow (outsideBlock lines)) ∨
        line = [] ∨ line = adapterRow := by
    intro listed
    obtain ⟨model, flag⟩ : ∃ model, (line, model) ∈ flagged false front ++ flagged false back := by
      rw [← flagged_lines false front, ← flagged_lines false back, ← List.map_append] at listed
      obtain ⟨⟨l, model⟩, known, rfl⟩ := List.mem_map.mp listed
      exact ⟨model, known⟩
    exact (parts.sound line model flag).imp (fun known => ⟨model, known⟩) And.right
  rw [text] at listed
  rcases List.mem_append.mp listed with listed | listed
  · exact (around (List.mem_append_left _ listed)).imp_right .inl
  rcases List.mem_append.mp listed with listed | listed
  · rw [pumbleBlock_eq, List.mem_cons] at listed
    refine .inr (.inr (listed.imp_right fun row => ?_))
    obtain ⟨field, known, same⟩ := List.mem_map.mp row
    exact ⟨field, known, same.symm⟩
  · exact (around (List.mem_append_right _ listed)).imp_right .inl

omit text in
/-- The lines that the walk leaves are in the text. -/
theorem updatedLines_complete {line : Line} {model : Bool}
    (listed : (line, model) ∈ edit changeRow (outsideBlock lines)) : line ∈ front ++ back := by
  rw [← flagged_lines false front, ← flagged_lines false back, ← List.map_append]
  exact List.mem_map_of_mem (f := Prod.fst) (parts.complete _ listed)

theorem newline_notMem_parts (none : ∀ line ∈ lines, '\n' ∉ line) :
    ∀ line ∈ updatedLines lines, '\n' ∉ line := by
  intro line listed
  rcases mem_updatedLines parts text listed with
    ⟨model, walk⟩ | (rfl | rfl) | heading | ⟨field, known, rfl⟩
  · rcases mem_walk walk with ⟨-, kept⟩ | ⟨-, -, before, kept, -, rfl⟩
    · exact none _ (mem_outsideBlock kept)
    · exact newline_notMem_pointRow (none _ (mem_outsideBlock kept))
  · exact List.not_mem_nil
  · exact adapterRow_plain.2.2.2.2.2.2
  · exact heading ▸ plain_pumbleEnvHeading.1
  · have plain : ∀ f ∈ pumbleRuntimeFields, '\n' ∉ f := by
      rw [pumbleRuntimeFields_chars]
      decide
    have value : '\n' ∉ knownValue lines field := by
      rcases knownValue_subset lines field with empty | ⟨l, inside, part⟩
      · rw [empty]
        exact List.not_mem_nil
      · exact fun newline => none l inside (part newline)
    rw [List.mem_append, List.mem_cons, not_or, not_or]
    exact ⟨plain field known, by decide, value⟩

theorem plain_updatedLines_iff : (∀ line ∈ updatedLines lines, ¬EndsCr line) ↔
    (∀ line model, (line, model) ∈ outsideBlock lines →
      model = true ∨ isReplacedRow line = false ∧ isAdapterRow line = false → ¬EndsCr line) ∧
    ∀ field ∈ pumbleRuntimeFields, ¬EndsCr (knownValue lines field) := by
  constructor
  · intro plain
    constructor
    · intro line model known kept
      have walk : (line, model) ∈ edit changeRow (outsideBlock lines) := by
        refine List.mem_filterMap.mpr ⟨(line, model), known, ?_⟩
        cases model with
        | true => rfl
        | false =>
            obtain ⟨replaced, adapter⟩ := kept.resolve_left Bool.false_ne_true
            simp [changeRow, scrubRow, replaced, pointRow, adapter]
      apply plain
      rw [text]
      rcases List.mem_append.mp (updatedLines_complete parts walk) with listed | listed
      · exact List.mem_append_left _ listed
      · exact List.mem_append_right _ (List.mem_append_right _ listed)
    · intro field known ends
      refine plain (field ++ '=' :: knownValue lines field) ?_ ((endsCr_row _ _).mpr ends)
      rw [text, pumbleBlock_eq]
      refine List.mem_append_right _ (List.mem_append_left _ (List.mem_cons_of_mem _ ?_))
      exact List.mem_map_of_mem (f := fun f => f ++ '=' :: knownValue lines f) known
  · rintro ⟨kept, values⟩ line listed
    rcases mem_updatedLines parts text listed with
      ⟨model, walk⟩ | (rfl | rfl) | heading | ⟨field, known, rfl⟩
    · rcases mem_walk walk with ⟨-, known⟩ | ⟨-, -, before, known, replaced, rfl⟩
      · exact kept line true known (.inl rfl)
      · cases adapter : isAdapterRow before with
        | true => exact plain_pointRow adapter
        | false =>
            rw [pointRow, adapter, if_neg Bool.false_ne_true]
            exact kept before false known (.inr ⟨replaced, adapter⟩)
    · simp [EndsCr]
    · exact adapterRow_plain.2.2.2.2.2.1
    · exact heading ▸ plain_pumbleEnvHeading.2
    · rw [endsCr_row]
      exact values field known

omit parts in
theorem mem_of_adapter {line : Line} (listed : line ∈ updatedLines lines)
    (adapter : isAdapterRow line = true) : line ∈ front ++ back := by
  rw [text] at listed
  rcases List.mem_append.mp listed with listed | listed
  · exact List.mem_append_left _ listed
  rcases List.mem_append.mp listed with listed | listed
  · rw [pumbleBlock_eq, List.mem_cons] at listed
    rcases listed with heading | row
    · rw [heading, heading_plain.2.2.1] at adapter
      cases adapter
    · rw [(blockRows_plain row).2] at adapter
      cases adapter
  · exact List.mem_append_right _ listed

end Written

/-- A text whose lines can be read back stays as it is when it is updated again, if
and only if it has an adapter row outside of the model blocks. -/
theorem again_iff {eol : List Char} {front back : List Line} {value : Line → Line}
    (writable : Writable eol (front ++ (pumbleBlock value ++ back)))
    (again : updatedLines (front ++ (pumbleBlock value ++ back)) =
      adapterLead (hasAdapter (flagged false front ++ flagged false back)) ++
        (front ++ (pumbleBlock value ++ back))) :
    updatePumbleBlock (unlines eol (front ++ (pumbleBlock value ++ back))) =
        unlines eol (front ++ (pumbleBlock value ++ back)) ↔
      hasAdapter (flagged false front ++ flagged false back) = true := by
  rw [updatePumbleBlock, writable.detectEol_unlines (by simp [pumbleBlock_eq]),
    writable.linesOf_unlines, again]
  cases hasAdapter (flagged false front ++ flagged false back) with
  | true => exact iff_of_true rfl rfl
  | false =>
      refine iff_of_false (fun same => ?_) nofun
      have lengths := congrArg List.length same
      have lead : adapterLead false ++ (front ++ (pumbleBlock value ++ back)) =
          adapterRow :: (front ++ (pumbleBlock value ++ back)) := rfl
      rw [lead, unlines, List.flatMap_cons, List.length_append, ← unlines] at lengths
      have positive : 0 < (adapterRow ++ eol).length := by
        rw [List.length_append]
        exact Nat.add_pos_left (by decide) _
      omega

/-- A text with a carriage return at the end of a line, and without the longer line
ending, is changed by another update: all its lines get that ending. -/
theorem plain_of_again {lines : List Line} (noNewline : ∀ line ∈ lines, '\n' ∉ line)
    (heading : pumbleEnvHeading ∈ lines)
    (written : ∀ line ∈ updatedLines (lines.map chomp), '\n' ∉ line)
    (again : updatePumbleBlock (unlines lf lines) = unlines lf lines) :
    ∀ line ∈ lines, ¬EndsCr line := by
  intro line listed ends
  have found : hasCrlf (unlines lf lines) = true := by
    have iff := @hasCrlf_unlines lines [] noNewline List.not_mem_nil
    rw [List.append_nil] at iff
    exact iff.mpr ⟨line, listed, ends⟩
  rw [updatePumbleBlock, detectEol, if_pos found, linesOf_unlines_lf noNewline,
    unlines_crlf] at again
  have noNewline' : ∀ l ∈ (updatedLines (lines.map chomp)).map (· ++ ['\r']), '\n' ∉ l := by
    intro l known
    obtain ⟨m, there, rfl⟩ := List.mem_map.mp known
    rw [List.mem_append, not_or]
    exact ⟨written m there, by decide⟩
  have same := unlines_lf_injective noNewline' noNewline again
  rw [← same] at heading
  obtain ⟨m, -, equal⟩ := List.mem_map.mp heading
  exact plain_pumbleEnvHeading.2 (equal ▸ by simp [EndsCr])

/-- The rows of a field among those of the block. -/
theorem filter_rows {value : Line → Line} {fields : List Line} (distinct : fields.Nodup)
    (each : ∀ f ∈ fields, f ∈ pumbleRuntimeFields) (field : Line) :
    (blockRows value fields).filter (fun line => rowName line = some field) =
      if field ∈ fields then [field ++ '=' :: value field] else [] := by
  induction fields with
  | nil => rfl
  | cons f fields ih =>
      obtain ⟨first, others⟩ := List.forall_mem_cons.mp each
      obtain ⟨new, distinct⟩ := List.nodup_cons.mp distinct
      obtain ⟨name, -⟩ := rowName_field first (value f)
      specialize ih distinct others
      rw [blockRows, List.map_cons, ← blockRows, List.filter_cons, ih, name]
      by_cases same : f = field
      · subst same
        simp [new]
      · have other : ¬field = f := fun h => same h.symm
        simp [same, other]

/-- In a model block or not, the lines that the walk leaves are no rows of the
fields, unless a model block of the source has one. -/
theorem no_field {lines front back : List Line} (parts : Parts lines front back)
    (models : ∀ line, (line, true) ∈ outsideBlock lines →
      ∀ field ∈ pumbleRuntimeFields, rowName line ≠ some field)
    {part : List Line} (one : part = front ∨ part = back) {field : Line}
    (known : field ∈ pumbleRuntimeFields) :
    part.filter (fun line => rowName line = some field) = [] := by
  rw [List.filter_eq_nil_iff]
  intro line listed named
  rw [decide_eq_true_eq] at named
  obtain ⟨model, flag⟩ : ∃ model, (line, model) ∈ flagged false front ++ flagged false back := by
    have inside : line ∈ front ++ back := by
      rcases one with rfl | rfl
      · exact List.mem_append_left _ listed
      · exact List.mem_append_right _ listed
    rw [← flagged_lines false front, ← flagged_lines false back, ← List.map_append] at inside
    obtain ⟨⟨l, model⟩, there, rfl⟩ := List.mem_map.mp inside
    exact ⟨model, there⟩
  rcases parts.sound line model flag with walk | ⟨-, rfl | rfl⟩
  · rcases mem_walk walk with ⟨-, kept⟩ | ⟨-, other, -⟩
    · exact models line kept field known named
    · rw [isReplacedRow, named] at other
      simp [isPumbleName_of_field known, known] at other
  · cases named
  · have none : ∀ f ∈ pumbleRuntimeFields, rowName adapterRow ≠ some f := by
      rw [pumbleRuntimeFields_chars, adapterRow, adapterName_chars]
      decide
    exact none field known named

theorem newline_notMem_updatedLines {lines : List Line} (none : ∀ line ∈ lines, '\n' ∉ line) :
    ∀ line ∈ updatedLines lines, '\n' ∉ line := by
  obtain ⟨front, back, parts, text⟩ := exists_parts lines
  exact newline_notMem_parts parts text none

theorem newline_notMem_chomp {lines : List Line} (none : ∀ line ∈ lines, '\n' ∉ line) :
    ∀ line ∈ lines.map chomp, '\n' ∉ line := by
  intro line listed
  obtain ⟨before, known, rfl⟩ := List.mem_map.mp listed
  rw [chomp]
  split_ifs
  · exact fun inside => none before known (List.mem_of_mem_dropLast inside)
  · exact none before known

/-- The block has one row of each field. -/
theorem filter_block (value : Line → Line) {field : Line} (known : field ∈ pumbleRuntimeFields) :
    (pumbleBlock value).filter (fun line => rowName line = some field) =
      [field ++ '=' :: value field] := by
  have distinct : pumbleRuntimeFields.Nodup := by
    rw [pumbleRuntimeFields_chars]
    decide
  rw [pumbleBlock_eq, List.filter_cons_of_neg (by simp [rowName_pumbleEnvHeading]),
    filter_rows distinct (fun f => id), if_pos known]

section Claim

variable {source : List Char} {front back : List Line}
  (parts : Parts (linesOf source) front back)
  (text : updatedLines (linesOf source) =
    front ++ (pumbleBlock (knownValue (linesOf source)) ++ back))

include parts text

theorem updatedLines_again_parts : updatedLines (updatedLines (linesOf source)) =
    adapterLead (hasAdapter (flagged false front ++ flagged false back)) ++
      updatedLines (linesOf source) := by
  rw [text]
  exact updatedLines_again parts.noHeading parts.stops parts.fixedFront parts.fixedBack
    fun field => knownValue_blank

theorem again_parts_iff (writable : Writable (detectEol source) (updatedLines (linesOf source))) :
    updatePumbleBlock (updatePumbleBlock source) = updatePumbleBlock source ↔
      hasAdapter (flagged false front ++ flagged false back) = true := by
  have again := updatedLines_again_parts parts text
  have written : updatePumbleBlock source =
      unlines (detectEol source) (updatedLines (linesOf source)) := rfl
  rw [written, text] at *
  exact again_iff writable again

theorem safe_of_updated (updated : PumbleBlockUpdated source (updatePumbleBlock source)) :
    PumbleSafe source := by
  have noNewline := newline_notMem_updatedLines (newline_notMem_linesOf source)
  have writable : Writable (detectEol source) (updatedLines (linesOf source)) := by
    refine ⟨noNewline, ?_⟩
    rcases detectEol_cases source with ⟨short, -⟩ | ⟨long, -⟩
    · have again := updated.again
      have written : updatePumbleBlock source = unlines lf (updatedLines (linesOf source)) := by
        rw [updatePumbleBlock, short]
      rw [written] at again
      refine .inl ⟨short, plain_of_again noNewline ?_
        (newline_notMem_updatedLines (newline_notMem_chomp noNewline)) again⟩
      rw [text, pumbleBlock_eq]
      exact List.mem_append_right _ (List.mem_append_left _ List.mem_cons_self)
    · exact .inr long
  have lines : linesOf (updatePumbleBlock source) = updatedLines (linesOf source) :=
    writable.linesOf_unlines
  have found := (again_parts_iff parts text writable).mp updated.again
  refine ⟨fun adapter => ?_, fun none => ?_, fun line model => ?_⟩
  · rw [parts.adapter, adapter] at found
    exact (Bool.or_false _).symm.trans found
  · refine (plain_updatedLines_iff parts text).mp ?_
    have short : detectEol source = lf := by rw [detectEol, none]; rfl
    rcases writable.2 with ⟨-, plain⟩ | long
    · exact plain
    · rw [short] at long
      cases long
  · have walk : (line, true) ∈ edit changeRow (outsideBlock (linesOf source)) :=
      List.mem_filterMap.mpr ⟨(line, true), model, rfl⟩
    have inside := updatedLines_complete parts walk
    refine ⟨fun field known named => ?_, fun adapter => updated.pointed line ?_ adapter⟩
    · have one := updated.fields field known
      rw [lines, text, List.filter_append, List.filter_append, filter_block _ known] at one
      have lengths := congrArg List.length one
      simp only [List.length_append, List.length_singleton] at lengths
      have some : 0 < ((front ++ back).filter (fun line => rowName line = some field)).length :=
        List.length_pos_of_mem (List.mem_filter.mpr ⟨inside, decide_eq_true named⟩)
      rw [List.filter_append, List.length_append] at some
      omega
    · rw [lines, text]
      rcases List.mem_append.mp inside with listed | listed
      · exact List.mem_append_left _ listed
      · exact List.mem_append_right _ (List.mem_append_right _ listed)

theorem updated_of_safe (safe : PumbleSafe source) :
    PumbleBlockUpdated source (updatePumbleBlock source) := by
  have writable : Writable (detectEol source) (updatedLines (linesOf source)) := by
    refine ⟨newline_notMem_updatedLines (newline_notMem_linesOf source), ?_⟩
    rcases detectEol_cases source with ⟨short, none⟩ | ⟨long, -⟩
    · exact .inl ⟨short, (plain_updatedLines_iff parts text).mpr (safe.plain none)⟩
    · exact .inr long
  have lines : linesOf (updatePumbleBlock source) = updatedLines (linesOf source) :=
    writable.linesOf_unlines
  have found : hasAdapter (flagged false front ++ flagged false back) = true := by
    rw [parts.adapter]
    cases adapter : hasAdapter (flagged false (linesOf source)) with
    | false => exact Bool.or_true _
    | true => exact (Bool.or_false _).trans (safe.adapter adapter)
  have inText : ∀ line ∈ front ++ back, line ∈ updatedLines (linesOf source) := by
    intro line inside
    rw [text]
    rcases List.mem_append.mp inside with listed | listed
    · exact List.mem_append_left _ listed
    · exact List.mem_append_right _ (List.mem_append_right _ listed)
  refine ⟨?_, ?_, ?_, ?_, (again_parts_iff parts text writable).mpr found⟩
  · obtain ⟨⟨line, model⟩, listed, adapter⟩ := List.any_eq_true.mp found
    rw [Bool.and_eq_true] at adapter
    refine ⟨line, lines ▸ inText line ?_, adapter.2⟩
    rw [← flagged_lines false front, ← flagged_lines false back, ← List.map_append]
    exact List.mem_map_of_mem (f := Prod.fst) listed
  · intro line listed adapter
    rw [lines] at listed
    have inside := mem_of_adapter text listed adapter
    rw [← flagged_lines false front, ← flagged_lines false back, ← List.map_append] at inside
    obtain ⟨⟨l, model⟩, flag, rfl⟩ := List.mem_map.mp inside
    rcases parts.sound l model flag with walk | ⟨-, rfl | rfl⟩
    · rcases mem_walk walk with ⟨-, kept⟩ | ⟨-, -, before, -, -, rfl⟩
      · exact (safe.models l kept).2 adapter
      · cases own : isAdapterRow before with
        | true => exact (rowName_pointRow own).2
        | false =>
            rw [pointRow, own, if_neg Bool.false_ne_true, own] at adapter
            cases adapter
    · cases adapter
    · exact adapterRow_plain.2.2.2.1
  · intro field known
    have models := fun line kept => (safe.models line kept).1
    rw [lines, text, List.filter_append, List.filter_append, filter_block _ known,
      no_field parts models (.inl rfl) known, no_field parts models (.inr rfl) known]
    rfl
  · rw [lines, text]
    exact parts.preserved _

end Claim

/-- The update of the Pumble block is right if and only if the source is safe. -/
theorem pumbleBlockUpdated_iff (source : List Char) :
    PumbleBlockUpdated source (updatePumbleBlock source) ↔ PumbleSafe source := by
  obtain ⟨front, back, parts, text⟩ := exists_parts (linesOf source)
  exact ⟨safe_of_updated parts text, updated_of_safe parts text⟩

/-- When the generated blocks are right: for the Pumble block if and only if the
source is safe for it, and for the model block, with any names that the code
accepts, if and only if the source is safe for that. -/
theorem envBlocks_iff (localeLe : Line → Line → Bool) (source : List Char) :
    (PumbleBlockUpdated source (updatePumbleBlock source) ↔ PumbleSafe source) ∧
      ∀ envNames : List String, (∀ name ∈ envNames, isEnvName name.toList = true) →
        ∃ text, updateModelEnvBlock localeLe source envNames = .ok text ∧
          (ModelBlockUpdated localeLe envNames source text ↔ ModelSafe source envNames) :=
  ⟨pumbleBlockUpdated_iff source, fun _ valid => modelBlockUpdated_iff source valid⟩

/-- An empty file is safe. -/
theorem envBlocks_iff_empty : PumbleBlockUpdated [] (updatePumbleBlock []) ∧
    ∃ text, updateModelEnvBlock (fun _ _ => true) [] ["OPENAI_API_KEY"] = .ok text ∧
      ModelBlockUpdated (fun _ _ => true) ["OPENAI_API_KEY"] [] text := by
  have both := envBlocks_iff (fun _ _ => true) []
  obtain ⟨text, done, iff⟩ := both.2 ["OPENAI_API_KEY"] (by decide)
  have lines : linesOf [] = [] := rfl
  refine ⟨both.1.mpr ⟨by decide, fun _ => ⟨?_, ?_⟩, ?_⟩, text, done, iff.mpr ⟨?_, ?_⟩⟩
  · rintro line model listed
    rw [lines] at listed
    cases listed
  · rintro field -
    rw [lines]
    nofun
  · rintro line listed
    rw [lines] at listed
    cases listed
  · rintro - line listed
    rw [outsideLines, lines] at listed
    cases listed
  · rw [lines]
    trivial

/-- The adapter row of another adapter. -/
def httpRow : Line := adapterName ++ "=http".toList

theorem httpRow_plain : isModelHeading httpRow = false ∧ isAdapterRow httpRow = true ∧
    isPumbleBlockRow httpRow = true ∧ '\n' ∉ httpRow ∧ ¬EndsCr httpRow := by
  rw [httpRow, isModelHeading, modelEnvHeading_chars, adapterName_chars]
  decide

theorem linesOf_adapterInside :
    linesOf (pumbleEnvHeading ++ "\nOMP_BUNDLER_ADAPTER=http\n".toList) =
      [pumbleEnvHeading, httpRow] := by
  have text : pumbleEnvHeading ++ "\nOMP_BUNDLER_ADAPTER=http\n".toList =
      unlines lf [pumbleEnvHeading, httpRow] := by
    have rest : "\nOMP_BUNDLER_ADAPTER=http\n".toList = '\n' :: (httpRow ++ ['\n']) := by
      rw [httpRow, adapterName_chars]
      decide
    rw [rest, unlines_cons, unlines_cons]
    rfl
  rw [text]
  refine Writable.linesOf_unlines ⟨?_, .inl ⟨rfl, ?_⟩⟩
  · simp [plain_pumbleEnvHeading, httpRow_plain]
  · simp [plain_pumbleEnvHeading, httpRow_plain]

theorem linesOf_twoBlocks :
    linesOf (modelEnvHeading ++ "\nA=\n".toList ++ modelEnvHeading ++ "\n\nX=1\n".toList) =
      [modelEnvHeading, "A=".toList, modelEnvHeading, [], "X=1".toList] := by
  have text (h : Line) : h ++ "\nA=\n".toList ++ h ++ "\n\nX=1\n".toList =
      unlines lf [h, "A=".toList, h, [], "X=1".toList] := by
    simp [unlines, lf]
  rw [text]
  refine Writable.linesOf_unlines ⟨?_, .inl ⟨rfl, ?_⟩⟩
  · simp [plain_heading]
  · simp only [List.forall_mem_cons, plain_heading, not_false_eq_true, true_and]
    decide

/-- With the adapter row in the Pumble block the text has no adapter row at all, and
with two model blocks next to each other a row behind them is lost. -/
theorem adapter_in_block_is_lost :
    ¬PumbleBlockUpdated (pumbleEnvHeading ++ "\nOMP_BUNDLER_ADAPTER=http\n".toList)
        (updatePumbleBlock (pumbleEnvHeading ++ "\nOMP_BUNDLER_ADAPTER=http\n".toList)) ∧
      ∀ localeLe, ∃ text,
        updateModelEnvBlock localeLe (modelEnvHeading ++ "\nA=\n".toList ++ modelEnvHeading ++
          "\n\nX=1\n".toList) ["A"] = .ok text ∧
        ¬ModelBlockUpdated localeLe ["A"] (modelEnvHeading ++ "\nA=\n".toList ++
          modelEnvHeading ++ "\n\nX=1\n".toList) text := by
  constructor
  · intro updated
    have found := ((pumbleBlockUpdated_iff _).mp updated).adapter
    rw [linesOf_adapterInside] at found
    simp [outsideBlock, flagged, managedModelBlockLines, hasAdapter, heading_plain,
      httpRow_plain] at found
  · intro localeLe
    have valid : ∀ name ∈ ["A"], isEnvName name.toList = true := by decide
    obtain ⟨text, done, iff⟩ := @modelBlockUpdated_iff localeLe ["A"]
      (modelEnvHeading ++ "\nA=\n".toList ++ modelEnvHeading ++ "\n\nX=1\n".toList) valid
    refine ⟨text, done, fun updated => ?_⟩
    obtain ⟨-, detached⟩ := iff.mp updated
    have rows : isModelHeading ['A', '='] = false ∧ isModelHeading ['X', '=', '1'] = false ∧
        isAssignment ['A', '='] = true ∧ isAssignment ['X', '=', '1'] = true ∧
        isAssignment [] = false := by
      simp only [isModelHeading, modelEnvHeading_chars]
      decide
    rw [linesOf_twoBlocks] at detached
    simp [Detached, outsideFrom, Joins, isModelHeading_modelEnvHeading, isModelHeading_nil, rows,
      isBlankLine] at detached

end OmpBundler.Cli
