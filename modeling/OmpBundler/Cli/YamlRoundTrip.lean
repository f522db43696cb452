import OmpBundler.Cli.YamlLines

/-!
What the command line writes it reads back.

A key is written without quotes, so it must be a text that needs none. A list
item whose first property is a block may have no other property: the reader
takes the lines behind that block for a part of it.
-/

namespace OmpBundler.Cli

open Library

section

variable {ν : Type} (F : NumberFormat ν)

/-- The value takes more than one line. -/
def isNested : Json ν → Bool
  | .array (_ :: _) => true
  | .object (_ :: _) => true
  | _ => false

/-- An item of a list that is no list of its own. -/
def fitsItem : Json ν → Bool
  | .string units => !(isPlainString units && (Json.textOfUnits units).getLast? = some ':')
  | .object ((_, v) :: _ :: _) => !isNested v
  | _ => true

/-- What can be written so that it is read back. -/
inductive Writable : Json ν → Prop
  | null : Writable .null
  | bool (b : Bool) : Writable (.bool b)
  | number (n : ν) (numeral : isNumeral (F.text n) = true) : Writable (.number n)
  | string (units : List UInt16)
      (noNumeral : isPlainString units = true → isNumeral (Json.textOfUnits units) = false) :
      Writable (.string units)
  | array (items : List (Json ν)) (each : ∀ v ∈ items, Writable v)
      (fits : ∀ v ∈ items, fitsItem v = true) : Writable (.array items)
  | object (entries : List (List UInt16 × Json ν))
      (names : ∀ p ∈ entries, ∃ k, IsKey k ∧ p.1 = Json.unitsOfText k)
      (distinct : (entries.map Prod.fst).Nodup) (values : ∀ p ∈ entries, Writable p.2) :
      Writable (.object entries)

/-- The text of a value on one line. -/
def leafText : Json ν → List Char
  | .array _ => "[]".toList
  | .object _ => "\x7b\x7d".toList
  | v => formatScalar F v

/-! ### Scalars -/

theorem isSolid_of_isNumberChar {c : Char} (number : isNumberChar c = true) :
    isSolid c = true := by
  have digits : ∀ n < 58, 48 ≤ n → isSolid (Char.ofNat n) = true := by decide
  have listed : ∀ c ∈ ['+', '-', '.', 'e', 'E'], isSolid c = true := by
    simp only [List.forall_mem_cons]
    exact ⟨by decide, by decide, by decide, by decide, by decide, List.forall_mem_nil _⟩
  simp only [isNumberChar, Bool.or_eq_true, decide_eq_true_eq] at number
  rcases number with digit | other
  · have range : 48 ≤ c.toNat ∧ c.toNat ≤ 57 := Char.isDigit_iff_toNat.mp digit
    rw [← Char.ofNat_toNat c]
    exact digits _ (by omega) range.1
  · exact listed c other

/-- The text of a plain string has its units as characters. -/
theorem textOfUnits_plain {units : List UInt16} (plain : units.all isPlainUnit = true) :
    Json.textOfUnits units = units.map (Char.ofNat ·.toNat) ∧
      Json.unitsOfText (Json.textOfUnits units) = units := by
  induction units with
  | nil => exact ⟨rfl, rfl⟩
  | cons u rest ih =>
    rw [List.all_cons, Bool.and_eq_true] at plain
    obtain ⟨text, back⟩ := ih plain.2
    have small : u.toNat < 128 := by
      have first := plain.1
      simp only [isPlainUnit, Bool.and_eq_true, decide_eq_true_eq] at first
      exact first.1
    have high : ¬Json.isHigh u := by
      simp only [Json.isHigh, decide_eq_true_eq]
      omega
    have low : ¬Json.isLow u := by
      simp only [Json.isLow, decide_eq_true_eq]
      omega
    have value : (Char.ofNat u.toNat).toNat = u.toNat :=
      Json.toNat_ofNat (show _ ∨ _ by omega)
    have unit : Json.unitsOf (Char.ofNat u.toNat) = [u] := by
      rw [Json.unitsOf, Utf16.unitsOf, value, if_pos (by omega), List.map_singleton,
        UInt16.ofNat_toNat]
    rw [Json.textOfUnits_cons high low]
    refine ⟨congrArg _ text, ?_⟩
    rw [Json.unitsOfText, List.flatMap_cons, unit]
    exact congrArg (u :: ·) back

theorem isPlainString_iff {units : List UInt16} : isPlainString units = true ↔
    units ≠ [] ∧ units.all isPlainUnit = true ∧
      lowered (Json.textOfUnits units) ∉
        ["true".toList, "false".toList, "null".toList, "~".toList] := by
  simp [isPlainString, isWord, and_assoc]

theorem mem_textOfUnits_plain {units : List UInt16} (plain : isPlainString units = true) :
    ∀ c ∈ Json.textOfUnits units, isSolid c = true ∧ c ≠ '[' ∧ c ≠ '\x7b' := by
  have listed : ∀ n < 128, ((Char.ofNat n).isAlphanum ||
      decide (Char.ofNat n ∈ ['_', '.', '/', ':', '@', '+', '-'])) = true →
        isSolid (Char.ofNat n) = true ∧ Char.ofNat n ≠ '[' ∧ Char.ofNat n ≠ '\x7b' := by decide
  obtain ⟨-, each, -⟩ := isPlainString_iff.mp plain
  rw [(textOfUnits_plain each).1]
  intro c mem
  obtain ⟨u, inside, rfl⟩ := List.mem_map.mp mem
  have unit := List.all_eq_true.mp each u inside
  simp only [isPlainUnit, Bool.and_eq_true, decide_eq_true_eq] at unit
  exact listed _ unit.1 unit.2

theorem solid_plain {units : List UInt16} (plain : isPlainString units = true) :
    Solid (Json.textOfUnits units) where
  filled empty := by
    obtain ⟨filled, each, -⟩ := isPlainString_iff.mp plain
    rw [(textOfUnits_plain each).1, List.map_eq_nil_iff] at empty
    exact filled empty
  each c mem := (mem_textOfUnits_plain plain c mem).1

theorem solid_number (n : ν) : Solid (F.text n) where
  filled := F.text_ne_nil n
  each c mem := isSolid_of_isNumberChar (F.text_chars n c mem)

theorem isSolid_word : Solid "null".toList ∧ Solid "true".toList ∧ Solid "false".toList ∧
    Solid "[]".toList ∧ Solid "\x7b\x7d".toList := by
  have solid : ∀ {t : List Char}, t ≠ [] ∧ t.all isSolid = true → Solid t :=
    fun all => ⟨all.1, List.all_eq_true.mp all.2⟩
  exact ⟨solid (by decide), solid (by decide), solid (by decide), solid (by decide),
    solid (by decide)⟩

variable {F}

theorem legible_leafText (v : Json ν) : Legible (leafText F v) := by
  obtain ⟨null, yes, no, list, object⟩ := isSolid_word
  cases v with
  | null => exact null.legible
  | bool b =>
    cases b
    · exact no.legible
    · exact yes.legible
  | number n => exact (solid_number F n).legible
  | string units =>
    show Legible (if _ then _ else _)
    split_ifs with plain
    · exact (solid_plain plain).legible
    · exact ⟨trimmed_literal units, Json.literal_printable units,
        fun before _ => stripCommentFrom_literal before units⟩
  | array _ => exact list.legible
  | object _ => exact object.legible

/-- A list item on one line is no mapping. -/
theorem splitPair_leafText {v : Json ν} (fits : fitsItem v = true) :
    splitPair F (leafText F v) = .ok none := by
  have none_of {t : List Char} (none : findColon .none [] t = none) : splitPair F t = .ok .none := by
    rw [splitPair, none]
  have solid {t : List Char} (solid : Solid t) (last : t.getLast? ≠ some ':') :
      splitPair F t = .ok .none :=
    none_of (findColon_bare_none solid.bare solid.unsplit last [])
  obtain ⟨null, yes, no, list, object⟩ := isSolid_word
  cases v with
  | null => exact solid null (show "null".toList.getLast? ≠ some ':' by decide)
  | bool b =>
    cases b
    · exact solid no (show "false".toList.getLast? ≠ some ':' by decide)
    · exact solid yes (show "true".toList.getLast? ≠ some ':' by decide)
  | number n =>
    refine solid (solid_number F n) fun last => ?_
    exact absurd (F.text_chars n _ (List.mem_of_mem_getLast? last)) (by decide)
  | string units =>
    show splitPair F (if _ then _ else _) = _
    split_ifs with plain
    · refine solid (solid_plain plain) fun last => ?_
      simp [fitsItem, plain, last] at fits
    · exact none_of (findColon_literal [] units)
  | array _ => exact solid list (show "[]".toList.getLast? ≠ some ':' by decide)
  | object _ => exact solid object (show "\x7b\x7d".toList.getLast? ≠ some ':' by decide)

theorem isWrapped_of_head {first last : Char} {t : List Char} (other : t.head? ≠ some first) :
    isWrapped first last t = false := by
  rw [isWrapped, decide_eq_false other, Bool.false_and]

/-- A scalar that begins like no collection. -/
theorem parseScalar_plain {t : List Char} (filled : t ≠ []) (list : t.head? ≠ some '[')
    (object : t.head? ≠ some '\x7b') (line : ℕ) : parseScalar F line t = parsePlain F t := by
  rw [parseScalar, dif_neg filled, isWrapped_of_head list, isWrapped_of_head object,
    if_neg (by decide)]

/-- A scalar that begins with no quote either. -/
theorem parsePlain_bare {t : List Char} (bare : Bare t) :
    parsePlain F t =
      if lowered t = "true".toList ∨ lowered t = "false".toList then
        .ok (.bool (lowered t = "true".toList))
      else if lowered t = "null".toList ∨ lowered t = "~".toList then .ok .null
      else
        match if isNumeral t then F.value t else none with
        | some n => .ok (.number n)
        | none => .ok (.string (Json.unitsOfText t)) := by
  have single : isWrapped '\'' '\'' t = false :=
    isWrapped_of_head fun first => (bare _ (List.mem_of_mem_head? first)).1 rfl
  have double : isWrapped '"' '"' t = false :=
    isWrapped_of_head fun first => (bare _ (List.mem_of_mem_head? first)).2 rfl
  have noQuote : ¬(isWrapped '"' '"' t = true ∨ isWrapped '\'' '\'' t = true) := by
    rw [single, double]
    decide
  exact if_neg noQuote

theorem isNumberChar_toLower {c : Char} (number : isNumberChar c = true) :
    isNumberChar c.toLower = true := by
  have digits : ∀ n < 58, 48 ≤ n → isNumberChar (Char.ofNat n).toLower = true := by decide
  have listed : ∀ c ∈ ['+', '-', '.', 'e', 'E'], isNumberChar c.toLower = true := by
    simp only [List.forall_mem_cons]
    exact ⟨by decide, by decide, by decide, by decide, by decide, List.forall_mem_nil _⟩
  simp only [isNumberChar, Bool.or_eq_true, decide_eq_true_eq] at number
  rcases number with digit | other
  · have range : 48 ≤ c.toNat ∧ c.toNat ≤ 57 := Char.isDigit_iff_toNat.mp digit
    rw [← Char.ofNat_toNat c]
    exact digits _ (by omega) range.1
  · exact listed c other

theorem parseScalar_number {n : ν} (numeral : isNumeral (F.text n) = true) (line : ℕ) :
    parseScalar F line (F.text n) = .ok (.number n) := by
  have first : ∀ c : Char, isNumberChar c = false → (F.text n).head? ≠ some c := by
    intro c other head
    rw [F.text_chars n c (List.mem_of_mem_head? head)] at other
    cases other
  have word : ∀ (c : Char) (t : List Char), isNumberChar c = false → c ∈ t →
      lowered (F.text n) ≠ t := by
    rintro c _ other mem rfl
    obtain ⟨d, inside, rfl⟩ := List.mem_map.mp mem
    rw [isNumberChar_toLower (F.text_chars n d inside)] at other
    cases other
  rw [parseScalar_plain (F.text_ne_nil n) (first _ (by decide)) (first _ (by decide)),
    parsePlain_bare (solid_number F n).bare, if_neg, if_neg, numeral, if_pos rfl, F.value_text]
  · exact not_or.mpr ⟨word 'n' _ (by decide) (by decide), word '~' _ (by decide) (by decide)⟩
  · exact not_or.mpr ⟨word 't' _ (by decide) (by decide), word 'f' _ (by decide) (by decide)⟩

/-- A collection on one line that is JSON. -/
theorem parseScalar_json {t : List Char} {v : Json ν} (filled : t ≠ [])
    (wrapped : isWrapped '[' ']' t ∨ isWrapped '\x7b' '\x7d' t) (parsed : Json.parse F t = some v)
    (line : ℕ) : parseScalar F line t = .ok v := by
  rw [parseScalar, dif_neg filled, if_pos wrapped, parsed]

theorem unquote_literal (units : List UInt16) : unquote F (Json.literal units) = .ok units := by
  have first : (Json.literal units).head? = some '"' := rfl
  have wrapped : isWrapped '"' '"' (Json.literal units) = true := by
    rw [isWrapped, literal_eq, ← List.cons_append, List.getLast?_concat]
    rfl
  have parsed : Json.parse F (Json.literal units) = some (.string units) :=
    Json.parse_stringify F (.string units)
  rw [unquote, isWrapped_of_head (by rw [first]; decide), if_neg (by decide), if_pos wrapped,
    parsed]

theorem parseScalar_literal (units : List UInt16) (line : ℕ) :
    parseScalar F line (Json.literal units) = .ok (.string units) := by
  have first : (Json.literal units).head? = some '"' := rfl
  have wrapped : isWrapped '"' '"' (Json.literal units) = true := by
    rw [isWrapped, literal_eq, ← List.cons_append, List.getLast?_concat]
    rfl
  rw [parseScalar_plain (trimmed_literal units).filled (by rw [first]; decide)
    (by rw [first]; decide), parsePlain, if_pos (.inl wrapped), unquote_literal]
  rfl

/-- A scalar, or an empty collection, is read back. -/
theorem parseScalar_leafText {v : Json ν} (writable : Writable F v) (leaf : isNested v = false)
    (line : ℕ) : parseScalar F line (leafText F v) = .ok v := by
  cases writable with
  | null =>
    show parseScalar F line "null".toList = _
    rw [parseScalar_plain (by decide) (by decide) (by decide)]
    rfl
  | bool b =>
    cases b
    · show parseScalar F line "false".toList = _
      rw [parseScalar_plain (by decide) (by decide) (by decide)]
      rfl
    · show parseScalar F line "true".toList = _
      rw [parseScalar_plain (by decide) (by decide) (by decide)]
      rfl
  | number n numeral => exact parseScalar_number numeral line
  | string units noNumeral =>
    show parseScalar F line (if _ then _ else _) = _
    split_ifs with plain
    · have solid := solid_plain plain
      obtain ⟨-, each, noWord⟩ := isPlainString_iff.mp plain
      simp only [List.mem_cons, List.not_mem_nil, or_false, not_or] at noWord
      have first : ∀ c, (Json.textOfUnits units).head? = some c → c ≠ '[' ∧ c ≠ '\x7b' :=
        fun c head => (mem_textOfUnits_plain plain c (List.mem_of_mem_head? head)).2
      rw [parseScalar_plain solid.filled (fun head => (first _ head).1 rfl)
        (fun head => (first _ head).2 rfl), parsePlain_bare solid.bare,
        if_neg (not_or.mpr ⟨noWord.1, noWord.2.1⟩), if_neg (not_or.mpr noWord.2.2),
        noNumeral plain, if_neg (by decide), (textOfUnits_plain each).2]
    · exact parseScalar_literal units line
  | array items =>
    cases items with
    | cons item items => cases leaf
    | nil =>
      exact parseScalar_json (t := Json.stringify F (.array [])) (List.cons_ne_nil _ _) (.inl rfl)
        (Json.parse_stringify F (.array [] nofun)) line
  | object entries =>
    cases entries with
    | cons entry entries => cases leaf
    | nil =>
      exact parseScalar_json (t := Json.stringify F (.object [])) (List.cons_ne_nil _ _) (.inr rfl)
        (Json.parse_stringify F (.object [] List.nodup_nil nofun)) line

/-! ### What is written -/

theorem keyed_text (k t : List Char) :
    Json.textOfUnits (Json.unitsOfText k) ++ ':' :: t = keyed k t := by
  rw [Json.textOfUnits_unitsOfText, keyed]

/-- A scalar, or an empty collection, behind its key. -/
theorem writeYamlValue_leaf {v : Json ν} (leaf : isNested v = false) (i : ℕ) (k : List Char) :
    writeYamlValue F v i (some (Json.unitsOfText k)) =
      [spaces i ++ keyed k (' ' :: leafText F v)] := by
  have line (t : List Char) : [spaces i ++ labelled (some (Json.unitsOfText k)) t] =
      [spaces i ++ keyed k (' ' :: t)] := by rw [labelled, keyed_text]
  cases v with
  | null => exact line _
  | bool b => exact line _
  | number n => exact line _
  | string units => exact line _
  | array items =>
    cases items with
    | nil => exact line _
    | cons item items => cases leaf
  | object entries =>
    cases entries with
    | nil => exact line _
    | cons entry entries => cases leaf

/-- A block behind its key. -/
theorem writeYamlValue_nested {v : Json ν} (nested : isNested v = true) (i : ℕ) (k : List Char) :
    writeYamlValue F v i (some (Json.unitsOfText k)) =
      (spaces i ++ keyed k []) :: writeYamlValue F v (i + 2) none := by
  have line (lines : List (List Char)) : header i (some (Json.unitsOfText k)) ++ lines =
      (spaces i ++ keyed k []) :: lines := by
    rw [header, keyed_text, List.singleton_append]
  cases v with
  | array items =>
    cases items with
    | nil => cases nested
    | cons item items => exact line _
  | object entries =>
    cases entries with
    | nil => cases nested
    | cons entry entries => exact line _
  | _ => cases nested

theorem writeItems_cons (v : Json ν) (items : List (Json ν)) (i : ℕ) :
    writeItems F (v :: items) i = writeItems F [v] i ++ writeItems F items i := by
  cases v with
  | array inner => cases inner <;> simp [writeItems]
  | object entries =>
    cases entries with
    | nil => simp [writeItems]
    | cons entry entries => simp [writeItems]
  | _ => simp [writeItems]

/-- A scalar, or an empty collection, in a list. -/
theorem writeItems_leaf {v : Json ν} (leaf : isNested v = false) (i : ℕ) :
    writeItems F [v] i = [spaces i ++ dashed (leafText F v)] := by
  cases v with
  | array items =>
    cases items with
    | nil => rfl
    | cons item items => cases leaf
  | object entries =>
    cases entries with
    | nil => rfl
    | cons entry entries => cases leaf
  | _ => rfl

/-- A list in a list. -/
theorem writeItems_array (x : Json ν) (items : List (Json ν)) (i : ℕ) :
    writeItems F [.array (x :: items)] i =
      (spaces i ++ ['-']) :: writeYamlValue F (.array (x :: items)) (i + 2) none := by
  simp [writeItems, writeYamlValue, header, childIndent]

/-- A mapping in a list: its first line has the hyphen. -/
theorem writeItems_object {k t : List Char} (key : IsKey k) {v : Json ν}
    {lines : List (List Char)} {i : ℕ}
    (first : writeYamlValue F v (i + 2) (some (Json.unitsOfText k)) =
      (spaces (i + 2) ++ keyed k t) :: lines) (entries : List (List UInt16 × Json ν)) :
    writeItems F [.object ((Json.unitsOfText k, v) :: entries)] i =
      (spaces i ++ dashed (keyed k t)) :: (lines ++ writeEntries F entries (i + 2)) := by
  rw [writeItems, writeItems, List.append_nil]
  simp only [first, List.head?_cons, Option.getD_some, trimStart_spaces (key.head_keyed t),
    List.tail_cons, dashed]

/-! ### The reader, step by step -/

/-- The lines behind a block are not indented as far. -/
def Below (i : ℕ) (lines : List YamlLine) : Prop := ∀ line ∈ lines.head?, line.indent < i

theorem Below.mono {i j : ℕ} {lines : List YamlLine} (below : Below i lines) (le : i ≤ j) :
    Below j lines := fun line first => (below line first).trans_le le

theorem isItem_dashed (t : List Char) : isItem (dashed t) = true := by
  simp [isItem, dashed]

theorem IsKey.isItem_keyed {k : List Char} (key : IsKey k) (t : List Char) :
    isItem (keyed k t) = false := by
  have two : (keyed k t).take 2 ≠ ['-', ' '] := by
    have notItem := key.notItem
    match k, key.filled with
    | [c], _ => simp [keyed]
    | c :: d :: rest, _ => simpa [keyed] using notItem
  have one : keyed k t ≠ ['-'] := by
    intro same
    have mem : ':' ∈ keyed k t := by simp [keyed]
    rw [same] at mem
    exact absurd mem (by decide)
  simp [isItem, two, one]

/-- A key is found, and the text behind its colon. -/
theorem IsKey.splitPair {k t : List Char} (key : IsKey k) (blank : isBlankAt t = true) :
    splitPair F (keyed k t) = .ok (some (Json.unitsOfText k, trim t)) := by
  have single : isWrapped '\'' '\'' k = false :=
    isWrapped_of_head fun first => (key.bare _ (List.mem_of_mem_head? first)).1 rfl
  have double : isWrapped '"' '"' k = false :=
    isWrapped_of_head fun first => (key.bare _ (List.mem_of_mem_head? first)).2 rfl
  have own : unquote F k = .ok (Json.unitsOfText k) := by
    rw [unquote, single, double, if_neg (by decide), if_neg (by decide)]
  rw [Cli.splitPair, keyed, findColon_bare key.bare key.unsplit [] blank]
  simp only [List.reverse_nil, List.nil_append, key.trim_eq, if_neg key.filled, own]
  rfl

theorem hasKey_eq_false {k : List Char} (key : IsKey k)
    {object : List (List UInt16 × Json ν)} (fresh : Json.unitsOfText k ∉ object.map Prod.fst) :
    hasKey object (Json.unitsOfText k) = false := by
  have own : Json.unitsOfText k ∉ inheritedNames.map Json.unitsOfText := by
    intro mem
    obtain ⟨name, inside, same⟩ := List.mem_map.mp mem
    have text := congrArg Json.textOfUnits same
    rw [Json.textOfUnits_unitsOfText, Json.textOfUnits_unitsOfText] at text
    exact key.own (text ▸ inside)
  rw [hasKey, List.contains_eq_mem, List.contains_eq_mem, decide_eq_false fresh,
    decide_eq_false own]
  rfl

theorem parseMapping_end {n i : ℕ} {lines : List YamlLine} (below : Below i lines)
    (object : List (List UInt16 × Json ν)) :
    parseMapping F (n + 1) lines i object = .ok (.object object, lines) := by
  cases lines with
  | nil => rw [parseMapping]
  | cons line rest => rw [parseMapping, if_pos (below line rfl)]

theorem parseSequence_end {n i : ℕ} {lines : List YamlLine} (below : Below i lines)
    (values : List (Json ν)) :
    parseSequence F (n + 1) lines i values = .ok (.array values, lines) := by
  cases lines with
  | nil => rw [parseSequence.eq_def]
  | cons line rest => rw [parseSequence.eq_def]; exact if_pos (below line rfl)

/-- A property on one line. -/
theorem parseMapping_leaf {k t : List Char} (key : IsKey k) (legible : Legible t)
    {line : YamlLine} (text : line.text = keyed k (' ' :: t)) {v : Json ν}
    (value : parseScalar F line.number t = .ok v) {object : List (List UInt16 × Json ν)}
    (fresh : Json.unitsOfText k ∉ object.map Prod.fst) (n : ℕ) (rest : List YamlLine) :
    parseMapping F (n + 1) (line :: rest) line.indent object =
      parseMapping F n rest line.indent (object ++ [(Json.unitsOfText k, v)]) := by
  have trimmed : trim (' ' :: t) = t := legible.trim_spaces 1
  rw [parseMapping, if_neg (lt_irrefl _), if_neg (lt_irrefl _), text,
    if_neg (by rw [key.isItem_keyed]; decide), key.splitPair (isBlankAt_space t), trimmed]
  simp only [bind, Except.bind, hasKey_eq_false key fresh, Bool.false_eq_true, if_false, ne_eq,
    legible.filled, not_false_eq_true, if_true, value]

/-- A property whose value follows. -/
theorem parseMapping_nested {k : List Char} (key : IsKey k) {line next : YamlLine}
    (text : line.text = keyed k []) (deeper : line.indent < next.indent) {n : ℕ}
    {block rest : List YamlLine} {v : Json ν}
    (value : parseBlock F n (next :: block) next.indent = .ok (v, rest))
    {object : List (List UInt16 × Json ν)} (fresh : Json.unitsOfText k ∉ object.map Prod.fst) :
    parseMapping F (n + 1) (line :: next :: block) line.indent object =
      parseMapping F n rest line.indent (object ++ [(Json.unitsOfText k, v)]) := by
  rw [parseMapping, if_neg (lt_irrefl _), if_neg (lt_irrefl _), text,
    if_neg (by rw [key.isItem_keyed]; decide), key.splitPair rfl]
  simp only [bind, Except.bind, hasKey_eq_false key fresh, show trim [] = [] from rfl,
    if_neg (Nat.not_le.mpr deeper), value]
  rfl

/-- An item on one line that is no mapping. -/
theorem parseSequence_leaf {t : List Char} (legible : Legible t) {line : YamlLine}
    (text : line.text = dashed t) (noPair : splitPair F t = .ok none) {v : Json ν}
    (value : parseScalar F line.number t = .ok v) (n : ℕ) (rest : List YamlLine)
    (values : List (Json ν)) :
    parseSequence F (n + 1) (line :: rest) line.indent values =
      parseSequence F n rest line.indent (values ++ [v]) := by
  have item : (if dashed t = ['-'] then [] else trim ((dashed t).drop 2)) = t := by
    rw [if_neg (by simp [dashed])]
    exact legible.trim_eq
  rw [parseSequence.eq_def]
  dsimp only
  rw [if_neg (lt_irrefl _), text, if_neg (by simp [isItem_dashed])]
  simp only [item, if_neg legible.filled, noPair, bind, Except.bind, value]

/-- An item that follows its hyphen. -/
theorem parseSequence_nested {line next : YamlLine} (text : line.text = ['-'])
    (deeper : line.indent < next.indent) {n : ℕ} {block rest : List YamlLine} {v : Json ν}
    (value : parseBlock F n (next :: block) next.indent = .ok (v, rest)) (values : List (Json ν)) :
    parseSequence F (n + 1) (line :: next :: block) line.indent values =
      parseSequence F n rest line.indent (values ++ [v]) := by
  rw [parseSequence.eq_def]
  dsimp only
  rw [if_neg (lt_irrefl _), text, if_neg (by simp [isItem])]
  simp only [if_true, if_neg (Nat.not_le.mpr deeper), value, bind, Except.bind]

theorem IsKey.item_dashed {k t : List Char} (key : IsKey k) (legible : Legible t) :
    (if dashed (keyed k (' ' :: t)) = ['-'] then [] else
      trim ((dashed (keyed k (' ' :: t))).drop 2)) = keyed k (' ' :: t) := by
  rw [if_neg (by simp [dashed])]
  exact (key.legible_pair legible).trim_eq

/-- A property on one line is all of its item. -/
theorem parseSequence_pair {k t : List Char} (key : IsKey k) (legible : Legible t)
    {line : YamlLine} (text : line.text = dashed (keyed k (' ' :: t))) {v : Json ν}
    (value : parseScalar F line.number t = .ok v) (n : ℕ) {rest : List YamlLine}
    (below : Below (line.indent + 1) rest) (values : List (Json ν)) :
    parseSequence F (n + 1) (line :: rest) line.indent values =
      parseSequence F n rest line.indent (values ++ [.object [(Json.unitsOfText k, v)]]) := by
  have trimmed : trim (' ' :: t) = t := legible.trim_spaces 1
  rw [parseSequence.eq_def]
  dsimp only
  rw [if_neg (lt_irrefl _), text, if_neg (by simp [isItem_dashed])]
  simp only [key.item_dashed legible, if_neg (key.legible_pair legible).filled,
    key.splitPair (isBlankAt_space t), bind, Except.bind, trimmed, ne_eq, legible.filled,
    not_false_eq_true, if_true, value]
  cases rest with
  | nil => rfl
  | cons after rest => exact if_pos (Nat.lt_succ_iff.mp (below after rfl))

theorem addEntries_eq {line : ℕ} {object entries : List (List UInt16 × Json ν)}
    (names : ∀ p ∈ entries, ∃ k, IsKey k ∧ p.1 = Json.unitsOfText k)
    (distinct : ((object ++ entries).map Prod.fst).Nodup) :
    addEntries line object entries = .ok (object ++ entries) := by
  induction entries generalizing object with
  | nil => rw [addEntries, List.append_nil]
  | cons p entries ih =>
    obtain ⟨first, others⟩ := List.forall_mem_cons.mp names
    obtain ⟨name, v⟩ := p
    obtain ⟨k, key, rfl⟩ := first
    have fresh : Json.unitsOfText k ∉ object.map Prod.fst := by
      intro mem
      rw [List.map_append, List.nodup_append] at distinct
      exact distinct.2.2 _ mem _ List.mem_cons_self rfl
    rw [← List.singleton_append, ← List.append_assoc] at distinct
    rw [addEntries, hasKey_eq_false key fresh, if_neg (by decide), ih others distinct,
      List.append_assoc, List.singleton_append]

/-- Further properties follow the first one of an item. -/
theorem parseSequence_object {k t : List Char} (key : IsKey k) (legible : Legible t)
    {line next : YamlLine} (text : line.text = dashed (keyed k (' ' :: t))) {v : Json ν}
    (value : parseScalar F line.number t = .ok v) (deeper : line.indent < next.indent)
    (noItem : isItem next.text = false) {n : ℕ} {block rest : List YamlLine}
    {entries : List (List UInt16 × Json ν)}
    (more : parseBlock F n (next :: block) next.indent = .ok (.object entries, rest))
    (names : ∀ p ∈ entries, ∃ k, IsKey k ∧ p.1 = Json.unitsOfText k)
    (distinct : (Json.unitsOfText k :: entries.map Prod.fst).Nodup) (values : List (Json ν)) :
    parseSequence F (n + 1) (line :: next :: block) line.indent values =
      parseSequence F n rest line.indent
        (values ++ [.object ((Json.unitsOfText k, v) :: entries)]) := by
  have trimmed : trim (' ' :: t) = t := legible.trim_spaces 1
  have start : next.text.take 2 ≠ ['-', ' '] := by
    intro same
    simp [isItem, same] at noItem
  have added : addEntries next.number [(Json.unitsOfText k, v)] entries =
      .ok ((Json.unitsOfText k, v) :: entries) := addEntries_eq names distinct
  rw [parseSequence.eq_def]
  dsimp only
  rw [if_neg (lt_irrefl _), text, if_neg (by simp [isItem_dashed])]
  simp only [key.item_dashed legible, if_neg (key.legible_pair legible).filled,
    key.splitPair (isBlankAt_space t), bind, Except.bind, trimmed, ne_eq, legible.filled,
    not_false_eq_true, if_true, value, if_neg (Nat.not_le.mpr deeper), if_false, start, and_self,
    more, added]

/-- A property whose value follows is all of its item. -/
theorem parseSequence_pair_nested {k : List Char} (key : IsKey k) {line next : YamlLine}
    (text : line.text = dashed (keyed k [])) (deeper : line.indent < next.indent) {n : ℕ}
    {block rest : List YamlLine} {v : Json ν}
    (value : parseBlock F n (next :: block) next.indent = .ok (v, rest))
    (below : Below (line.indent + 1) rest) (values : List (Json ν)) :
    parseSequence F (n + 1) (line :: next :: block) line.indent values =
      parseSequence F n rest line.indent (values ++ [.object [(Json.unitsOfText k, v)]]) := by
  have item : (if dashed (keyed k []) = ['-'] then [] else trim ((dashed (keyed k [])).drop 2)) =
      keyed k [] := by
    rw [if_neg (by simp [dashed])]
    exact key.legible.trim_eq
  rw [parseSequence.eq_def]
  dsimp only
  rw [if_neg (lt_irrefl _), text, if_neg (by simp [isItem_dashed])]
  simp only [item, if_neg key.legible.filled, key.splitPair (t := []) rfl, bind, Except.bind,
    show trim [] = [] from rfl, ne_eq, not_true_eq_false, if_false, if_true,
    if_neg (Nat.not_le.mpr deeper), value]
  cases rest with
  | nil => rfl
  | cons after rest =>
    have above : after.indent < line.indent + 1 := below after rfl
    refine if_neg ?_
    rintro ⟨same, -⟩
    omega

/-! ### Blocks are read back -/

/-- A line that was written and what is read from it. -/
def Shows (raw : List Char) (line : YamlLine) : Prop :=
  raw = spaces line.indent ++ line.text ∧ ∀ c ∈ line.text.head?, JsString.isSpace c = false

theorem Shows.eq {i : ℕ} {t : List Char} {line : YamlLine}
    (starts : ∀ c ∈ t.head?, JsString.isSpace c = false) (shows : Shows (spaces i ++ t) line) :
    line.indent = i ∧ line.text = t := by
  obtain ⟨same, first⟩ := shows
  have text : t = line.text := by
    rw [← trimStart_spaces starts i, same, trimStart_spaces first]
  have width := congrArg List.length same
  rw [List.length_append, List.length_append, spaces, spaces, List.length_replicate,
    List.length_replicate, text] at width
  exact ⟨by omega, text.symm⟩

/-- What is read from some lines. -/
abbrev ShowAll : List (List Char) → List YamlLine → Prop := List.Forall₂ Shows

theorem ShowAll.cons {i : ℕ} {t : List Char} {raws : List (List Char)} {lines : List YamlLine}
    (starts : ∀ c ∈ t.head?, JsString.isSpace c = false)
    (shown : ShowAll ((spaces i ++ t) :: raws) lines) :
    ∃ line rest, lines = line :: rest ∧ line.indent = i ∧ line.text = t ∧ ShowAll raws rest := by
  cases shown with
  | cons first more =>
    obtain ⟨indent, text⟩ := first.eq starts
    exact ⟨_, _, rfl, indent, text, more⟩

theorem ShowAll.append {raws more : List (List Char)} {lines : List YamlLine}
    (shown : ShowAll (raws ++ more) lines) :
    ∃ first rest, lines = first ++ rest ∧ ShowAll raws first ∧ ShowAll more rest := by
  induction raws generalizing lines with
  | nil => exact ⟨[], lines, rfl, .nil, shown⟩
  | cons raw raws ih =>
    cases shown with
    | cons head tail =>
      obtain ⟨first, rest, rfl, shownFirst, shownRest⟩ := ih tail
      exact ⟨_ :: first, rest, rfl, List.Forall₂.cons head shownFirst, shownRest⟩

variable (F) in
/-- A block is read back, whatever follows it at the left. -/
def ReadsBlock (v : Json ν) : Prop :=
  ∀ {i n : ℕ} {lines rest : List YamlLine}, ShowAll (writeYamlValue F v i none) lines →
    Below i rest → lines.length + rest.length < n →
      parseBlock F n (lines ++ rest) i = .ok (v, rest)

variable (F) in
/-- An item is read back. -/
def ReadsItem (v : Json ν) : Prop :=
  ∀ {i n : ℕ} {lines rest : List YamlLine} (values : List (Json ν)),
    ShowAll (writeItems F [v] i) lines → Below (i + 1) rest → lines.length + rest.length < n + 1 →
      parseSequence F (n + 1) (lines ++ rest) i values = parseSequence F n rest i (values ++ [v])

/-- A property begins with its key. -/
theorem writeYamlValue_key (v : Json ν) (i : ℕ) (k : List Char) :
    ∃ t raws, writeYamlValue F v i (some (Json.unitsOfText k)) =
      (spaces i ++ keyed k t) :: raws := by
  cases nested : isNested v
  · exact ⟨_, _, writeYamlValue_leaf nested i k⟩
  · exact ⟨_, _, writeYamlValue_nested nested i k⟩

/-- How the lines of a mapping begin. -/
theorem writeEntries_first {p : List UInt16 × Json ν} {entries : List (List UInt16 × Json ν)}
    (name : ∃ k, IsKey k ∧ p.1 = Json.unitsOfText k) {i : ℕ} {lines : List YamlLine}
    (shown : ShowAll (writeEntries F (p :: entries) i) lines) :
    ∃ line rest, lines = line :: rest ∧ line.indent = i ∧ isItem line.text = false := by
  obtain ⟨k, key, same⟩ := name
  obtain ⟨t, raws, text⟩ := writeYamlValue_key (F := F) p.2 i k
  rw [writeEntries, same, text, List.cons_append] at shown
  obtain ⟨line, rest, rfl, indent, text, -⟩ := shown.cons (key.head_keyed t)
  exact ⟨line, rest, rfl, indent, text ▸ key.isItem_keyed t⟩

/-- An item begins with its hyphen. -/
theorem writeItems_first {v : Json ν} (writable : Writable F v) (items : List (Json ν)) {i : ℕ}
    {lines : List YamlLine} (shown : ShowAll (writeItems F (v :: items) i) lines) :
    ∃ line rest, lines = line :: rest ∧ line.indent = i ∧ isItem line.text = true := by
  have dash : ∃ t raws, writeItems F [v] i = (spaces i ++ '-' :: t) :: raws ∧
      isItem ('-' :: t) = true := by
    cases nested : isNested v
    · exact ⟨_, _, writeItems_leaf nested i, isItem_dashed _⟩
    · cases writable with
      | array l _ _ =>
        cases l with
        | nil => cases nested
        | cons x l => exact ⟨_, _, writeItems_array x l i, rfl⟩
      | object entries names _ _ =>
        cases entries with
        | nil => cases nested
        | cons p entries =>
          obtain ⟨k, key, same⟩ := names p List.mem_cons_self
          obtain ⟨t, raws, text⟩ := writeYamlValue_key (F := F) p.2 (i + 2) k
          obtain ⟨name, w⟩ := p
          dsimp only at same
          subst same
          exact ⟨_, _, writeItems_object key text entries, isItem_dashed _⟩
      | _ => cases nested
  obtain ⟨t, raws, text, item⟩ := dash
  rw [writeItems_cons, text, List.cons_append] at shown
  obtain ⟨line, rest, rfl, indent, text, -⟩ := shown.cons (by simp; decide)
  exact ⟨line, rest, rfl, indent, text ▸ item⟩

/-- The properties that are left do not belong to a value before them. -/
theorem below_entries {entries : List (List UInt16 × Json ν)} {i : ℕ}
    (names : ∀ p ∈ entries, ∃ k, IsKey k ∧ p.1 = Json.unitsOfText k) {lines rest : List YamlLine}
    (shown : ShowAll (writeEntries F entries i) lines) (below : Below i rest) :
    Below (i + 1) (lines ++ rest) := by
  cases entries with
  | nil =>
    cases shown
    exact below.mono (Nat.le_succ i)
  | cons p entries =>
    obtain ⟨line, more, rfl, indent, -⟩ :=
      writeEntries_first (names p List.mem_cons_self) shown
    rintro _ ⟨⟩
    exact Nat.lt_succ_of_le indent.le

/-- Neither do the items that are left. -/
theorem below_items {items : List (Json ν)} {i : ℕ} (writable : ∀ v ∈ items, Writable F v)
    {lines rest : List YamlLine} (shown : ShowAll (writeItems F items i) lines)
    (below : Below i rest) : Below (i + 1) (lines ++ rest) := by
  cases items with
  | nil =>
    cases shown
    exact below.mono (Nat.le_succ i)
  | cons v items =>
    obtain ⟨line, more, rfl, indent, -⟩ :=
      writeItems_first (writable v List.mem_cons_self) items shown
    rintro _ ⟨⟩
    exact Nat.lt_succ_of_le indent.le

/-- How the lines of a block begin. -/
theorem writeYamlValue_first {v : Json ν} (writable : Writable F v) (nested : isNested v = true)
    {i : ℕ} {lines : List YamlLine} (shown : ShowAll (writeYamlValue F v i none) lines) :
    ∃ line rest, lines = line :: rest ∧ line.indent = i := by
  cases writable with
  | array l each _ =>
    cases l with
    | nil => cases nested
    | cons x l =>
      obtain ⟨line, rest, rfl, indent, -⟩ := writeItems_first (each x List.mem_cons_self) l shown
      exact ⟨line, rest, rfl, indent⟩
  | object entries names _ _ =>
    cases entries with
    | nil => cases nested
    | cons p entries =>
      obtain ⟨line, rest, rfl, indent, -⟩ :=
        writeEntries_first (names p List.mem_cons_self) shown
      exact ⟨line, rest, rfl, indent⟩
  | _ => cases nested

/-- The properties of a mapping are read one after the other. -/
theorem parseMapping_entries {entries : List (List UInt16 × Json ν)} {i : ℕ}
    (names : ∀ p ∈ entries, ∃ k, IsKey k ∧ p.1 = Json.unitsOfText k)
    (values : ∀ p ∈ entries, Writable F p.2)
    (blocks : ∀ p ∈ entries, isNested p.2 = true → ReadsBlock F p.2) :
    ∀ (object : List (List UInt16 × Json ν)) {n : ℕ} {lines rest : List YamlLine},
      ShowAll (writeEntries F entries i) lines → Below i rest → lines.length + rest.length < n →
      ((object ++ entries).map Prod.fst).Nodup →
      parseMapping F n (lines ++ rest) i object = .ok (.object (object ++ entries), rest) := by
  induction entries with
  | nil =>
    rintro object (_ | n) lines rest shown below enough -
    · omega
    · cases shown
      rw [List.append_nil]
      exact parseMapping_end below object
  | cons p entries ih =>
    obtain ⟨⟨k, key, same⟩, otherNames⟩ := List.forall_mem_cons.mp names
    obtain ⟨value, otherValues⟩ := List.forall_mem_cons.mp values
    obtain ⟨block, otherBlocks⟩ := List.forall_mem_cons.mp blocks
    obtain ⟨name, v⟩ := p
    dsimp only at same value block
    subst same
    rintro object (_ | n) lines rest shown below enough distinct
    · omega
    rw [writeEntries] at shown
    obtain ⟨first, more, rfl, shownFirst, shownMore⟩ := shown.append
    have fresh : Json.unitsOfText k ∉ object.map Prod.fst := by
      intro mem
      rw [List.map_append, List.nodup_append] at distinct
      exact distinct.2.2 _ mem _ List.mem_cons_self rfl
    rw [List.append_cons] at distinct
    have step : parseMapping F (n + 1) (first ++ (more ++ rest)) i object =
        parseMapping F n (more ++ rest) i (object ++ [(Json.unitsOfText k, v)]) := by
      cases nested : isNested v with
      | false =>
        rw [writeYamlValue_leaf nested] at shownFirst
        obtain ⟨line, none, rfl, rfl, text, empty⟩ := shownFirst.cons (key.head_keyed _)
        cases empty
        exact parseMapping_leaf key (legible_leafText v) text
          (parseScalar_leafText value nested line.number) fresh n _
      | true =>
        rw [writeYamlValue_nested nested] at shownFirst
        obtain ⟨line, lines, rfl, rfl, text, shownBlock⟩ := shownFirst.cons (key.head_keyed _)
        obtain ⟨next, inner, rfl, indent⟩ := writeYamlValue_first value nested shownBlock
        have after : Below (line.indent + 2) (more ++ rest) :=
          (below_entries otherNames shownMore below).mono (Nat.le_succ _)
        have left : (next :: inner).length + (more ++ rest).length < n := by
          simp only [List.length_append, List.length_cons] at enough ⊢
          omega
        have read := block nested shownBlock after left
        rw [← indent] at read
        exact parseMapping_nested key text (by omega) read fresh
    have first_pos : 0 < first.length := by
      obtain ⟨t, raws, text⟩ := writeYamlValue_key (F := F) v i k
      rw [← shownFirst.length_eq, text]
      exact Nat.succ_pos _
    have left : more.length + rest.length < n := by
      simp only [List.length_append] at enough
      omega
    rw [List.append_assoc, step, ih otherNames otherValues otherBlocks _ shownMore below left distinct,
      List.append_assoc, List.singleton_append]

/-- The items of a list are read one after the other. -/
theorem parseSequence_items {items : List (Json ν)} {i : ℕ}
    (writable : ∀ v ∈ items, Writable F v) (reads : ∀ v ∈ items, ReadsItem F v) :
    ∀ (values : List (Json ν)) {n : ℕ} {lines rest : List YamlLine},
      ShowAll (writeItems F items i) lines → Below i rest → lines.length + rest.length < n →
      parseSequence F n (lines ++ rest) i values = .ok (.array (values ++ items), rest) := by
  induction items with
  | nil =>
    rintro values (_ | n) lines rest shown below enough
    · omega
    · cases shown
      rw [List.append_nil]
      exact parseSequence_end below values
  | cons v items ih =>
    obtain ⟨first, others⟩ := List.forall_mem_cons.mp writable
    obtain ⟨read, reads⟩ := List.forall_mem_cons.mp reads
    rintro values (_ | n) lines rest shown below enough
    · omega
    rw [writeItems_cons] at shown
    obtain ⟨lines, more, rfl, shownFirst, shownMore⟩ := shown.append
    obtain ⟨line, _, rfl, -⟩ := writeItems_first first [] shownFirst
    simp only [List.length_append, List.length_cons] at enough
    have after : Below (i + 1) (more ++ rest) := below_items others shownMore below
    have step := read (n := n) values shownFirst after (by
      simp only [List.length_append, List.length_cons]
      omega)
    rw [List.append_assoc, step, ih others reads _ shownMore below (by omega), List.append_assoc,
      List.singleton_append]

theorem readsItem_leaf {v : Json ν} (writable : Writable F v) (leaf : isNested v = false)
    (fits : fitsItem v = true) : ReadsItem F v := by
  intro i n lines rest values shown below enough
  rw [writeItems_leaf leaf] at shown
  obtain ⟨line, none, rfl, rfl, text, empty⟩ :=
    shown.cons (legible_leafText v).dashed.starts
  cases empty
  exact parseSequence_leaf (legible_leafText v) text (splitPair_leafText fits)
    (parseScalar_leafText writable leaf line.number) n rest values

theorem readsItem_array {x : Json ν} {l : List (Json ν)} (writable : Writable F (.array (x :: l)))
    (block : ReadsBlock F (.array (x :: l))) : ReadsItem F (.array (x :: l)) := by
  intro i n lines rest values shown below enough
  rw [writeItems_array] at shown
  obtain ⟨line, lines, rfl, rfl, text, shownBlock⟩ := shown.cons legible_dash.starts
  obtain ⟨next, inner, rfl, indent⟩ := writeYamlValue_first writable rfl shownBlock
  have left : (next :: inner).length + rest.length < n := by
    simp only [List.length_cons] at enough ⊢
    omega
  have read := block shownBlock (below.mono (Nat.le_succ _)) left
  rw [← indent] at read
  exact parseSequence_nested text (by omega) read values

theorem readsItem_object {k : List Char} (key : IsKey k) {v : Json ν} (writable : Writable F v)
    (block : isNested v = true → ReadsBlock F v) {entries : List (List UInt16 × Json ν)}
    (names : ∀ p ∈ entries, ∃ k, IsKey k ∧ p.1 = Json.unitsOfText k)
    (values : ∀ p ∈ entries, Writable F p.2)
    (blocks : ∀ p ∈ entries, isNested p.2 = true → ReadsBlock F p.2)
    (distinct : (Json.unitsOfText k :: entries.map Prod.fst).Nodup)
    (fits : fitsItem (.object ((Json.unitsOfText k, v) :: entries)) = true) :
    ReadsItem F (.object ((Json.unitsOfText k, v) :: entries)) := by
  intro i n lines rest items shown below enough
  cases nested : isNested v with
  | true =>
    obtain rfl : entries = [] := by
      cases entries with
      | nil => rfl
      | cons p entries => simp [fitsItem, nested] at fits
    rw [writeItems_object key (writeYamlValue_nested nested (i + 2) k), writeEntries,
      List.append_nil] at shown
    obtain ⟨line, lines, rfl, rfl, text, shownBlock⟩ := shown.cons key.legible.dashed.starts
    obtain ⟨next, inner, rfl, indent⟩ := writeYamlValue_first writable nested shownBlock
    have left : (next :: inner).length + rest.length < n := by
      simp only [List.length_cons] at enough ⊢
      omega
    have read := block nested shownBlock (below.mono (by omega)) left
    rw [← indent] at read
    exact parseSequence_pair_nested key text (by omega) read below items
  | false =>
    rw [writeItems_object key (writeYamlValue_leaf nested (i + 2) k), List.nil_append] at shown
    have legible := key.legible_pair (legible_leafText (F := F) v)
    obtain ⟨line, lines, rfl, rfl, text, shownMore⟩ := shown.cons legible.dashed.starts
    have value := parseScalar_leafText writable nested line.number
    cases entries with
    | nil =>
      cases shownMore
      exact parseSequence_pair key (legible_leafText v) text value n below items
    | cons p entries =>
      obtain ⟨next, inner, rfl, indent, noItem⟩ :=
        writeEntries_first (names p List.mem_cons_self) shownMore
      have left : (next :: inner).length + rest.length < n := by
        simp only [List.length_cons] at enough ⊢
        omega
      have read := parseMapping_entries names values blocks [] shownMore
        (below.mono (Nat.le_succ _)) left (List.nodup_cons.mp distinct).2
      have more : parseBlock F n (next :: (inner ++ rest)) next.indent =
          .ok (.object (p :: entries), rest) := by
        rw [parseBlock, indent]
        simpa [noItem] using read
      exact parseSequence_object key (legible_leafText v) text value (by omega) noItem more names
        distinct items

theorem unnested {p : Prop} (nested : false = true) : p := Bool.noConfusion nested

/-- Every block, and every item that fits, is read back. -/
theorem Writable.reads {v : Json ν} (writable : Writable F v) :
    (isNested v = true → ReadsBlock F v) ∧ (fitsItem v = true → ReadsItem F v) := by
  induction writable with
  | null => exact ⟨unnested, readsItem_leaf .null rfl⟩
  | bool b => exact ⟨unnested, readsItem_leaf (.bool b) rfl⟩
  | number n numeral => exact ⟨unnested, readsItem_leaf (.number n numeral) rfl⟩
  | string units noNumeral => exact ⟨unnested, readsItem_leaf (.string units noNumeral) rfl⟩
  | array l each fits ih =>
    have whole : Writable F (.array l) := .array l each fits
    cases l with
    | nil => exact ⟨unnested, readsItem_leaf whole rfl⟩
    | cons x l =>
      have block : ReadsBlock F (.array (x :: l)) := by
        intro i n lines rest shown below enough
        obtain ⟨first, more, rfl, -, item⟩ :=
          writeItems_first (each x List.mem_cons_self) l shown
        have read := parseSequence_items (i := i) each
          (fun v inside => (ih v inside).2 (fits v inside)) [] shown below enough
        rw [parseBlock]
        simpa [item] using read
      exact ⟨fun _ => block, fun _ => readsItem_array whole block⟩
  | object entries names distinct values ih =>
    cases entries with
    | nil => exact ⟨unnested, readsItem_leaf (.object [] names distinct values) rfl⟩
    | cons p entries =>
      have blocks : ∀ q ∈ p :: entries, isNested q.2 = true → ReadsBlock F q.2 :=
        fun q inside => (ih q inside).1
      refine ⟨fun _ => ?_, fun fits => ?_⟩
      · intro i n lines rest shown below enough
        obtain ⟨first, more, rfl, -, item⟩ :=
          writeEntries_first (names p List.mem_cons_self) shown
        have read := parseMapping_entries (i := i) names values blocks [] shown below
          enough distinct
        rw [parseBlock]
        simpa [item] using read
      · obtain ⟨name, v⟩ := p
        obtain ⟨⟨k, key, same⟩, otherNames⟩ := List.forall_mem_cons.mp names
        obtain ⟨value, otherValues⟩ := List.forall_mem_cons.mp values
        obtain ⟨block, otherBlocks⟩ := List.forall_mem_cons.mp blocks
        dsimp only at same
        subst same
        exact readsItem_object key value block otherNames otherValues otherBlocks distinct fits

/-! ### Lines are read back -/

/-- A line that is read as it stands. -/
def IsYamlLine (raw : List Char) : Prop :=
  ∃ i t, raw = spaces i ++ t ∧ Legible t ∧ t ≠ "---".toList ∧ t ≠ "...".toList

theorem isYamlLine_dash (i : ℕ) : IsYamlLine (spaces i ++ ['-']) :=
  ⟨i, _, rfl, legible_dash, by decide, by decide⟩

theorem isYamlLine_dashed {t : List Char} (legible : Legible t) (i : ℕ) :
    IsYamlLine (spaces i ++ dashed t) :=
  ⟨i, _, rfl, legible.dashed, by simp [dashed], by simp [dashed]⟩

theorem isYamlLine_keyed {k t : List Char} (legible : Legible (keyed k t)) (i : ℕ) :
    IsYamlLine (spaces i ++ keyed k t) := by
  have other : ∀ s : List Char, ':' ∉ s → keyed k t ≠ s := by
    rintro _ none rfl
    exact none (by simp [keyed])
  exact ⟨i, _, rfl, legible, other _ (by decide), other _ (by decide)⟩

/-- A property and its value. -/
theorem rows_property {k : List Char} (key : IsKey k) {v : Json ν}
    (block : isNested v = true → ∀ i, ∀ raw ∈ writeYamlValue F v i none, IsYamlLine raw) (i : ℕ) :
    ∀ raw ∈ writeYamlValue F v i (some (Json.unitsOfText k)), IsYamlLine raw := by
  cases nested : isNested v with
  | false =>
    rw [writeYamlValue_leaf nested]
    exact List.forall_mem_singleton.mpr
      (isYamlLine_keyed (key.legible_pair (legible_leafText v)) i)
  | true =>
    rw [writeYamlValue_nested nested]
    exact List.forall_mem_cons.mpr ⟨isYamlLine_keyed key.legible i, block nested (i + 2)⟩

theorem rows_entries {entries : List (List UInt16 × Json ν)}
    (names : ∀ p ∈ entries, ∃ k, IsKey k ∧ p.1 = Json.unitsOfText k)
    (blocks : ∀ p ∈ entries, isNested p.2 = true →
      ∀ i, ∀ raw ∈ writeYamlValue F p.2 i none, IsYamlLine raw) (i : ℕ) :
    ∀ raw ∈ writeEntries F entries i, IsYamlLine raw := by
  induction entries with
  | nil => exact List.forall_mem_nil _
  | cons p entries ih =>
    obtain ⟨⟨k, key, same⟩, otherNames⟩ := List.forall_mem_cons.mp names
    obtain ⟨block, otherBlocks⟩ := List.forall_mem_cons.mp blocks
    rw [writeEntries, same]
    exact List.forall_mem_append.mpr ⟨rows_property key block i, ih otherNames otherBlocks⟩

theorem rows_items {items : List (Json ν)} {i : ℕ}
    (each : ∀ v ∈ items, ∀ raw ∈ writeItems F [v] i, IsYamlLine raw) :
    ∀ raw ∈ writeItems F items i, IsYamlLine raw := by
  induction items with
  | nil => exact List.forall_mem_nil _
  | cons v items ih =>
    obtain ⟨first, others⟩ := List.forall_mem_cons.mp each
    rw [writeItems_cons]
    exact List.forall_mem_append.mpr ⟨first, ih others⟩

theorem rows_leaf {v : Json ν} (leaf : isNested v = false) (i : ℕ) :
    ∀ raw ∈ writeItems F [v] i, IsYamlLine raw := by
  rw [writeItems_leaf leaf]
  exact List.forall_mem_singleton.mpr (isYamlLine_dashed (legible_leafText v) i)

/-- What is written is read line by line. -/
theorem Writable.rows {v : Json ν} (writable : Writable F v) :
    (isNested v = true → ∀ i, ∀ raw ∈ writeYamlValue F v i none, IsYamlLine raw) ∧
      ∀ i, ∀ raw ∈ writeItems F [v] i, IsYamlLine raw := by
  induction writable with
  | null => exact ⟨unnested, rows_leaf rfl⟩
  | bool b => exact ⟨unnested, rows_leaf rfl⟩
  | number n _ => exact ⟨unnested, rows_leaf rfl⟩
  | string units _ => exact ⟨unnested, rows_leaf rfl⟩
  | array l each _ ih =>
    cases l with
    | nil => exact ⟨unnested, rows_leaf rfl⟩
    | cons x l =>
      have block (i : ℕ) : ∀ raw ∈ writeItems F (x :: l) i, IsYamlLine raw :=
        rows_items fun v inside => (ih v inside).2 i
      refine ⟨fun _ => block, fun i => ?_⟩
      rw [writeItems_array]
      exact List.forall_mem_cons.mpr ⟨isYamlLine_dash i, block (i + 2)⟩
  | object entries names _ values ih =>
    cases entries with
    | nil => exact ⟨unnested, rows_leaf rfl⟩
    | cons p entries =>
      refine ⟨fun _ => rows_entries names fun q inside => (ih q inside).1, fun i => ?_⟩
      obtain ⟨⟨k, key, same⟩, otherNames⟩ := List.forall_mem_cons.mp names
      obtain ⟨name, w⟩ := p
      dsimp only at same
      subst same
      have others := rows_entries otherNames
        (fun q inside => (ih q (List.mem_cons_of_mem _ inside)).1) (i + 2)
      have block := (ih (Json.unitsOfText k, w) List.mem_cons_self).1
      cases nested : isNested w with
      | false =>
        rw [writeItems_object key (writeYamlValue_leaf nested (i + 2) k)]
        exact List.forall_mem_cons.mpr
          ⟨isYamlLine_dashed (key.legible_pair (legible_leafText w)) i, others⟩
      | true =>
        rw [writeItems_object key (writeYamlValue_nested nested (i + 2) k)]
        exact List.forall_mem_cons.mpr ⟨isYamlLine_dashed key.legible i,
          List.forall_mem_append.mpr ⟨block nested (i + 4), others⟩⟩

theorem readLines_rows {raws : List (List Char)} (rows : ∀ raw ∈ raws, IsYamlLine raw) (number : ℕ) :
    ∃ lines, readLines number (raws ++ [[]]) = .ok lines ∧ ShowAll raws lines := by
  induction raws generalizing number with
  | nil => exact ⟨[], rfl, .nil⟩
  | cons raw raws ih =>
    obtain ⟨⟨i, t, rfl, legible, noStart, noEnd⟩, others⟩ := List.forall_mem_cons.mp rows
    obtain ⟨lines, read, shown⟩ := ih others (number + 1)
    refine ⟨⟨number, i, t⟩ :: lines, ?_, List.Forall₂.cons ⟨rfl, legible.starts⟩ shown⟩
    rw [List.cons_append, readLines, legible.readLine noStart noEnd, read]
    rfl

theorem intercalate_newline {raws : List (List Char)} (filled : raws ≠ []) :
    List.intercalate ['\n'] raws ++ ['\n'] = Lines.unlines Lines.lf raws := by
  induction raws with
  | nil => exact absurd rfl filled
  | cons raw raws ih =>
    cases raws with
    | nil => simp [Lines.unlines, Lines.lf]
    | cons next raws =>
      rw [List.intercalate_cons_cons, Lines.unlines_cons, ← ih (List.cons_ne_nil _ _)]
      simp

/-- The lines of a text are those that were written. -/
theorem splitLines_rows {raws : List (List Char)} (filled : raws ≠ [])
    (rows : ∀ raw ∈ raws, IsYamlLine raw) :
    Lines.splitLines (List.intercalate ['\n'] raws ++ ['\n']) = raws ++ [[]] := by
  have printable : ∀ raw ∈ raws, Json.Printable raw := by
    intro raw inside
    obtain ⟨i, t, rfl, legible, -⟩ := rows raw inside
    rw [Json.printable_append]
    refine ⟨fun c blank => ?_, legible.printable⟩
    rw [List.eq_of_mem_replicate blank]
    decide
  have noNewline : ∀ raw ∈ raws, '\n' ∉ raw :=
    fun raw inside newline => absurd (printable raw inside _ newline) (by decide)
  have plain : ∀ raw ∈ raws, ¬Lines.EndsCr raw :=
    fun raw inside cr =>
      absurd (printable raw inside _ (List.mem_of_mem_getLast? cr)) (by decide)
  have split := @Lines.splitLines_unlines raws [] noNewline List.not_mem_nil
  rw [List.append_nil, ← intercalate_newline filled, Lines.map_chomp plain] at split
  exact split

theorem Writable.parse {v : Json ν} (writable : Writable F v) (nested : isNested v = true) :
    parseYaml F (stringifyYaml F v) = .ok v := by
  have rows := writable.rows.1 nested 0
  obtain ⟨lines, read, shown⟩ := readLines_rows rows 1
  obtain ⟨first, rest, rfl, left⟩ := writeYamlValue_first writable nested shown
  have filled : writeYamlValue F v 0 none ≠ [] := by
    intro empty
    rw [empty] at shown
    cases shown
  have block : parseBlock F ((first :: rest).length + 1) (first :: rest ++ []) 0 = .ok (v, []) :=
    writable.reads.1 nested shown nofun (Nat.lt_succ_self _)
  rw [List.append_nil] at block
  rw [parseYaml, stringifyYaml, splitLines_rows filled rows, read]
  simp only [bind, Except.bind, left, ne_eq, not_true_eq_false, if_false, block]
  rfl

end

end OmpBundler.Cli
