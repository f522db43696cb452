import Mathlib.Algebra.GroupWithZero.Nat
import OmpBundler.Library.JsonTemplate

/-!
How much a JSON text has to say.

The weight of a text counts its characters other than blanks and the characters
of numbers. No text of a value weighs less than the one that is written for it
(`weight_of_parse`), so a text that weighs less has another value. An encoded
character weighs more than the character, unless it is the same.
-/

namespace Library.Json

open JsValue (quoteMark backslash hexDigit letters further joined)
open Placeholder (Piece fill names textOf namesOf)

/-- The characters that are neither blanks nor parts of numbers. -/
def weight (l : List Char) : ℕ := l.countP isInk

@[simp] theorem weight_nil : weight [] = 0 := rfl

@[simp] theorem weight_append (l r : List Char) : weight (l ++ r) = weight l + weight r :=
  List.countP_append

theorem weight_cons (c : Char) (l : List Char) : weight (c :: l) = weight [c] + weight l :=
  weight_append [c] l

theorem weight_ink {c : Char} (ink : isInk c = true) (l : List Char) :
    weight (c :: l) = weight l + 1 := List.countP_cons_of_pos ink

theorem weight_pale {c : Char} (pale : isInk c = false) (l : List Char) :
    weight (c :: l) = weight l := List.countP_cons_of_neg (by simp [pale])

theorem weight_singleton_le (c : Char) : weight [c] ≤ 1 := List.countP_le_length

/-! ### Escapes -/

theorem two_le_weight_escapeUnit {u : UInt16} (special : Special u.toNat) :
    2 ≤ weight (escapeUnit u) := by
  obtain ⟨c, rest, text, ink, -⟩ := escapeUnit_special special
  rw [text, weight_ink (by decide), weight_ink ink]
  omega

/-- A pair weighs no more than its two halves. -/
theorem weight_quoted_cons (u : UInt16) (s : List UInt16) :
    weight (quoted (u :: s)) ≤ weight (escapeUnit u) + weight (quoted s) := by
  by_cases paired : isHigh u = true ∧ ∃ w ∈ s.head?, isLow w = true
  · obtain ⟨high, w, first, low⟩ := paired
    obtain ⟨l, rfl⟩ := List.head?_eq_some_iff.mp first
    have single : Single w l := fun high' => by
      rw [isHigh_of_isLow low] at high'
      cases high'
    have one := weight_singleton_le (Json.paired u w)
    have two := two_le_weight_escapeUnit (special_of_isHigh high)
    rw [quoted_pair high low, weight_cons, quoted_single single, weight_append]
    omega
  · have single : Single u s := by
      intro high w first
      by_contra low
      exact paired ⟨high, w, first, Bool.not_eq_false _ ▸ low⟩
    rw [quoted_single single, weight_append]

theorem weight_hexDigit {c : Char} {n : ℕ} (digit : hexValue c = some n) :
    n < 16 ∧ weight [hexDigit n] = weight [c] := by
  have table : ∀ n < 16, ∀ m < 128, hexValue (Char.ofNat m) = some n →
      weight [hexDigit n] = weight [Char.ofNat m] := by decide
  have bounds : n < 16 ∧ c.toNat < 128 := by
    rw [hexValue] at digit
    split_ifs at digit with decimal lower upper
    · cases digit
      have last : c.toNat ≤ 57 := decimal.2
      omega
    · cases digit
      have last : c.toNat ≤ 102 := lower.2
      omega
    · cases digit
      have last : c.toNat ≤ 70 := upper.2
      omega
  have found := table n bounds.1 c.toNat bounds.2
  rw [Char.ofNat_toNat] at found
  exact ⟨bounds.1, found digit⟩

theorem weight_four (a b c d : Char) :
    weight [a, b, c, d] = weight [a] + weight [b] + weight [c] + weight [d] := by
  rw [weight_cons a, weight_cons b, weight_cons c]
  omega

theorem weight_numbered (n : ℕ) : weight (numbered n) = weight [hexDigit (n / 4096)] +
    weight [hexDigit (n / 256 % 16)] + weight [hexDigit (n / 16 % 16)] +
    weight [hexDigit (n % 16)] + 2 := by
  rw [numbered, weight_ink (by decide), weight_ink (by decide), weight_four]

theorem weight_escapeUnit_le (u : UInt16) : weight (escapeUnit u) ≤ weight (numbered u.toNat) := by
  have two := weight_numbered u.toNat
  unfold escapeUnit
  by_cases mark : Char.ofNat u.toNat = quoteMark ∨ Char.ofNat u.toNat = backslash
  · have short : weight [backslash, Char.ofNat u.toNat] ≤ 2 := List.countP_le_length
    rw [if_pos mark]
    omega
  rw [if_neg mark]
  cases letters.find? fun p => decide (p.1.toNat = u.toNat) with
  | some p =>
      have short : weight [backslash, p.2] ≤ 2 := List.countP_le_length
      exact short.trans (by omega)
  | none =>
      by_cases hidden : u.toNat < 0x20 ∨ isHigh u = true ∨ isLow u = true
      · exact (congrArg weight (if_pos hidden)).le
      · have short := weight_singleton_le (Char.ofNat u.toNat)
        exact (congrArg weight (if_neg hidden)).le.trans (by omega)

/-- An escape by number is no shorter way to write a unit. -/
theorem weight_hexUnit {a b c d : Char} {u : UInt16} (unit : hexUnit a b c d = some u) :
    weight (escapeUnit u) ≤ weight [backslash, 'u', a, b, c, d] := by
  have two : weight [backslash, 'u', a, b, c, d] =
      weight [a] + weight [b] + weight [c] + weight [d] + 2 := by
    rw [weight_ink (by decide), weight_ink (by decide), weight_four]
  simp only [hexUnit, Option.bind_eq_bind, Option.bind_eq_some_iff, Option.pure_def,
    Option.some.injEq] at unit
  obtain ⟨i, first, j, second, k, third, l, fourth, rfl⟩ := unit
  obtain ⟨small₁, same₁⟩ := weight_hexDigit first
  obtain ⟨small₂, same₂⟩ := weight_hexDigit second
  obtain ⟨small₃, same₃⟩ := weight_hexDigit third
  obtain ⟨small₄, same₄⟩ := weight_hexDigit fourth
  refine (weight_escapeUnit_le _).trans ?_
  have value : (UInt16.ofNat (((i * 16 + j) * 16 + k) * 16 + l)).toNat =
      ((i * 16 + j) * 16 + k) * 16 + l := UInt16.toNat_ofNat_of_lt' (by simp [UInt16.size]; omega)
  have digits : (((i * 16 + j) * 16 + k) * 16 + l) / 4096 = i ∧
      (((i * 16 + j) * 16 + k) * 16 + l) / 256 % 16 = j ∧
      (((i * 16 + j) * 16 + k) * 16 + l) / 16 % 16 = k ∧
      (((i * 16 + j) * 16 + k) * 16 + l) % 16 = l := by omega
  rw [value, weight_numbered, digits.1, digits.2.1, digits.2.2.1, digits.2.2.2]
  omega

/-- Nor is an escape by a letter. -/
theorem weight_letterUnit {c : Char} {u : UInt16} (unit : letterUnit c = some u) :
    weight (escapeUnit u) ≤ weight [backslash, c] := by
  have listed : ∀ p ∈ letters, weight (escapeUnit (UInt16.ofNat p.1.toNat)) ≤
      weight [backslash, p.2] := by decide
  rw [letterUnit] at unit
  split_ifs at unit with mark
  · cases unit
    rcases mark with rfl | rfl | rfl <;> decide
  · obtain ⟨p, found, rfl⟩ := Option.map_eq_some_iff.mp unit
    have same : p.2 = c := by simpa using List.find?_some found
    rw [← same]
    exact listed p (List.mem_of_find?_eq_some found)

/-- No literal of a string weighs less than the one that is written. -/
theorem StringRead.weight {text rest : List Char} {units : List UInt16}
    (read : StringRead text units rest) :
    weight (quoted units) + 1 + weight rest ≤ weight text := by
  induction read with
  | ends rest =>
      rw [weight_ink (by decide), quoted, weight_nil]
      omega
  | @unit a b c d u text rest units unit more ih =>
      have first := weight_quoted_cons u units
      have escape := weight_hexUnit unit
      have whole := weight_append [backslash, 'u', a, b, c, d] text
      simp only [List.cons_append, List.nil_append] at whole
      omega
  | @letter c u text rest units unit more ih =>
      have first := weight_quoted_cons u units
      have escape := weight_letterUnit unit
      have whole := weight_append [backslash, c] text
      simp only [List.cons_append, List.nil_append] at whole
      omega
  | @char c text rest units noQuote noBackslash printable more ih =>
      have plain : isPlain c = true := by
        rw [isPlain, decide_eq_true_eq]
        exact ⟨noQuote, noBackslash, printable⟩
      rw [quoted_unitsOf, encoded_plain plain, weight_append, weight_cons c text]
      omega

/-! ### Values -/

section Values

variable {ν : Type} {F : NumberFormat ν} {n : ℕ}

theorem weight_skip (text : List Char) : weight (skip text) = weight text := by
  induction text with
  | nil => rfl
  | cons c l ih =>
      cases white : isBlank c with
      | true =>
          have pale : isInk c = false := by simp [isInk, white]
          rw [skip_blank white, weight_pale pale, ih]
      | false => rw [skip_cons white]

theorem weight_digits {digits : List Char} (chars : ∀ c ∈ digits, isNumberChar c = true) :
    weight digits = 0 := by
  rw [weight, List.countP_eq_zero]
  intro c inside
  simp [isInk, chars c inside]

theorem weight_spaced {l r : List Char} (spaced : Spaced l r) : weight l = weight r := by
  have pale {c : Char} (white : isBlank c = true) : isInk c = false := by simp [isInk, white]
  induction spaced with
  | nil => rfl
  | blank white more ih => rw [weight_pale (pale white), weight_pale (pale white), ih]
  | added white more ih => rw [weight_pale (pale white), ih]
  | token token more ih => rw [weight_append, weight_append, ih]

theorem weight_layout (F : NumberFormat ν) (v : Json ν) :
    weight (layout F 0 v) = weight (stringify F v) := by
  have spaced := laysOut F v (d := 0) .nil nofun
  rw [List.append_nil, List.append_nil] at spaced
  exact weight_spaced spaced

theorem weight_further (ts : List (List Char)) :
    weight (further ts) = (ts.map fun t => weight t + 1).sum := by
  induction ts with
  | nil => rfl
  | cons t ts ih =>
      rw [further, List.cons_append, weight_ink (by decide), weight_append, ih, List.map_cons,
        List.sum_cons]
      omega

theorem weight_joined (ts : List (List Char)) :
    weight (joined ts) = (ts.map fun t => weight t + 1).sum - 1 := by
  cases ts with
  | nil => rfl
  | cons t ts =>
      rw [joined, weight_append, weight_further, List.map_cons, List.sum_cons]
      omega

/-- The weight of the elements, each with a comma or the end of the array
behind it. -/
def elementsWeight (F : NumberFormat ν) (vs : List (Json ν)) : ℕ :=
  (vs.map fun v => weight (stringify F v) + 1).sum

/-- The weight of a property, with a comma or the end of the object behind it. -/
def memberWeight (F : NumberFormat ν) (p : List UInt16 × Json ν) : ℕ :=
  weight (quoted p.1) + weight (stringify F p.2) + 4

def membersWeight (F : NumberFormat ν) (ps : List (List UInt16 × Json ν)) : ℕ :=
  (ps.map (memberWeight F)).sum

theorem weight_array (vs : List (Json ν)) :
    weight (stringify F (.array vs)) = elementsWeight F vs - 1 + 2 := by
  have texts : (elementTexts F vs).map (fun t => weight t + 1) =
      vs.map fun v => weight (stringify F v) + 1 := by
    induction vs with
    | nil => rfl
    | cons v vs ih => rw [elementTexts, List.map_cons, ih, List.map_cons]
  rw [stringify, List.cons_append, weight_ink (by decide), weight_append, weight_joined, texts,
    weight_ink (by decide), weight_nil]
  rfl

theorem weight_literal (k : List UInt16) : weight (literal k) = weight (quoted k) + 2 := by
  rw [literal, List.cons_append, weight_ink (by decide), weight_append, weight_ink (by decide),
    weight_nil]

theorem weight_object (ps : List (List UInt16 × Json ν)) :
    weight (stringify F (.object ps)) = membersWeight F ps - 1 + 2 := by
  have texts : (memberTexts F ps).map (fun t => weight t + 1) = ps.map (memberWeight F) := by
    induction ps with
    | nil => rfl
    | cons p ps ih =>
        obtain ⟨k, v⟩ := p
        have first : weight (literal k ++ ':' :: stringify F v) + 1 = memberWeight F (k, v) := by
          show _ = weight (quoted k) + weight (stringify F v) + 4
          rw [weight_append, weight_literal, weight_ink (by decide)]
          omega
        rw [memberTexts, List.map_cons, ih, List.map_cons, first]
  rw [stringify, List.cons_append, weight_ink (by decide), weight_append, weight_joined, texts,
    weight_ink (by decide), weight_nil]
  rfl

/-! ### Properties that are set again -/

theorem put_keys (ps : List (List UInt16 × Json ν)) (p : List UInt16 × Json ν)
    (distinct : (ps.map Prod.fst).Nodup) : ((put ps p).map Prod.fst).Nodup := by
  rw [put]
  split_ifs with known
  · have keys : (ps.map fun q => if q.1 = p.1 then p else q).map Prod.fst = ps.map Prod.fst := by
      rw [List.map_map]
      refine List.map_congr_left fun q _ => ?_
      show (if q.1 = p.1 then p else q).1 = q.1
      split_ifs with same
      · exact same.symm
      · rfl
    rw [keys]
    exact distinct
  · rw [List.map_append, List.map_singleton]
    exact distinct.append (List.nodup_singleton _) (by simpa using known)

theorem membersWeight_replace (F : NumberFormat ν) {ps : List (List UInt16 × Json ν)}
    (p : List UInt16 × Json ν) (distinct : (ps.map Prod.fst).Nodup) :
    membersWeight F (ps.map fun q => if q.1 = p.1 then p else q) ≤
      membersWeight F ps + memberWeight F p := by
  unfold membersWeight
  induction ps with
  | nil => exact Nat.zero_le _
  | cons q ps ih =>
      rw [List.map_cons, List.nodup_cons] at distinct
      obtain ⟨fresh, distinct⟩ := distinct
      simp only [List.map_cons, List.sum_cons]
      split_ifs with same
      · have others : (ps.map fun q => if q.1 = p.1 then p else q) = ps := by
          refine (List.map_congr_left fun r listed => if_neg ?_).trans (List.map_id _)
          intro again
          exact fresh (same ▸ again ▸ List.mem_map_of_mem listed)
        rw [others]
        omega
      · have := ih distinct
        omega

theorem membersWeight_put (F : NumberFormat ν) (ps : List (List UInt16 × Json ν))
    (p : List UInt16 × Json ν) (distinct : (ps.map Prod.fst).Nodup) :
    membersWeight F (put ps p) ≤ membersWeight F ps + memberWeight F p := by
  rw [put]
  split_ifs
  · exact membersWeight_replace F p distinct
  · simp [membersWeight]

/-- A property that is set again does not add its weight. -/
theorem membersWeight_foldl (F : NumberFormat ν) (ps : List (List UInt16 × Json ν)) :
    ∀ qs : List (List UInt16 × Json ν), (qs.map Prod.fst).Nodup →
      membersWeight F (ps.foldl put qs) ≤ membersWeight F qs + membersWeight F ps ∧
        ((ps.foldl put qs).map Prod.fst).Nodup := by
  induction ps with
  | nil => exact fun qs distinct => ⟨Nat.le_refl _, distinct⟩
  | cons p ps ih =>
      intro qs distinct
      obtain ⟨light, distinct'⟩ := ih (put qs p) (put_keys qs p distinct)
      have step := membersWeight_put F qs p distinct
      have whole : membersWeight F (p :: ps) = memberWeight F p + membersWeight F ps := rfl
      exact ⟨by rw [List.foldl_cons]; omega, distinct'⟩

/-! ### No text weighs less -/

/-- What is read has been taken from the text. -/
def Weighs {α : Type} (read : List Char → Option (α × List Char)) (w : α → ℕ) : Prop :=
  ∀ {text rest : List Char} {a : α}, read text = some (a, rest) → w a + weight rest ≤ weight text

theorem weight_of_skip {c : Char} {text rest : List Char} (found : skip text = c :: rest)
    (ink : isInk c = true) : weight text = weight rest + 1 := by
  rw [← weight_skip, found, weight_ink ink]

theorem weight_readString {text rest : List Char} {units : List UInt16}
    (read : readString text = some (units, rest)) :
    weight (quoted units) + 1 + weight rest ≤ weight text :=
  (stringRead_of_readString read).weight

theorem weighs_value (elements : Weighs (readElements F n) (elementsWeight F))
    (members : Weighs (readMembers F n) (membersWeight F))
    (someElement : ∀ {text vs rest}, readElements F n text = some (vs, rest) → vs ≠ [])
    (someMember : ∀ {text ps rest}, readMembers F n text = some (ps, rest) → ps ≠ []) :
    Weighs (readValue F (n + 1)) fun v => weight (stringify F v) := by
  intro text rest v read
  show weight (stringify F v) + weight rest ≤ weight text
  cases valueRead_of_readValue read with
  | string opens found =>
      have start := weight_of_skip opens (by decide)
      have string := weight_readString found
      show weight (literal _) + _ ≤ _
      rw [weight_literal]
      omega
  | emptyArray opens closes =>
      have start := weight_of_skip opens (by decide)
      have stop := weight_of_skip closes (by decide)
      have none : elementsWeight F [] = 0 := rfl
      rw [weight_array]
      omega
  | @array start next vs opens found =>
      have first := weight_of_skip opens (by decide)
      have taken := elements found
      rw [weight_skip] at taken
      obtain ⟨w, vs, rfl⟩ := List.exists_cons_of_ne_nil (someElement found)
      have positive : elementsWeight F (w :: vs) =
          weight (stringify F w) + 1 + elementsWeight F vs := rfl
      rw [weight_array]
      omega
  | emptyObject opens closes =>
      have start := weight_of_skip opens (by decide)
      have stop := weight_of_skip closes (by decide)
      have none : membersWeight F [] = 0 := rfl
      rw [weight_object]
      omega
  | @object start next ps opens found =>
      have first := weight_of_skip opens (by decide)
      have taken := members found
      have light := (membersWeight_foldl F ps [] List.nodup_nil).1
      have none : membersWeight F [] = 0 := rfl
      rw [weight_skip] at taken
      obtain ⟨p, ps, rfl⟩ := List.exists_cons_of_ne_nil (someMember found)
      have positive : membersWeight F (p :: ps) = memberWeight F p + membersWeight F ps := rfl
      have positive' : memberWeight F p =
        weight (quoted p.1) + weight (stringify F p.2) + 4 := rfl
      rw [weight_object]
      omega
  | word listed word =>
      have whole := weight_skip text
      rw [word, weight_append] at whole
      omega
  | number value =>
      have whole := weight_skip text
      rw [← List.takeWhile_append_dropWhile (p := isNumberChar) (l := skip text),
        weight_append] at whole
      show weight (F.text _) + _ ≤ _
      rw [weight_digits (F.text_chars _)]
      omega

theorem weighs_elements (values : Weighs (readValue F n) fun v => weight (stringify F v))
    (elements : Weighs (readElements F n) (elementsWeight F)) :
    Weighs (readElements F (n + 1)) (elementsWeight F) := by
  intro text next vs read
  obtain ⟨v, rest, value, ⟨rest', vs', comma, found, rfl⟩ | ⟨closes, rfl⟩⟩ :=
    readElements_eq_some.mp read
  · have first : weight (stringify F v) + weight rest ≤ weight text := values value
    have mark := weight_of_skip comma (by decide)
    have others := elements found
    have whole : elementsWeight F (v :: vs') =
        weight (stringify F v) + 1 + elementsWeight F vs' := rfl
    omega
  · have first : weight (stringify F v) + weight rest ≤ weight text := values value
    have mark := weight_of_skip closes (by decide)
    have whole : elementsWeight F [v] = weight (stringify F v) + 1 + 0 := rfl
    omega

theorem weighs_members (values : Weighs (readValue F n) fun v => weight (stringify F v))
    (members : Weighs (readMembers F n) (membersWeight F)) :
    Weighs (readMembers F (n + 1)) (membersWeight F) := by
  intro text next ps read
  obtain ⟨start, k, r₁, r₂, v, rest, quote, key, colon, value, last⟩ :=
    readMembers_eq_some.mp read
  have opens := weight_of_skip quote (by decide)
  have name := weight_readString key
  have mark := weight_of_skip colon (by decide)
  have first : weight (stringify F v) + weight rest ≤ weight r₂ := values value
  have member : memberWeight F (k, v) = weight (quoted k) + weight (stringify F v) + 4 := rfl
  rcases last with ⟨rest', ps', comma, found, rfl⟩ | ⟨closes, rfl⟩
  · have mark' := weight_of_skip comma (by decide)
    have others := members found
    have whole : membersWeight F ((k, v) :: ps') =
        memberWeight F (k, v) + membersWeight F ps' := rfl
    omega
  · have mark' := weight_of_skip closes (by decide)
    have whole : membersWeight F [(k, v)] = memberWeight F (k, v) + 0 := rfl
    omega

theorem readElements_ne_nil {text rest : List Char} {vs : List (Json ν)}
    (read : readElements F n text = some (vs, rest)) : vs ≠ [] := by
  cases n with
  | zero => cases read
  | succ n =>
      obtain ⟨v, _, _, ⟨_, _, _, _, rfl⟩ | ⟨_, rfl⟩⟩ := readElements_eq_some.mp read <;>
        exact List.cons_ne_nil _ _

theorem readMembers_ne_nil {text rest : List Char} {ps : List (List UInt16 × Json ν)}
    (read : readMembers F n text = some (ps, rest)) : ps ≠ [] := by
  cases n with
  | zero => cases read
  | succ n =>
      obtain ⟨_, _, _, _, _, _, _, _, _, _, ⟨_, _, _, _, rfl⟩ | ⟨_, rfl⟩⟩ :=
        readMembers_eq_some.mp read <;> exact List.cons_ne_nil _ _

theorem weighs (F : NumberFormat ν) (n : ℕ) :
    Weighs (readValue F n) (fun v => weight (stringify F v)) ∧
      Weighs (readElements F n) (elementsWeight F) ∧
      Weighs (readMembers F n) (membersWeight F) := by
  induction n with
  | zero => exact ⟨nofun, nofun, nofun⟩
  | succ n ih =>
      obtain ⟨values, elements, members⟩ := ih
      exact ⟨weighs_value elements members readElements_ne_nil readMembers_ne_nil,
        weighs_elements values elements, weighs_members values members⟩

/-- No text of a value weighs less than the one that is written for it. -/
theorem weight_of_parse {text : List Char} {v : Json ν} (parsed : parse F text = some v) :
    weight (layout F 0 v) ≤ weight text := by
  rw [parse] at parsed
  split at parsed
  case h_2 => cases parsed
  case h_1 w rest read =>
    split_ifs at parsed
    cases parsed
    have taken := (weighs F _).1 read
    rw [weight_layout]
    exact Nat.le_of_add_right_le taken

/-! ### What is parsed is well formed -/

theorem wellFormed_put {ps : List (List UInt16 × Json ν)} {p : List UInt16 × Json ν}
    (each : ∀ q ∈ ps, q.2.WellFormed) (proper : p.2.WellFormed) :
    ∀ q ∈ put ps p, q.2.WellFormed := by
  rw [put]
  split_ifs
  · intro q listed
    obtain ⟨r, known, rfl⟩ := List.mem_map.mp listed
    split_ifs
    · exact proper
    · exact each r known
  · intro q listed
    rcases List.mem_append.mp listed with listed | listed
    · exact each q listed
    · rwa [List.mem_singleton.mp listed]

theorem wellFormed_foldl {ps : List (List UInt16 × Json ν)} (each : ∀ q ∈ ps, q.2.WellFormed) :
    ∀ qs : List (List UInt16 × Json ν), (∀ q ∈ qs, q.2.WellFormed) →
      ∀ q ∈ ps.foldl put qs, q.2.WellFormed := by
  induction ps with
  | nil => exact fun qs before => before
  | cons p ps ih =>
      obtain ⟨first, others⟩ := List.forall_mem_cons.mp each
      exact fun qs before => ih others (put qs p) (wellFormed_put before first)

theorem wellFormed_read (F : NumberFormat ν) (n : ℕ) :
    (∀ {text rest v}, readValue F n text = some (v, rest) → v.WellFormed) ∧
      (∀ {text rest vs}, readElements F n text = some (vs, rest) → ∀ v ∈ vs, v.WellFormed) ∧
      ∀ {text rest ps}, readMembers F n text = some (ps, rest) → ∀ p ∈ ps, p.2.WellFormed := by
  induction n with
  | zero => exact ⟨nofun, nofun, nofun⟩
  | succ n ih =>
      obtain ⟨values, elements, members⟩ := ih
      refine ⟨fun read => ?_, fun read => ?_, fun read => ?_⟩
      · cases valueRead_of_readValue read with
        | string => exact .string _
        | emptyArray => exact .array [] nofun
        | array opens found => exact .array _ (elements found)
        | emptyObject => exact .object [] List.nodup_nil nofun
        | @object start next ps opens found =>
            exact .object _ (membersWeight_foldl F ps [] List.nodup_nil).2
              (wellFormed_foldl (members found) [] nofun)
        | word listed word =>
            rcases listed with rfl | ⟨b, rfl⟩
            · exact .null
            · exact .bool b
        | number => exact .number _
      · obtain ⟨v, _, value, ⟨_, _, _, found, rfl⟩ | ⟨_, rfl⟩⟩ := readElements_eq_some.mp read
        · exact List.forall_mem_cons.mpr ⟨values value, elements found⟩
        · exact List.forall_mem_singleton.mpr (values value)
      · obtain ⟨_, _, _, _, _, _, _, _, _, value, ⟨_, _, _, found, rfl⟩ | ⟨_, rfl⟩⟩ :=
          readMembers_eq_some.mp read
        · exact List.forall_mem_cons.mpr ⟨values value, members found⟩
        · exact List.forall_mem_singleton.mpr (values value)

/-- No name occurs twice in an object that is parsed. -/
theorem wellFormed_of_parse {text : List Char} {v : Json ν} (parsed : parse F text = some v) :
    v.WellFormed := by
  rw [parse] at parsed
  split at parsed
  case h_2 => cases parsed
  case h_1 w rest read =>
    split_ifs at parsed
    cases parsed
    exact (wellFormed_read F _).1 read

end Values

/-! ### Values in a text -/

section Filled

variable {value : List ℕ → List Char}

theorem weight_encoded (c : Char) : weight [c] ≤ weight (encoded c) ∧
    (weight (encoded c) ≤ weight [c] → isPlain c = true) := by
  cases plain : isPlain c with
  | true => rw [encoded_plain plain]; exact ⟨Nat.le_refl _, fun _ => rfl⟩
  | false =>
      obtain ⟨d, rest, text, ink⟩ := encoded_special plain
      have short := weight_singleton_le c
      have long : weight (encoded c) = weight rest + 1 + 1 := by
        rw [text, weight_ink (by decide), weight_ink ink]
      exact ⟨by omega, fun light => absurd light (by omega)⟩

theorem weight_encodedText (text : List Char) : weight text ≤ weight (text.flatMap encoded) ∧
    (weight (text.flatMap encoded) ≤ weight text → ∀ c ∈ text, isPlain c = true) := by
  induction text with
  | nil => exact ⟨Nat.le_refl _, fun _ => nofun⟩
  | cons c text ih =>
      obtain ⟨more, same⟩ := ih
      obtain ⟨more', same'⟩ := weight_encoded c
      rw [List.flatMap_cons, weight_append, weight_cons]
      refine ⟨by omega, fun light => List.forall_mem_cons.mpr ⟨same' ?_, same ?_⟩⟩ <;> omega

theorem weight_textOf (ps : List (Piece Char)) :
    weight (textOf value ps) ≤ weight (textOf (encodedValue value) ps) ∧
      (weight (textOf (encodedValue value) ps) ≤ weight (textOf value ps) →
        ∀ n ∈ namesOf ps, ∀ c ∈ value n, isPlain c = true) := by
  induction ps with
  | nil => exact ⟨Nat.le_refl _, fun _ => nofun⟩
  | cons p ps ih =>
      obtain ⟨more, same⟩ := ih
      cases p with
      | plain c =>
          rw [textOf, textOf, weight_cons, weight_cons c (textOf (encodedValue value) ps)]
          exact ⟨by omega, fun light => same (by omega)⟩
      | name n =>
          obtain ⟨more', same'⟩ := weight_encodedText (value n)
          rw [textOf, textOf, weight_append, weight_append, encodedValue]
          refine ⟨by omega, fun light => List.forall_mem_cons.mpr ⟨same' ?_, same ?_⟩⟩ <;> omega

theorem textOf_plainValues {ps : List (Piece Char)}
    (plain : ∀ n ∈ namesOf ps, ∀ c ∈ value n, isPlain c = true) :
    textOf value ps = textOf (encodedValue value) ps := by
  induction ps with
  | nil => rfl
  | cons p ps ih =>
      cases p with
      | plain c => rw [textOf, textOf, ih plain]
      | name n =>
          obtain ⟨first, others⟩ := List.forall_mem_cons.mp plain
          have text : encodedValue value n = value n := by
            rw [encodedValue, List.flatMap_congr fun c listed => encoded_plain (first c listed)]
            exact List.flatMap_singleton' _
          rw [textOf, textOf, ih others, text]

variable {ν : Type} (F : NumberFormat ν)

/-- Values that need no escape may be put into the text as they are. -/
theorem fill_plainValues (nonempty : ∀ n, value n ≠ []) {v : Json ν}
    (plain : ∀ n ∈ v.placeholders, ∀ c ∈ value n, isPlain c = true) :
    fill Char.toNat value (layout F 0 v) = layout F 0 (v.mapStrings (filled value)) := by
  obtain ⟨text, listed⟩ := layout_filled F nonempty v
  rw [← listed] at plain
  exact (textOf_plainValues plain).trans text

/-- With the bare values in its text, a value is that with the values in its
strings, if and only if no value needs an escape and no name comes to occur
twice in an object. -/
theorem parse_fill_iff (nonempty : ∀ n, value n ≠ []) (v : Json ν) :
    parse F (fill Char.toNat value (layout F 0 v)) = some (v.mapStrings (filled value)) ↔
      (∀ n ∈ v.placeholders, ∀ c ∈ value n, isPlain c = true) ∧
        (v.mapStrings (filled value)).WellFormed := by
  constructor
  · intro parsed
    refine ⟨?_, wellFormed_of_parse parsed⟩
    obtain ⟨text, listed⟩ := layout_filled F nonempty v
    have light := weight_of_parse parsed
    rw [← text] at light
    rw [← listed]
    exact (weight_textOf _).2 light
  · rintro ⟨plain, proper⟩
    have parsed := parse_layout F proper .nil
    rw [List.append_nil] at parsed
    rw [fill_plainValues F nonempty plain, parsed]

end Filled

end Library.Json
