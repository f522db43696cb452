import Mathlib.Data.List.TakeWhile
import Mathlib.Tactic.IntervalCases
import Mathlib.Tactic.SplitIfs
import OmpBundler.Core.CronExpression

/-!
What the fields of a cron expression mean.

The grammar of the parts is a relation between a part and its text, and a
part denotes a set of values. The parser accepts exactly the texts of the
grammar. It does not give exactly the values: of `A/M` it takes `A` alone,
and a range of weekdays that wraps around passes Sunday twice, as seven and
as zero, so that the days behind it come one place late.
-/

namespace OmpBundler.Core

open Library Library.Fallible

/-- The value of a number: seven is Sunday too. -/
def FieldDef.norm (d : FieldDef) (v : ℕ) : ℕ := if d.max = 7 ∧ v = 7 then 0 else v

/-- How many values the field has. -/
def FieldDef.size (d : FieldDef) : ℕ := if d.max = 7 then 7 else d.max + 1 - d.min

namespace Cron

/-! ### The grammar -/

/-- Digits that are the number. -/
def Numeral (n : ℕ) (digits : List Char) : Prop :=
  digits ≠ [] ∧ (∀ c ∈ digits, c.isDigit = true) ∧ numberOf digits = n

/-- The texts of the spans. -/
inductive SpanText : Span → List Char → Prop where
  | all : SpanText .all ['*']
  | one {a : ℕ} {digits : List Char} : Numeral a digits → SpanText (.one a) digits
  | range {a b : ℕ} {digits digits' : List Char} : Numeral a digits → Numeral b digits' →
      SpanText (.range a b) (digits ++ '-' :: digits')

/-- The texts of the steps. -/
inductive StepText : Option ℕ → List Char → Prop where
  | none : StepText none []
  | some {n : ℕ} {digits : List Char} : Numeral n digits → StepText (some n) ('/' :: digits)

/-- A part: `*`, `A` or `A-B`, and perhaps a step. -/
structure Part where
  span : Span
  step : Option ℕ
  deriving DecidableEq, Repr

/-- The part is written so, up to blanks around it. -/
def Part.Written (p : Part) (text : List Char) : Prop :=
  ∃ spanText stepText, SpanText p.span spanText ∧ StepText p.step stepText ∧
    JsString.trimChars text = spanText ++ stepText

/-- Its values are in range, and the step is at least one. -/
def Part.InRange (d : FieldDef) (p : Part) : Prop :=
  1 ≤ p.step.getD 1 ∧ (d.min ≤ p.span.start d ∧ p.span.start d ≤ d.max) ∧
    d.min ≤ p.span.stop d ∧ p.span.stop d ≤ d.max

/-- The parts that a field lists. -/
def Lists (d : FieldDef) (raw : List Char) (parts : List Part) : Prop :=
  List.Forall₂ Part.Written parts (raw.splitOn ',') ∧ ∀ p ∈ parts, p.InRange d

/-! ### What the parts denote -/

/-- Every `n`-th value from `a` to `b`, and around the end if `b` comes
before `a`. -/
def stepped (d : FieldDef) (a b n : ℕ) : Set ℕ :=
  if a ≤ b then {v | ∃ k, a + k * n ≤ b ∧ v = d.norm (a + k * n)}
  else {v | ∃ k, k * n ≤ (b + d.size - a) % d.size ∧ v = d.min + (a - d.min + k * n) % d.size}

/-- The values of a part. -/
def Part.denoted (d : FieldDef) (p : Part) : Set ℕ :=
  match p.span, p.step with
  | .all, step => stepped d d.min d.max (step.getD 1)
  | .one a, none => {d.norm a}
  | .one a, some m => stepped d a d.max m
  | .range a b, step => stepped d a b (step.getD 1)

/-! ### Where the parser goes wrong -/

/-- The values that a part loses: those behind the first one of `A/M`, and
weekdays behind Sunday that are in turn by the days, but not by the numbers. -/
def Part.lost (d : FieldDef) (p : Part) : Set ℕ :=
  match p.span, p.step with
  | .one a, some m => {v | v ≠ d.norm a ∧ ∃ k, a + k * m ≤ d.max ∧ v = d.norm (a + k * m)}
  | .range a b, step =>
      {v | d.max = 7 ∧ b < a ∧ 1 ≤ v ∧ v ≤ b ∧ step.getD 1 ∣ v + 7 - a ∧ ¬ step.getD 1 ∣ v + 8 - a}
  | _, _ => ∅

/-- The values that it has too many: weekdays from Sunday on that are in turn
by the numbers, but not by the days. -/
def Part.strays (d : FieldDef) (p : Part) : Set ℕ :=
  match p.span with
  | .range a b =>
      {v | d.max = 7 ∧ b < a ∧ v ≤ b ∧ p.step.getD 1 ∣ v + 8 - a ∧ ¬ p.step.getD 1 ∣ v + 7 - a}
  | _ => ∅

/-! ### Reading -/

theorem numeral_digits {n : ℕ} {digits rest : List Char} (numeral : Numeral n digits)
    (stops : ∀ c ∈ rest.head?, c.isDigit = false) :
    leadingNumber (digits ++ rest) = some (n, rest) := by
  obtain ⟨nonempty, all, rfl⟩ := numeral
  have taken : (digits ++ rest).takeWhile Char.isDigit = digits := by
    rw [List.takeWhile_append_of_pos all]
    cases rest with
    | nil => rw [List.takeWhile_nil, List.append_nil]
    | cons c rest => rw [List.takeWhile_cons_of_neg (by simp [stops c rfl]), List.append_nil]
  have dropped : (digits ++ rest).dropWhile Char.isDigit = rest := by
    rw [List.dropWhile_append_of_pos all]
    cases rest with
    | nil => rfl
    | cons c rest => rw [List.dropWhile_cons_of_neg (by simp [stops c rfl])]
  rw [leadingNumber, taken, dropped, if_neg nonempty]

theorem numeral_of_leadingNumber {n : ℕ} {l rest : List Char}
    (read : leadingNumber l = some (n, rest)) : ∃ digits, Numeral n digits ∧ l = digits ++ rest := by
  rw [leadingNumber] at read
  split_ifs at read with empty
  obtain ⟨rfl, rfl⟩ := Prod.mk.inj (Option.some.inj read)
  exact ⟨_, ⟨empty, fun c mem => List.mem_takeWhile_imp mem, rfl⟩,
    (List.takeWhile_append_dropWhile).symm⟩

/-- A text that begins with a digit does not begin with an asterisk. -/
theorem leadingSpan_of_numeral {n : ℕ} {digits : List Char} (numeral : Numeral n digits)
    (rest : List Char) :
    leadingSpan (digits ++ rest) = (do
      let (first, rest) ← leadingNumber (digits ++ rest)
      match rest with
      | '-' :: rest =>
          let (last, rest) ← leadingNumber rest
          some (.range first last, rest)
      | rest => some (.one first, rest)) := by
  obtain ⟨nonempty, all, -⟩ := numeral
  obtain ⟨c, digits, rfl⟩ := List.exists_cons_of_ne_nil nonempty
  have digit := all c List.mem_cons_self
  have other : ∀ rest', c :: digits ++ rest = '*' :: rest' → False := by
    rintro rest' same
    obtain ⟨rfl, -⟩ := List.cons.inj same
    exact absurd digit (by decide)
  exact leadingSpan.eq_2 _ other

theorem leadingNumber_of_notDigit {l : List Char} (stops : ∀ c ∈ l.head?, c.isDigit = false) :
    leadingNumber l = none := by
  cases l with
  | nil => rfl
  | cons c l => rw [leadingNumber, List.takeWhile_cons_of_neg (by simp [stops c rfl]), if_pos rfl]

/-- The text of a step does not begin with a digit or a dash. -/
theorem StepText.head {step : Option ℕ} {text : List Char} (written : StepText step text) :
    ∀ c ∈ text.head?, c = '/' := by
  cases written with
  | none => simp
  | some numeral => simp

/-- A span is read from its text. -/
theorem leadingSpan_of_text {span : Span} {text rest : List Char} (written : SpanText span text)
    (stops : ∀ c ∈ rest.head?, c = '/') : leadingSpan (text ++ rest) = some (span, rest) := by
  have no_digit : ∀ c ∈ rest.head?, c.isDigit = false := fun c mem => by
    rw [stops c mem]
    decide
  cases written with
  | all => rfl
  | one numeral =>
    rw [leadingSpan_of_numeral numeral, numeral_digits numeral no_digit]
    cases rest with
    | nil => rfl
    | cons c rest =>
      obtain rfl := stops c rfl
      rfl
  | range first last =>
    rw [List.append_assoc, List.cons_append, leadingSpan_of_numeral first,
      numeral_digits first (by simp)]
    show (leadingNumber (_ ++ rest) >>= _) = _
    rw [numeral_digits last no_digit]
    rfl

/-- What is read as a span is the text of it. -/
theorem text_of_leadingSpan {span : Span} {l rest : List Char}
    (read : leadingSpan l = some (span, rest)) : ∃ text, SpanText span text ∧ l = text ++ rest := by
  unfold leadingSpan at read
  split at read
  case h_1 rest' =>
    obtain ⟨rfl, rfl⟩ := Prod.mk.inj (Option.some.inj read)
    exact ⟨_, .all, rfl⟩
  case h_2 other =>
    clear other
    cases first : leadingNumber l with
    | none =>
      rw [first] at read
      cases read
    | some p =>
      obtain ⟨a, behind⟩ := p
      obtain ⟨digits, numeral, rfl⟩ := numeral_of_leadingNumber first
      rw [first] at read
      simp only [Option.bind_eq_bind, Option.bind_some] at read
      split at read
      case h_1 behind =>
        cases last : leadingNumber behind with
        | none =>
          rw [last] at read
          cases read
        | some p =>
          obtain ⟨digits', numeral', rfl⟩ := numeral_of_leadingNumber last
          rw [last] at read
          obtain ⟨rfl, rfl⟩ := Prod.mk.inj (Option.some.inj read)
          exact ⟨_, .range numeral numeral', by simp⟩
      case h_2 =>
        obtain ⟨rfl, rfl⟩ := Prod.mk.inj (Option.some.inj read)
        exact ⟨_, .one numeral, rfl⟩

/-- A text is parsed as a part if and only if it is a text of it. -/
theorem parsePart_iff {p : Part} {text : List Char} :
    parsePart (JsString.trimChars text) = some (p.span, p.step) ↔ p.Written text := by
  constructor
  · intro parsed
    rw [parsePart] at parsed
    cases spanned : leadingSpan (JsString.trimChars text) with
    | none =>
      rw [spanned] at parsed
      cases parsed
    | some q =>
      obtain ⟨span, rest⟩ := q
      obtain ⟨spanText, written, split⟩ := text_of_leadingSpan spanned
      rw [spanned] at parsed
      simp only [Option.bind_eq_bind, Option.bind_some] at parsed
      split at parsed
      case h_1 =>
        obtain ⟨rfl, step⟩ := Prod.mk.inj (Option.some.inj parsed)
        exact ⟨spanText, [], written, step ▸ .none, split⟩
      case h_2 behind =>
        cases stepped : leadingNumber behind with
        | none =>
          rw [stepped] at parsed
          cases parsed
        | some q =>
          obtain ⟨n, rest⟩ := q
          obtain ⟨digits, numeral, rfl⟩ := numeral_of_leadingNumber stepped
          rw [stepped] at parsed
          simp only [Option.bind_some] at parsed
          split_ifs at parsed with ends
          obtain ⟨rfl, step⟩ := Prod.mk.inj (Option.some.inj parsed)
          rw [ends, List.append_nil] at split
          exact ⟨spanText, _, written, step ▸ .some numeral, split⟩
      case h_3 => cases parsed
  · rintro ⟨spanText, stepText, span, step, split⟩
    rw [split, parsePart, leadingSpan_of_text span step.head]
    simp only [Option.bind_eq_bind, Option.bind_some]
    generalize p.step = given at step ⊢
    cases step with
    | none => rfl
    | @some n digits numeral =>
      have read : leadingNumber (digits ++ []) = some (n, []) := numeral_digits numeral (by simp)
      rw [List.append_nil] at read
      simp only [read, Option.bind_some, if_true]

/-- Parts that are accepted are the ones of the grammar, in range. -/
theorem partOk_iff {d : FieldDef} {text : List Char} :
    PartOk d text ↔ ∃ p : Part, p.Written text ∧ p.InRange d := by
  constructor
  · rintro ⟨span, step, parsed, least, startMin, stopMin, startMax, stopMax⟩
    exact ⟨⟨span, step⟩, parsePart_iff.mp parsed, least, ⟨startMin, startMax⟩, stopMin, stopMax⟩
  · rintro ⟨p, written, least, ⟨startMin, startMax⟩, stopMin, stopMax⟩
    exact ⟨p.span, p.step, parsePart_iff.mpr written, least, startMin, stopMin, startMax, stopMax⟩

/-! ### The values of a part -/

theorem mem_everyNth {n : ℕ} {l : List ℕ} {v : ℕ} :
    v ∈ everyNth n l ↔ ∃ k, l[k * n]? = some v := by
  rw [everyNth, List.mem_map]
  constructor
  · rintro ⟨⟨w, i⟩, mem, rfl⟩
    obtain ⟨listed, turn⟩ := List.mem_filter.mp mem
    obtain ⟨k, rfl⟩ := Nat.dvd_of_mod_eq_zero (of_decide_eq_true turn)
    exact ⟨k, by rw [Nat.mul_comm]; exact List.mem_zipIdx_iff_getElem?.mp listed⟩
  · rintro ⟨k, listed⟩
    refine ⟨(v, k * n), List.mem_filter.mpr ⟨List.mem_zipIdx_iff_getElem?.mpr listed, ?_⟩, rfl⟩
    exact decide_eq_true (Nat.mul_mod_left k n)

theorem getElem?_range' {a n i v : ℕ} :
    (List.range' a n)[i]? = some v ↔ i < n ∧ v = a + i := by
  rw [List.getElem?_eq_some_iff]
  simp only [List.length_range', List.getElem_range', Nat.one_mul]
  constructor
  · rintro ⟨inside, rfl⟩
    exact ⟨inside, rfl⟩
  · rintro ⟨inside, rfl⟩
    exact ⟨inside, rfl⟩

variable {d : FieldDef} {a b n v : ℕ}

/-- A span in order. -/
theorem mem_spanValues_of_le (ordered : a ≤ b) :
    v ∈ spanValues d a b n ↔ ∃ k, a + k * n ≤ b ∧ v = a + k * n := by
  rw [spanValues, if_pos ordered, mem_everyNth]
  refine exists_congr fun k => ?_
  rw [getElem?_range']
  omega

/-- A span that wraps around: the numbers up to the end of the field, and
then the ones from its beginning on. -/
theorem mem_spanValues_of_lt (wraps : b < a) :
    v ∈ spanValues d a b n ↔
      ∃ k, (a + k * n ≤ d.max ∧ v = a + k * n) ∨
        (d.max + 1 - a ≤ k * n ∧ k * n - (d.max + 1 - a) < b + 1 - d.min ∧
          v = d.min + (k * n - (d.max + 1 - a))) := by
  rw [spanValues, if_neg (by omega), mem_everyNth]
  refine exists_congr fun k => ?_
  by_cases first : k * n < d.max + 1 - a
  · rw [List.getElem?_append_left (by rw [List.length_range']; exact first), getElem?_range']
    omega
  · rw [List.getElem?_append_right (by rw [List.length_range']; omega), List.length_range',
      getElem?_range']
    omega

theorem mem_stepped_of_le (ordered : a ≤ b) :
    v ∈ stepped d a b n ↔ ∃ k, a + k * n ≤ b ∧ v = d.norm (a + k * n) := by
  rw [stepped, if_pos ordered]
  rfl

/-- One of the five fields. -/
def fieldDefs : List FieldDef :=
  [minuteField, hourField, dayOfMonthField, monthField, dayOfWeekField]

theorem eq_dayOfWeekField (field : d ∈ fieldDefs) (seven : d.max = 7) : d = dayOfWeekField := by
  simp only [fieldDefs, List.mem_cons, List.not_mem_nil, or_false] at field
  rcases field with rfl | rfl | rfl | rfl | rfl
  all_goals first | rfl | cases seven

/-- The values that the parser takes for a part. -/
def Part.given (d : FieldDef) (p : Part) : Set ℕ :=
  {v | ∃ w ∈ spanValues d (p.span.start d) (p.span.stop d) (p.step.getD 1), v = d.norm w}

theorem given_of_le {p : Part} (ordered : p.span.start d ≤ p.span.stop d) :
    p.given d = stepped d (p.span.start d) (p.span.stop d) (p.step.getD 1) := by
  ext v
  rw [stepped, if_pos ordered]
  constructor
  · rintro ⟨w, mem, rfl⟩
    obtain ⟨k, le, rfl⟩ := (mem_spanValues_of_le ordered).mp mem
    exact ⟨k, le, rfl⟩
  · rintro ⟨k, le, rfl⟩
    exact ⟨_, (mem_spanValues_of_le ordered).mpr ⟨k, le, rfl⟩, rfl⟩

/-- A range that wraps around in a field without a second Sunday. -/
theorem given_of_lt {p : Part} (plain : d.max ≠ 7) (wraps : p.span.stop d < p.span.start d)
    (least : d.min ≤ p.span.stop d) (most : p.span.start d ≤ d.max) :
    p.given d = stepped d (p.span.start d) (p.span.stop d) (p.step.getD 1) := by
  have same : ∀ w, d.norm w = w := fun w => if_neg fun seven => plain seven.1
  have size : d.size = d.max + 1 - d.min := if_neg plain
  have room : (p.span.stop d + d.size - p.span.start d) % d.size =
      p.span.stop d + d.size - p.span.start d := Nat.mod_eq_of_lt (by omega)
  rw [stepped, if_neg (by omega), room]
  ext v
  constructor
  · rintro ⟨w, mem, rfl⟩
    obtain ⟨k, turn⟩ := (mem_spanValues_of_lt wraps).mp mem
    refine ⟨k, by omega, ?_⟩
    rcases turn with ⟨le, rfl⟩ | ⟨behind, inside, rfl⟩
    · rw [same, Nat.mod_eq_of_lt (by omega)]
      omega
    · rw [same, Nat.mod_eq_sub_mod (by omega), Nat.mod_eq_of_lt (by omega)]
      omega
  · rintro ⟨k, le, rfl⟩
    refine ⟨_, (mem_spanValues_of_lt wraps).mpr ⟨k, ?_⟩, (same _).symm⟩
    by_cases first : p.span.start d + k * p.step.getD 1 ≤ d.max
    · left
      refine ⟨first, ?_⟩
      rw [Nat.mod_eq_of_lt (by omega)]
      omega
    · right
      refine ⟨by omega, by omega, ?_⟩
      rw [Nat.mod_eq_sub_mod (by omega), Nat.mod_eq_of_lt (by omega)]
      omega

/-! ### Weekdays around Sunday -/

/-- The weekdays of the numbers `a`, …, `7`, `0`, …, `b`. -/
theorem mem_given_weekday {p : Part} (wraps : p.span.stop dayOfWeekField < p.span.start dayOfWeekField)
    (most : p.span.start dayOfWeekField ≤ 7) :
    v ∈ p.given dayOfWeekField ↔
      (p.span.start dayOfWeekField ≤ v ∧ v < 7 ∧ p.step.getD 1 ∣ v - p.span.start dayOfWeekField) ∨
      (v = 0 ∧ p.step.getD 1 ∣ 7 - p.span.start dayOfWeekField) ∨
      (v ≤ p.span.stop dayOfWeekField ∧ p.step.getD 1 ∣ v + 8 - p.span.start dayOfWeekField) := by
  have plain : ∀ w, w < 7 → dayOfWeekField.norm w = w := fun w small =>
    if_neg fun seven => by omega
  have sunday : dayOfWeekField.norm 7 = 0 := rfl
  constructor
  · rintro ⟨w, mem, rfl⟩
    obtain ⟨k, ⟨le, rfl⟩ | ⟨behind, inside, rfl⟩⟩ := (mem_spanValues_of_lt wraps).mp mem
    · have le : p.span.start dayOfWeekField + k * p.step.getD 1 ≤ 7 := le
      by_cases last : p.span.start dayOfWeekField + k * p.step.getD 1 = 7
      · rw [last, sunday]
        exact .inr (.inl ⟨rfl, ⟨k, by rw [Nat.mul_comm _ k]; omega⟩⟩)
      · rw [plain _ (by omega)]
        exact .inl ⟨by omega, by omega, ⟨k, by rw [Nat.mul_comm _ k]; omega⟩⟩
    · have behind : 8 - p.span.start dayOfWeekField ≤ k * p.step.getD 1 := behind
      have inside : k * p.step.getD 1 - (8 - p.span.start dayOfWeekField) <
        p.span.stop dayOfWeekField + 1 := inside
      have value : dayOfWeekField.min + (k * p.step.getD 1 - (dayOfWeekField.max + 1 -
          p.span.start dayOfWeekField)) =
        k * p.step.getD 1 - (8 - p.span.start dayOfWeekField) := Nat.zero_add _
      rw [value, plain _ (by omega)]
      exact .inr (.inr ⟨by omega, ⟨k, by rw [Nat.mul_comm _ k]; omega⟩⟩)
  · rintro (⟨from_, small, k, turn⟩ | ⟨rfl, k, turn⟩ | ⟨upTo, k, turn⟩)
    · rw [Nat.mul_comm] at turn
      exact ⟨v, (mem_spanValues_of_lt wraps).mpr ⟨k, .inl ⟨show _ ≤ 7 by omega, by omega⟩⟩,
        (plain v small).symm⟩
    · rw [Nat.mul_comm] at turn
      exact ⟨7, (mem_spanValues_of_lt wraps).mpr ⟨k, .inl ⟨show _ ≤ 7 by omega, by omega⟩⟩, rfl⟩
    · rw [Nat.mul_comm] at turn
      refine ⟨v, (mem_spanValues_of_lt wraps).mpr ⟨k, .inr ⟨?_, ?_, ?_⟩⟩, (plain v (by omega)).symm⟩
      · show 8 - _ ≤ _
        omega
      · show _ - (8 - _) < _ + 1 - 0
        omega
      · show v = 0 + (_ - (8 - _))
        omega

/-- The weekdays from `a` on, around the end of the week to `b`. -/
theorem mem_stepped_weekday (wraps : b < a) (most : a ≤ 7) :
    v ∈ stepped dayOfWeekField a b n ↔
      (a ≤ v ∧ v < 7 ∧ n ∣ v - a) ∨ (v ≤ b ∧ n ∣ v + 7 - a) := by
  have room : (b + 7 - a) % 7 = b + 7 - a := Nat.mod_eq_of_lt (by omega)
  rw [stepped, if_neg (by omega)]
  show (∃ k, k * n ≤ (b + 7 - a) % 7 ∧ v = 0 + (a - 0 + k * n) % 7) ↔ _
  rw [room]
  constructor
  · rintro ⟨k, le, rfl⟩
    by_cases first : a + k * n < 7
    · rw [Nat.zero_add, Nat.sub_zero, Nat.mod_eq_of_lt first]
      exact .inl ⟨by omega, first, ⟨k, by rw [Nat.mul_comm n]; omega⟩⟩
    · rw [Nat.zero_add, Nat.sub_zero, Nat.mod_eq_sub_mod (by omega), Nat.mod_eq_of_lt (by omega)]
      exact .inr ⟨by omega, ⟨k, by rw [Nat.mul_comm n]; omega⟩⟩
  · rintro (⟨from_, small, k, turn⟩ | ⟨upTo, k, turn⟩)
    · rw [Nat.mul_comm] at turn
      refine ⟨k, by omega, ?_⟩
      rw [Nat.mod_eq_of_lt (by omega)]
      omega
    · rw [Nat.mul_comm] at turn
      refine ⟨k, by omega, ?_⟩
      rw [Nat.mod_eq_sub_mod (by omega), Nat.mod_eq_of_lt (by omega)]
      omega

/-- What the parser takes for a part, compared with what the part denotes. -/
theorem mem_given_iff (field : d ∈ fieldDefs) {p : Part} (inRange : p.InRange d) :
    v ∈ p.given d ↔ (v ∈ p.denoted d ∧ v ∉ p.lost d) ∨ v ∈ p.strays d := by
  obtain ⟨least, ⟨startMin, startMax⟩, stopMin, stopMax⟩ := inRange
  obtain ⟨span, step⟩ := p
  cases span with
  | all =>
    rw [given_of_le (Nat.le_trans startMin startMax)]
    simp [Part.denoted, Part.lost, Part.strays, Span.start, Span.stop]
  | one a =>
    rw [given_of_le le_rfl]
    have single : stepped d a a (step.getD 1) = {d.norm a} := by
      ext v
      rw [stepped, if_pos le_rfl]
      constructor
      · rintro ⟨k, le, rfl⟩
        rw [show k * step.getD 1 = 0 by omega]
        rfl
      · rintro rfl
        exact ⟨0, by omega, by rw [Nat.zero_mul, Nat.add_zero]⟩
    show v ∈ stepped d a a (step.getD 1) ↔ _
    rw [single]
    cases step with
    | none => simp [Part.denoted, Part.lost, Part.strays]
    | some m =>
      have first : d.norm a ∈ stepped d a d.max m := by
        rw [mem_stepped_of_le (show a ≤ d.max from startMax)]
        exact ⟨0, by rw [Nat.zero_mul]; exact startMax, by rw [Nat.zero_mul, Nat.add_zero]⟩
      have behind : v ∈ stepped d a d.max m → ∃ k, a + k * m ≤ d.max ∧ v = d.norm (a + k * m) :=
        (mem_stepped_of_le startMax).mp
      show v = d.norm a ↔ (v ∈ stepped d a d.max m ∧
        ¬ (v ≠ d.norm a ∧ ∃ k, a + k * m ≤ d.max ∧ v = d.norm (a + k * m))) ∨ False
      rw [or_false]
      constructor
      · rintro rfl
        exact ⟨first, fun other => other.1 rfl⟩
      · rintro ⟨mem, kept⟩
        by_contra other
        exact kept ⟨other, behind mem⟩
  | range a b =>
    show _ ↔ (v ∈ stepped d a b (step.getD 1) ∧ ¬ (d.max = 7 ∧ b < a ∧ 1 ≤ v ∧ v ≤ b ∧
      step.getD 1 ∣ v + 7 - a ∧ ¬ step.getD 1 ∣ v + 8 - a)) ∨
      (d.max = 7 ∧ b < a ∧ v ≤ b ∧ step.getD 1 ∣ v + 8 - a ∧ ¬ step.getD 1 ∣ v + 7 - a)
    by_cases wraps : b < a
    · by_cases seven : d.max = 7
      · obtain rfl := eq_dayOfWeekField field seven
        rw [mem_given_weekday (p := ⟨.range a b, step⟩) wraps startMax, mem_stepped_weekday wraps startMax]
        show (a ≤ v ∧ v < 7 ∧ step.getD 1 ∣ v - a) ∨ (v = 0 ∧ step.getD 1 ∣ 7 - a) ∨
          (v ≤ b ∧ step.getD 1 ∣ v + 8 - a) ↔ _
        by_cases sunday : v = 0
        · subst sunday
          have none : ¬ a ≤ 0 := by omega
          have also : 0 ≤ b := Nat.zero_le b
          simp only [none, also, false_and, false_or, true_and, seven, wraps,
            show ¬ 1 ≤ 0 by omega, not_false_eq_true, and_true, Nat.zero_add]
          tauto
        · by_cases before : v ≤ b
          · simp only [before, seven, wraps, sunday, show ¬ a ≤ v by omega,
              show 1 ≤ v by omega, true_and, false_and, false_or]
            tauto
          · simp only [before, sunday, false_and, and_false, or_false, not_false_eq_true, and_true]
      · rw [given_of_lt (p := ⟨.range a b, step⟩) seven wraps stopMin startMax]
        simp only [seven, false_and, not_false_eq_true, and_true, or_false]
        rfl
    · rw [given_of_le (p := ⟨.range a b, step⟩) (Nat.le_of_not_lt wraps)]
      simp only [wraps, false_and, and_false, not_false_eq_true, and_true, or_false]
      rfl

/-- What is lost would have been denoted. -/
theorem denoted_of_lost (field : d ∈ fieldDefs) {p : Part} (inRange : p.InRange d)
    (lost : v ∈ p.lost d) : v ∈ p.denoted d := by
  obtain ⟨least, ⟨startMin, startMax⟩, stopMin, stopMax⟩ := inRange
  obtain ⟨span, step⟩ := p
  cases span with
  | all => exact absurd lost (Set.notMem_empty v)
  | one a =>
    cases step with
    | none => exact absurd lost (Set.notMem_empty v)
    | some m =>
      exact (mem_stepped_of_le startMax).mpr lost.2
  | range a b =>
    obtain ⟨seven, wraps, -, upTo, turn, -⟩ := lost
    obtain rfl := eq_dayOfWeekField field seven
    exact (mem_stepped_weekday wraps startMax).mpr (.inr ⟨upTo, turn⟩)

/-! ### Fields -/

variable {raw : List Char} {parts : List Part} {values : List ℕ}

theorem partValues_eq_ok {text : List Char} :
    partValues raw d text = .ok values ↔ ∃ p : Part, p.Written text ∧ p.InRange d ∧
      values = spanValues d (p.span.start d) (p.span.stop d) (p.step.getD 1) := by
  constructor
  · intro computed
    obtain ⟨p, written, inRange⟩ := partOk_iff.mp (partValues_ok_iff.mp ⟨values, computed⟩)
    refine ⟨p, written, inRange, ?_⟩
    have parsed := parsePart_iff.mpr written
    rw [partValues] at computed
    simp only [parsed] at computed
    split_ifs at computed
    exact (Except.ok.inj computed).symm
  · rintro ⟨p, written, inRange, rfl⟩
    obtain ⟨values, computed⟩ := partValues_ok_iff.mpr (partOk_iff.mpr ⟨p, written, inRange⟩)
    rw [computed]
    have parsed := parsePart_iff.mpr written
    rw [partValues] at computed
    simp only [parsed] at computed
    split_ifs at computed
    exact computed.symm

/-- The parts of a field are what is parsed. -/
theorem Lists.parsed (lists : Lists d raw parts) :
    parts.map (fun p => some (p.span, p.step)) =
      (raw.splitOn ',').map fun text => parsePart (JsString.trimChars text) := by
  refine List.forall₂_eq_eq_eq ▸ (List.forall₂_map_left_iff.mpr (List.forall₂_map_right_iff.mpr ?_))
  exact lists.1.imp fun p text written => (parsePart_iff.mpr written).symm

theorem part_pairs_injective : Function.Injective
    (List.map fun p : Part => some (p.span, p.step)) := by
  refine List.map_injective_iff.mpr fun p q same => ?_
  obtain ⟨span, step⟩ := Prod.mk.inj (Option.some.inj same)
  cases p
  cases q
  subst span step
  rfl

theorem Lists.unique {parts' : List Part} (lists : Lists d raw parts) (also : Lists d raw parts') :
    parts = parts' :=
  part_pairs_injective (lists.parsed.trans also.parsed.symm)

/-- The parts behind the values that are taken. -/
theorem parts_of_values {texts : List (List Char)} {spans : List (List ℕ)}
    (each : List.Forall₂ (fun text values => partValues raw d text = .ok values) texts spans) :
    ∃ parts : List Part, List.Forall₂ Part.Written parts texts ∧ (∀ p ∈ parts, p.InRange d) ∧
      spans = parts.map fun p => spanValues d (p.span.start d) (p.span.stop d) (p.step.getD 1) := by
  induction each with
  | nil => exact ⟨[], .nil, by simp, rfl⟩
  | cons first _ ih =>
    obtain ⟨p, written, inRange, rfl⟩ := partValues_eq_ok.mp first
    obtain ⟨parts, others, inRanges, rfl⟩ := ih
    exact ⟨p :: parts, .cons written others, List.forall_mem_cons.mpr ⟨inRange, inRanges⟩, rfl⟩

theorem mem_normalized {l : List ℕ} :
    (v ∈ if d.max = 7 then l.map fun v => if v = 7 then 0 else v else l) ↔
      ∃ w ∈ l, v = d.norm w := by
  by_cases seven : d.max = 7
  · rw [if_pos seven, List.mem_map]
    simp only [FieldDef.norm, seven, true_and, eq_comm]
  · rw [if_neg seven]
    simp only [FieldDef.norm, seven, false_and, if_false]
    exact ⟨fun mem => ⟨v, mem, rfl⟩, fun ⟨_, mem, same⟩ => same ▸ mem⟩

theorem increasing_of_values (l : List ℕ) :
    (l.dedup.insertionSort (· ≤ ·)).Pairwise (· < ·) := by
  have distinct := (List.perm_insertionSort (· ≤ ·) l.dedup).nodup_iff.mpr l.nodup_dedup
  have sorted := List.pairwise_insertionSort (· ≤ ·) l.dedup
  exact sorted.imp₂ (fun _ _ le ne => lt_of_le_of_ne le ne) distinct

/-- The values that are taken for a field: in order, and those of its parts. -/
theorem parseField_eq_ok (parsed : parseField raw d = .ok values) :
    values.Pairwise (· < ·) ∧
      ∃ parts, Lists d raw parts ∧ ∀ v, v ∈ values ↔ ∃ p ∈ parts, v ∈ p.given d := by
  rw [parseField, bind_eq_ok] at parsed
  obtain ⟨spans, each, built⟩ := parsed
  obtain ⟨parts, written, inRange, rfl⟩ := parts_of_values (mapM_eq_ok.mp each)
  obtain rfl := Except.ok.inj built
  refine ⟨?_, parts, ⟨written, inRange⟩, fun v => ?_⟩
  · exact increasing_of_values _
  · rw [List.mem_insertionSort, List.mem_dedup, mem_normalized]
    constructor
    · rintro ⟨w, mem, rfl⟩
      obtain ⟨_, listed, inside⟩ := List.mem_flatten.mp mem
      obtain ⟨p, there, rfl⟩ := List.mem_map.mp listed
      exact ⟨p, there, w, inside, rfl⟩
    · rintro ⟨p, there, w, inside, rfl⟩
      exact ⟨w, List.mem_flatten.mpr ⟨_, List.mem_map_of_mem there, inside⟩, rfl⟩

theorem Lists.accepted (lists : Lists d raw parts) : ∃ values, parseField raw d = .ok values := by
  refine parseField_ok_iff.mpr fun text mem => partOk_iff.mpr ?_
  obtain ⟨i, inside, rfl⟩ := List.getElem_of_mem mem
  have length := lists.1.length_eq
  exact ⟨parts.get ⟨i, by omega⟩, lists.1.get (by omega) inside,
    lists.2 _ (List.get_mem _ _)⟩

/-- The parser accepts the lists of the grammar, and gives their values. -/
def FieldAsDocumented (d : FieldDef) (raw : List Char) : Prop :=
  ((∃ values, parseField raw d = .ok values) ↔ ∃ parts, Lists d raw parts) ∧
    ∀ values parts, parseField raw d = .ok values → Lists d raw parts →
      values.Pairwise (· < ·) ∧ ∀ v, v ∈ values ↔ ∃ p ∈ parts, v ∈ p.denoted d

/-- Every value that a part loses is given by another one, and every stray
value belongs to another one. -/
def MadeUp (d : FieldDef) (parts : List Part) : Prop :=
  (∀ p ∈ parts, ∀ v ∈ p.lost d,
    ∃ q ∈ parts, (v ∈ q.denoted d ∧ v ∉ q.lost d) ∨ v ∈ q.strays d) ∧
  ∀ p ∈ parts, ∀ v ∈ p.strays d, ∃ q ∈ parts, v ∈ q.denoted d

/-- A field is parsed as it is documented if and only if what its parts lose
and add makes no difference to the whole list. -/
theorem parseField_as_documented_iff (d : FieldDef) (field : d ∈ fieldDefs) (raw : List Char) :
    FieldAsDocumented d raw ↔ ∀ parts, Lists d raw parts → MadeUp d parts := by
  have given_iff : ∀ parts, Lists d raw parts → ∀ v, (∃ p ∈ parts, v ∈ p.given d) ↔
      ∃ p ∈ parts, (v ∈ p.denoted d ∧ v ∉ p.lost d) ∨ v ∈ p.strays d := fun parts lists v =>
    exists_congr fun p => and_congr_right fun mem => mem_given_iff field (lists.2 p mem)
  constructor
  · rintro ⟨-, documented⟩ parts lists
    obtain ⟨values, parsed⟩ := lists.accepted
    obtain ⟨-, parts', lists', taken⟩ := parseField_eq_ok parsed
    obtain rfl := lists.unique lists'
    have same : ∀ v, (∃ p ∈ parts, v ∈ p.denoted d) ↔
        ∃ p ∈ parts, (v ∈ p.denoted d ∧ v ∉ p.lost d) ∨ v ∈ p.strays d := fun v => by
      rw [← (documented values parts parsed lists).2 v, taken v, given_iff parts lists]
    refine ⟨fun p mem v lost => ?_, fun p mem v stray => ?_⟩
    · exact (same v).mp ⟨p, mem, denoted_of_lost field (lists.2 p mem) lost⟩
    · exact (same v).mpr ⟨p, mem, .inr stray⟩
  · intro madeUp
    refine ⟨⟨fun ⟨values, parsed⟩ => ?_, fun ⟨parts, lists⟩ => lists.accepted⟩, ?_⟩
    · obtain ⟨-, parts, lists, -⟩ := parseField_eq_ok parsed
      exact ⟨parts, lists⟩
    · intro values parts parsed lists
      obtain ⟨sorted, parts', lists', taken⟩ := parseField_eq_ok parsed
      obtain rfl := lists.unique lists'
      obtain ⟨losses, strays⟩ := madeUp parts lists
      refine ⟨sorted, fun v => ?_⟩
      rw [taken v, given_iff parts lists]
      constructor
      · rintro ⟨p, mem, kept | stray⟩
        · exact ⟨p, mem, kept.1⟩
        · exact strays p mem v stray
      · rintro ⟨p, mem, denoted⟩
        by_cases lost : v ∈ p.lost d
        · exact losses p mem v lost
        · exact ⟨p, mem, .inl ⟨denoted, lost⟩⟩

/-- `5/15` is the fifth minute alone, and not every quarter from it on. -/
theorem step_from_value_is_dropped :
    ¬ ∀ d ∈ fieldDefs, ∀ raw, FieldAsDocumented d raw := by
  intro literal
  obtain ⟨-, documented⟩ := literal minuteField (by decide) "5/15".toList
  have parsed : parseField "5/15".toList minuteField = .ok [5] := by decide
  have lists : Lists minuteField "5/15".toList [⟨.one 5, some 15⟩] := by
    refine ⟨?_, List.forall_mem_singleton.mpr ⟨by decide, by decide, by decide⟩⟩
    rw [show "5/15".toList.splitOn ',' = ["5/15".toList] by decide]
    exact .cons (parsePart_iff.mp (by decide)) .nil
  have denoted : (20 : ℕ) ∈ Part.denoted minuteField ⟨.one 5, some 15⟩ :=
    (mem_stepped_of_le (by decide)).mpr ⟨1, by decide, by decide⟩
  have taken := ((documented _ _ parsed lists).2 20).mpr ⟨_, List.mem_singleton_self _, denoted⟩
  exact absurd taken (by decide)

/-- The quarters are lost, but listed beside it. -/
theorem parseField_as_documented_quarters :
    FieldAsDocumented minuteField "5/15,20,35,50".toList := by
  refine (parseField_as_documented_iff minuteField (by decide) _).mpr fun parts lists => ?_
  have parsed := lists.parsed
  rw [show ("5/15,20,35,50".toList.splitOn ',').map
      (fun text => parsePart (JsString.trimChars text)) =
    [⟨.one 5, some 15⟩, ⟨.one 20, none⟩, ⟨.one 35, none⟩, ⟨.one 50, none⟩].map
      (fun p : Part => some (p.span, p.step)) by decide] at parsed
  obtain rfl : parts = [⟨.one 5, some 15⟩, ⟨.one 20, none⟩, ⟨.one 35, none⟩, ⟨.one 50, none⟩] :=
    part_pairs_injective parsed
  refine ⟨fun p mem v lost => ?_, fun p mem v stray => ?_⟩
  · simp only [List.mem_cons, List.not_mem_nil, or_false] at mem
    rcases mem with rfl | rfl | rfl | rfl
    · obtain ⟨other, k, le, rfl⟩ := lost
      have le : 5 + k * 15 ≤ 59 := le
      have few : k < 4 := by omega
      interval_cases k
      · exact absurd rfl other
      · exact ⟨⟨.one 20, none⟩, by simp, .inl ⟨rfl, Set.notMem_empty _⟩⟩
      · exact ⟨⟨.one 35, none⟩, by simp, .inl ⟨rfl, Set.notMem_empty _⟩⟩
      · exact ⟨⟨.one 50, none⟩, by simp, .inl ⟨rfl, Set.notMem_empty _⟩⟩
    all_goals exact absurd lost (Set.notMem_empty v)
  · simp only [List.mem_cons, List.not_mem_nil, or_false] at mem
    rcases mem with rfl | rfl | rfl | rfl <;> exact absurd stray (Set.notMem_empty v)

end Cron

end OmpBundler.Core
