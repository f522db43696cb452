import Mathlib.Data.List.Dedup
import Mathlib.Data.List.Sort
import OmpBundler.Library.Fallible
import OmpBundler.Library.JsString

/-!
Cron expressions of five fields.

A field is a list of parts separated by commas; a part is `*`, a value or a
range, with an optional step. A range may wrap around. Seven is Sunday too.
-/

namespace OmpBundler.Core

open Library Library.Fallible

/-- The values that match, field by field. -/
structure CronSchedule where
  minute : List ℕ
  hour : List ℕ
  dayOfMonth : List ℕ
  month : List ℕ
  /-- Zero is Sunday. -/
  dayOfWeek : List ℕ
  deriving DecidableEq, Repr

/-- A field: its name and the bounds of its values. -/
structure FieldDef where
  name : String
  min : ℕ
  max : ℕ
  deriving DecidableEq, Repr

namespace Cron

def minuteField : FieldDef := ⟨"minute", 0, 59⟩
def hourField : FieldDef := ⟨"hour", 0, 23⟩
def dayOfMonthField : FieldDef := ⟨"day-of-month", 1, 31⟩
def monthField : FieldDef := ⟨"month", 1, 12⟩
def dayOfWeekField : FieldDef := ⟨"day-of-week", 0, 7⟩

/-- The number that a text of digits stands for. -/
def numberOf (digits : List Char) : ℕ := digits.foldl (fun n c => 10 * n + (c.toNat - 48)) 0

/-- A number at the beginning of a text, and what follows it. -/
def leadingNumber (l : List Char) : Option (ℕ × List Char) :=
  if l.takeWhile Char.isDigit = [] then none
  else some (numberOf (l.takeWhile Char.isDigit), l.dropWhile Char.isDigit)

/-- What a part matches before its step. -/
inductive Span where
  | all
  | one (value : ℕ)
  | range (first last : ℕ)
  deriving DecidableEq, Repr

/-- The span at the beginning of a part, and what follows it. -/
def leadingSpan : List Char → Option (Span × List Char)
  | '*' :: rest => some (.all, rest)
  | l => do
      let (first, rest) ← leadingNumber l
      match rest with
      | '-' :: rest =>
          let (last, rest) ← leadingNumber rest
          some (.range first last, rest)
      | rest => some (.one first, rest)

/-- A part: its span and its step, if it is written. -/
def parsePart (l : List Char) : Option (Span × Option ℕ) := do
  let (span, rest) ← leadingSpan l
  match rest with
  | [] => some (span, none)
  | '/' :: rest =>
      let (step, rest) ← leadingNumber rest
      if rest = [] then some (span, some step) else none
  | _ => none

/-- The first value of a span. -/
def Span.start (d : FieldDef) : Span → ℕ
  | .all => d.min
  | .one v | .range v _ => v

/-- The last value of a span. -/
def Span.stop (d : FieldDef) : Span → ℕ
  | .all => d.max
  | .one v | .range _ v => v

/-- Every `step`-th of the elements, the first included. -/
def everyNth (step : ℕ) (l : List ℕ) : List ℕ :=
  (l.zipIdx.filter fun p => p.2 % step = 0).map Prod.fst

/-- The values of a span. One whose first value is above the last wraps
around. -/
def spanValues (d : FieldDef) (start stop step : ℕ) : List ℕ :=
  if start ≤ stop then everyNth step (List.range' start (stop + 1 - start))
  else
    everyNth step (List.range' start (d.max + 1 - start) ++ List.range' d.min (stop + 1 - d.min))

/-- The values of one part of a field. -/
def partValues (raw : List Char) (d : FieldDef) (part : List Char) : Except String (List ℕ) :=
  let p := JsString.trimChars part
  let text := String.ofList p
  if p = [] then .error ("empty list element in \"" ++ String.ofList raw ++ "\"")
  else
    match parsePart p with
    | none =>
        .error ("invalid " ++ d.name ++ " field part \"" ++ text
          ++ "\" (expected *, A, A-B, or a /step form)")
    | some (span, step) =>
        let step := step.getD 1
        let start := span.start d
        let stop := span.stop d
        if step < 1 then
          .error ("invalid step value " ++ toString step ++ " in \"" ++ text ++ "\"")
        else if start < d.min ∨ stop < d.min ∨ d.max < start ∨ d.max < stop then
          .error (d.name ++ " value out of range in \"" ++ text ++ "\" (valid " ++ toString d.min
            ++ "-" ++ toString d.max ++ ")")
        else .ok (spanValues d start stop step)

/-- The values of a field, sorted. -/
def parseField (raw : List Char) (d : FieldDef) : Except String (List ℕ) := do
  let values ← (raw.splitOn ',').mapM (partValues raw d)
  let values := values.flatten
  let values := if d.max = 7 then values.map fun v => if v = 7 then 0 else v else values
  return values.dedup.insertionSort (· ≤ ·)

end Cron

open Cron in
/-- Parse an expression of five fields. -/
def parseCronExpression (expr : String) : Except String CronSchedule :=
  let trimmed := JsString.trimChars expr.toList
  let fields := JsString.splitSpaces trimmed
  if trimmed.head? = some '@' then
    .error ("named cron macros are not supported: \"" ++ String.ofList (fields.headD []) ++ "\"")
  else
    match fields with
    | [minute, hour, dayOfMonth, month, dayOfWeek] => do
        return {
          minute := ← parseField minute minuteField
          hour := ← parseField hour hourField
          dayOfMonth := ← parseField dayOfMonth dayOfMonthField
          month := ← parseField month monthField
          dayOfWeek := ← parseField dayOfWeek dayOfWeekField }
    | _ =>
        .error ("cron expression must have exactly 5 fields, got " ++ toString fields.length
          ++ ": \"" ++ expr ++ "\"")

example : (parseCronExpression "*/15 22-2/2 1,15 * 7").toOption = some
    { minute := [0, 15, 30, 45], hour := [0, 2, 22], dayOfMonth := [1, 15],
      month := [1, 2, 3, 4, 5, 6, 7, 8, 9, 10, 11, 12], dayOfWeek := [0] } := by decide +kernel

/-! ### What is accepted -/

namespace Cron

/-- A part that the field accepts: a span within the bounds with a step of
at least one. -/
def PartOk (d : FieldDef) (part : List Char) : Prop :=
  ∃ span step, parsePart (JsString.trimChars part) = some (span, step) ∧ 1 ≤ step.getD 1 ∧
    d.min ≤ span.start d ∧ d.min ≤ span.stop d ∧ span.start d ≤ d.max ∧ span.stop d ≤ d.max

/-- A list of parts that the field accepts. -/
def FieldOk (d : FieldDef) (raw : List Char) : Prop := ∀ part ∈ raw.splitOn ',', PartOk d part

theorem partValues_ok_iff {raw : List Char} {d : FieldDef} {part : List Char} :
    (∃ values, partValues raw d part = .ok values) ↔ PartOk d part := by
  unfold partValues
  dsimp only
  split
  case isTrue empty => simp [PartOk, empty, parsePart, leadingSpan, leadingNumber]
  case isFalse =>
      split
      case h_1 unparsed => simp [PartOk, unparsed]
      case h_2 span step parsed =>
          simp only [PartOk, parsed, Option.some.injEq, Prod.mk.injEq]
          split
          case isTrue small =>
              simp only [reduceCtorEq, exists_false, false_iff]
              rintro ⟨_, _, ⟨rfl, rfl⟩, least, _⟩
              omega
          case isFalse least =>
              split
              case isTrue outside =>
                  simp only [reduceCtorEq, exists_false, false_iff]
                  rintro ⟨_, _, ⟨rfl, rfl⟩, _, inside⟩
                  omega
              case isFalse inside =>
                  refine iff_of_true ⟨_, rfl⟩ ⟨span, step, ⟨rfl, rfl⟩, ?_⟩
                  omega

theorem parseField_ok_iff {raw : List Char} {d : FieldDef} :
    (∃ values, parseField raw d = .ok values) ↔ FieldOk d raw := by
  have parts := exists_mapM_eq_ok (f := partValues raw d) (l := raw.splitOn ',')
  simp only [partValues_ok_iff] at parts
  rw [FieldOk, ← parts]
  simp only [parseField, bind_eq_ok, pure, Except.pure, Except.ok.injEq]
  constructor
  · rintro ⟨_, values, given, _⟩
    exact ⟨values, given⟩
  · rintro ⟨values, given⟩
    exact ⟨_, values, given, rfl⟩

end Cron

end OmpBundler.Core
