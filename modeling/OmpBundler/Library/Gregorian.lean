import Mathlib.Data.Int.Notation
import Mathlib.Tactic.Common

/-!
The proleptic Gregorian calendar.

Days are counted from 1 January 1970. A day number is a date, and the date
gives the day number back: `dayNumber` is the formula for the first day of
a year with the days that the months before have, and it does not ask the
day to be one of the month. `civil` finds the year through the cycles of
four hundred, a hundred and four years.
-/

namespace Library.Gregorian

/-- A leap year. -/
def isLeap (y : ℤ) : Bool := (y % 4 = 0 && y % 100 ≠ 0) || y % 400 = 0

/-- The number of the first day of a year. -/
def dayFromYear (y : ℤ) : ℤ :=
  365 * (y - 1970) + (y - 1969) / 4 - (y - 1901) / 100 + (y - 1601) / 400

theorem dayFromYear_succ (y : ℤ) :
    dayFromYear (y + 1) = dayFromYear y + if isLeap y then 366 else 365 := by
  unfold dayFromYear
  by_cases leap : isLeap y = true
  · rw [if_pos leap]
    simp only [isLeap, Bool.or_eq_true, Bool.and_eq_true, decide_eq_true_eq] at leap
    omega
  · rw [if_neg leap]
    simp only [isLeap, Bool.or_eq_true, Bool.and_eq_true, decide_eq_true_eq] at leap
    omega

theorem dayFromYear_lt (y : ℤ) : dayFromYear y + 365 ≤ dayFromYear (y + 1) := by
  rw [dayFromYear_succ]
  split_ifs <;> omega

/-- The first days of the years are in their order. -/
theorem dayFromYear_mono {y z : ℤ} (le : y ≤ z) : dayFromYear y + 365 * (z - y) ≤ dayFromYear z := by
  obtain ⟨k, rfl⟩ := Int.le.dest le
  induction k with
  | zero => simp
  | succ k ih =>
    have before := ih (by omega)
    have last := dayFromYear_lt (y + k)
    push_cast at before last ⊢
    rw [show y + (k + 1 : ℤ) = y + k + 1 by omega]
    omega

/-- The year of a day. -/
def yearFromDay (n : ℤ) : ℤ :=
  let era := (n + 719162) / 146097
  let inEra := (n + 719162) % 146097
  let century := min (inEra / 36524) 3
  let inCentury := inEra - century * 36524
  let quadrennium := inCentury / 1461
  let inQuadrennium := inCentury % 1461
  400 * era + 100 * century + 4 * quadrennium + min (inQuadrennium / 365) 3 + 1

/-- The first day of a year that is given by its place in the cycles. -/
theorem dayFromYear_cycles {e c q a : ℤ} (centuries : 0 ≤ c ∧ c ≤ 3) (quadrennia : 0 ≤ q ∧ q ≤ 24)
    (years : 0 ≤ a ∧ a ≤ 3) :
    dayFromYear (400 * e + 100 * c + 4 * q + a + 1) =
      146097 * e + 36524 * c + 1461 * q + 365 * a - 719162 := by
  have fours : (400 * e + 100 * c + 4 * q + a + 1 - 1969) / 4 = 100 * e + 25 * c + q - 492 := by
    omega
  have hundreds : (400 * e + 100 * c + 4 * q + a + 1 - 1901) / 100 = 4 * e + c - 19 := by omega
  have eras : (400 * e + 100 * c + 4 * q + a + 1 - 1601) / 400 = e - 4 := by omega
  rw [dayFromYear, fours, hundreds, eras]
  omega

/-- A year begins at the latest on its day, and the next one after it. -/
theorem yearFromDay_spec (n : ℤ) :
    dayFromYear (yearFromDay n) ≤ n ∧ n < dayFromYear (yearFromDay n + 1) := by
  unfold yearFromDay
  dsimp only
  obtain ⟨e, era⟩ : ∃ e, e = (n + 719162) / 146097 := ⟨_, rfl⟩
  obtain ⟨r, inEra⟩ : ∃ r, r = (n + 719162) % 146097 := ⟨_, rfl⟩
  obtain ⟨c, century⟩ : ∃ c, c = min (r / 36524) 3 := ⟨_, rfl⟩
  obtain ⟨q, quadrennium⟩ : ∃ q, q = (r - c * 36524) / 1461 := ⟨_, rfl⟩
  obtain ⟨a, year⟩ : ∃ a, a = min ((r - c * 36524) % 1461 / 365) 3 := ⟨_, rfl⟩
  rw [← era, ← inEra, ← century, ← quadrennium, ← year]
  have day : n = 146097 * e + r - 719162 := by omega
  have centuries : 0 ≤ c ∧ c ≤ 3 := by omega
  have inCentury : 0 ≤ r - c * 36524 ∧ r - c * 36524 ≤ 36524 ∧
      (c < 3 → r - c * 36524 < 36524) := by omega
  have quadrennia : 0 ≤ q ∧ q ≤ 24 := by omega
  have inQuadrennium : 0 ≤ r - c * 36524 - 1461 * q ∧ r - c * 36524 - 1461 * q < 1461 := by omega
  have years : 0 ≤ a ∧ a ≤ 3 := by omega
  have inYear : 365 * a ≤ r - c * 36524 - 1461 * q ∧
      (a < 3 → r - c * 36524 - 1461 * q < 365 * (a + 1)) := by omega
  rw [dayFromYear_cycles centuries quadrennia years]
  refine ⟨by omega, ?_⟩
  -- the next year is the first one of the next cycle, if this one is the last
  by_cases ordinary : a < 3
  · rw [show 400 * e + 100 * c + 4 * q + a + 1 + 1 = 400 * e + 100 * c + 4 * q + (a + 1) + 1 by omega,
      dayFromYear_cycles centuries quadrennia (by omega)]
    omega
  by_cases inside : q < 24
  · rw [show 400 * e + 100 * c + 4 * q + a + 1 + 1 = 400 * e + 100 * c + 4 * (q + 1) + 0 + 1 by omega,
      dayFromYear_cycles centuries (by omega) (by omega)]
    omega
  by_cases before : c < 3
  · rw [show 400 * e + 100 * c + 4 * q + a + 1 + 1 = 400 * e + 100 * (c + 1) + 4 * 0 + 0 + 1 by omega,
      dayFromYear_cycles (by omega) (by omega) (by omega)]
    omega
  · rw [show 400 * e + 100 * c + 4 * q + a + 1 + 1 = 400 * (e + 1) + 100 * 0 + 4 * 0 + 0 + 1 by omega,
      dayFromYear_cycles (by omega) (by omega) (by omega)]
    omega

/-- A day comes not before the first day of a year if and only if its year
does not. -/
theorem dayFromYear_le_iff {y n : ℤ} : dayFromYear y ≤ n ↔ y ≤ yearFromDay n := by
  obtain ⟨first, next⟩ := yearFromDay_spec n
  constructor
  · intro le
    by_contra later
    have := dayFromYear_mono (show yearFromDay n + 1 ≤ y by omega)
    omega
  · intro le
    have := dayFromYear_mono le
    omega

theorem lt_dayFromYear_iff {y n : ℤ} : n < dayFromYear y ↔ yearFromDay n < y := by
  rw [← Int.not_le, dayFromYear_le_iff, Int.not_le]

/-! ### Months -/

/-- How many days of the year come before a month, from zero on. -/
def monthStart (leap : Bool) (month : ℕ) : ℕ :=
  [0, 31, 59, 90, 120, 151, 181, 212, 243, 273, 304, 334].getD month 365 +
    if leap && 2 ≤ month then 1 else 0

/-- The month of a day of the year. -/
def monthFromDay (leap : Bool) (dayOfYear : ℕ) : ℕ :=
  ((List.range 11).filter fun month => monthStart leap (month + 1) ≤ dayOfYear).length

/-- A month has at most 31 days, and there is no month after the last one. -/
theorem monthStart_succ (leap : Bool) (month : ℕ) :
    monthStart leap month ≤ monthStart leap (month + 1) ∧
      monthStart leap (month + 1) ≤ monthStart leap month + 31 := by
  rcases Nat.lt_or_ge month 12 with early | late
  · revert month
    cases leap <;> decide
  · have rest : monthStart leap (month + 1) = monthStart leap month := by
      have leaps : 2 ≤ month ∧ 2 ≤ month + 1 := by omega
      simp [monthStart, List.getD_eq_getElem?_getD, late, Nat.le_succ_of_le late, leaps]
    omega

/-- Of the first numbers, those that pass come first when no number passes behind
one that fails. -/
theorem length_filter_range {passes : ℕ → Bool}
    (down : ∀ m, passes (m + 1) = true → passes m = true) (n : ℕ) :
    ((List.range n).filter passes).length ≤ n ∧
      (∀ m < ((List.range n).filter passes).length, passes m = true) ∧
      (((List.range n).filter passes).length < n →
        passes ((List.range n).filter passes).length = false) := by
  have chain (d m : ℕ) (later : passes (m + d) = true) : passes m = true := by
    induction d with
    | zero => exact later
    | succ d ih => exact ih (down (m + d) later)
  induction n with
  | zero => simp
  | succ n ih =>
      obtain ⟨le, each, next⟩ := ih
      rw [List.range_succ, List.filter_append, List.length_append]
      cases last : passes n with
      | false =>
          rw [List.filter_cons_of_neg (by simp [last]), List.filter_nil, List.length_nil,
            Nat.add_zero]
          refine ⟨Nat.le_succ_of_le le, each, fun _ => ?_⟩
          rcases Nat.lt_or_eq_of_le le with fewer | all
          · exact next fewer
          · rw [all, last]
      | true =>
          have all : ((List.range n).filter passes).length = n := by
            by_contra other
            obtain ⟨d, sum⟩ := Nat.exists_eq_add_of_le le
            rw [chain d _ (sum ▸ last)] at next
            exact absurd (next (Nat.lt_of_le_of_ne le other)) (by simp)
          rw [List.filter_cons_of_pos last, List.filter_nil, List.length_singleton, all]
          refine ⟨Nat.le_refl _, fun m inside => ?_, fun less => absurd less (Nat.lt_irrefl _)⟩
          rcases Nat.lt_succ_iff_lt_or_eq.mp inside with earlier | rfl
          · exact each m (Nat.lt_of_lt_of_eq earlier all.symm)
          · exact last

/-- The month of a day is the last one that has begun. -/
theorem monthFromDay_spec (leap : Bool) (dayOfYear : ℕ) :
    monthFromDay leap dayOfYear < 12 ∧
      monthStart leap (monthFromDay leap dayOfYear) ≤ dayOfYear ∧
      (monthFromDay leap dayOfYear < 11 →
        dayOfYear < monthStart leap (monthFromDay leap dayOfYear + 1)) := by
  obtain ⟨le, each, next⟩ := @length_filter_range
    (fun month => monthStart leap (month + 1) ≤ dayOfYear) (fun month begun =>
      decide_eq_true
        (Nat.le_trans (monthStart_succ leap (month + 1)).1 (of_decide_eq_true begun))) 11
  rw [← monthFromDay] at le each next
  refine ⟨Nat.lt_succ_of_le le, ?_, fun early =>
    Nat.lt_of_not_le (of_decide_eq_false (next early))⟩
  cases month : monthFromDay leap dayOfYear with
  | zero => simp [monthStart]
  | succ before => exact of_decide_eq_true (each before (month ▸ Nat.lt_succ_self before))

/-- A date: the month from zero on, the day from one on. -/
@[ext]
structure Date where
  year : ℤ
  month : ℕ
  day : ℕ
  deriving DecidableEq, Repr

/-- The number of a day of a month, counted on over its end. -/
def dayNumber (year : ℤ) (month day : ℕ) : ℤ :=
  dayFromYear year + monthStart (isLeap year) month + day - 1

/-- The date of a day. -/
def civil (n : ℤ) : Date :=
  let year := yearFromDay n
  let dayOfYear := (n - dayFromYear year).toNat
  let month := monthFromDay (isLeap year) dayOfYear
  ⟨year, month, dayOfYear + 1 - monthStart (isLeap year) month⟩

@[simp] theorem civil_year (n : ℤ) : (civil n).year = yearFromDay n := rfl

theorem dayOfYear_lt (n : ℤ) :
    0 ≤ n - dayFromYear (yearFromDay n) ∧ n - dayFromYear (yearFromDay n) < 366 := by
  obtain ⟨first, next⟩ := yearFromDay_spec n
  rw [dayFromYear_succ] at next
  split_ifs at next <;> omega

/-- The date of a day gives its number. -/
theorem dayNumber_civil (n : ℤ) :
    dayNumber (civil n).year (civil n).month (civil n).day = n := by
  obtain ⟨nonneg, inside⟩ := dayOfYear_lt n
  have month := (monthFromDay_spec (isLeap (yearFromDay n))
    (n - dayFromYear (yearFromDay n)).toNat).2.1
  unfold dayNumber civil
  dsimp only
  omega

theorem civil_injective : Function.Injective civil := fun n k same => by
  rw [← dayNumber_civil n, same, dayNumber_civil]

theorem civil_month_lt (n : ℤ) : (civil n).month < 12 := (monthFromDay_spec _ _).1

theorem one_le_civil_day (n : ℤ) : 1 ≤ (civil n).day := by
  obtain ⟨nonneg, inside⟩ := dayOfYear_lt n
  have month := (monthFromDay_spec (isLeap (yearFromDay n))
    (n - dayFromYear (yearFromDay n)).toNat).2.1
  unfold civil
  dsimp only
  omega

/-- A month has at most 31 days. -/
theorem monthFromDay_rest (leap : Bool) {dayOfYear : ℕ}
    (inside : dayOfYear < if leap then 366 else 365) :
    dayOfYear < monthStart leap (monthFromDay leap dayOfYear) + 31 := by
  obtain ⟨lt, -, next⟩ := monthFromDay_spec leap dayOfYear
  rcases Nat.lt_or_eq_of_le (Nat.le_of_lt_succ lt) with early | last
  · exact Nat.lt_of_lt_of_le (next early) (monthStart_succ leap _).2
  · rw [last]
    cases leap <;> exact inside

theorem civil_day_le (n : ℤ) : (civil n).day ≤ 31 := by
  obtain ⟨first, next⟩ := yearFromDay_spec n
  rw [dayFromYear_succ] at next
  have rest := monthFromDay_rest (isLeap (yearFromDay n))
    (show (n - dayFromYear (yearFromDay n)).toNat < if isLeap (yearFromDay n) then 366 else 365 by
      split_ifs at next ⊢ <;> omega)
  unfold civil
  dsimp only
  omega

/-- The next day of the calendar. -/
theorem dayNumber_succ (year : ℤ) (month day : ℕ) :
    dayNumber year month (day + 1) = dayNumber year month day + 1 := by
  unfold dayNumber
  push_cast
  omega

/-- The weekday, from Sunday on. -/
def weekday (n : ℤ) : ℕ := ((n + 4) % 7).toNat

theorem weekday_succ (n : ℤ) : weekday (n + 1) = (weekday n + 1) % 7 := by
  unfold weekday
  omega

theorem weekday_lt (n : ℤ) : weekday n < 7 := by
  unfold weekday
  omega

example : civil 20672 = ⟨2026, 7, 7⟩ ∧ weekday 20672 = 5 := by decide

end Library.Gregorian
