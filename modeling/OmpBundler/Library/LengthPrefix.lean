import Mathlib.Data.List.Basic

/-!
Two texts written one after the other, with the length of the first in
front of them in decimal digits and a separator behind the digits.

The digits vary in number and the texts may hold digits and separators of
their own. The split is found again all the same: no digit is the
separator, so its first occurrence ends the number, and the number says
how much of the rest is the first text.
-/

namespace Library

variable {α : Type*}

/-- The first occurrence of a separator splits a text in one way only. -/
theorem split_unique {x : α} {l l' r r' : List α}
    (text : l ++ x :: r = l' ++ x :: r') (left : x ∉ l) (left' : x ∉ l') : l = l' ∧ r = r' := by
  induction l generalizing l' with
  | nil =>
      cases l' with
      | nil => simpa using text
      | cons y l' =>
          simp only [List.nil_append, List.cons_append, List.cons.injEq] at text
          simp [text.1] at left'
  | cons y l ih =>
      cases l' with
      | nil =>
          simp only [List.nil_append, List.cons_append, List.cons.injEq] at text
          simp [text.1] at left
      | cons z l' =>
          simp only [List.cons_append, List.cons.injEq] at text
          obtain ⟨rfl, text⟩ := text
          obtain ⟨rfl, rest⟩ := ih text (List.not_mem_of_not_mem_cons left)
            (List.not_mem_of_not_mem_cons left')
          exact ⟨rfl, rest⟩

/-- A function that keeps the entries of two lists apart keeps the lists
apart. -/
theorem map_inj_of_mem {β : Type*} {f : α → β} {l l' : List α}
    (apart : ∀ x ∈ l, ∀ y ∈ l', f x = f y → x = y) (same : l.map f = l'.map f) : l = l' := by
  induction l generalizing l' with
  | nil => exact (List.map_eq_nil_iff.mp same.symm).symm
  | cons x l ih =>
      cases l' with
      | nil => simp at same
      | cons y l' =>
          simp only [List.map_cons, List.cons.injEq] at same
          obtain ⟨head, tail⟩ := same
          rw [apart x List.mem_cons_self y List.mem_cons_self head,
            ih (fun x hx y hy => apart x (.tail _ hx) y (.tail _ hy)) tail]

/-- The digits of a number are digits. -/
theorem isDigit_of_mem {c : Char} {n : ℕ} (mem : c ∈ Nat.toDigits 10 n) : c.isDigit = true :=
  Nat.isDigit_of_mem_toDigits (by decide) (by decide) mem

/-- Different numbers have different digits. -/
theorem toDigits_injective : Function.Injective (Nat.toDigits 10) := by
  intro n m same
  rw [← Nat.ofDigitChars_ten_toDigits (n := n), same, Nat.ofDigitChars_ten_toDigits]

/-- The length of `a` in digits, the separator, `a` and `c`. -/
def lengthPrefixed (digit : Char → α) (separator : α) (a c : List α) : List α :=
  (Nat.toDigits 10 a.length).map digit ++ separator :: (a ++ c)

/-- What letters the digits and the separator are written with: different
ones. -/
structure Numerals (digit : Char → α) (separator : α) : Prop where
  distinct : ∀ x y : Char, x.isDigit = true → y.isDigit = true → digit x = digit y → x = y
  apart : ∀ x : Char, x.isDigit = true → digit x ≠ separator

namespace Numerals

variable {digit : Char → α} {separator : α}

/-- A number is read off its digits in the letters chosen for them. -/
theorem digits_injective (letters : Numerals digit separator) :
    Function.Injective fun n : ℕ => (Nat.toDigits 10 n).map digit := by
  intro n m same
  refine toDigits_injective (map_inj_of_mem ?_ same)
  intro x hx y hy
  exact letters.distinct x y (isDigit_of_mem hx) (isDigit_of_mem hy)

theorem separator_notMem (letters : Numerals digit separator) (n : ℕ) :
    separator ∉ (Nat.toDigits 10 n).map digit := by
  intro mem
  obtain ⟨x, hx, same⟩ := List.mem_map.mp mem
  exact letters.apart x (isDigit_of_mem hx) same

/-- Both texts are recovered from what is written. -/
theorem lengthPrefixed_inj (letters : Numerals digit separator) {a a' c c' : List α} :
    lengthPrefixed digit separator a c = lengthPrefixed digit separator a' c' ↔
      a = a' ∧ c = c' := by
  constructor
  · intro same
    obtain ⟨digits, rest⟩ :=
      split_unique same (letters.separator_notMem _) (letters.separator_notMem _)
    have length : a.length = a'.length := letters.digits_injective digits
    exact List.append_inj rest length
  · rintro ⟨rfl, rfl⟩
    rfl

end Numerals

end Library
