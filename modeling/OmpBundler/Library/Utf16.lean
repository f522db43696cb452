import Mathlib.Data.List.Lex
import Mathlib.Tactic.Common

/-!
The order of strings by their UTF-16 code units.

It differs from the order by code points where a character outside the
basic plane meets one from the upper end of it. A character is recovered
from the code units that begin with its own, so different strings have
different code units.
-/

namespace Library.Utf16

/-- The code units of a character: itself, or a pair of surrogates. -/
def unitsOf (c : Char) : List ℕ :=
  if c.toNat < 0x10000 then [c.toNat]
  else [0xD800 + (c.toNat - 0x10000) / 0x400, 0xDC00 + (c.toNat - 0x10000) % 0x400]

/-- The code units of a string. -/
def codeUnits (s : String) : List ℕ := s.toList.flatMap unitsOf

/-- Compare two strings by their code units. -/
def le (a b : String) : Prop := codeUnits a ≤ codeUnits b

instance : DecidableRel le := fun a b => inferInstanceAs (Decidable (codeUnits a ≤ codeUnits b))

/-- No character is a surrogate. -/
theorem toNat_not_surrogate (c : Char) :
    c.toNat < 0xD800 ∨ 0xDFFF < c.toNat ∧ c.toNat < 0x110000 := c.valid

/-- The code units of a text begin with those of one character only. -/
theorem unitsOf_append_inj {c d : Char} {r r' : List ℕ}
    (same : unitsOf c ++ r = unitsOf d ++ r') : c = d ∧ r = r' := by
  have := toNat_not_surrogate c
  have := toNat_not_surrogate d
  have equal (h : c.toNat = d.toNat) : c = d := Char.toNat_inj.mp h
  unfold unitsOf at same
  split at same <;> split at same
  · simp only [List.cons_append, List.nil_append, List.cons.injEq] at same
    exact ⟨equal same.1, same.2⟩
  · simp only [List.cons_append, List.nil_append, List.cons.injEq] at same
    omega
  · simp only [List.cons_append, List.nil_append, List.cons.injEq] at same
    omega
  · simp only [List.cons_append, List.nil_append, List.cons.injEq] at same
    obtain ⟨first, second, rest⟩ := same
    exact ⟨equal (by omega), rest⟩

theorem codeUnits_injective : Function.Injective codeUnits := by
  have chars (l : List Char) : ∀ l', l.flatMap unitsOf = l'.flatMap unitsOf → l = l' := by
    have nonempty (c : Char) (r : List ℕ) : unitsOf c ++ r ≠ [] := by
      unfold unitsOf
      split <;> simp
    induction l with
    | nil =>
        intro l' same
        cases l' with
        | nil => rfl
        | cons d l' => exact absurd same.symm (nonempty d _)
    | cons c l ih =>
        intro l' same
        cases l' with
        | nil => exact absurd same (nonempty c _)
        | cons d l' =>
            obtain ⟨rfl, rest⟩ := unitsOf_append_inj same
            rw [ih l' rest]
  intro a b same
  exact String.toList_inj.mp (chars _ _ same)

theorem total (a b : String) : le a b ∨ le b a := le_total (codeUnits a) (codeUnits b)

theorem trans {a b c : String} (first : le a b) (second : le b c) : le a c :=
  le_trans (a := codeUnits a) first second

theorem antisymm {a b : String} (first : le a b) (second : le b a) : a = b :=
  codeUnits_injective (le_antisymm first second)

end Library.Utf16
