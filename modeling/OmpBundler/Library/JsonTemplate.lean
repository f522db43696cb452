import OmpBundler.Library.JsonLayout
import OmpBundler.Library.Placeholder

/-!
Placeholders in the strings of a JSON value.

They may be replaced in the value or in its text. The two agree where the text
receives each value as it would stand in a literal (`layout_filled`), and no
character of a literal makes a placeholder or spoils one.
-/

namespace Library.Json

open JsValue (quoteMark backslash hexDigit letters further joined)
open Placeholder (Opens opens_cons opens_plain cut cut_name cut_plain cut_append fill names textOf namesOf textOf_append
  textOf_plain namesOf_append namesOf_plain nameAt nameAt_take
  nameAt_of_ne isPart Inside Agree nameAt_eq_some nameAt_cons)

/-! ### The characters of a literal -/

/-- A code unit that does not stand for itself in a literal. -/
def Special (n : ℕ) : Prop := n < 0x20 ∨ n = 34 ∨ n = 92 ∨ 0xD800 ≤ n ∧ n ≤ 0xDFFF

instance (n : ℕ) : Decidable (Special n) := inferInstanceAs (Decidable (_ ∨ _))

/-- A character that is neither a blank nor part of a number. -/
def isInk (c : Char) : Bool := !isBlank c && !isNumberChar c

theorem quoteMark_toNat : quoteMark.toNat = 34 := rfl

theorem backslash_toNat : backslash.toNat = 92 := rfl

theorem toNat_ofNat_of_not_special {u : UInt16} (own : ¬Special u.toNat) :
    (Char.ofNat u.toNat).toNat = u.toNat := by
  have small : u.toNat < 65536 := u.toNat_lt
  unfold Special at own
  exact toNat_ofNat (show _ ∨ _ by omega)

/-- A code unit that stands for itself. -/
theorem escapeUnit_own {u : UInt16} (own : ¬Special u.toNat) :
    escapeUnit u = [Char.ofNat u.toNat] := by
  have back := toNat_ofNat_of_not_special own
  unfold Special at own
  have noQuote : Char.ofNat u.toNat ≠ quoteMark := by
    intro same
    rw [same, quoteMark_toNat] at back
    omega
  have noBackslash : Char.ofNat u.toNat ≠ backslash := by
    intro same
    rw [same, backslash_toNat] at back
    omega
  have noLetter : (letters.find? fun p => decide (p.1.toNat = u.toNat)) = none := by
    rw [List.find?_eq_none]
    have small : ∀ p ∈ letters, p.1.toNat < 0x20 := by decide
    intro p listed
    have := small p listed
    simp only [decide_eq_true_eq]
    omega
  rw [escapeUnit, if_neg (by tauto), noLetter]
  have shown : ¬(u.toNat < 0x20 ∨ isHigh u = true ∨ isLow u = true) := by
    simp only [isHigh, isLow, decide_eq_true_eq]
    omega
  exact if_neg shown

/-- An escape, of at least two characters. -/
theorem escapeUnit_special {u : UInt16} (special : Special u.toNat) :
    ∃ c rest, escapeUnit u = backslash :: c :: rest ∧ isInk c = true ∧
      ∀ x ∈ c :: rest, x.toNat ≠ 36 := by
  unfold escapeUnit
  by_cases mark : Char.ofNat u.toNat = quoteMark ∨ Char.ofNat u.toNat = backslash
  · rw [if_pos mark]
    refine ⟨_, [], rfl, ?_, ?_⟩
    · rcases mark with h | h <;> rw [h] <;> decide
    rintro x inside
    obtain rfl := List.mem_singleton.mp inside
    rcases mark with h | h <;> rw [h] <;> decide
  rw [if_neg mark]
  cases found : letters.find? fun p => decide (p.1.toNat = u.toNat) with
  | some p =>
      have listed : ∀ p ∈ letters, isInk p.2 = true ∧ p.2.toNat ≠ 36 := by decide
      have letter := listed p (List.mem_of_find?_eq_some found)
      refine ⟨p.2, [], rfl, letter.1, ?_⟩
      rintro x inside
      obtain rfl := List.mem_singleton.mp inside
      exact letter.2
  | none =>
      have hidden : u.toNat < 0x20 ∨ isHigh u = true ∨ isLow u = true := by
        have back : ∀ c : Char, ¬Char.ofNat u.toNat = c → u.toNat.isValidChar → u.toNat ≠ c.toNat := by
          intro c other valid same
          exact other (by rw [same, Char.ofNat_toNat])
        have other := not_or.mp mark
        have valid : u.toNat < 0xD800 → u.toNat.isValidChar := fun low => .inl low
        have noQuote : u.toNat ≠ 34 := fun h =>
          back quoteMark other.1 (valid (by omega)) (by rw [h, quoteMark_toNat])
        have noBackslash : u.toNat ≠ 92 := fun h =>
          back backslash other.2 (valid (by omega)) (by rw [h, backslash_toNat])
        unfold Special at special
        simp only [isHigh, isLow, decide_eq_true_eq]
        omega
      have small : u.toNat < 65536 := u.toNat_lt
      have digit : ∀ n < 16, (hexDigit n).toNat ≠ 36 := by decide
      refine ⟨'u', _, if_pos hidden, by decide, ?_⟩
      simp only [List.mem_cons, List.not_mem_nil, or_false]
      rintro x (rfl | rfl | rfl | rfl | rfl)
      · decide
      all_goals exact digit _ (by omega)

theorem special_of_isHigh {u : UInt16} (high : isHigh u = true) : Special u.toNat := by
  simp only [isHigh, decide_eq_true_eq] at high
  unfold Special
  omega

theorem special_of_isLow {u : UInt16} (low : isLow u = true) : Special u.toNat := by
  simp only [isLow, decide_eq_true_eq] at low
  unfold Special
  omega

theorem isHigh_of_isLow {u : UInt16} (low : isLow u = true) : isHigh u = false := by
  simp only [isLow, isHigh, decide_eq_true_eq, decide_eq_false_iff_not] at low ⊢
  omega

theorem paired_toNat {u w : UInt16} (high : isHigh u = true) (low : isLow w = true) :
    0x10000 ≤ (paired u w).toNat := by
  simp only [isHigh, isLow, decide_eq_true_eq] at high low
  rw [paired, toNat_ofNat (show _ ∨ _ by omega)]
  omega

/-- A unit that makes no pair with the next one. -/
def Single (u : UInt16) (l : List UInt16) : Prop :=
  isHigh u = true → ∀ w ∈ l.head?, isLow w = false

theorem quoted_single {u : UInt16} {l : List UInt16} (single : Single u l) :
    quoted (u :: l) = escapeUnit u ++ quoted l := by
  cases l with
  | nil => simp [quoted]
  | cons w l =>
      rw [quoted, if_neg]
      rintro ⟨high, low⟩
      rw [single high w rfl] at low
      cases low

theorem quoted_pair {u w : UInt16} (high : isHigh u = true) (low : isLow w = true)
    (l : List UInt16) : quoted (u :: w :: l) = paired u w :: quoted l := by
  rw [quoted, if_pos ⟨high, low⟩]

/-- Induction by single units and pairs. -/
@[elab_as_elim]
theorem units_induct {motive : List UInt16 → Prop} (nil : motive [])
    (pair : ∀ u w l, isHigh u = true → isLow w = true → motive l → motive (u :: w :: l))
    (single : ∀ u l, Single u l → motive l → motive (u :: l)) (s : List UInt16) : motive s := by
  induction s using quoted.induct with
  | case1 => exact nil
  | case2 u => exact single u [] (fun _ w none => absurd none (by simp)) nil
  | case3 u w l both ih => exact pair u w l both.1 both.2 ih
  | case4 u w l apart ih =>
      refine single u (w :: l) ?_ ih
      rintro high x first
      cases first
      by_contra low
      exact apart ⟨high, Bool.not_eq_false _ ▸ low⟩

/-! ### A value in a literal -/

/-- A character as it stands in a literal. -/
def encoded (c : Char) : List Char := quoted (unitsOf c)

/-- A character that stands for itself. -/
def isPlain (c : Char) : Bool := decide (c ≠ quoteMark ∧ c ≠ backslash ∧ 0x20 ≤ c.toNat)

theorem unitsOf_cases (c : Char) :
    (∃ u, unitsOf c = [u] ∧ u.toNat = c.toNat ∧ isHigh u = false ∧ isLow u = false) ∨
      ∃ u w, unitsOf c = [u, w] ∧ isHigh u = true ∧ isLow w = true ∧ paired u w = c := by
  have scalar := Utf16.toNat_not_surrogate c
  rw [unitsOf, Utf16.unitsOf]
  split_ifs with small
  · refine .inl ⟨UInt16.ofNat c.toNat, rfl, ?_⟩
    have back : (UInt16.ofNat c.toNat).toNat = c.toNat := UInt16.toNat_ofNat_of_lt' small
    simp only [isHigh, isLow, back, decide_eq_false_iff_not, true_and]
    omega
  · refine .inr ⟨UInt16.ofNat (0xD800 + (c.toNat - 0x10000) / 0x400),
      UInt16.ofNat (0xDC00 + (c.toNat - 0x10000) % 0x400), rfl, ?_⟩
    have first : (UInt16.ofNat (0xD800 + (c.toNat - 0x10000) / 0x400)).toNat =
        0xD800 + (c.toNat - 0x10000) / 0x400 := UInt16.toNat_ofNat_of_lt' (by simp [UInt16.size]; omega)
    have second : (UInt16.ofNat (0xDC00 + (c.toNat - 0x10000) % 0x400)).toNat =
        0xDC00 + (c.toNat - 0x10000) % 0x400 := UInt16.toNat_ofNat_of_lt' (by simp [UInt16.size]; omega)
    simp only [isHigh, isLow, paired, first, second, decide_eq_true_eq]
    refine ⟨by omega, by omega, ?_⟩
    have sum : 0x10000 + (0xD800 + (c.toNat - 0x10000) / 0x400 - 0xD800) * 0x400 +
        (0xDC00 + (c.toNat - 0x10000) % 0x400 - 0xDC00) = c.toNat := by omega
    rw [sum, Char.ofNat_toNat]

theorem quoted_unitsOf (c : Char) (s : List UInt16) :
    quoted (unitsOf c ++ s) = encoded c ++ quoted s := by
  rcases unitsOf_cases c with ⟨u, units, -, noHigh, -⟩ | ⟨u, w, units, high, low, -⟩
  · have single (l : List UInt16) : Single u l := fun high => by
      rw [noHigh] at high
      cases high
    rw [encoded, units, List.singleton_append, quoted_single (single s), quoted_single (single [])]
    simp [quoted]
  · rw [encoded, units]
    show quoted (u :: w :: s) = _
    rw [quoted_pair high low, quoted_pair high low]
    rfl

/-- A text in a literal is encoded character by character. -/
theorem quoted_text (text : List Char) (s : List UInt16) :
    quoted (text.flatMap unitsOf ++ s) = text.flatMap encoded ++ quoted s := by
  induction text with
  | nil => rfl
  | cons c text ih =>
      rw [List.flatMap_cons, List.flatMap_cons, List.append_assoc, quoted_unitsOf, ih,
        List.append_assoc]

theorem encoded_plain {c : Char} (plain : isPlain c = true) : encoded c = [c] := by
  simp only [isPlain, decide_eq_true_eq] at plain
  rcases unitsOf_cases c with ⟨u, units, same, noHigh, noLow⟩ | ⟨u, w, units, high, low, pair⟩
  · have own : ¬Special u.toNat := by
      have noQuote : c.toNat ≠ 34 := fun h => plain.1 (Char.toNat_inj.mp h)
      have noBackslash : c.toNat ≠ 92 := fun h => plain.2.1 (Char.toNat_inj.mp h)
      simp only [isHigh, isLow, decide_eq_false_iff_not] at noHigh noLow
      unfold Special
      omega
    rw [encoded, units, quoted, escapeUnit_own own, same, Char.ofNat_toNat]
  · rw [encoded, units, quoted_pair high low, pair, quoted]

/-- A character that does not stand for itself takes an escape. -/
theorem encoded_special {c : Char} (special : isPlain c = false) :
    ∃ d rest, encoded c = backslash :: d :: rest ∧ isInk d = true := by
  simp only [isPlain, decide_eq_false_iff_not] at special
  rcases unitsOf_cases c with ⟨u, units, same, -, -⟩ | ⟨u, w, units, high, low, pair⟩
  · have hidden : Special u.toNat := by
      by_contra own
      unfold Special at own
      refine special ⟨?_, ?_, by omega⟩
      · rintro rfl
        rw [quoteMark_toNat] at same
        omega
      · rintro rfl
        rw [backslash_toNat] at same
        omega
    obtain ⟨d, rest, text, ink, -⟩ := escapeUnit_special hidden
    exact ⟨d, rest, by rw [encoded, units, quoted, text], ink⟩
  · have large := paired_toNat high low
    rw [pair] at large
    refine absurd ⟨?_, ?_, by omega⟩ special
    · rintro rfl
      exact absurd large (by decide)
    · rintro rfl
      exact absurd large (by decide)

/-! ### Placeholders in a literal -/

theorem special_not_inside {n : ℕ} (special : Special n) : ¬Inside n := by
  simp only [Special, Inside, isPart, Placeholder.isStart, Bool.or_eq_true,
    decide_eq_true_eq] at special ⊢
  omega

theorem large_not_inside {n : ℕ} (large : 0x10000 ≤ n) : ¬Inside n := by
  simp only [Inside, isPart, Placeholder.isStart, Bool.or_eq_true, decide_eq_true_eq]
  omega

theorem inside_head {n : ℕ} {l : List ℕ} (outside : ¬Inside n) : ∀ m ∈ (n :: l).head?, ¬Inside m := by
  rintro m first
  cases first
  exact outside

/-- A literal has the placeholders of its units. -/
theorem agree_quoted (s : List UInt16) (tail : List Char) :
    Agree ((quoted s ++ quoteMark :: tail).map Char.toNat) (s.map UInt16.toNat) := by
  induction s using units_induct with
  | nil => exact .differ (inside_head (special_not_inside (.inr (.inl rfl)))) nofun
  | pair u w l high low ih =>
      rw [quoted_pair high low]
      exact .differ (inside_head (large_not_inside (paired_toNat high low)))
        (inside_head (special_not_inside (special_of_isHigh high)))
  | single u l single ih =>
      rw [quoted_single single]
      by_cases special : Special u.toNat
      · obtain ⟨c, rest, text, -⟩ := escapeUnit_special special
        rw [text]
        exact .differ (inside_head (special_not_inside (.inr (.inr (.inl rfl)))))
          (inside_head (special_not_inside special))
      · rw [escapeUnit_own special]
        show Agree ((Char.ofNat u.toNat).toNat :: _) (u.toNat :: _)
        rw [toNat_ofNat_of_not_special special]
        exact .same u.toNat ih

section Filled

variable (value : List ℕ → List Char)

/-- Replace the placeholders of a string. -/
def filled (s : List UInt16) : List UInt16 :=
  fill UInt16.toNat (fun n => (value n).flatMap unitsOf) s

/-- The value of a name as it stands in a literal. -/
def encodedValue (n : List ℕ) : List Char := (value n).flatMap encoded

variable {value}

theorem isLow_unitsOf {c : Char} {l : List UInt16} :
    ∀ w ∈ (unitsOf c ++ l).head?, isLow w = false := by
  rintro w first
  rcases unitsOf_cases c with ⟨u, units, -, -, noLow⟩ | ⟨u, x, units, high, -, -⟩
  · rw [units] at first
    cases first
    exact noLow
  · rw [units] at first
    cases first
    by_contra low
    rw [isHigh_of_isLow (Bool.not_eq_false _ ▸ low)] at high
    cases high

/-- A unit without a partner gets none. -/
theorem Single.filled {u : UInt16} {l : List UInt16} (single : Single u l)
    (nonempty : ∀ n, value n ≠ []) : Single u (filled value l) := by
  cases l with
  | nil => exact single
  | cons w l =>
      unfold Json.filled fill
      cases found : nameAt ((w :: l).map UInt16.toNat) with
      | none =>
          rw [cut_plain found]
          exact single
      | some n =>
          obtain ⟨c, text, first⟩ := List.exists_cons_of_ne_nil (nonempty n)
          rw [cut_name found, textOf, first, List.flatMap_cons, List.append_assoc]
          exact fun _ => isLow_unitsOf

theorem ne_dollar_of_special {n : ℕ} (special : Special n) : n ≠ 36 := fun dollar =>
  special_not_inside special (.inr (.inl dollar))

theorem nameAt_special {u : UInt16} (special : Special u.toNat) (l : List UInt16) :
    nameAt ((u :: l).map UInt16.toNat) = none :=
  nameAt_of_ne (ne_dollar_of_special special) _

/-- The pieces of a literal are those of its units. -/
theorem cut_quoted (nonempty : ∀ n, value n ≠ []) (tail : List Char) (s : List UInt16) :
    ∀ k ≤ s.length, (∀ u ∈ s.take k, ¬Special u.toNat) →
      textOf (encodedValue value) (cut Char.toNat k (quoted s ++ quoteMark :: tail)) =
          quoted (textOf (fun n => (value n).flatMap unitsOf) (cut UInt16.toNat k s)) ++
            quoteMark :: fill Char.toNat (encodedValue value) tail ∧
        namesOf (cut Char.toNat k (quoted s ++ quoteMark :: tail)) =
          namesOf (cut UInt16.toNat k s) ++ names Char.toNat tail := by
  induction s using units_induct with
  | nil =>
      intro k within own
      obtain rfl : k = 0 := Nat.le_zero.mp within
      have mark : nameAt ((quoteMark :: tail).map Char.toNat) = none :=
        nameAt_of_ne (by decide) _
      rw [quoted, List.nil_append, cut_plain mark, textOf, namesOf]
      exact ⟨rfl, rfl⟩
  | pair u w l high low ih =>
      intro k within own
      cases k with
      | succ k => exact absurd (special_of_isHigh high) (own u (by simp))
      | zero =>
      obtain ⟨text, listed⟩ := ih 0 (Nat.zero_le _) (by simp)
      have large := paired_toNat high low
      have char : nameAt ((paired u w :: (quoted l ++ quoteMark :: tail)).map Char.toNat) = none :=
        nameAt_of_ne (by omega) _
      rw [quoted_pair high low, List.cons_append, cut_plain char,
        cut_plain (nameAt_special (special_of_isHigh high) _),
        cut_plain (nameAt_special (special_of_isLow low) _)]
      simp only [textOf, namesOf]
      exact ⟨by rw [quoted_pair high low, text, List.cons_append], listed⟩
  | single u l single ih =>
      intro k within own
      rw [quoted_single single]
      cases k with
      | succ k =>
          have first : ¬Special u.toNat := own u (by simp)
          have others : ∀ w ∈ l.take k, ¬Special w.toNat := fun w inside =>
            own w (by rw [List.take_succ_cons]; exact List.mem_cons_of_mem _ inside)
          rw [escapeUnit_own first]
          exact ih k (Nat.le_of_succ_le_succ within) others
      | zero =>
      have agree := (agree_quoted (u :: l) tail).nameAt
      rw [quoted_single single] at agree
      cases found : nameAt ((u :: l).map UInt16.toNat) with
      | some n =>
          have dollar := (nameAt_cons found).1
          have first : ¬Special u.toNat := by
            rw [dollar]
            decide
          obtain ⟨long, taken⟩ := nameAt_take found
          have others : ∀ w ∈ l.take (n.length + 2), ¬Special w.toNat := by
            intro w inside special
            have listed := List.mem_map_of_mem (f := UInt16.toNat) inside
            rw [taken] at listed
            refine special_not_inside special ?_
            simp only [List.mem_cons, List.mem_append, List.not_mem_nil, or_false] at listed
            rcases listed with h | h | h
            · exact .inr (.inr (.inl h))
            · exact .inl ((nameAt_eq_some.mp found).1.parts _ h)
            · exact .inr (.inr (.inr h))
          obtain ⟨text, listed⟩ := ih (n.length + 2) long others
          rw [found, escapeUnit_own first, List.singleton_append, List.cons_append] at agree
          rw [escapeUnit_own first, List.singleton_append, List.cons_append, cut_name agree,
            cut_name found]
          simp only [textOf, namesOf]
          exact ⟨by rw [quoted_text, text, List.append_assoc, encodedValue], by
            rw [listed, List.cons_append]⟩
      | none =>
          obtain ⟨text, listed⟩ := ih 0 (Nat.zero_le _) (by simp)
          have alone : Single u (textOf _ (cut UInt16.toNat 0 l)) := single.filled nonempty
          have pieces : cut Char.toNat 0 ((escapeUnit u ++ quoted l) ++ quoteMark :: tail) =
              (escapeUnit u).map .plain ++ cut Char.toNat 0 (quoted l ++ quoteMark :: tail) := by
            by_cases special : Special u.toNat
            · obtain ⟨c, rest, text, -, noDollar⟩ := escapeUnit_special special
              rw [List.append_assoc, cut_append]
              rw [text]
              exact List.forall_mem_cons.mpr ⟨by decide, noDollar⟩
            · rw [escapeUnit_own special] at agree ⊢
              exact cut_plain (agree.trans found)
          rw [pieces, cut_plain found, textOf_append, namesOf_append]
          simp only [textOf, namesOf, textOf_plain, namesOf_plain, List.nil_append]
          refine ⟨?_, listed⟩
          rw [text, ← List.append_assoc, ← quoted_single alone]

/-! ### Placeholders in a text -/

/-- Behind the first text the placeholders are found as before; in it they are
those of the given strings, and the second text has their values. -/
def Fills (value : List ℕ → List Char) (l r : List Char) (ss : List (List UInt16)) : Prop :=
  ∀ tail, fill Char.toNat (encodedValue value) (l ++ tail) =
      r ++ fill Char.toNat (encodedValue value) tail ∧
    names Char.toNat (l ++ tail) = ss.flatMap (names UInt16.toNat) ++ names Char.toNat tail

theorem Fills.append {l r l' r' : List Char} {ss ss' : List (List UInt16)}
    (first : Fills value l r ss) (second : Fills value l' r' ss') :
    Fills value (l ++ l') (r ++ r') (ss ++ ss') := by
  intro tail
  obtain ⟨text, listed⟩ := first (l' ++ tail)
  obtain ⟨text', listed'⟩ := second tail
  simp only [List.append_assoc, List.flatMap_append]
  exact ⟨by rw [text, text'], by rw [listed, listed']⟩

theorem fills_plain {l : List Char} (noDollar : ∀ c ∈ l, c.toNat ≠ 36) : Fills value l l [] := by
  intro tail
  unfold fill names
  rw [cut_append noDollar, textOf_append, namesOf_append, textOf_plain, namesOf_plain]
  exact ⟨rfl, rfl⟩

theorem fills_literal (nonempty : ∀ n, value n ≠ []) (s : List UInt16) :
    Fills value (literal s) (literal (filled value s)) [s] := by
  intro tail
  obtain ⟨text, listed⟩ := cut_quoted nonempty tail s 0 (Nat.zero_le _) nofun
  have mark : nameAt ((quoteMark :: (quoted s ++ quoteMark :: tail)).map Char.toNat) = none :=
    nameAt_of_ne (by decide) _
  have whole : literal s ++ tail = quoteMark :: (quoted s ++ quoteMark :: tail) := by
    simp [literal]
  unfold fill names at *
  rw [whole, cut_plain mark, textOf, namesOf, text, listed]
  exact ⟨by simp [literal, filled, fill], by simp⟩

end Filled

/-! ### The strings of a value -/

section Strings

variable {ν : Type}

mutual

/-- Replace the strings, and the names of the properties. -/
def mapStrings (f : List UInt16 → List UInt16) : Json ν → Json ν
  | .null => .null
  | .bool b => .bool b
  | .number n => .number n
  | .string s => .string (f s)
  | .array l => .array (mapElements f l)
  | .object ps => .object (mapMembers f ps)

def mapElements (f : List UInt16 → List UInt16) : List (Json ν) → List (Json ν)
  | [] => []
  | v :: l => mapStrings f v :: mapElements f l

def mapMembers (f : List UInt16 → List UInt16) :
    List (List UInt16 × Json ν) → List (List UInt16 × Json ν)
  | [] => []
  | (k, v) :: ps => (f k, mapStrings f v) :: mapMembers f ps

end

mutual

/-- The strings of a value, with the names of the properties. -/
def strings : Json ν → List (List UInt16)
  | .null => []
  | .bool _ => []
  | .number _ => []
  | .string s => [s]
  | .array l => elementStrings l
  | .object ps => memberStrings ps

def elementStrings : List (Json ν) → List (List UInt16)
  | [] => []
  | v :: l => strings v ++ elementStrings l

def memberStrings : List (List UInt16 × Json ν) → List (List UInt16)
  | [] => []
  | (k, v) :: ps => k :: (strings v ++ memberStrings ps)

end

/-- The names of the placeholders in a value. -/
def placeholders (v : Json ν) : List (List ℕ) := v.strings.flatMap (names UInt16.toNat)

/-- What holds of the literals in a layout and of the text between them, where
no dollar sign stands, holds of the layout, if it holds of texts in a row. -/
structure Passes (Q : List Char → List Char → List (List UInt16) → Prop)
    (f : List UInt16 → List UInt16) : Prop where
  append {l r l' r' : List Char} {ss ss' : List (List UInt16)} :
    Q l r ss → Q l' r' ss' → Q (l ++ l') (r ++ r') (ss ++ ss')
  plain {l : List Char} : (∀ c ∈ l, c.toNat ≠ 36) → Q l l []
  literal (s : List UInt16) : Q (literal s) (literal (f s)) [s]

namespace Passes

variable {Q : List Char → List Char → List (List UInt16) → Prop}
  {f : List UInt16 → List UInt16} (F : NumberFormat ν)

theorem word (passes : Passes Q f) {l : List Char} (noDollar : 36 ∉ l.map Char.toNat) :
    Q l l [] :=
  passes.plain fun _ inside dollar => noDollar (List.mem_map.mpr ⟨_, inside, dollar⟩)

theorem cons (passes : Passes Q f) {c : Char} {l r : List Char} {ss : List (List UInt16)}
    (other : c.toNat ≠ 36) (more : Q l r ss) : Q (c :: l) (c :: r) ss :=
  passes.append (passes.plain (l := [c]) (by simpa using other)) more

theorem newline (passes : Passes Q f) (d : ℕ) {l r : List Char} {ss : List (List UInt16)}
    (more : Q l r ss) : Q (newline d ++ l) (newline d ++ r) ss := by
  refine passes.append (passes.plain (List.forall_mem_cons.mpr ⟨by decide, ?_⟩)) more
  intro c inside
  rw [List.eq_of_mem_replicate inside]
  decide

theorem elements (passes : Passes Q f) {d : ℕ} {l : List (Json ν)}
    (each : ∀ v ∈ l, Q (layout F d v) (layout F d (v.mapStrings f)) v.strings) :
    Q (layoutElements F d l) (layoutElements F d (mapElements f l)) (elementStrings l) := by
  induction l with
  | nil => exact passes.plain nofun
  | cons v l ih =>
      have rest := ih fun w inside => each w (List.mem_cons_of_mem v inside)
      have first := each v List.mem_cons_self
      exact passes.cons (by decide) (passes.newline d (passes.append first rest))

theorem member (passes : Passes Q f) (k : List UInt16) {d : ℕ} {v : Json ν} {l r : List Char}
    {ss : List (List UInt16)} (value : Q (layout F d v) (layout F d (v.mapStrings f)) v.strings)
    (more : Q l r ss) :
    Q (Json.literal k ++ ':' :: ' ' :: (layout F d v ++ l))
      (Json.literal (f k) ++ ':' :: ' ' :: (layout F d (v.mapStrings f) ++ r))
      (k :: (v.strings ++ ss)) :=
  passes.append (passes.literal k)
    (passes.cons (by decide) (passes.cons (by decide) (passes.append value more)))

theorem members (passes : Passes Q f) {d : ℕ} {ps : List (List UInt16 × Json ν)}
    (each : ∀ p ∈ ps, Q (layout F d p.2) (layout F d (p.2.mapStrings f)) p.2.strings) :
    Q (layoutMembers F d ps) (layoutMembers F d (mapMembers f ps)) (memberStrings ps) := by
  induction ps with
  | nil => exact passes.plain nofun
  | cons p ps ih =>
      obtain ⟨k, v⟩ := p
      have rest := ih fun w inside => each w (List.mem_cons_of_mem _ inside)
      have first := passes.member F k (each _ List.mem_cons_self) rest
      exact passes.cons (by decide) (passes.newline d first)

theorem layout (passes : Passes Q f) (v : Json ν) :
    ∀ d, Q (layout F d v) (Json.layout F d (v.mapStrings f)) v.strings := by
  induction v using induct with
  | null => exact fun d => passes.word (l := "null".toList) (by decide)
  | bool b =>
      cases b with
      | false => exact fun d => passes.word (l := "false".toList) (by decide)
      | true => exact fun d => passes.word (l := "true".toList) (by decide)
  | number n =>
      refine fun d => passes.plain ?_
      rintro c inside dollar
      have number := F.text_chars n c inside
      rw [Char.toNat_inj.mp (show c.toNat = '$'.toNat from dollar)] at number
      exact absurd number (by decide)
  | string s => exact fun d => passes.literal s
  | array l ih =>
      intro d
      have last := passes.newline d (passes.word (l := [']']) (by decide))
      cases l with
      | nil => exact passes.word (l := ['[', ']']) (by decide)
      | cons v l =>
          have rest := passes.elements F
            (fun w inside => ih w (List.mem_cons_of_mem v inside) (d + 1))
          have first := ih v List.mem_cons_self (d + 1)
          have ends := passes.append rest last
          rw [List.append_nil (elementStrings l)] at ends
          exact passes.cons (c := '[') (by decide) (passes.newline (d + 1) (passes.append first ends))
  | object ps ih =>
      intro d
      have last := passes.newline d (passes.word (l := ['\x7d']) (by decide))
      cases ps with
      | nil => exact passes.word (l := ['\x7b', '\x7d']) (by decide)
      | cons p ps =>
          obtain ⟨k, v⟩ := p
          have rest := passes.members F
            (fun w inside => ih w (List.mem_cons_of_mem _ inside) (d + 1))
          have ends := passes.append rest last
          rw [List.append_nil (memberStrings ps)] at ends
          have first := passes.member F k (ih _ List.mem_cons_self (d + 1)) ends
          exact passes.cons (c := '\x7b') (by decide) (passes.newline (d + 1) first)

end Passes

theorem passes_fills {value : List ℕ → List Char} (nonempty : ∀ n, value n ≠ []) :
    Passes (Fills value) (filled value) where
  append := Fills.append
  plain := fills_plain
  literal := fills_literal nonempty

variable (F : NumberFormat ν)

/-- With encoded values in its text, a value is that with the values in its
strings. -/
theorem layout_filled {value : List ℕ → List Char} (nonempty : ∀ n, value n ≠ []) (v : Json ν) :
    fill Char.toNat (encodedValue value) (layout F 0 v) =
        layout F 0 (v.mapStrings (filled value)) ∧
      names Char.toNat (layout F 0 v) = v.placeholders := by
  obtain ⟨text, listed⟩ := (passes_fills nonempty).layout F v 0 []
  rw [List.append_nil] at text listed
  exact ⟨by simpa [fill, Placeholder.cut, textOf] using text,
    by simpa [names, Placeholder.cut, namesOf, placeholders] using listed⟩

/-! ### Openings -/

/-- The openings of a literal are those of its string. -/
theorem opens_quoted (s : List UInt16) (tail : List Char) :
    Opens Char.toNat (quoted s ++ quoteMark :: tail) ↔
      Opens UInt16.toNat s ∨ Opens Char.toNat tail := by
  induction s using units_induct with
  | nil =>
      have mark : quoteMark.toNat ≠ 36 := by decide
      have empty : ¬Opens UInt16.toNat [] := by decide
      rw [quoted, List.nil_append, opens_cons]
      simp [mark, empty]
  | pair u w l high low ih =>
      have large := paired_toNat high low
      have other : (paired u w).toNat ≠ 36 := by omega
      rw [quoted_pair high low, List.cons_append, opens_cons, ih, opens_cons, opens_cons]
      simp [other, ne_dollar_of_special (special_of_isHigh high), ne_dollar_of_special (special_of_isLow low)]
  | single u l single ih =>
      rw [quoted_single single, List.append_assoc]
      by_cases special : Special u.toNat
      · obtain ⟨c, rest, text, -, others⟩ := escapeUnit_special special
        rw [opens_plain, ih, opens_cons]
        · simp [ne_dollar_of_special special]
        · rw [text]
          exact List.forall_mem_cons.mpr ⟨by decide, others⟩
      · rw [escapeUnit_own special, List.singleton_append, opens_cons, ih, opens_cons,
          toNat_ofNat_of_not_special special, (agree_quoted l tail).head, or_assoc]

/-- In the second text there are openings where the strings have them. -/
def OpensAs (f : List UInt16 → List UInt16) (_l r : List Char) (ss : List (List UInt16)) : Prop :=
  ∀ tail, Opens Char.toNat (r ++ tail) ↔
    (∃ s ∈ ss, Opens UInt16.toNat (f s)) ∨ Opens Char.toNat tail

theorem passes_opens (f : List UInt16 → List UInt16) : Passes (OpensAs f) f where
  append first second tail := by
    rw [List.append_assoc, first, second]
    simp only [List.mem_append, or_and_right, exists_or, or_assoc]
  plain noDollar tail := by
    rw [opens_plain noDollar]
    simp
  literal s tail := by
    have whole : literal (f s) ++ tail = quoteMark :: (quoted (f s) ++ quoteMark :: tail) := by
      simp [literal]
    have mark : quoteMark.toNat ≠ 36 := by decide
    rw [whole, opens_cons, opens_quoted]
    simp [mark]

/-- The openings in the text of a value are those in its strings. -/
theorem opens_layout (f : List UInt16 → List UInt16) (v : Json ν) :
    Opens Char.toNat (layout F 0 (v.mapStrings f)) ↔
      ∃ s ∈ v.strings, Opens UInt16.toNat (f s) := by
  have opens := (passes_opens f).layout F v 0 []
  have empty : ¬Opens Char.toNat [] := by decide
  simpa [empty] using opens

end Strings

end Library.Json
