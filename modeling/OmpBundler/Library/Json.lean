import OmpBundler.Library.JsonText

/-!
JSON values with their text, and the reader of such texts.

A string is a list of code units, as in the language, so it may hold half of
a surrogate pair. The text never does: a code unit that has no partner is
written as an escape. So a text is a list of characters.

How numbers look is a parameter.
-/

namespace Library

/-- A JSON value over some type of numbers. -/
inductive Json (ν : Type) where
  | null
  | bool (value : Bool)
  | number (value : ν)
  | string (units : List UInt16)
  | array (elements : List (Json ν))
  | object (properties : List (List UInt16 × Json ν))

/-- The characters of a number. -/
def isNumberChar (c : Char) : Bool := c.isDigit || decide (c ∈ ['+', '-', '.', 'e', 'E'])

/-- How numbers are written and read. -/
structure NumberFormat (ν : Type) where
  text : ν → List Char
  value : List Char → Option ν
  value_text : ∀ n, value (text n) = some n
  text_chars : ∀ n, ∀ c ∈ text n, isNumberChar c = true
  text_ne_nil : ∀ n, text n ≠ []

/-- Natural numbers, without a sign, a fraction or an exponent. -/
def NumberFormat.decimal : NumberFormat ℕ where
  text n := Nat.toDigits 10 n
  value l :=
    if Nat.toDigits 10 (Nat.ofDigitChars 10 l 0) = l then some (Nat.ofDigitChars 10 l 0) else none
  value_text n := by simp [Nat.ofDigitChars_toDigits]
  text_chars n c inside := by
    have digit : c.isDigit = true :=
      Nat.isDigit_of_mem_toDigits (by decide) (Nat.le_refl 10) inside
    rw [isNumberChar, digit, Bool.true_or]
  text_ne_nil n := Nat.toDigits_ne_nil

namespace Json

open JsValue (quoteMark backslash hexDigit letters further joined)

/-- Induction with one hypothesis for each element and each property. -/
@[elab_as_elim]
theorem induct {ν : Type} {motive : Json ν → Prop} (null : motive .null)
    (bool : ∀ b, motive (.bool b)) (number : ∀ n, motive (.number n))
    (string : ∀ s, motive (.string s))
    (array : ∀ l, (∀ v ∈ l, motive v) → motive (.array l))
    (object : ∀ ps, (∀ p ∈ ps, motive p.2) → motive (.object ps)) (v : Json ν) : motive v :=
  @Json.rec ν motive (fun l => ∀ v ∈ l, motive v) (fun ps => ∀ p ∈ ps, motive p.2)
    (fun p => motive p.2) null bool number string array object
    (by simp) (fun _ _ head tail => List.forall_mem_cons.mpr ⟨head, tail⟩)
    (by simp) (fun _ _ head tail => List.forall_mem_cons.mpr ⟨head, tail⟩)
    (fun _ _ value => value) v

/-- No name occurs twice in an object. -/
inductive WellFormed {ν : Type} : Json ν → Prop
  | null : WellFormed .null
  | bool (b : Bool) : WellFormed (.bool b)
  | number (n : ν) : WellFormed (.number n)
  | string (s : List UInt16) : WellFormed (.string s)
  | array (l : List (Json ν)) (elements : ∀ v ∈ l, WellFormed v) : WellFormed (.array l)
  | object (ps : List (List UInt16 × Json ν)) (distinct : (ps.map Prod.fst).Nodup)
      (values : ∀ p ∈ ps, WellFormed p.2) : WellFormed (.object ps)

/-! ### Strings -/

/-- The first half of a pair of surrogates. -/
def isHigh (u : UInt16) : Bool := decide (0xD800 ≤ u.toNat ∧ u.toNat ≤ 0xDBFF)

/-- The second half. -/
def isLow (u : UInt16) : Bool := decide (0xDC00 ≤ u.toNat ∧ u.toNat ≤ 0xDFFF)

/-- The character of a pair of surrogates. -/
def paired (high low : UInt16) : Char :=
  Char.ofNat (0x10000 + (high.toNat - 0xD800) * 0x400 + (low.toNat - 0xDC00))

/-- An escape by number. -/
def numbered (n : ℕ) : List Char :=
  [backslash, 'u', hexDigit (n / 4096), hexDigit (n / 256 % 16), hexDigit (n / 16 % 16),
    hexDigit (n % 16)]

/-- A code unit without a partner. -/
def escapeUnit (u : UInt16) : List Char :=
  if Char.ofNat u.toNat = quoteMark ∨ Char.ofNat u.toNat = backslash then
    [backslash, Char.ofNat u.toNat]
  else
    match letters.find? fun p => p.1.toNat = u.toNat with
    | some p => [backslash, p.2]
    | none =>
        if u.toNat < 0x20 ∨ isHigh u ∨ isLow u then numbered u.toNat else [Char.ofNat u.toNat]

/-- What stands between the quotes. -/
def quoted : List UInt16 → List Char
  | [] => []
  | [u] => escapeUnit u
  | u :: w :: rest =>
      if isHigh u ∧ isLow w then paired u w :: quoted rest else escapeUnit u ++ quoted (w :: rest)

/-- A string literal. -/
def literal (units : List UInt16) : List Char := quoteMark :: quoted units ++ [quoteMark]

/-! ### Values -/

section Text

variable {ν : Type} (F : NumberFormat ν)

mutual

/-- `JSON.stringify`. -/
def stringify : Json ν → List Char
  | .null => "null".toList
  | .bool b => (if b then "true" else "false").toList
  | .number n => F.text n
  | .string s => literal s
  | .array l => '[' :: joined (elementTexts l) ++ [']']
  | .object ps => '\x7b' :: joined (memberTexts ps) ++ ['\x7d']

def elementTexts : List (Json ν) → List (List Char)
  | [] => []
  | v :: rest => v.stringify :: elementTexts rest

def memberTexts : List (List UInt16 × Json ν) → List (List Char)
  | [] => []
  | (k, v) :: rest => (literal k ++ ':' :: v.stringify) :: memberTexts rest

end

end Text

/-! ### Reading -/

/-- White space between two tokens. -/
def isBlank (c : Char) : Bool := decide (c.toNat ∈ [9, 10, 13, 32])

def skip (text : List Char) : List Char := text.dropWhile isBlank

/-- The value of a hexadecimal digit. -/
def hexValue (c : Char) : Option ℕ :=
  if '0' ≤ c ∧ c ≤ '9' then some (c.toNat - 48)
  else if 'a' ≤ c ∧ c ≤ 'f' then some (c.toNat - 87)
  else if 'A' ≤ c ∧ c ≤ 'F' then some (c.toNat - 55)
  else none

/-- The code unit that an escape by number stands for. -/
def hexUnit (a b c d : Char) : Option UInt16 := do
  return UInt16.ofNat ((((← hexValue a) * 16 + (← hexValue b)) * 16 + (← hexValue c)) * 16 +
    (← hexValue d))

/-- The code unit that an escape by a letter stands for. -/
def letterUnit (c : Char) : Option UInt16 :=
  if c = quoteMark ∨ c = backslash ∨ c = '/' then some (UInt16.ofNat c.toNat)
  else (letters.find? fun p => p.2 = c).map fun p => UInt16.ofNat p.1.toNat

/-- The code units of a character. -/
def unitsOf (c : Char) : List UInt16 := (Utf16.unitsOf c).map UInt16.ofNat

/-- The rest of a string literal, behind its opening quote. -/
def readString : List Char → Option (List UInt16 × List Char)
  | [] => none
  | '\x22' :: rest => some ([], rest)
  | '\x5c' :: 'u' :: a :: b :: c :: d :: rest => do
      let u ← hexUnit a b c d
      let (s, rest) ← readString rest
      return (u :: s, rest)
  | '\x5c' :: c :: rest => do
      let u ← letterUnit c
      let (s, rest) ← readString rest
      return (u :: s, rest)
  | c :: rest => do
      if c.toNat < 0x20 then none
      let (s, rest) ← readString rest
      return (unitsOf c ++ s, rest)

/-- Set a property; it keeps its place. -/
def put {ν : Type} (ps : List (List UInt16 × Json ν)) (p : List UInt16 × Json ν) :
    List (List UInt16 × Json ν) :=
  if p.1 ∈ ps.map Prod.fst then ps.map fun q => if q.1 = p.1 then p else q else ps ++ [p]

section Reading

variable {ν : Type} (F : NumberFormat ν)

mutual

/-- Read a value, at most so many levels and items deep. -/
def readValue : ℕ → List Char → Option (Json ν × List Char)
  | 0, _ => none
  | n + 1, text =>
      match skip text with
      | '\x22' :: rest => (readString rest).map fun r => (.string r.1, r.2)
      | '[' :: rest =>
          match skip rest with
          | ']' :: rest => some (.array [], rest)
          | rest => (readElements n rest).map fun r => (.array r.1, r.2)
      | '\x7b' :: rest =>
          match skip rest with
          | '\x7d' :: rest => some (.object [], rest)
          | rest => (readMembers n rest).map fun r => (.object (r.1.foldl put []), r.2)
      | 'n' :: 'u' :: 'l' :: 'l' :: rest => some (.null, rest)
      | 't' :: 'r' :: 'u' :: 'e' :: rest => some (.bool true, rest)
      | 'f' :: 'a' :: 'l' :: 's' :: 'e' :: rest => some (.bool false, rest)
      | rest =>
          (F.value (rest.takeWhile isNumberChar)).map fun n =>
            (.number n, rest.dropWhile isNumberChar)

/-- Read the elements of an array and its end. -/
def readElements : ℕ → List Char → Option (List (Json ν) × List Char)
  | 0, _ => none
  | n + 1, text => do
      let (v, rest) ← readValue n text
      match skip rest with
      | ',' :: rest => (readElements n rest).map fun r => (v :: r.1, r.2)
      | ']' :: rest => some ([v], rest)
      | _ => none

/-- Read the properties of an object and its end. -/
def readMembers : ℕ → List Char → Option (List (List UInt16 × Json ν) × List Char)
  | 0, _ => none
  | n + 1, text =>
      match skip text with
      | '\x22' :: rest => do
          let (k, rest) ← readString rest
          match skip rest with
          | ':' :: rest => do
              let (v, rest) ← readValue n rest
              match skip rest with
              | ',' :: rest => (readMembers n rest).map fun r => ((k, v) :: r.1, r.2)
              | '\x7d' :: rest => some ([(k, v)], rest)
              | _ => none
          | _ => none
      | _ => none

end

/-- `JSON.parse`. -/
def parse (text : List Char) : Option (Json ν) :=
  match readValue F (text.length + 1) text with
  | some (v, rest) => if skip rest = [] then some v else none
  | none => none

-- Without fuel nothing is read.
example (text : List Char) : readValue F 0 text = none := by rw [readValue]

section Brackets

variable {F} {n : ℕ} {text rest : List Char}

theorem readValue_elements (start : skip text = '[' :: rest)
    (goes : ∀ next, skip rest ≠ ']' :: next) :
    readValue F (n + 1) text =
      (readElements F n (skip rest)).map fun r => (.array r.1, r.2) := by
  rw [readValue, start]
  change (match skip rest with
    | ']' :: rest => some (Json.array [], rest)
    | rest => (readElements F n rest).map
        fun r : List (Json ν) × List Char => (Json.array r.1, r.2)) = _
  split
  · rename_i next closes
    exact absurd closes (goes next)
  · rfl

theorem readValue_members (start : skip text = '\x7b' :: rest)
    (goes : ∀ next, skip rest ≠ '\x7d' :: next) :
    readValue F (n + 1) text =
      (readMembers F n (skip rest)).map fun r => (.object (r.1.foldl put []), r.2) := by
  rw [readValue, start]
  change (match skip rest with
    | '\x7d' :: rest => some (Json.object [], rest)
    | rest => (readMembers F n rest).map
        fun r : List (List UInt16 × Json ν) × List Char =>
          (Json.object (r.1.foldl put []), r.2)) = _
  split
  · rename_i next closes
    exact absurd closes (goes next)
  · rfl

end Brackets

end Reading

/-! ### A string is read back -/

-- A string does not end without a quote.
example : readString [] = none := by rw [readString]

theorem readString_char {c : Char} (noQuote : c ≠ quoteMark) (noBackslash : c ≠ backslash)
    (printable : 0x20 ≤ c.toNat) (rest : List Char) :
    readString (c :: rest) = (readString rest).map fun r => (unitsOf c ++ r.1, r.2) := by
  rw [readString]
  · simp only [Nat.not_lt.mpr printable, if_false, Option.bind_eq_bind, Option.pure_def]
    cases readString rest <;> rfl
  · exact fun h => noQuote h
  · intro a b c d l h
    exact absurd h noBackslash
  · intro c l h
    exact absurd h noBackslash

theorem readString_letter {c : Char} (noNumber : c ≠ 'u') (rest : List Char) :
    readString (backslash :: c :: rest) = (letterUnit c).bind fun u =>
      (readString rest).map fun r => (u :: r.1, r.2) := by
  rw [show backslash = '\x5c' from rfl, readString]
  · simp only [Option.bind_eq_bind, Option.pure_def]
    cases letterUnit c <;> cases readString rest <;> rfl
  · intro a b d e l h
    exact absurd h noNumber

theorem readString_hexUnit (a b c d : Char) (rest : List Char) :
    readString (backslash :: 'u' :: a :: b :: c :: d :: rest) =
      (hexUnit a b c d).bind fun u => (readString rest).bind fun r => some (u :: r.1, r.2) := rfl

theorem readString_numbered (n : ℕ) (small : n < 65536) (rest : List Char) :
    readString (numbered n ++ rest) =
      (readString rest).map fun r => (UInt16.ofNat n :: r.1, r.2) := by
  have digit : ∀ m < 16, hexValue (hexDigit m) = some m := by decide
  have value : hexUnit (hexDigit (n / 4096)) (hexDigit (n / 256 % 16)) (hexDigit (n / 16 % 16))
      (hexDigit (n % 16)) = some (UInt16.ofNat n) := by
    have sum : ((n / 4096 * 16 + n / 256 % 16) * 16 + n / 16 % 16) * 16 + n % 16 = n := by omega
    simp only [hexUnit, digit _ (show n / 4096 < 16 by omega),
      digit _ (Nat.mod_lt _ (by decide : 0 < 16)), Option.bind_eq_bind, Option.bind_some, sum,
      Option.pure_def]
  simp only [numbered, List.cons_append, List.nil_append, readString_hexUnit, value,
    Option.bind_some]
  cases readString rest <;> rfl

theorem toNat_ofNat {n : ℕ} (valid : n.isValidChar) : (Char.ofNat n).toNat = n := by
  rw [Char.ofNat, dif_pos valid]
  rfl

/-- Numbers that are no characters count as the null character. -/
theorem ofNat_eq_null {n : ℕ} (invalid : ¬ n.isValidChar) : Char.ofNat n = Char.ofNat 0 := by
  rw [Char.ofNat, dif_neg invalid]
  rfl

theorem readString_escapeUnit (u : UInt16) (rest : List Char) :
    readString (escapeUnit u ++ rest) = (readString rest).map fun r => (u :: r.1, r.2) := by
  have small : u.toNat < 65536 := u.toNat_lt
  have back : UInt16.ofNat u.toNat = u := UInt16.ofNat_toNat
  unfold escapeUnit
  by_cases special : Char.ofNat u.toNat = quoteMark ∨ Char.ofNat u.toNat = backslash
  · have valid : u.toNat.isValidChar := by
      by_contra invalid
      rw [ofNat_eq_null invalid] at special
      exact absurd special (by decide)
    have unit : letterUnit (Char.ofNat u.toNat) = some u := by
      rw [letterUnit, if_pos (by tauto), toNat_ofNat valid, back]
    have noNumber : Char.ofNat u.toNat ≠ 'u' := by
      rcases special with h | h <;> rw [h] <;> decide
    rw [if_pos special, List.cons_append, List.cons_append, List.nil_append,
      readString_letter noNumber, unit]
    rfl
  rw [if_neg special]
  cases found : letters.find? fun p => decide (p.1.toNat = u.toNat) with
  | some p =>
    have listed : ∀ p ∈ letters, p.2 ≠ 'u' ∧ letterUnit p.2 = some (UInt16.ofNat p.1.toNat) := by
      decide
    obtain ⟨noNumber, unit⟩ := listed p (List.mem_of_find?_eq_some found)
    have same : p.1.toNat = u.toNat := by simpa using List.find?_some found
    show readString (backslash :: p.2 :: rest) = _
    rw [readString_letter noNumber, unit, same, back]
    rfl
  | none =>
    show readString ((if _ then _ else _) ++ rest) = _
    split_ifs with hidden
    · rw [readString_numbered _ small, back]
    · simp only [not_or, isHigh, isLow, decide_eq_true_eq] at hidden special
      have valid : (Char.ofNat u.toNat).toNat = u.toNat :=
        toNat_ofNat (show _ ∨ _ by omega)
      have units : unitsOf (Char.ofNat u.toNat) = [u] := by
        rw [unitsOf, Utf16.unitsOf, valid, if_pos small, List.map_singleton, back]
      rw [List.singleton_append, readString_char special.1 special.2 (by omega), units]
      rfl

theorem readString_paired {high low : UInt16} (first : isHigh high = true)
    (second : isLow low = true) (rest : List Char) :
    readString (paired high low :: rest) =
      (readString rest).map fun r => (high :: low :: r.1, r.2) := by
  simp only [isHigh, isLow, decide_eq_true_eq] at first second
  have value : (paired high low).toNat =
      0x10000 + (high.toNat - 0xD800) * 0x400 + (low.toNat - 0xDC00) :=
    toNat_ofNat (show _ ∨ _ by omega)
  have units : unitsOf (paired high low) = [high, low] := by
    rw [unitsOf, Utf16.unitsOf, value, if_neg (by omega),
      show 0xD800 + (0x10000 + (high.toNat - 0xD800) * 0x400 + (low.toNat - 0xDC00) - 0x10000) /
        0x400 = high.toNat by omega,
      show 0xDC00 + (0x10000 + (high.toNat - 0xD800) * 0x400 + (low.toNat - 0xDC00) - 0x10000) %
        0x400 = low.toNat by omega, List.map_cons, List.map_singleton, UInt16.ofNat_toNat,
      UInt16.ofNat_toNat]
  have large : ∀ c : Char, c.toNat < 0x10000 → paired high low ≠ c := by
    intro c small same
    rw [← same, value] at small
    omega
  rw [readString_char (large _ (by decide)) (large _ (by decide)) (by omega), units]
  rfl

/-- A string literal is read back, whatever follows it. -/
theorem readString_quoted (units : List UInt16) (rest : List Char) :
    readString (quoted units ++ quoteMark :: rest) = some (units, rest) := by
  induction units using quoted.induct with
  | case1 => rfl
  | case2 u =>
    rw [quoted, readString_escapeUnit]
    rfl
  | case3 u w l pair ih =>
    rw [quoted, if_pos pair, List.cons_append, readString_paired pair.1 pair.2, ih]
    rfl
  | case4 u w l single ih =>
    rw [quoted, if_neg single, List.append_assoc, readString_escapeUnit, ih]
    rfl

/-! ### A value is read back -/

section RoundTrip

variable {ν : Type} (F : NumberFormat ν)

/-- Nothing that would belong to a number. -/
def Stops (rest : List Char) : Prop := ∀ c ∈ rest.head?, isNumberChar c = false

theorem skip_cons {c : Char} (visible : isBlank c = false) (rest : List Char) :
    skip (c :: rest) = c :: rest := by
  rw [skip, List.dropWhile_cons_of_neg (by simp [visible])]

theorem isBlank_of_isNumberChar {c : Char} (number : isNumberChar c = true) :
    isBlank c = false := by
  by_contra blank
  simp only [isBlank, decide_eq_true_eq, Bool.not_eq_false, List.mem_cons, List.not_mem_nil,
    or_false] at blank
  have same : c = Char.ofNat c.toNat := (Char.ofNat_toNat c).symm
  rcases blank with h | h | h | h <;>
  · rw [h] at same
    rw [same] at number
    exact absurd number (by decide)

/-- How a text begins that is no end of an array. -/
theorem stringify_eq_cons (v : Json ν) :
    ∃ c rest, v.stringify F = c :: rest ∧ isBlank c = false ∧ c ≠ ']' := by
  cases v with
  | null => exact ⟨'n', _, rfl, by decide, by decide⟩
  | bool b => cases b <;> exact ⟨_, _, rfl, by decide, by decide⟩
  | number n =>
    cases text : F.text n with
    | nil => exact absurd text (F.text_ne_nil n)
    | cons c rest =>
      have number : isNumberChar c = true := F.text_chars n c (by rw [text]; simp)
      refine ⟨c, rest, text, isBlank_of_isNumberChar number, ?_⟩
      rintro rfl
      exact absurd number (by decide)
  | string s => exact ⟨quoteMark, _, rfl, by decide, by decide⟩
  | array l => exact ⟨'[', _, rfl, by decide, by decide⟩
  | object ps => exact ⟨'\x7b', _, rfl, by decide, by decide⟩

theorem readValue_array {c : Char} (n : ℕ) (visible : isBlank c = false) (more : c ≠ ']')
    (rest : List Char) : readValue F (n + 1) ('[' :: c :: rest) =
      (readElements F n (c :: rest)).map fun r => (.array r.1, r.2) := by
  rw [readValue, skip_cons (by decide)]
  simp only [skip_cons visible]
  split
  · rename_i h
    injection h with h
    exact absurd h more
  · rfl

theorem readValue_object (n : ℕ) (rest : List Char) :
    readValue F (n + 1) ('\x7b' :: quoteMark :: rest) =
      (readMembers F n (quoteMark :: rest)).map fun r => (.object (r.1.foldl put []), r.2) := by
  rw [readValue, skip_cons (by decide)]
  simp only [skip_cons (show isBlank quoteMark = false by decide)]
  rfl

theorem readValue_number {c : Char} (number : isNumberChar c = true) (n : ℕ) (rest : List Char) :
    readValue F (n + 1) (c :: rest) =
      (F.value ((c :: rest).takeWhile isNumberChar)).map fun m =>
        (.number m, (c :: rest).dropWhile isNumberChar) := by
  rw [readValue, skip_cons (isBlank_of_isNumberChar number)]
  split
  all_goals
    first
    | rfl
    | (rename_i h; injection h with h; rw [h] at number; exact absurd number (by decide))

theorem readValue_text (number : ν) (n : ℕ) {rest : List Char} (stops : Stops rest) :
    readValue F (n + 1) (F.text number ++ rest) = some (.number number, rest) := by
  have chars := F.text_chars number
  have value := F.value_text number
  have ends : rest.takeWhile isNumberChar = [] ∧ rest.dropWhile isNumberChar = rest := by
    cases rest with
    | nil => exact ⟨rfl, rfl⟩
    | cons c l =>
      have other : isNumberChar c = false := stops c rfl
      exact ⟨List.takeWhile_cons_of_neg (by simp [other]), List.dropWhile_cons_of_neg (by simp [other])⟩
  cases text : F.text number with
  | nil => exact absurd text (F.text_ne_nil number)
  | cons c l =>
    rw [text] at chars value
    rw [List.cons_append, readValue_number F (chars c (by simp)), ← List.cons_append,
      List.takeWhile_append_of_pos chars, List.dropWhile_append_of_pos chars, ends.1, ends.2,
      List.append_nil, value]
    rfl

theorem skip_literal (units : List UInt16) (rest : List Char) :
    skip (literal units ++ rest) = '\x22' :: (quoted units ++ quoteMark :: rest) := by
  rw [literal, List.cons_append, List.cons_append, List.append_assoc, List.singleton_append]
  exact skip_cons (by decide) _

/-- A value is read back from its text, whatever follows it. -/
def Reads (v : Json ν) : Prop :=
  ∀ {n : ℕ} {rest : List Char}, (v.stringify F).length < n → Stops rest →
    readValue F n (v.stringify F ++ rest) = some (v, rest)

theorem stops_cons {c : Char} (other : isNumberChar c = false) (rest : List Char) :
    Stops (c :: rest) := by
  intro d first
  obtain rfl : c = d := by simpa using first
  exact other

theorem readElements_joined {v : Json ν} {l : List (Json ν)} (reads : ∀ w ∈ v :: l, Reads F w) :
    ∀ {n : ℕ} (rest : List Char), (joined (elementTexts F (v :: l))).length + 1 < n →
      readElements F n (joined (elementTexts F (v :: l)) ++ ']' :: rest) = some (v :: l, rest) := by
  induction l generalizing v with
  | nil =>
    rintro (_ | n) rest enough
    · exact absurd enough (Nat.not_lt_zero _)
    simp only [elementTexts, joined, further, List.append_nil] at enough ⊢
    have first := reads v List.mem_cons_self (n := n) (by omega)
      (stops_cons (c := ']') (by decide) rest)
    rw [readElements, first]
    rfl
  | cons w l ih =>
    rintro (_ | n) rest enough
    · exact absurd enough (Nat.not_lt_zero _)
    have text : joined (elementTexts F (v :: w :: l)) =
        v.stringify F ++ ',' :: joined (elementTexts F (w :: l)) := rfl
    rw [text, List.length_append, List.length_cons] at enough
    have more := ih (fun x inside => reads x (List.mem_cons_of_mem _ inside)) (n := n)
      rest (by omega)
    have first := reads v List.mem_cons_self (n := n) (by omega)
      (stops_cons (c := ',') (by decide) (joined (elementTexts F (w :: l)) ++ ']' :: rest))
    rw [text, List.append_assoc, List.cons_append, readElements, first]
    simp only [Option.bind_eq_bind, Option.bind_some, skip_cons (show isBlank ',' = false by decide),
      more, Option.map_some]

theorem readMembers_joined {k : List UInt16} {v : Json ν} {ps : List (List UInt16 × Json ν)}
    (reads : ∀ p ∈ (k, v) :: ps, Reads F p.2) :
    ∀ {n : ℕ} (rest : List Char), (joined (memberTexts F ((k, v) :: ps))).length + 1 < n →
      readMembers F n (joined (memberTexts F ((k, v) :: ps)) ++ '\x7d' :: rest) =
        some ((k, v) :: ps, rest) := by
  induction ps generalizing k v with
  | nil =>
    rintro (_ | n) rest enough
    · exact absurd enough (Nat.not_lt_zero _)
    simp only [memberTexts, joined, further, List.append_nil, List.length_append,
      List.length_cons] at enough
    have first := reads (k, v) List.mem_cons_self (n := n) (show (v.stringify F).length < n by omega)
      (stops_cons (c := '\x7d') (by decide) rest)
    have text : joined (memberTexts F [(k, v)]) ++ '\x7d' :: rest =
        literal k ++ ':' :: (v.stringify F ++ '\x7d' :: rest) := by
      simp [memberTexts, joined, further]
    rw [text, readMembers, skip_literal]
    simp only [readString_quoted, Option.bind_eq_bind, Option.bind_some,
      skip_cons (show isBlank ':' = false by decide), first,
      skip_cons (show isBlank '\x7d' = false by decide)]
  | cons p ps ih =>
    obtain ⟨k', w⟩ := p
    rintro (_ | n) rest enough
    · exact absurd enough (Nat.not_lt_zero _)
    have text : joined (memberTexts F ((k, v) :: (k', w) :: ps)) =
        literal k ++ ':' :: (v.stringify F ++ ',' :: joined (memberTexts F ((k', w) :: ps))) := by
      simp [memberTexts, joined, further]
    rw [text] at enough
    simp only [List.length_append, List.length_cons] at enough
    have more := ih (fun x inside => reads x (List.mem_cons_of_mem _ inside)) (n := n)
      rest (by omega)
    have first := reads (k, v) List.mem_cons_self (n := n) (show (v.stringify F).length < n by omega)
      (stops_cons (c := ',') (by decide) (joined (memberTexts F ((k', w) :: ps)) ++ '\x7d' :: rest))
    rw [text, List.append_assoc, List.cons_append, List.append_assoc, List.cons_append,
      readMembers, skip_literal]
    simp only [readString_quoted, Option.bind_eq_bind, Option.bind_some,
      skip_cons (show isBlank ':' = false by decide), first,
      skip_cons (show isBlank ',' = false by decide), more, Option.map_some]

/-- Properties with different names keep what they are. -/
theorem foldl_put {ps : List (List UInt16 × Json ν)} (qs : List (List UInt16 × Json ν))
    (distinct : ((qs ++ ps).map Prod.fst).Nodup) : ps.foldl put qs = qs ++ ps := by
  induction ps generalizing qs with
  | nil => simp
  | cons p ps ih =>
    have fresh : p.1 ∉ qs.map Prod.fst := by
      intro inside
      rw [List.map_append, List.nodup_append] at distinct
      exact distinct.2.2 _ inside _ (by simp) rfl
    rw [List.foldl_cons, put, if_neg fresh, ih _ (by simpa using distinct)]
    simp

theorem WellFormed.reads {v : Json ν} (proper : v.WellFormed) : Reads F v := by
  induction v using induct with
  | null =>
    rintro (_ | n) rest enough -
    · exact absurd enough (Nat.not_lt_zero _)
    · rfl
  | bool b =>
    rintro (_ | n) rest enough -
    · exact absurd enough (Nat.not_lt_zero _)
    · cases b <;> rfl
  | number m =>
    rintro (_ | n) rest enough stops
    · exact absurd enough (Nat.not_lt_zero _)
    · exact readValue_text F m n stops
  | string s =>
    rintro (_ | n) rest enough -
    · exact absurd enough (Nat.not_lt_zero _)
    · show readValue F (n + 1) (literal s ++ rest) = _
      rw [readValue, skip_literal]
      simp only [readString_quoted, Option.map_some]
  | array l ih =>
    rintro (_ | n) rest enough -
    · exact absurd enough (Nat.not_lt_zero _)
    cases proper with
    | array _ elements =>
      cases l with
      | nil => rfl
      | cons v l =>
        have within : (joined (elementTexts F (v :: l))).length + 1 < n := by
          have total : (stringify F (.array (v :: l))).length =
              (joined (elementTexts F (v :: l))).length + 2 := by simp [stringify]
          omega
        have read := readElements_joined F (fun w inside => ih w inside (elements w inside))
          rest within
        obtain ⟨c, more, text, visible, notEnd⟩ := stringify_eq_cons F v
        have head : joined (elementTexts F (v :: l)) ++ ']' :: rest =
            c :: (more ++ further (elementTexts F l) ++ ']' :: rest) := by
          simp [elementTexts, joined, text]
        have whole : stringify F (.array (v :: l)) ++ rest =
            '[' :: (joined (elementTexts F (v :: l)) ++ ']' :: rest) := by simp [stringify]
        rw [head] at whole read
        rw [whole, readValue_array F n visible notEnd, read]
        rfl
  | object ps ih =>
    rintro (_ | n) rest enough -
    · exact absurd enough (Nat.not_lt_zero _)
    cases proper with
    | object _ distinct values =>
      cases ps with
      | nil => rfl
      | cons p ps =>
        obtain ⟨k, v⟩ := p
        have within : (joined (memberTexts F ((k, v) :: ps))).length + 1 < n := by
          have total : (stringify F (.object ((k, v) :: ps))).length =
              (joined (memberTexts F ((k, v) :: ps))).length + 2 := by simp [stringify]
          omega
        have read := readMembers_joined F (fun p inside => ih p inside (values p inside))
          rest within
        have head : joined (memberTexts F ((k, v) :: ps)) ++ '\x7d' :: rest =
            quoteMark :: (quoted k ++ [quoteMark] ++ ':' :: v.stringify F ++
              further (memberTexts F ps) ++ '\x7d' :: rest) := by
          simp [memberTexts, joined, literal]
        have whole : stringify F (.object ((k, v) :: ps)) ++ rest =
            '\x7b' :: (joined (memberTexts F ((k, v) :: ps)) ++ '\x7d' :: rest) := by
          simp [stringify]
        rw [head] at whole read
        rw [whole, readValue_object F n, read, Option.map_some,
          foldl_put [] (by simpa using distinct), List.nil_append]

/-- `JSON.parse` undoes `JSON.stringify`. -/
theorem parse_stringify {v : Json ν} (proper : v.WellFormed) :
    parse F (v.stringify F) = some v := by
  have read : readValue F ((v.stringify F).length + 1) (v.stringify F ++ []) = some (v, []) :=
    proper.reads F (Nat.lt_succ_self _) (fun _ none => nomatch none)
  rw [List.append_nil] at read
  rw [parse, read]
  rfl

/-! ### No control characters -/

/-- A text that holds no control character, so no line ends inside it. -/
def Printable (text : List Char) : Prop := ∀ c ∈ text, 0x20 ≤ c.toNat

@[simp] theorem printable_nil : Printable [] := nofun

@[simp] theorem printable_cons {c : Char} {l : List Char} :
    Printable (c :: l) ↔ 0x20 ≤ c.toNat ∧ Printable l := List.forall_mem_cons

@[simp] theorem printable_append {l l' : List Char} :
    Printable (l ++ l') ↔ Printable l ∧ Printable l' := List.forall_mem_append

-- The instance for all characters would run through all of them.
instance (text : List Char) : Decidable (Printable text) :=
  List.decidableBAll (fun c : Char => 0x20 ≤ c.toNat) text

theorem isNumberChar_printable {c : Char} (number : isNumberChar c = true) : 0x20 ≤ c.toNat := by
  have listed : Printable ['+', '-', '.', 'e', 'E'] := by decide
  simp only [isNumberChar, Bool.or_eq_true, decide_eq_true_eq] at number
  rcases number with digit | other
  · have above : 48 ≤ c.toNat := (Char.isDigit_iff_toNat.mp digit).1
    omega
  · exact listed c other

theorem escapeUnit_printable (u : UInt16) : Printable (escapeUnit u) := by
  have listed : Printable (backslash :: letters.map Prod.snd) := by decide
  have digit : ∀ n < 16, 0x20 ≤ (hexDigit n).toNat := by decide
  have small : u.toNat < 65536 := u.toNat_lt
  unfold escapeUnit
  by_cases special : Char.ofNat u.toNat = quoteMark ∨ Char.ofNat u.toNat = backslash
  · rw [if_pos special]
    rcases special with h | h <;> rw [h] <;> decide
  rw [if_neg special]
  cases found : letters.find? fun p => decide (p.1.toNat = u.toNat) with
  | some p =>
    have letter := List.mem_map_of_mem (f := Prod.snd) (List.mem_of_find?_eq_some found)
    show Printable [backslash, p.2]
    rw [printable_cons, printable_cons]
    exact ⟨(printable_cons.mp listed).1, (printable_cons.mp listed).2 p.2 letter, printable_nil⟩
  | none =>
    show Printable (if _ then _ else _)
    split_ifs with hidden
    · simp only [numbered, printable_cons, printable_nil, and_true]
      exact ⟨by decide, by decide, digit _ (by omega), digit _ (by omega), digit _ (by omega),
        digit _ (by omega)⟩
    · simp only [not_or, isHigh, isLow, decide_eq_true_eq] at hidden
      rw [printable_cons, toNat_ofNat (show _ ∨ _ by omega)]
      exact ⟨by omega, printable_nil⟩

theorem quoted_printable (units : List UInt16) : Printable (quoted units) := by
  induction units using quoted.induct with
  | case1 => exact printable_nil
  | case2 u => exact escapeUnit_printable u
  | case3 u w l pair ih =>
    have first : 0xD800 ≤ u.toNat ∧ u.toNat ≤ 0xDBFF := by simpa [isHigh] using pair.1
    have second : 0xDC00 ≤ w.toNat ∧ w.toNat ≤ 0xDFFF := by simpa [isLow] using pair.2
    rw [quoted, if_pos pair, printable_cons, paired, toNat_ofNat (show _ ∨ _ by omega)]
    exact ⟨by omega, ih⟩
  | case4 u w l single ih =>
    rw [quoted, if_neg single]
    exact printable_append.mpr ⟨escapeUnit_printable u, ih⟩

theorem literal_printable (units : List UInt16) : Printable (literal units) := by
  have mark : 0x20 ≤ quoteMark.toNat := by decide
  simp [literal, quoted_printable, mark]

theorem further_printable {l : List (List Char)} (items : ∀ t ∈ l, Printable t) :
    Printable (further l) := by
  induction l with
  | nil => exact printable_nil
  | cons t l ih =>
    obtain ⟨first, rest⟩ := List.forall_mem_cons.mp items
    simp [further, first, ih rest]

theorem joined_printable {l : List (List Char)} (items : ∀ t ∈ l, Printable t) :
    Printable (joined l) := by
  cases l with
  | nil => exact printable_nil
  | cons t l =>
    obtain ⟨first, rest⟩ := List.forall_mem_cons.mp items
    exact printable_append.mpr ⟨first, further_printable rest⟩

theorem elementTexts_eq (l : List (Json ν)) :
    elementTexts F l = l.map fun v => v.stringify F := by
  induction l with
  | nil => rfl
  | cons v l ih => rw [elementTexts, ih, List.map_cons]

theorem memberTexts_eq (ps : List (List UInt16 × Json ν)) :
    memberTexts F ps = ps.map fun p => literal p.1 ++ ':' :: p.2.stringify F := by
  induction ps with
  | nil => rfl
  | cons p ps ih => rw [memberTexts, ih, List.map_cons]

/-- Neither a line feed nor a carriage return occurs in the text of a
value. -/
theorem stringify_printable (v : Json ν) : Printable (v.stringify F) := by
  induction v using induct with
  | null => exact (by decide : Printable "null".toList)
  | bool b =>
    cases b with
    | false => exact (by decide : Printable "false".toList)
    | true => exact (by decide : Printable "true".toList)
  | number n => exact fun c inside => isNumberChar_printable (F.text_chars n c inside)
  | string s => exact literal_printable s
  | array l ih =>
    have items : Printable (joined (elementTexts F l)) := by
      refine joined_printable ?_
      rw [elementTexts_eq, List.forall_mem_map]
      exact ih
    simp [stringify, items]
  | object ps ih =>
    have items : Printable (joined (memberTexts F ps)) := by
      refine joined_printable ?_
      rw [memberTexts_eq, List.forall_mem_map]
      intro p inside
      simp [literal_printable, ih p inside]
    simp [stringify, items]

end RoundTrip

/-! ### Texts as code units -/

/-- The code units of a text. -/
def unitsOfText (t : List Char) : List UInt16 := t.flatMap unitsOf

/-- The character of a code unit without a partner. -/
def charOfUnit (u : UInt16) : Char :=
  if isHigh u ∨ isLow u then Char.ofNat 0xFFFD else Char.ofNat u.toNat

/-- The text of some code units, as it is written to a file. -/
def textOfUnits : List UInt16 → List Char
  | [] => []
  | [u] => [charOfUnit u]
  | u :: w :: rest =>
      if isHigh u ∧ isLow w then paired u w :: textOfUnits rest
      else charOfUnit u :: textOfUnits (w :: rest)

theorem textOfUnits_cons {u : UInt16} (high : ¬isHigh u) (low : ¬isLow u) (rest : List UInt16) :
    textOfUnits (u :: rest) = Char.ofNat u.toNat :: textOfUnits rest := by
  have char : charOfUnit u = Char.ofNat u.toNat := if_neg (not_or.mpr ⟨high, low⟩)
  cases rest with
  | nil => exact congrArg (· :: []) char
  | cons w rest => rw [textOfUnits, if_neg fun both => high both.1, char]

/-- The code units of a character are its own, whatever follows. -/
theorem textOfUnits_unitsOf (c : Char) (rest : List UInt16) :
    textOfUnits (unitsOf c ++ rest) = c :: textOfUnits rest := by
  have valid := Utf16.toNat_not_surrogate c
  rw [unitsOf, Utf16.unitsOf]
  split
  next small =>
    have value : (UInt16.ofNat c.toNat).toNat = c.toNat := UInt16.toNat_ofNat_of_lt' small
    rw [List.map_singleton, List.singleton_append, textOfUnits_cons, value, Char.ofNat_toNat]
    · simp only [isHigh, value, decide_eq_true_eq]
      omega
    · simp only [isLow, value, decide_eq_true_eq]
      omega
  next large =>
    have first : (UInt16.ofNat (0xD800 + (c.toNat - 0x10000) / 0x400)).toNat =
        0xD800 + (c.toNat - 0x10000) / 0x400 :=
      UInt16.toNat_ofNat_of_lt' (show _ < 0x10000 by omega)
    have second : (UInt16.ofNat (0xDC00 + (c.toNat - 0x10000) % 0x400)).toNat =
        0xDC00 + (c.toNat - 0x10000) % 0x400 :=
      UInt16.toNat_ofNat_of_lt' (show _ < 0x10000 by omega)
    have high : isHigh (UInt16.ofNat (0xD800 + (c.toNat - 0x10000) / 0x400)) := by
      simp only [isHigh, first, decide_eq_true_eq]
      omega
    have low : isLow (UInt16.ofNat (0xDC00 + (c.toNat - 0x10000) % 0x400)) := by
      simp only [isLow, second, decide_eq_true_eq]
      omega
    have char : paired (UInt16.ofNat (0xD800 + (c.toNat - 0x10000) / 0x400))
        (UInt16.ofNat (0xDC00 + (c.toNat - 0x10000) % 0x400)) = c := by
      rw [paired, first, second]
      have whole : 0x10000 + (0xD800 + (c.toNat - 0x10000) / 0x400 - 0xD800) * 0x400 +
          (0xDC00 + (c.toNat - 0x10000) % 0x400 - 0xDC00) = c.toNat := by omega
      rw [whole, Char.ofNat_toNat]
    rw [List.map_cons, List.map_singleton, List.cons_append, List.singleton_append, textOfUnits,
      if_pos ⟨high, low⟩, char]

theorem textOfUnits_unitsOfText (t : List Char) : textOfUnits (unitsOfText t) = t := by
  induction t with
  | nil => rfl
  | cons c t ih =>
    rw [unitsOfText, List.flatMap_cons, textOfUnits_unitsOf]
    exact congrArg (c :: ·) ih

end Json

end Library
