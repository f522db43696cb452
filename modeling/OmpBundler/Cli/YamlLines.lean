import Mathlib.Data.List.Chain
import OmpBundler.Cli.YamlText

/-!
What is read in one line.

A scanner passes a text piece by piece. Inside of double quotes it stays
until they are closed; outside of them it stops at a comment, or at the colon
behind a key.
-/

namespace OmpBundler.Cli

open Library

/-! ### Blanks around a text -/

/-- A text with no blanks around it. -/
structure Trimmed (t : List Char) : Prop where
  filled : t ≠ []
  starts : ∀ c ∈ t.head?, JsString.isSpace c = false
  ends : ∀ c ∈ t.getLast?, JsString.isSpace c = false

theorem dropWhile_of_head {t : List Char} (starts : ∀ c ∈ t.head?, JsString.isSpace c = false) :
    t.dropWhile JsString.isSpace = t := by
  cases t with
  | nil => rfl
  | cons c rest => exact List.dropWhile_cons_of_neg (by simp [starts c rfl])

theorem isSpace_of_mem_spaces {n : ℕ} {c : Char} (mem : c ∈ spaces n) :
    JsString.isSpace c = true := by
  rw [List.eq_of_mem_replicate mem]
  decide

/-- Blanks in front of a text are not part of it. -/
theorem trimStart_spaces {t : List Char} (starts : ∀ c ∈ t.head?, JsString.isSpace c = false)
    (n : ℕ) : trimStart (spaces n ++ t) = t := by
  rw [trimStart, List.dropWhile_append_of_pos fun c mem => isSpace_of_mem_spaces mem,
    dropWhile_of_head starts]

namespace Trimmed

variable {t : List Char}

theorem head_reverse (trimmed : Trimmed t) (before : List Char) :
    ∀ c ∈ (before ++ t).reverse.head?, JsString.isSpace c = false := by
  intro c last
  rw [List.head?_reverse, List.getLast?_append_of_ne_nil _ trimmed.filled] at last
  exact trimmed.ends c last

theorem trimEnd_append (trimmed : Trimmed t) (before : List Char) :
    trimEnd (before ++ t) = before ++ t := by
  rw [trimEnd, dropWhile_of_head (trimmed.head_reverse before), List.reverse_reverse]

theorem trim_spaces (trimmed : Trimmed t) (n : ℕ) : trim (spaces n ++ t) = t := by
  have start : (spaces n ++ t).dropWhile JsString.isSpace = t :=
    trimStart_spaces trimmed.starts n
  rw [trim, JsString.trimChars, start]
  exact trimmed.trimEnd_append []

theorem trim_eq (trimmed : Trimmed t) : trim t = t := trimmed.trim_spaces 0

end Trimmed

/-! ### Passing a text -/

/-- The scanner is inside of quotes at each character of the text. -/
def Quoting.Inside : Quoting → List Char → Prop
  | _, [] => True
  | s, c :: rest => s.quote ≠ .none ∧ (s.next c).Inside rest

/-- The state behind a text. -/
def Quoting.pass (s : Quoting) (t : List Char) : Quoting := t.foldl Quoting.next s

theorem stripCommentFrom_inside {s : Quoting} {t : List Char} (inside : s.Inside t)
    (before rest : List Char) :
    stripCommentFrom s before (t ++ rest) =
      stripCommentFrom (s.pass t) (t.reverse ++ before) rest := by
  induction t generalizing s before with
  | nil => rfl
  | cons c t ih =>
    rw [List.cons_append, stripCommentFrom, if_neg fun comment => inside.1 comment.1, ih inside.2,
      List.reverse_cons, List.append_assoc]
    rfl

theorem findColon_inside {s : Quoting} {t : List Char} (inside : s.Inside t)
    (before rest : List Char) :
    findColon s before (t ++ rest) = findColon (s.pass t) (t.reverse ++ before) rest := by
  induction t generalizing s before with
  | nil => rfl
  | cons c t ih =>
    rw [List.cons_append, findColon, if_neg fun colon => inside.1 colon.1, ih inside.2,
      List.reverse_cons, List.append_assoc]
    rfl

/-- Inside of double quotes. -/
def Quoting.double : Quoting := ⟨some '"', false⟩

theorem Quoting.inside_append {s : Quoting} {t t' : List Char} (first : s.Inside t)
    (second : (s.pass t).Inside t') : s.Inside (t ++ t') := by
  induction t generalizing s with
  | nil => exact second
  | cons c t ih => exact ⟨first.1, ih first.2 second⟩

theorem Quoting.pass_append (s : Quoting) (t t' : List Char) :
    s.pass (t ++ t') = (s.pass t).pass t' := List.foldl_append

/-- A character that is neither a quote nor a backslash changes nothing, and
inside of double quotes the other quote does not either. -/
theorem Quoting.next_double {c : Char} (noQuote : c ≠ '"') (noBackslash : c ≠ '\\') :
    Quoting.double.next c = .double := by
  rw [Quoting.next, if_neg (by simp [double]), if_neg fun both => noBackslash both.2]
  by_cases single : c = '\''
  · subst single
    rfl
  · rw [if_neg (not_or.mpr ⟨single, noQuote⟩)]

/-- An escape is passed. -/
theorem Quoting.inside_escape (c : Char) :
    Quoting.double.Inside ['\\', c] ∧ Quoting.double.pass ['\\', c] = .double :=
  ⟨⟨nofun, nofun, trivial⟩, rfl⟩

/-- The text between two double quotes, or a piece of it. -/
def Enclosed (t : List Char) : Prop := Quoting.double.Inside t ∧ Quoting.double.pass t = .double

theorem Enclosed.append {t t' : List Char} (first : Enclosed t) (second : Enclosed t') :
    Enclosed (t ++ t') :=
  ⟨Quoting.inside_append first.1 (by rw [first.2]; exact second.1),
    by rw [Quoting.pass_append, first.2, second.2]⟩

theorem enclosed_nil : Enclosed [] := ⟨trivial, rfl⟩

theorem enclosed_char {c : Char} (noQuote : c ≠ '"') (noBackslash : c ≠ '\\') : Enclosed [c] :=
  ⟨⟨nofun, trivial⟩, Quoting.next_double noQuote noBackslash⟩

theorem enclosed_escapeUnit (u : UInt16) : Enclosed (Json.escapeUnit u) := by
  have digit : ∀ n < 16, Enclosed [JsValue.hexDigit n] := by
    intro n small
    have listed : ∀ n < 16, JsValue.hexDigit n ≠ '"' ∧ JsValue.hexDigit n ≠ '\\' := by decide
    exact enclosed_char (listed n small).1 (listed n small).2
  have small : u.toNat < 65536 := u.toNat_lt
  unfold Json.escapeUnit
  by_cases special : Char.ofNat u.toNat = JsValue.quoteMark ∨ Char.ofNat u.toNat = JsValue.backslash
  · rw [if_pos special]
    exact Quoting.inside_escape _
  rw [if_neg special]
  cases JsValue.letters.find? fun p => decide (p.1.toNat = u.toNat) with
  | some p => exact Quoting.inside_escape p.2
  | none =>
    show Enclosed (if _ then _ else _)
    split_ifs
    · have mark : Enclosed ['\\', 'u'] := Quoting.inside_escape 'u'
      exact mark.append <| (digit _ (by omega)).append <| (digit _ (by omega)).append <|
        (digit _ (by omega)).append (digit _ (by omega))
    · exact enclosed_char (not_or.mp special).1 (not_or.mp special).2

theorem enclosed_quoted (units : List UInt16) : Enclosed (Json.quoted units) := by
  induction units using Json.quoted.induct with
  | case1 => exact enclosed_nil
  | case2 u => exact enclosed_escapeUnit u
  | case3 u w l pair ih =>
    have other : ∀ c : Char, c.toNat < 0x10000 → Json.paired u w ≠ c := by
      have first : 0xD800 ≤ u.toNat ∧ u.toNat ≤ 0xDBFF := by simpa [Json.isHigh] using pair.1
      have second : 0xDC00 ≤ w.toNat ∧ w.toNat ≤ 0xDFFF := by simpa [Json.isLow] using pair.2
      intro c small same
      rw [← same, Json.paired, Json.toNat_ofNat (show _ ∨ _ by omega)] at small
      omega
    rw [Json.quoted, if_pos pair]
    exact (enclosed_char (other _ (by decide)) (other _ (by decide))).append ih
  | case4 u w l single ih =>
    rw [Json.quoted, if_neg single]
    exact (enclosed_escapeUnit u).append ih

theorem literal_eq (units : List UInt16) :
    Json.literal units = '"' :: (Json.quoted units ++ ['"']) := rfl

theorem stripCommentFrom_literal (before : List Char) (units : List UInt16) :
    stripCommentFrom .none before (Json.literal units) = before.reverse ++ Json.literal units := by
  have noComment : ¬(Quoting.none.quote = .none ∧ '"' = '#' ∧ isBlankAt before) :=
    fun comment => absurd comment.2.1 (by decide)
  rw [literal_eq, stripCommentFrom, if_neg noComment]
  show stripCommentFrom .double ('"' :: before) _ = _
  rw [stripCommentFrom_inside (enclosed_quoted units).1, (enclosed_quoted units).2]
  simp [stripCommentFrom, Quoting.double]

theorem findColon_literal (before : List Char) (units : List UInt16) :
    findColon .none before (Json.literal units) = none := by
  have noColon : ¬(Quoting.none.quote = .none ∧ '"' = ':' ∧
      isBlankAt (Json.quoted units ++ ['"'])) := fun colon => absurd colon.2.1 (by decide)
  rw [literal_eq, findColon, if_neg noColon]
  show findColon .double ('"' :: before) _ = _
  rw [findColon_inside (enclosed_quoted units).1, (enclosed_quoted units).2]
  simp [findColon, Quoting.double]

theorem trimmed_literal (units : List UInt16) : Trimmed (Json.literal units) where
  filled := by simp [literal_eq]
  starts c first := by
    obtain rfl : '"' = c := by simpa [literal_eq] using first
    decide
  ends c last := by
    obtain rfl : '"' = c := by
      rw [literal_eq, ← List.cons_append, List.getLast?_concat] at last
      exact Option.some.inj last
    decide

/-! ### Outside of quotes -/

/-- Without quotes. -/
def Bare (t : List Char) : Prop := ∀ c ∈ t, c ≠ '\'' ∧ c ≠ '"'

theorem Quoting.next_bare {c : Char} (bare : c ≠ '\'' ∧ c ≠ '"') : Quoting.none.next c = .none := by
  rw [Quoting.next, if_neg (by simp [none]), if_neg (by simp [none]),
    if_neg (not_or.mpr ⟨bare.1, bare.2⟩)]

/-- No `#` behind a blank. -/
def Uncommented (t : List Char) : Prop := t.IsChain fun b c => JsString.isSpace b → c ≠ '#'

/-- No colon in front of a blank. -/
def Unsplit (t : List Char) : Prop := t.IsChain fun b c => b = ':' → ¬JsString.isSpace c

theorem stripCommentFrom_bare {t : List Char} (bare : Bare t) (uncommented : Uncommented t)
    (before rest : List Char) (first : isBlankAt before = true → t.head? ≠ some '#') :
    stripCommentFrom .none before (t ++ rest) =
      stripCommentFrom .none (t.reverse ++ before) rest := by
  induction t generalizing before with
  | nil => rfl
  | cons c t ih =>
    obtain ⟨plain, bare⟩ := List.forall_mem_cons.mp bare
    obtain ⟨further, uncommented⟩ := List.isChain_cons.mp uncommented
    have noComment : ¬(Quoting.none.quote = .none ∧ c = '#' ∧ isBlankAt before) := by
      rintro ⟨-, rfl, blank⟩
      exact first blank rfl
    rw [List.cons_append, stripCommentFrom, if_neg noComment, Quoting.next_bare plain,
      ih bare uncommented, List.reverse_cons, List.append_assoc, List.singleton_append]
    intro blank head
    exact further '#' head blank rfl

theorem findColon_bare {t : List Char} (bare : Bare t) (unsplit : Unsplit t)
    (before : List Char) {rest : List Char} (blank : isBlankAt rest = true) :
    findColon .none before (t ++ ':' :: rest) = some (before.reverse ++ t, rest) := by
  induction t generalizing before with
  | nil => rw [List.nil_append, findColon, if_pos ⟨rfl, rfl, blank⟩, List.append_nil]
  | cons c t ih =>
    obtain ⟨plain, bare⟩ := List.forall_mem_cons.mp bare
    obtain ⟨further, unsplit⟩ := List.isChain_cons.mp unsplit
    have noColon : ¬(Quoting.none.quote = .none ∧ c = ':' ∧ isBlankAt (t ++ ':' :: rest)) := by
      rintro ⟨-, rfl, blank⟩
      cases t with
      | nil => exact absurd (show JsString.isSpace ':' = true from blank) (by decide)
      | cons d t => exact further d rfl rfl blank
    rw [List.cons_append, findColon, if_neg noColon, Quoting.next_bare plain, ih bare unsplit,
      List.reverse_cons, List.append_assoc, List.singleton_append]

theorem findColon_bare_none {t : List Char} (bare : Bare t) (unsplit : Unsplit t)
    (last : t.getLast? ≠ some ':') (before : List Char) : findColon .none before t = none := by
  induction t generalizing before with
  | nil => rfl
  | cons c t ih =>
    obtain ⟨plain, bare⟩ := List.forall_mem_cons.mp bare
    obtain ⟨further, unsplit⟩ := List.isChain_cons.mp unsplit
    have noColon : ¬(Quoting.none.quote = .none ∧ c = ':' ∧ isBlankAt t) := by
      rintro ⟨-, rfl, blank⟩
      cases t with
      | nil => exact last rfl
      | cons d t => exact further d rfl rfl blank
    rw [findColon, if_neg noColon, Quoting.next_bare plain]
    refine ih bare unsplit ?_ _
    cases t with
    | nil => exact (by decide : ([] : List Char).getLast? ≠ some ':')
    | cons d t => rwa [List.getLast?_cons_cons] at last

/-! ### Lines that are read as they stand -/

/-- A text that is all of its line, but for the blanks in front of it. -/
structure Legible (t : List Char) : Prop extends Trimmed t where
  printable : Json.Printable t
  quiet : ∀ before, isBlankAt before = true →
    stripCommentFrom .none before t = before.reverse ++ t

theorem isBlankAt_space (before : List Char) : isBlankAt (' ' :: before) = true :=
  (by decide : JsString.isSpace ' ' = true)

theorem isBlankAt_spaces (n : ℕ) : isBlankAt (spaces n).reverse = true := by
  rw [spaces, List.reverse_replicate]
  cases n with
  | zero => rfl
  | succ n => exact isBlankAt_space _

theorem stripComment_spaces {t : List Char} (legible : Legible t) (n : ℕ) :
    stripComment (spaces n ++ t) = spaces n ++ t := by
  have bare : Bare (spaces n) := by
    intro c mem
    rw [List.eq_of_mem_replicate mem]
    decide
  have noHash : ∀ c ∈ spaces n, c ≠ '#' := by
    intro c mem
    rw [List.eq_of_mem_replicate mem]
    decide
  have uncommented : Uncommented (spaces n) := List.isChain_replicate_of_rel n (by decide)
  rw [stripComment, stripCommentFrom_bare bare uncommented, List.append_nil,
    legible.quiet _ (isBlankAt_spaces n), List.reverse_reverse]
  intro _ head
  exact noHash _ (List.mem_of_mem_head? head) rfl

/-- A line with such a text is read. -/
theorem Legible.readLine {t : List Char} (legible : Legible t) (noStart : t ≠ "---".toList)
    (noEnd : t ≠ "...".toList) (number indent : ℕ) :
    readLine number (spaces indent ++ t) = .ok (some ⟨number, indent, t⟩) := by
  have noTab : '\t' ∉ spaces indent ++ t := by
    intro mem
    rcases List.mem_append.mp mem with blank | inside
    · exact absurd (List.eq_of_mem_replicate blank) (by decide)
    · exact absurd (legible.printable _ inside) (by decide)
  have text : trimEnd (stripComment (spaces indent ++ t)) = spaces indent ++ t := by
    rw [stripComment_spaces legible, legible.trimEnd_append]
  have width : (spaces indent).length = indent := List.length_replicate
  have filled : ¬(t = [] ∨ t = "---".toList ∨ t = "...".toList) :=
    not_or.mpr ⟨legible.filled, not_or.mpr ⟨noStart, noEnd⟩⟩
  rw [Cli.readLine, if_neg noTab]
  simp only [text, legible.trim_spaces, if_neg filled, trimStart_spaces legible.starts,
    List.length_append, width, Nat.add_sub_cancel, List.drop_left' width]

/-- A hyphen and a text behind it. -/
def dashed (t : List Char) : List Char := '-' :: ' ' :: t

theorem legible_dash : Legible ['-'] where
  filled := List.cons_ne_nil _ _
  starts := by simp; decide
  ends := by simp; decide
  printable := by decide
  quiet before _ := by simp [stripCommentFrom]

theorem Legible.dashed {t : List Char} (legible : Legible t) : Legible (dashed t) where
  filled := List.cons_ne_nil _ _
  starts := by simp [Cli.dashed]; decide
  ends c last := by
    refine legible.ends c ?_
    rwa [Cli.dashed, List.getLast?_cons_cons, List.getLast?_cons_of_ne_nil legible.filled] at last
  printable := by
    rw [Cli.dashed, Json.printable_cons, Json.printable_cons]
    exact ⟨by decide, by decide, legible.printable⟩
  quiet before blank := by
    have bare : Bare ['-', ' '] := by
      simp only [Bare, List.forall_mem_cons]
      exact ⟨by decide, by decide, List.forall_mem_nil _⟩
    have uncommented : Uncommented ['-', ' '] := List.isChain_pair.mpr (by decide)
    show stripCommentFrom .none before (['-', ' '] ++ t) = _
    rw [stripCommentFrom_bare bare uncommented _ _ (by simp),
      legible.quiet (['-', ' '].reverse ++ before) (isBlankAt_space _)]
    simp [Cli.dashed]

/-- What may stand in front of a colon without quotes. -/
structure IsKey (k : List Char) : Prop extends Trimmed k where
  bare : Bare k
  printable : Json.Printable k
  uncommented : Uncommented k
  noComment : k.head? ≠ some '#'
  unsplit : Unsplit k
  notItem : k.take 2 ≠ ['-', ' ']
  own : k ∉ inheritedNames
  /-- Names that are numbers would be moved to the front. -/
  noIndex : k.all Char.isDigit = false

/-- The text that a key and a text behind it make. -/
def keyed (k t : List Char) : List Char := k ++ ':' :: t

theorem IsKey.quiet {k : List Char} (key : IsKey k) (before t : List Char) :
    stripCommentFrom .none before (keyed k t) =
      stripCommentFrom .none (':' :: (k.reverse ++ before)) t := by
  rw [keyed, stripCommentFrom_bare key.bare key.uncommented _ _ fun _ => key.noComment,
    stripCommentFrom, if_neg (by simp), Quoting.next_bare (by decide)]

theorem IsKey.head_keyed {k : List Char} (key : IsKey k) (t : List Char) :
    ∀ c ∈ (keyed k t).head?, JsString.isSpace c = false := by
  intro c first
  rw [keyed, List.head?_append_of_ne_nil _ key.filled] at first
  exact key.starts c first

/-- The line of a key whose value follows. -/
theorem IsKey.legible {k : List Char} (key : IsKey k) : Legible (keyed k []) where
  filled := by simp [keyed]
  starts := key.head_keyed []
  ends := by simp [keyed]; decide
  printable := by
    rw [keyed, Json.printable_append, Json.printable_cons]
    exact ⟨key.printable, by decide, Json.printable_nil⟩
  quiet before _ := by
    rw [key.quiet, stripCommentFrom]
    simp [keyed]

/-- The line of a key and its value. -/
theorem IsKey.legible_pair {k t : List Char} (key : IsKey k) (legible : Legible t) :
    Legible (keyed k (' ' :: t)) where
  filled := by simp [keyed]
  starts := key.head_keyed _
  ends c last := by
    refine legible.ends c ?_
    rwa [keyed, List.getLast?_append_of_ne_nil _ (List.cons_ne_nil _ _), List.getLast?_cons_cons,
      List.getLast?_cons_of_ne_nil legible.filled] at last
  printable := by
    rw [keyed, Json.printable_append, Json.printable_cons, Json.printable_cons]
    exact ⟨key.printable, by decide, by decide, legible.printable⟩
  quiet before _ := by
    rw [key.quiet, stripCommentFrom, if_neg (by simp), Quoting.next_bare (by decide),
      legible.quiet _ (isBlankAt_space _)]
    simp [keyed]

/-! ### Scalars -/

/-- No blank, no quote, no `#` and no control character. -/
def isSolid (c : Char) : Bool :=
  !JsString.isSpace c && decide (0x20 ≤ c.toNat) && decide (c ∉ ['\'', '"', '#'])

/-- A text of such characters. -/
structure Solid (t : List Char) : Prop where
  filled : t ≠ []
  each : ∀ c ∈ t, isSolid c = true

theorem isSolid_iff {c : Char} : isSolid c = true ↔
    JsString.isSpace c = false ∧ 0x20 ≤ c.toNat ∧ c ≠ '\'' ∧ c ≠ '"' ∧ c ≠ '#' := by
  simp [isSolid, and_assoc]

namespace Solid

variable {t : List Char}

theorem trimmed (solid : Solid t) : Trimmed t where
  filled := solid.filled
  starts c first := (isSolid_iff.mp (solid.each c (List.mem_of_mem_head? first))).1
  ends c last := (isSolid_iff.mp (solid.each c (List.mem_of_mem_getLast? last))).1

theorem bare (solid : Solid t) : Bare t := fun c mem =>
  have all := isSolid_iff.mp (solid.each c mem)
  ⟨all.2.2.1, all.2.2.2.1⟩

theorem noHash (solid : Solid t) : ∀ c ∈ t, c ≠ '#' := fun c mem =>
  (isSolid_iff.mp (solid.each c mem)).2.2.2.2

theorem uncommented (solid : Solid t) : Uncommented t := by
  refine List.Pairwise.isChain (List.pairwise_of_forall_mem_list ?_)
  intro b _ c mem _
  exact solid.noHash c mem

theorem unsplit (solid : Solid t) : Unsplit t := by
  refine List.Pairwise.isChain (List.pairwise_of_forall_mem_list ?_)
  intro b _ c mem _
  exact Bool.eq_false_iff.mp (isSolid_iff.mp (solid.each c mem)).1

theorem legible (solid : Solid t) : Legible t where
  toTrimmed := solid.trimmed
  printable c mem := (isSolid_iff.mp (solid.each c mem)).2.1
  quiet before _ := by
    have passed := stripCommentFrom_bare solid.bare solid.uncommented before []
      fun _ head => solid.noHash _ (List.mem_of_mem_head? head) rfl
    rw [List.append_nil] at passed
    rw [passed, stripCommentFrom, List.reverse_append, List.reverse_reverse]

end Solid

end OmpBundler.Cli
