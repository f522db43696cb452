import Mathlib.Data.List.Basic
import Mathlib.Data.List.Infix
import Mathlib.Tactic.Common

/-!
The lines of a text.

A line ends with a newline, or with a carriage return and a newline. What is
written with one of the two endings is read back, unless the ending is the
newline and a line ends with a carriage return of its own.
-/

namespace Library.Lines

/-- A line, without its ending. -/
abbrev Line := List Char

def EndsCr (l : Line) : Prop := l.getLast? = some '\r'

instance (l : Line) : Decidable (EndsCr l) := inferInstanceAs (Decidable (_ = _))

/-- A line without the carriage return that it ends with. -/
def chomp (l : Line) : Line := if EndsCr l then l.dropLast else l

/-- `split(/\r?\n/)`: a carriage return in front of a newline goes with it. -/
def splitLines : List Char → List Line
  | [] => [[]]
  | c :: rest =>
      if c = '\n' then [] :: splitLines rest
      else if c = '\r' ∧ rest.head? = some '\n' then splitLines rest
      else
        match splitLines rest with
        | [] => [[c]]
        | l :: ls => (c :: l) :: ls

/-- The lines of a text, where the ending of the last one begins no other. -/
def linesOf (text : List Char) : List Line :=
  if (splitLines text).getLast? = some [] then (splitLines text).dropLast else splitLines text

/-- The text of some lines, each with the ending. -/
def unlines (eol : List Char) (ls : List Line) : List Char := ls.flatMap (· ++ eol)

def lf : List Char := ['\n']

def crlf : List Char := ['\r', '\n']

/-- `includes("\r\n")`. -/
def hasCrlf (text : List Char) : Bool := decide (crlf <:+: text)

example : linesOf ['a', '\r', '\n', 'b'] = [['a'], ['b']] := by simp [linesOf, splitLines]

/-! ### Splitting -/

theorem splitLines_ne_nil (text : List Char) : splitLines text ≠ [] := by
  induction text with
  | nil => simp [splitLines]
  | cons c rest ih =>
      rw [splitLines]
      split_ifs
      · simp
      · exact ih
      · split <;> simp

theorem splitLines_cons {c : Char} {rest : List Char} (noNewline : c ≠ '\n')
    (noEnding : ¬(c = '\r' ∧ rest.head? = some '\n')) {l : Line} {ls : List Line}
    (split : splitLines rest = l :: ls) : splitLines (c :: rest) = (c :: l) :: ls := by
  rw [splitLines, if_neg noNewline, if_neg noEnding, split]

/-- A line is split off. -/
theorem splitLines_line {l : Line} (noNewline : '\n' ∉ l) (rest : List Char) :
    splitLines (l ++ '\n' :: rest) = chomp l :: splitLines rest := by
  induction l with
  | nil => rw [List.nil_append, splitLines, if_pos rfl]; rfl
  | cons c l ih =>
      rw [List.mem_cons, not_or] at noNewline
      specialize ih noNewline.2
      cases l with
      | nil =>
          rw [List.singleton_append]
          by_cases cr : c = '\r'
          · subst cr
            rw [splitLines, if_neg (by decide), if_pos ⟨rfl, rfl⟩]
            exact ih
          · have plain : chomp [c] = [c] := if_neg (by simpa [EndsCr] using cr)
            rw [plain]
            exact splitLines_cons (Ne.symm noNewline.1) (fun both => cr both.1) ih
      | cons d l =>
          have other : ¬(c = '\r' ∧ (d :: l ++ '\n' :: rest).head? = some '\n') := by
            rintro ⟨-, first⟩
            cases first
            exact noNewline.2 List.mem_cons_self
          have same : chomp (c :: d :: l) = c :: chomp (d :: l) := by
            simp only [chomp, EndsCr, List.getLast?_cons_cons, List.dropLast_cons_cons]
            exact apply_ite (c :: ·) _ _ _ |>.symm
          rw [List.cons_append, splitLines_cons (Ne.symm noNewline.1) other ih, same]

theorem splitLines_last {l : Line} (noNewline : '\n' ∉ l) : splitLines l = [l] := by
  induction l with
  | nil => rfl
  | cons c l ih =>
      rw [List.mem_cons, not_or] at noNewline
      refine splitLines_cons (Ne.symm noNewline.1) ?_ (ih noNewline.2)
      rintro ⟨-, first⟩
      exact noNewline.2 (List.mem_of_head? first)

theorem newline_notMem_splitLines (text : List Char) : ∀ l ∈ splitLines text, '\n' ∉ l := by
  induction text with
  | nil => simp [splitLines]
  | cons c rest ih =>
      rw [splitLines]
      split_ifs with newline ending
      · exact List.forall_mem_cons.mpr ⟨List.not_mem_nil, ih⟩
      · exact ih
      · obtain ⟨l, ls, split⟩ := List.exists_cons_of_ne_nil (splitLines_ne_nil rest)
        rw [split] at ih ⊢
        obtain ⟨first, others⟩ := List.forall_mem_cons.mp ih
        exact List.forall_mem_cons.mpr
          ⟨List.not_mem_cons_of_ne_of_not_mem (Ne.symm newline) first, others⟩

theorem newline_notMem_linesOf (text : List Char) : ∀ l ∈ linesOf text, '\n' ∉ l := by
  intro l listed
  rw [linesOf] at listed
  split_ifs at listed
  · exact newline_notMem_splitLines text l (List.mem_of_mem_dropLast listed)
  · exact newline_notMem_splitLines text l listed

/-! ### Texts that are written line by line -/

theorem unlines_crlf (ls : List Line) : unlines crlf ls = unlines lf (ls.map (· ++ ['\r'])) := by
  simp [unlines, crlf, lf, List.flatMap_map]

theorem unlines_cons (l : Line) (ls : List Line) :
    unlines lf (l :: ls) = l ++ '\n' :: unlines lf ls := by
  simp [unlines, lf]

/-- The lines of a text, and what stands behind the last newline. -/
theorem splitLines_unlines {ls : List Line} {tail : Line} (noNewline : ∀ l ∈ ls, '\n' ∉ l)
    (last : '\n' ∉ tail) : splitLines (unlines lf ls ++ tail) = ls.map chomp ++ [tail] := by
  induction ls with
  | nil => exact splitLines_last last
  | cons l ls ih =>
      obtain ⟨first, others⟩ := List.forall_mem_cons.mp noNewline
      rw [unlines_cons, List.append_assoc, List.cons_append, splitLines_line first, ih others,
        List.map_cons, List.cons_append]

theorem exists_unlines (text : List Char) : ∃ ls tail, text = unlines lf ls ++ tail ∧
    (∀ l ∈ ls, '\n' ∉ l) ∧ '\n' ∉ tail := by
  induction text with
  | nil => exact ⟨[], [], rfl, nofun, List.not_mem_nil⟩
  | cons c text ih =>
      obtain ⟨ls, tail, rfl, noNewline, last⟩ := ih
      by_cases newline : c = '\n'
      · subst newline
        exact ⟨[] :: ls, tail, rfl, List.forall_mem_cons.mpr ⟨List.not_mem_nil, noNewline⟩, last⟩
      cases ls with
      | nil =>
          exact ⟨[], c :: tail, rfl, nofun,
            List.not_mem_cons_of_ne_of_not_mem (Ne.symm newline) last⟩
      | cons l ls =>
          obtain ⟨first, others⟩ := List.forall_mem_cons.mp noNewline
          refine ⟨(c :: l) :: ls, tail, rfl, List.forall_mem_cons.mpr ⟨?_, others⟩, last⟩
          exact List.not_mem_cons_of_ne_of_not_mem (Ne.symm newline) first

theorem linesOf_unlines_lf {ls : List Line} (noNewline : ∀ l ∈ ls, '\n' ∉ l) :
    linesOf (unlines lf ls) = ls.map chomp := by
  have split := @splitLines_unlines ls [] noNewline List.not_mem_nil
  rw [List.append_nil] at split
  rw [linesOf, split]
  simp

theorem chomp_append_cr (l : Line) : chomp (l ++ ['\r']) = l := by
  rw [chomp, if_pos (by simp [EndsCr]), List.dropLast_concat]

theorem chomp_of_not_endsCr {l : Line} (plain : ¬EndsCr l) : chomp l = l := if_neg plain

theorem map_chomp {ls : List Line} (plain : ∀ l ∈ ls, ¬EndsCr l) : ls.map chomp = ls :=
  (List.map_congr_left fun l listed => chomp_of_not_endsCr (plain l listed)).trans
    (List.map_id ls)

/-- Lines that may be written with the ending. -/
def Writable (eol : List Char) (ls : List Line) : Prop :=
  (∀ l ∈ ls, '\n' ∉ l) ∧ (eol = lf ∧ (∀ l ∈ ls, ¬EndsCr l) ∨ eol = crlf)

/-- Some of the lines and others that have no line ending may be written. -/
theorem Writable.extend {eol : List Char} {ls ms : List Line} (writable : Writable eol ls)
    (each : ∀ m ∈ ms, m ∈ ls ∨ '\n' ∉ m ∧ ¬EndsCr m) : Writable eol ms := by
  obtain ⟨noNewline, ending⟩ := writable
  refine ⟨fun m listed => ?_, ending.imp_left fun short => ⟨short.1, fun m listed => ?_⟩⟩
  · exact (each m listed).elim (noNewline m) And.left
  · exact (each m listed).elim (short.2 m) And.right

/-- Lines are read back. -/
theorem Writable.linesOf_unlines {eol : List Char} {ls : List Line} (writable : Writable eol ls) :
    linesOf (unlines eol ls) = ls := by
  obtain ⟨noNewline, ⟨rfl, plain⟩ | rfl⟩ := writable
  · rw [linesOf_unlines_lf noNewline, map_chomp plain]
  · have noNewline' : ∀ l ∈ ls.map (· ++ ['\r']), '\n' ∉ l := by
      intro l listed
      obtain ⟨m, known, rfl⟩ := List.mem_map.mp listed
      simpa using noNewline m known
    rw [unlines_crlf, linesOf_unlines_lf noNewline', List.map_map]
    exact (List.map_congr_left fun l _ => chomp_append_cr l).trans (List.map_id ls)

theorem line_unique {l m r s : List Char} (left : '\n' ∉ l) (right : '\n' ∉ m)
    (same : l ++ '\n' :: r = m ++ '\n' :: s) : l = m ∧ r = s := by
  induction l generalizing m with
  | nil =>
      cases m with
      | nil => exact ⟨rfl, (List.cons.inj same).2⟩
      | cons d m => exact absurd ((List.cons.inj same).1 ▸ List.mem_cons_self) right
  | cons c l ih =>
      cases m with
      | nil => exact absurd ((List.cons.inj same).1 ▸ List.mem_cons_self) left
      | cons d m =>
          obtain ⟨rfl, same'⟩ := List.cons.inj same
          rw [List.mem_cons, not_or] at left right
          obtain ⟨rfl, rest⟩ := ih left.2 right.2 same'
          exact ⟨rfl, rest⟩

/-- The lines of a text are known from the text. -/
theorem unlines_lf_injective {ls ms : List Line} (left : ∀ l ∈ ls, '\n' ∉ l)
    (right : ∀ l ∈ ms, '\n' ∉ l) (same : unlines lf ls = unlines lf ms) : ls = ms := by
  induction ls generalizing ms with
  | nil =>
      cases ms with
      | nil => rfl
      | cons m ms =>
          rw [unlines_cons] at same
          exact absurd same.symm (by simp [unlines])
  | cons l ls ih =>
      cases ms with
      | nil =>
          rw [unlines_cons] at same
          exact absurd same (by simp [unlines])
      | cons m ms =>
          rw [List.forall_mem_cons] at left right
          rw [unlines_cons, unlines_cons] at same
          obtain ⟨rfl, rest⟩ := line_unique left.1 right.1 same
          rw [ih left.2 right.2 rest]

/-! ### Carriage returns -/

theorem hasCrlf_cons {c : Char} {rest : List Char} : hasCrlf (c :: rest) = true ↔
    (c = '\r' ∧ rest.head? = some '\n') ∨ hasCrlf rest = true := by
  rw [hasCrlf, hasCrlf, decide_eq_true_eq, decide_eq_true_eq, List.infix_cons_iff, crlf,
    List.cons_prefix_cons, eq_comm (a := '\r')]
  refine or_congr (and_congr_right fun _ => ?_) Iff.rfl
  cases rest with
  | nil => simp
  | cons d rest => simp [eq_comm]

theorem hasCrlf_last {l : Line} (noNewline : '\n' ∉ l) : hasCrlf l = false := by
  rw [hasCrlf, decide_eq_false_iff_not]
  exact fun inside => noNewline (inside.subset (by simp [crlf]))

/-- A line with its ending. -/
theorem hasCrlf_line {l : Line} (noNewline : '\n' ∉ l) (rest : List Char) :
    hasCrlf (l ++ '\n' :: rest) = true ↔ EndsCr l ∨ hasCrlf rest = true := by
  induction l with
  | nil =>
      rw [List.nil_append, hasCrlf_cons]
      simp [EndsCr]
  | cons c l ih =>
      rw [List.mem_cons, not_or] at noNewline
      rw [List.cons_append, hasCrlf_cons, ih noNewline.2, ← or_assoc]
      refine or_congr ?_ Iff.rfl
      cases l with
      | nil => simp [EndsCr]
      | cons d l =>
          have other : ¬d = '\n' := fun h => noNewline.2 (h ▸ List.mem_cons_self)
          simp [EndsCr, other, List.getLast?_cons_cons]

theorem hasCrlf_unlines {ls : List Line} {tail : Line} (noNewline : ∀ l ∈ ls, '\n' ∉ l)
    (last : '\n' ∉ tail) :
    hasCrlf (unlines lf ls ++ tail) = true ↔ ∃ l ∈ ls, EndsCr l := by
  induction ls with
  | nil =>
      rw [unlines, List.flatMap_nil, List.nil_append, hasCrlf_last last]
      simp
  | cons l ls ih =>
      obtain ⟨first, others⟩ := List.forall_mem_cons.mp noNewline
      rw [unlines_cons, List.append_assoc, List.cons_append, hasCrlf_line first, ih others]
      simp

/-- Without the longer ending, only the last line may end with a carriage
return. -/
theorem plain_of_not_hasCrlf {text : List Char} (none : hasCrlf text = false) :
    ∀ l ∈ (linesOf text).dropLast, ¬EndsCr l := by
  obtain ⟨ls, tail, rfl, noNewline, last⟩ := exists_unlines text
  have plain : ∀ l ∈ ls, ¬EndsCr l := by
    intro l listed ends
    have some := (hasCrlf_unlines noNewline last).mpr ⟨l, listed, ends⟩
    rw [none] at some
    cases some
  intro l listed
  rw [linesOf, splitLines_unlines noNewline last, map_chomp plain] at listed
  split_ifs at listed
  · rw [List.dropLast_concat] at listed
    exact plain l (List.mem_of_mem_dropLast listed)
  · rw [List.dropLast_concat] at listed
    exact plain l listed

/-- The ending that `detectEol` finds: the longer one, if it occurs. -/
def detectEol (text : List Char) : List Char := if hasCrlf text then crlf else lf

/-- Lines that are written are found to have the ending that they were written
with. -/
theorem Writable.detectEol_unlines {eol : List Char} {ls : List Line} (writable : Writable eol ls)
    (some : ls ≠ []) : detectEol (unlines eol ls) = eol := by
  obtain ⟨noNewline, ⟨rfl, plain⟩ | rfl⟩ := writable
  · have none : ¬hasCrlf (unlines lf ls) = true := by
      have iff := @hasCrlf_unlines ls [] noNewline List.not_mem_nil
      rw [List.append_nil] at iff
      rw [iff]
      rintro ⟨l, listed, ends⟩
      exact plain l listed ends
    rw [detectEol, if_neg none]
  · obtain ⟨l, ls, rfl⟩ := List.exists_cons_of_ne_nil some
    have found : hasCrlf (unlines crlf (l :: ls)) = true := by
      rw [unlines_crlf, List.map_cons, unlines_cons, hasCrlf_line]
      · exact .inl (by simp [EndsCr])
      · simpa using noNewline l List.mem_cons_self
    rw [detectEol, if_pos found]

theorem detectEol_cases (text : List Char) :
    detectEol text = lf ∧ hasCrlf text = false ∨ detectEol text = crlf ∧ hasCrlf text = true := by
  rw [detectEol]
  cases hasCrlf text <;> simp

/-- The lines of a text that ends with its last line may be written again. -/
theorem writable_linesOf_unlines {eol : List Char} {ls : List Line} (known : eol = lf ∨ eol = crlf)
    (noNewline : ∀ l ∈ ls, '\n' ∉ l) :
    Writable (detectEol (unlines eol ls)) (linesOf (unlines eol ls)) := by
  refine ⟨newline_notMem_linesOf _, ?_⟩
  rcases detectEol_cases (unlines eol ls) with ⟨short, none⟩ | ⟨long, -⟩
  · refine .inl ⟨short, ?_⟩
    rcases known with rfl | rfl
    · have plain : ∀ l ∈ ls, ¬EndsCr l := by
        intro l listed ends
        have some := (@hasCrlf_unlines ls [] noNewline List.not_mem_nil).mpr ⟨l, listed, ends⟩
        rw [List.append_nil, none] at some
        cases some
      have writable : Writable lf ls := ⟨noNewline, .inl ⟨rfl, plain⟩⟩
      rw [writable.linesOf_unlines]
      exact plain
    · have writable : Writable crlf ls := ⟨noNewline, .inr rfl⟩
      rw [writable.linesOf_unlines]
      cases ls with
      | nil => nofun
      | cons l ls =>
          have long := writable.detectEol_unlines (List.cons_ne_nil _ _)
          rw [short] at long
          exact absurd long (by decide)
  · exact .inr long

end Library.Lines
