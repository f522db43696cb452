import Mathlib.Data.List.Basic
import Mathlib.Tactic.Common

/-!
The words of a shell command.

A POSIX shell takes a character outside of quotes as it is unless it is special,
and the characters between single quotes whatever they are. Words are ended by
blanks. A command with anything else in it, which a shell would expand or take for
an operator, is not a list of words here.
-/

namespace Library.ShellWords

/-- Where in a command a character stands. -/
inductive Place
  | between
  | bare
  | quoted
  | escaped

/-- What a shell does not take as it is outside of quotes, beside quotes and blanks:
operators, expansions, patterns and the end of the command. -/
def specials : List Char :=
  ['|', '&', ';', '<', '>', '(', ')', '$', '\u0060', '"', '*', '?', '[', ']', '#', '~', '{', '}',
    '!', '^', '\n', '\r']

def isSpecial (c : Char) : Bool := specials.contains c

def isBlank (c : Char) : Bool := c == ' ' || c == '\t'

/-- Read on, with what there is of the current word. -/
def wordsFrom : Place → List Char → List Char → Option (List (List Char))
  | .between, _, [] => some []
  | .bare, word, [] => some [word]
  | .quoted, _, [] => none
  | .escaped, _, [] => none
  | .quoted, word, c :: rest =>
      if c = '\'' then wordsFrom .bare word rest else wordsFrom .quoted (word ++ [c]) rest
  -- A line that goes on behind a backslash is not read.
  | .escaped, word, c :: rest => if c = '\n' then none else wordsFrom .bare (word ++ [c]) rest
  | .between, _, c :: rest =>
      if isBlank c then wordsFrom .between [] rest
      else if c = '\'' then wordsFrom .quoted [] rest
      else if c = '\\' then wordsFrom .escaped [] rest
      else if isSpecial c then none
      else wordsFrom .bare [c] rest
  | .bare, word, c :: rest =>
      if isBlank c then (wordsFrom .between [] rest).map (word :: ·)
      else if c = '\'' then wordsFrom .quoted word rest
      else if c = '\\' then wordsFrom .escaped word rest
      else if isSpecial c then none
      else wordsFrom .bare (word ++ [c]) rest

/-- The words of a command. -/
def words (command : List Char) : Option (List (List Char)) := wordsFrom .between [] command

/-- A character that is taken as it is. -/
def isOrdinary (c : Char) : Bool := !isBlank c && c != '\'' && c != '\\' && !isSpecial c

theorem wordsFrom_bare_ordinary {c : Char} (ordinary : isOrdinary c = true) (word rest : List Char) :
    wordsFrom .bare word (c :: rest) = wordsFrom .bare (word ++ [c]) rest := by
  simp only [isOrdinary, Bool.and_eq_true, bne_iff_ne, Bool.not_eq_true'] at ordinary
  obtain ⟨⟨⟨blank, quote⟩, backslash⟩, special⟩ := ordinary
  rw [wordsFrom, blank, if_neg Bool.false_ne_true, if_neg quote, if_neg backslash, special,
    if_neg Bool.false_ne_true]

theorem wordsFrom_bare_append {text : List Char} (ordinary : ∀ c ∈ text, isOrdinary c = true)
    (word rest : List Char) :
    wordsFrom .bare word (text ++ rest) = wordsFrom .bare (word ++ text) rest := by
  induction text generalizing word with
  | nil => rw [List.append_nil, List.nil_append]
  | cons c text ih =>
      obtain ⟨first, others⟩ := List.forall_mem_cons.mp ordinary
      rw [List.cons_append, wordsFrom_bare_ordinary first, ih others, List.append_assoc,
        List.singleton_append]

/-- A text of such characters is a word. -/
theorem wordsFrom_between_append {text : List Char} (filled : text ≠ [])
    (ordinary : ∀ c ∈ text, isOrdinary c = true) (rest : List Char) :
    wordsFrom .between [] (text ++ rest) = wordsFrom .bare text rest := by
  cases text with
  | nil => exact absurd rfl filled
  | cons c text =>
      obtain ⟨first, others⟩ := List.forall_mem_cons.mp ordinary
      have begun : wordsFrom .between [] (c :: (text ++ rest)) =
          wordsFrom .bare [c] (text ++ rest) := by
        simp only [isOrdinary, Bool.and_eq_true, bne_iff_ne, Bool.not_eq_true'] at first
        obtain ⟨⟨⟨blank, quote⟩, backslash⟩, special⟩ := first
        rw [wordsFrom, blank, if_neg Bool.false_ne_true, if_neg quote, if_neg backslash, special,
          if_neg Bool.false_ne_true]
      rw [List.cons_append, begun, wordsFrom_bare_append others, List.singleton_append]

/-- Inside of single quotes, with the quotes of the text itself behind a backslash
outside of them. -/
def enquoted (text : List Char) : List Char :=
  text.flatMap fun c => if c = '\'' then ['\'', '\\', '\'', '\''] else [c]

/-- What stands inside of the quotes is the text. -/
theorem wordsFrom_enquoted (text word rest : List Char) :
    wordsFrom .quoted word (enquoted text ++ '\'' :: rest) =
      wordsFrom .bare (word ++ text) rest := by
  induction text generalizing word with
  | nil =>
      rw [List.append_nil]
      exact if_pos rfl
  | cons c text ih =>
      rw [enquoted, List.flatMap_cons, ← enquoted, List.append_assoc]
      split_ifs with quote
      · -- The quotes are closed, the quote is escaped, and they are opened again.
        subst quote
        have step : wordsFrom .quoted word (['\'', '\\', '\'', '\''] ++
            (enquoted text ++ '\'' :: rest)) =
              wordsFrom .quoted (word ++ ['\'']) (enquoted text ++ '\'' :: rest) := by
          simp [wordsFrom, isBlank]
        rw [step, ih, List.append_assoc, List.singleton_append]
      · rw [List.singleton_append, wordsFrom, if_neg quote, ih, List.append_assoc,
          List.singleton_append]

theorem wordsFrom_quote (text rest : List Char) :
    wordsFrom .between [] ('\'' :: (enquoted text ++ '\'' :: rest)) =
      wordsFrom .bare text rest := by
  have opened : wordsFrom .between [] ('\'' :: (enquoted text ++ '\'' :: rest)) =
      wordsFrom .quoted [] (enquoted text ++ '\'' :: rest) := by
    simp [wordsFrom, isBlank]
  rw [opened, wordsFrom_enquoted, List.nil_append]

theorem wordsFrom_blank (word rest : List Char) :
    wordsFrom .bare word (' ' :: rest) = (wordsFrom .between [] rest).map (word :: ·) := by
  rw [wordsFrom]
  exact if_pos rfl

/-- Texts that are each read as one word make, with blanks between them, the list of
these words. -/
theorem words_intercalate {α : Type} {written spoken : α → List Char}
    (each : ∀ a rest, wordsFrom .between [] (written a ++ rest) = wordsFrom .bare (spoken a) rest)
    (first : α) (others : List α) :
    words (List.intercalate [' '] ((first :: others).map written)) =
      some ((first :: others).map spoken) := by
  rw [words]
  induction others generalizing first with
  | nil =>
      have one := each first []
      rw [List.append_nil] at one
      simp [one, wordsFrom]
  | cons second others ih =>
      have more : List.intercalate [' '] ((first :: second :: others).map written) =
          written first ++ ' ' :: List.intercalate [' '] ((second :: others).map written) := by
        simp [List.intercalate]
      rw [more, each, wordsFrom_blank, ih]
      rfl

end Library.ShellWords
