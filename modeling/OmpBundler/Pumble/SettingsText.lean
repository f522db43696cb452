import OmpBundler.Library.JsonSpacing

/-!
Comments in the settings file.

The file is JSON with line comments and block comments, which are removed
before it is parsed. The scanner is in one of four modes; it leaves a text
without comments as it is, and where comments stand between the tokens of a
JSON text, what is left parses to the value of that text.
-/

namespace OmpBundler.Pumble

open Library Library.Json
open JsValue (quoteMark backslash)

/-- The mode of the scanner: outside of strings and comments, or inside. -/
inductive ScanMode where
  | outside
  | inString
  | inLine
  | inBlock
  deriving DecidableEq, Repr

/-- The scanner, with the text that is left. -/
def stripFrom : ScanMode → List Char → List Char
  | _, [] => []
  | .inLine, c :: rest =>
      if c = '\n' then c :: stripFrom .outside rest else stripFrom .inLine rest
  | .inBlock, [_] => []
  | .inBlock, c :: next :: rest =>
      if c = '*' ∧ next = '/' then stripFrom .outside rest else stripFrom .inBlock (next :: rest)
  | .inString, [c] => [c]
  | .inString, c :: next :: rest =>
      if c = backslash then c :: next :: stripFrom .inString rest
      else if c = quoteMark then c :: stripFrom .outside (next :: rest)
      else c :: stripFrom .inString (next :: rest)
  | .outside, [c] => [c]
  | .outside, c :: next :: rest =>
      if c = quoteMark then c :: stripFrom .inString (next :: rest)
      else if c = '/' ∧ next = '/' then stripFrom .inLine rest
      else if c = '/' ∧ next = '*' then stripFrom .inBlock rest
      else c :: stripFrom .outside (next :: rest)

theorem stripFrom_inLine (c : Char) (rest : List Char) : stripFrom .inLine (c :: rest) =
    if c = '\n' then c :: stripFrom .outside rest else stripFrom .inLine rest := rfl

theorem stripFrom_inBlock (c next : Char) (rest : List Char) :
    stripFrom .inBlock (c :: next :: rest) =
      if c = '*' ∧ next = '/' then stripFrom .outside rest else stripFrom .inBlock (next :: rest) :=
  rfl

theorem stripFrom_inString (c next : Char) (rest : List Char) :
    stripFrom .inString (c :: next :: rest) =
      if c = backslash then c :: next :: stripFrom .inString rest
      else if c = quoteMark then c :: stripFrom .outside (next :: rest)
      else c :: stripFrom .inString (next :: rest) := rfl

theorem stripFrom_outside (c next : Char) (rest : List Char) :
    stripFrom .outside (c :: next :: rest) =
      if c = quoteMark then c :: stripFrom .inString (next :: rest)
      else if c = '/' ∧ next = '/' then stripFrom .inLine rest
      else if c = '/' ∧ next = '*' then stripFrom .inBlock rest
      else c :: stripFrom .outside (next :: rest) := rfl

/-- Strip line comments and block comments. -/
def stripJsonComments (input : List Char) : List Char := stripFrom .outside input

example : stripJsonComments "[1, // one\n \"//\" /* ** */]".toList = "[1, \n \"//\" ]".toList := by
  decide

/-! ### Outside of comments -/

theorem strip_quote (rest : List Char) :
    stripFrom .outside (quoteMark :: rest) = quoteMark :: stripFrom .inString rest := by
  cases rest with
  | nil => rfl
  | cons next rest => rw [stripFrom_outside, if_pos rfl]

/-- A character that begins neither a string nor a comment. -/
theorem strip_other {c : Char} (noQuote : c ≠ quoteMark) (noSlash : c ≠ '/') (rest : List Char) :
    stripFrom .outside (c :: rest) = c :: stripFrom .outside rest := by
  cases rest with
  | nil => rfl
  | cons next rest =>
      rw [stripFrom_outside, if_neg noQuote, if_neg fun both => noSlash both.1,
        if_neg fun both => noSlash both.1]

theorem strip_inString {c : Char} (noQuote : c ≠ quoteMark) (noBackslash : c ≠ backslash)
    (rest : List Char) : stripFrom .inString (c :: rest) = c :: stripFrom .inString rest := by
  cases rest with
  | nil => rfl
  | cons next rest => rw [stripFrom_inString, if_neg noBackslash, if_neg noQuote]

theorem strip_escape (c : Char) (rest : List Char) :
    stripFrom .inString (backslash :: c :: rest) = backslash :: c :: stripFrom .inString rest := by
  rw [stripFrom_inString, if_pos rfl]

theorem strip_endString (rest : List Char) :
    stripFrom .inString (quoteMark :: rest) = quoteMark :: stripFrom .outside rest := by
  cases rest with
  | nil => rfl
  | cons next rest => rw [stripFrom_inString, if_neg (by decide), if_pos rfl]

/-- A literal is left as it is, and the scanner is outside again behind it. -/
theorem strip_body {body : List Char} (inside : Body body) (rest : List Char) :
    stripFrom .inString (body ++ quoteMark :: rest) =
      body ++ quoteMark :: stripFrom .outside rest := by
  induction inside with
  | nil => exact strip_endString rest
  | plain noQuote noBackslash _ ih =>
      rw [List.cons_append, strip_inString noQuote noBackslash, ih, List.cons_append]
  | escape c _ ih =>
      rw [List.cons_append, List.cons_append, strip_escape, ih, List.cons_append,
        List.cons_append]

/-- A piece of text without quotes and slashes is left as it is. -/
theorem strip_plain {text : List Char} (noQuote : quoteMark ∉ text) (noSlash : '/' ∉ text)
    (rest : List Char) :
    stripFrom .outside (text ++ rest) = text ++ stripFrom .outside rest := by
  induction text with
  | nil => rfl
  | cons c text ih =>
      rw [List.mem_cons, not_or] at noQuote noSlash
      rw [List.cons_append, strip_other (Ne.symm noQuote.1) (Ne.symm noSlash.1),
        ih noQuote.2 noSlash.2, List.cons_append]

theorem plain_of_numberChars {digits : List Char}
    (chars : ∀ c ∈ digits, isNumberChar c = true) : quoteMark ∉ digits ∧ '/' ∉ digits :=
  ⟨fun mem => absurd (chars _ mem) (by decide), fun mem => absurd (chars _ mem) (by decide)⟩

/-- A token is left as it is. -/
theorem strip_token {text next : List Char} (token : Token text next) (rest : List Char) :
    stripFrom .outside (text ++ rest) = text ++ stripFrom .outside rest := by
  cases token with
  | mark listed =>
      simp only [marks, List.mem_cons, List.not_mem_nil, or_false] at listed
      rcases listed with rfl | rfl | rfl | rfl | rfl | rfl <;>
        exact strip_plain (by decide) (by decide) rest
  | literal inside =>
      rw [List.cons_append, List.cons_append, List.append_assoc, List.singleton_append,
        strip_quote, strip_body inside]
      simp
  | word listed =>
      rcases mem_words listed with rfl | rfl | rfl <;>
        exact strip_plain (by decide) (by decide) rest
  | number chars =>
      have plain := plain_of_numberChars chars
      exact strip_plain plain.1 plain.2 rest

theorem strip_blank {c : Char} (white : isBlank c = true) (rest : List Char) :
    stripFrom .outside (c :: rest) = c :: stripFrom .outside rest := by
  refine strip_other ?_ ?_ rest <;>
  · rintro rfl
    exact absurd white (by decide)

/-- Without comments nothing is removed. -/
theorem strip_tokens {text : List Char} (tokens : Tokens text) :
    stripJsonComments text = text := by
  induction tokens with
  | nil => rfl
  | blank white more ih => exact (strip_blank white _).trans (congrArg (_ :: ·) ih)
  | token token more ih => exact (strip_token token _).trans (congrArg (_ ++ ·) ih)

/-! ### Comments -/

theorem strip_line {body : List Char} (oneLine : '\n' ∉ body) (rest : List Char) :
    stripFrom .inLine (body ++ '\n' :: rest) = '\n' :: stripFrom .outside rest := by
  induction body with
  | nil => rw [List.nil_append, stripFrom_inLine, if_pos rfl]
  | cons c body ih =>
      rw [List.mem_cons, not_or] at oneLine
      rw [List.cons_append, stripFrom_inLine, if_neg (Ne.symm oneLine.1), ih oneLine.2]

theorem strip_lastLine {body : List Char} (oneLine : '\n' ∉ body) :
    stripFrom .inLine body = [] := by
  induction body with
  | nil => rfl
  | cons c body ih =>
      rw [List.mem_cons, not_or] at oneLine
      rw [stripFrom_inLine, if_neg (Ne.symm oneLine.1), ih oneLine.2]

theorem strip_block {body : List Char} (unended : ¬['*', '/'] <:+: body) (rest : List Char) :
    stripFrom .inBlock (body ++ '*' :: '/' :: rest) = stripFrom .outside rest := by
  induction body with
  | nil => rw [List.nil_append, stripFrom_inBlock, if_pos ⟨rfl, rfl⟩]
  | cons c body ih =>
      have later := ih fun inside => unended (inside.trans (List.suffix_cons c body).isInfix)
      cases body with
      | nil =>
          rw [List.singleton_append, stripFrom_inBlock,
            if_neg fun both => absurd both.2 (by decide), ← later, List.nil_append]
      | cons next body =>
          have goes : ¬(c = '*' ∧ next = '/') := by
            rintro ⟨rfl, rfl⟩
            exact unended (List.prefix_append ['*', '/'] body).isInfix
          rw [List.cons_append, List.cons_append, stripFrom_inBlock, if_neg goes]
          exact later

/-- A text with comments between its tokens, and the text without them. The
newline that ends a line comment may be part of either. -/
inductive Commented : List Char → List Char → Prop
  | nil : Commented [] []
  | blank {c : Char} {text plain : List Char} (white : isBlank c = true)
      (more : Commented text plain) : Commented (c :: text) (c :: plain)
  | token {t text plain : List Char} (token : Token t plain) (more : Commented text plain) :
      Commented (t ++ text) (t ++ plain)
  | line {body text plain : List Char} (oneLine : '\n' ∉ body) (more : Commented text plain) :
      Commented ('/' :: '/' :: (body ++ '\n' :: text)) plain
  | lineEnd {body text plain : List Char} (oneLine : '\n' ∉ body) (more : Commented text plain) :
      Commented ('/' :: '/' :: (body ++ '\n' :: text)) ('\n' :: plain)
  | lastLine {body : List Char} (oneLine : '\n' ∉ body) : Commented ('/' :: '/' :: body) []
  | block {body text plain : List Char} (unended : ¬['*', '/'] <:+: body)
      (more : Commented text plain) :
      Commented ('/' :: '*' :: (body ++ '*' :: '/' :: text)) plain

theorem strip_slashes (rest : List Char) :
    stripFrom .outside ('/' :: '/' :: rest) = stripFrom .inLine rest := by
  rw [stripFrom_outside, if_neg (by decide), if_pos ⟨rfl, rfl⟩]

theorem strip_slashStar (rest : List Char) :
    stripFrom .outside ('/' :: '*' :: rest) = stripFrom .inBlock rest := by
  rw [stripFrom_outside, if_neg (by decide), if_neg (by decide), if_pos ⟨rfl, rfl⟩]

/-- What is left is the text without the comments, with some newlines
between its tokens. -/
theorem Commented.spaced {text plain : List Char} (commented : Commented text plain) :
    Spaced (stripJsonComments text) plain := by
  have newline : isBlank '\n' = true := by decide
  induction commented with
  | nil => exact .nil
  | blank white more ih =>
      rw [stripJsonComments, strip_blank white]
      exact .blank white ih
  | token token more ih =>
      rw [stripJsonComments, strip_token token]
      exact .token token ih
  | line oneLine more ih =>
      rw [stripJsonComments, strip_slashes, strip_line oneLine]
      exact .added newline ih
  | lineEnd oneLine more ih =>
      rw [stripJsonComments, strip_slashes, strip_line oneLine]
      exact .blank newline ih
  | lastLine oneLine =>
      rw [stripJsonComments, strip_slashes, strip_lastLine oneLine]
      exact .nil
  | block unended more ih =>
      rw [stripJsonComments, strip_slashStar, strip_block unended]
      exact ih

/-- A JSON text is left as it is; with comments between its tokens, it is
parsed to the value that it has without them. -/
theorem comments_are_stripped {ν : Type} (F : NumberFormat ν) :
    (∀ text v, parse F text = some v → stripJsonComments text = text) ∧
      ∀ text plain v, parse F plain = some v → Commented text plain →
        parse F (stripJsonComments text) = some v :=
  ⟨fun _ _ parsed => strip_tokens (tokens_of_parse parsed),
    fun _ _ _ parsed commented => commented.spaced.parse parsed⟩

/-- A list with a comment in front of its end. -/
theorem comments_are_stripped_sample :
    stripJsonComments "[1]".toList = "[1]".toList ∧
      parse .decimal (stripJsonComments "[1/* \" */]".toList) = some (.array [.number 1]) := by
  have commented : Commented "[1/* \" */]".toList "[1]".toList :=
    .token (t := ['[']) (.mark (by decide) _)
      (.token (t := ['1'])
        (.number (List.forall_mem_singleton.mpr (by decide)) (by decide)
          (stops_cons (by decide) _))
        (@Commented.block [' ', quoteMark, ' '] _ _ (by decide)
          (.token (t := [']']) (.mark (by decide) _) .nil)))
  exact ⟨(comments_are_stripped .decimal).1 _ (.array [.number 1]) rfl,
    (comments_are_stripped .decimal).2 _ _ _ rfl commented⟩

end OmpBundler.Pumble
