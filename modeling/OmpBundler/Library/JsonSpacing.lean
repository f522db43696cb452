import Mathlib.Data.List.DropRight
import OmpBundler.Library.Json

/-!
The tokens of a JSON text, and the white space between them.

A text that the reader accepts is made of tokens and blanks (`tokens_of_parse`),
and the reader does not mind further blanks between two tokens
(`Spaced.parse`).
-/

namespace Library.Json

open JsValue (quoteMark backslash)

/-! ### Tokens -/

/-- What may stand between the quotes of a literal, as far as its end is
concerned. -/
inductive Body : List Char → Prop
  | nil : Body []
  | plain {c : Char} {rest : List Char} (noQuote : c ≠ quoteMark) (noBackslash : c ≠ backslash)
      (body : Body rest) : Body (c :: rest)
  | escape (c : Char) {rest : List Char} (body : Body rest) : Body (backslash :: c :: rest)

/-- The tokens of one character. -/
def marks : List Char := ['[', ']', '\x7b', '\x7d', ',', ':']

/-- The tokens that are names. -/
def words : List (List Char) :=
  [['n', 'u', 'l', 'l'], ['t', 'r', 'u', 'e'], ['f', 'a', 'l', 's', 'e']]

/-- A token, with what follows it: a number goes on as long as it can. -/
inductive Token : List Char → List Char → Prop
  | mark {c : Char} (listed : c ∈ marks) (next : List Char) : Token [c] next
  | literal {body : List Char} (inside : Body body) (next : List Char) :
      Token (quoteMark :: body ++ [quoteMark]) next
  | word {w : List Char} (listed : w ∈ words) (next : List Char) : Token w next
  | number {digits next : List Char} (chars : ∀ c ∈ digits, isNumberChar c = true)
      (some : digits ≠ []) (stops : Stops next) : Token digits next

/-- A text that is made of tokens and blanks. -/
inductive Tokens : List Char → Prop
  | nil : Tokens []
  | blank {c : Char} {rest : List Char} (white : isBlank c = true) (more : Tokens rest) :
      Tokens (c :: rest)
  | token {text rest : List Char} (token : Token text rest) (more : Tokens rest) :
      Tokens (text ++ rest)

/-- The first text is the second one, with more blanks between the tokens. -/
inductive Spaced : List Char → List Char → Prop
  | nil : Spaced [] []
  | blank {c : Char} {l r : List Char} (white : isBlank c = true) (more : Spaced l r) :
      Spaced (c :: l) (c :: r)
  | added {c : Char} {l r : List Char} (white : isBlank c = true) (more : Spaced l r) :
      Spaced (c :: l) r
  | token {text l r : List Char} (token : Token text r) (more : Spaced l r) :
      Spaced (text ++ l) (text ++ r)

theorem isBlank_of_mem_marks {c : Char} (listed : c ∈ marks) :
    isBlank c = false ∧ isNumberChar c = false ∧ c ≠ quoteMark := by
  simp only [marks, List.mem_cons, List.not_mem_nil, or_false] at listed
  rcases listed with rfl | rfl | rfl | rfl | rfl | rfl <;> decide

theorem mem_words {w : List Char} (listed : w ∈ words) :
    w = ['n', 'u', 'l', 'l'] ∨ w = ['t', 'r', 'u', 'e'] ∨ w = ['f', 'a', 'l', 's', 'e'] := by
  simpa only [words, List.mem_cons, List.not_mem_nil, or_false] using listed

/-- A token begins with a character that is no blank. -/
theorem Token.head {text next : List Char} (token : Token text next) :
    ∃ c rest, text = c :: rest ∧ isBlank c = false := by
  cases token with
  | mark listed => exact ⟨_, [], rfl, (isBlank_of_mem_marks listed).1⟩
  | literal inside => exact ⟨quoteMark, _, rfl, by decide⟩
  | word listed =>
      rcases mem_words listed with rfl | rfl | rfl <;> exact ⟨_, _, rfl, by decide⟩
  | number chars some stops =>
      obtain ⟨c, rest, rfl⟩ := List.exists_cons_of_ne_nil some
      exact ⟨c, rest, rfl, isBlank_of_isNumberChar (chars c List.mem_cons_self)⟩

theorem Token.skip {text next : List Char} (token : Token text next) (rest : List Char) :
    skip (text ++ rest) = text ++ rest := by
  obtain ⟨c, more, rfl, visible⟩ := token.head
  exact skip_cons visible _

theorem skip_blank {c : Char} (white : isBlank c = true) (rest : List Char) :
    skip (c :: rest) = skip rest := List.dropWhile_cons_of_pos white

/-- With blanks added, a text goes on as it did. -/
theorem Spaced.stops {l r : List Char} (spaced : Spaced l r) (stops : Stops r) : Stops l := by
  have blank {c : Char} (white : isBlank c = true) (rest : List Char) : Stops (c :: rest) := by
    refine stops_cons ?_ rest
    by_contra number
    rw [isBlank_of_isNumberChar (by simpa using number)] at white
    cases white
  cases spaced with
  | nil => exact stops
  | blank white | added white => exact blank white _
  | token token =>
      obtain ⟨c, rest, rfl, -⟩ := token.head
      exact stops_cons (stops c rfl) _

/-- Behind the blanks both texts are at their ends, or at the same token. -/
theorem Spaced.skip {l r : List Char} (spaced : Spaced l r) :
    (Json.skip l = [] ∧ Json.skip r = []) ∨
      ∃ text l' r', Token text r' ∧ Spaced l' r' ∧ Json.skip l = text ++ l' ∧
        Json.skip r = text ++ r' := by
  induction spaced with
  | nil => exact .inl ⟨rfl, rfl⟩
  | blank white more ih => rwa [skip_blank white, skip_blank white]
  | added white more ih => rwa [skip_blank white]
  | token token more ih => exact .inr ⟨_, _, _, token, more, token.skip _, token.skip _⟩

/-- What is behind the blanks is spaced in the same way. -/
theorem Spaced.skipped {l r : List Char} (spaced : Spaced l r) :
    Spaced (Json.skip l) (Json.skip r) := by
  rcases spaced.skip with ⟨left, right⟩ | ⟨text, l', r', token, more, left, right⟩
  · rw [left, right]
    exact .nil
  · rw [left, right]
    exact .token token more

/-- Both texts go on with the same character. -/
theorem Spaced.head {l r : List Char} (spaced : Spaced l r) :
    (Json.skip l).head? = (Json.skip r).head? := by
  rcases spaced.skip with ⟨left, right⟩ | ⟨text, l', r', token, more, left, right⟩
  · rw [left, right]
  · obtain ⟨c, rest, rfl, -⟩ := token.head
    rw [left, right]
    rfl

/-- A mark is followed by what followed it before. -/
theorem Spaced.mark {l r r' : List Char} {c : Char} (spaced : Spaced l r) (listed : c ∈ marks)
    (found : Json.skip r = c :: r') : ∃ l', Json.skip l = c :: l' ∧ Spaced l' r' := by
  obtain ⟨-, noNumber, noQuote⟩ := isBlank_of_mem_marks listed
  rcases spaced.skip with ⟨left, right⟩ | ⟨text, l', r'', token, more, left, right⟩
  · rw [right] at found
    cases found
  rw [right] at found
  cases token with
  | mark =>
      obtain ⟨rfl, rfl⟩ := List.cons.inj found
      exact ⟨l', left, more⟩
  | literal => exact absurd (List.cons.inj found).1.symm noQuote
  | word isWord =>
      rcases mem_words isWord with rfl | rfl | rfl <;>
      · obtain rfl := (List.cons.inj found).1
        exact absurd listed (by decide)
  | number chars some =>
      obtain ⟨d, rest, rfl⟩ := List.exists_cons_of_ne_nil some
      have number := chars d List.mem_cons_self
      rw [(List.cons.inj found).1, noNumber] at number
      cases number

/-- A literal is followed by what followed it before. -/
theorem Spaced.quote {l r r' : List Char} (spaced : Spaced l r)
    (found : Json.skip r = quoteMark :: r') :
    ∃ body l'' r'', Body body ∧ Spaced l'' r'' ∧ r' = body ++ quoteMark :: r'' ∧
      Json.skip l = quoteMark :: (body ++ quoteMark :: l'') := by
  rcases spaced.skip with ⟨left, right⟩ | ⟨text, l', r'', token, more, left, right⟩
  · rw [right] at found
    cases found
  rw [right] at found
  cases token with
  | mark listed =>
      rw [(List.cons.inj found).1] at listed
      exact absurd listed (by decide)
  | @literal body inside =>
      refine ⟨body, l', r'', inside, more, ?_, ?_⟩
      · simpa using (List.cons.inj found).2.symm
      · simpa using left
  | word isWord =>
      rcases mem_words isWord with rfl | rfl | rfl <;>
        exact absurd (List.cons.inj found).1 (by decide)
  | number chars some =>
      obtain ⟨d, rest, rfl⟩ := List.exists_cons_of_ne_nil some
      have number := chars d List.mem_cons_self
      rw [(List.cons.inj found).1] at number
      exact absurd number (by decide)

/-! ### Literals -/

theorem readString_control {c : Char} (control : c.toNat < 0x20) (rest : List Char) :
    readString (c :: rest) = none := by
  have other {d : Char} (high : 0x20 ≤ d.toNat) : c ≠ d := by
    rintro rfl
    omega
  rw [readString]
  · simp only [control, if_true]
    rfl
  · exact fun h => other (by decide) h
  · intro a b c' d l h
    exact absurd h (other (by decide))
  · intro c' l h
    exact absurd h (other (by decide))

/-- An escape by number takes four digits. -/
theorem readString_unit (a b c d : Char) (rest : List Char) :
    readString (backslash :: 'u' :: a :: b :: c :: d :: rest) = (hexUnit a b c d).bind fun u =>
      (readString rest).map fun r => (u :: r.1, r.2) := by
  rw [show backslash = '\x5c' from rfl, readString]
  simp only [Option.bind_eq_bind, Option.pure_def]
  cases hexUnit a b c d <;> cases readString rest <;> rfl

theorem readString_short {rest : List Char} (short : rest.length < 4) :
    readString (backslash :: 'u' :: rest) = none := by
  rw [show backslash = '\x5c' from rfl, readString]
  · rfl
  · rintro a b c d l - rfl
    simp only [List.length_cons] at short
    omega

theorem hexValue_of_hexUnit {a b c d : Char} {u : UInt16} (unit : hexUnit a b c d = some u) :
    (hexValue a).isSome ∧ (hexValue b).isSome ∧ (hexValue c).isSome ∧ (hexValue d).isSome := by
  simp only [hexUnit, Option.bind_eq_bind] at unit
  cases first : hexValue a <;> cases second : hexValue b <;> cases third : hexValue c <;>
    cases fourth : hexValue d <;> simp_all

/-- No digit of an escape is the quote at the end of the literal. -/
theorem readString_unended {rest : List Char} (short : rest.length < 4) (next : List Char) :
    readString (backslash :: 'u' :: (rest ++ quoteMark :: next)) = none := by
  have quote : quoteMark ∈ (rest ++ quoteMark :: next).take 4 := by
    rw [List.take_append, List.mem_append]
    refine .inr ?_
    obtain ⟨k, left⟩ : ∃ k, 4 - rest.length = k + 1 := ⟨3 - rest.length, by omega⟩
    rw [left, List.take_succ_cons]
    exact List.mem_cons_self
  rcases text : rest ++ quoteMark :: next with _ | ⟨a, _ | ⟨b, _ | ⟨c, _ | ⟨d, y⟩⟩⟩⟩
  · exact readString_short (by simp)
  · exact readString_short (by simp)
  · exact readString_short (by simp)
  · exact readString_short (by simp)
  rw [readString_unit]
  cases unit : hexUnit a b c d with
  | none => rfl
  | some u =>
      rw [text] at quote
      have digits := hexValue_of_hexUnit unit
      have none : hexValue quoteMark = none := by decide
      simp only [List.take_succ_cons, List.take_zero, List.mem_cons, List.not_mem_nil,
        or_false] at quote
      rcases quote with rfl | rfl | rfl | rfl <;> simp [none] at digits

/-- A digit in a literal is nothing special. -/
theorem Body.tail {c : Char} {rest : List Char} (inside : Body (c :: rest))
    (digit : (hexValue c).isSome) : Body rest := by
  cases inside with
  | plain _ _ body => exact body
  | escape => exact absurd digit (by decide)

/-- The end of a literal is found by its quotes and backslashes alone, and
what follows does not matter. -/
theorem Body.read {body : List Char} (inside : Body body) :
    (∀ next, readString (body ++ quoteMark :: next) = none) ∨
      ∃ units, ∀ next, readString (body ++ quoteMark :: next) = some (units, next) := by
  induction long : body.length using Nat.strong_induction_on generalizing body with
  | h n ih =>
  -- A unit of the literal, and the rest of it.
  have goes {rest : List Char} {f : List UInt16 → List UInt16} (body : Body rest)
      (shorter : rest.length < n) :
      (∀ next, (readString (rest ++ quoteMark :: next)).map (fun r => (f r.1, r.2)) = none) ∨
        ∃ units, ∀ next, (readString (rest ++ quoteMark :: next)).map (fun r => (f r.1, r.2)) =
          some (units, next) := by
    rcases ih _ shorter body rfl with fails | ⟨units, reads⟩
    · exact .inl fun next => by rw [fails]; rfl
    · exact .inr ⟨f units, fun next => by rw [reads]; rfl⟩
  cases inside with
  | nil => exact .inr ⟨[], fun _ => rfl⟩
  | @plain c rest noQuote noBackslash body =>
      by_cases control : c.toNat < 0x20
      · exact .inl fun next => readString_control control _
      · simp only [List.cons_append, readString_char noQuote noBackslash (not_lt.mp control)]
        exact goes (f := fun r => unitsOf c ++ r) body (by simp at long; omega)
  | @escape c rest body =>
      by_cases number : c = 'u'
      · subst number
        rcases rest with _ | ⟨a, _ | ⟨b, _ | ⟨c, _ | ⟨d, rest⟩⟩⟩⟩
        · exact .inl fun next => readString_unended (by simp) next
        · exact .inl fun next => readString_unended (by simp) next
        · exact .inl fun next => readString_unended (by simp) next
        · exact .inl fun next => readString_unended (by simp) next
        simp only [List.cons_append, readString_unit]
        cases unit : hexUnit a b c d with
        | none => exact .inl fun _ => rfl
        | some u =>
            obtain ⟨first, second, third, fourth⟩ := hexValue_of_hexUnit unit
            exact goes (f := fun r => u :: r)
              ((((body.tail first).tail second).tail third).tail fourth) (by simp at long; omega)
      · simp only [List.cons_append, readString_letter number]
        cases letterUnit c with
        | none => exact .inl fun _ => rfl
        | some u => exact goes (f := fun r => u :: r) body (by simp at long; omega)

theorem Body.digit {c : Char} {rest : List Char} (digit : (hexValue c).isSome)
    (body : Body rest) : Body (c :: rest) := by
  refine .plain ?_ ?_ body
  · rintro rfl
    exact absurd digit (by decide)
  · rintro rfl
    exact absurd digit (by decide)

/-- How a literal is read, with what follows it. -/
inductive StringRead : List Char → List UInt16 → List Char → Prop
  | ends (rest : List Char) : StringRead (quoteMark :: rest) [] rest
  | unit {a b c d : Char} {u : UInt16} {text rest : List Char} {units : List UInt16}
      (unit : hexUnit a b c d = some u) (more : StringRead text units rest) :
      StringRead (backslash :: 'u' :: a :: b :: c :: d :: text) (u :: units) rest
  | letter {c : Char} {u : UInt16} {text rest : List Char} {units : List UInt16}
      (unit : letterUnit c = some u) (more : StringRead text units rest) :
      StringRead (backslash :: c :: text) (u :: units) rest
  | char {c : Char} {text rest : List Char} {units : List UInt16} (noQuote : c ≠ quoteMark)
      (noBackslash : c ≠ backslash) (printable : 0x20 ≤ c.toNat)
      (more : StringRead text units rest) : StringRead (c :: text) (unitsOf c ++ units) rest

theorem stringRead_of_readString {text rest : List Char} {units : List UInt16}
    (read : readString text = some (units, rest)) : StringRead text units rest := by
  induction text using readString.induct generalizing units rest with
  | case1 => cases read
  | case2 rest' =>
      cases read
      exact .ends rest'
  | case3 a b c d text ih =>
      change readString (backslash :: 'u' :: a :: b :: c :: d :: text) = _ at read
      rw [readString_unit] at read
      obtain ⟨u, unit, found⟩ := Option.bind_eq_some_iff.mp read
      obtain ⟨⟨units, _⟩, later, same⟩ := Option.map_eq_some_iff.mp found
      cases same
      exact .unit unit (ih later)
  | case4 c text notUnit ih =>
      have letter : c ≠ 'u' := by
        rintro rfl
        have short : text.length < 4 := by
          rcases text with _ | ⟨a, _ | ⟨b, _ | ⟨c, _ | ⟨d, text⟩⟩⟩⟩
          all_goals first | exact absurd rfl (notUnit _ _ _ _ _ rfl) | simp
        rw [show '\x5c' = backslash from rfl, readString_short short] at read
        cases read
      change readString (backslash :: c :: text) = _ at read
      rw [readString_letter letter] at read
      obtain ⟨u, unit, found⟩ := Option.bind_eq_some_iff.mp read
      obtain ⟨⟨units, _⟩, later, same⟩ := Option.map_eq_some_iff.mp found
      cases same
      exact .letter unit (ih later)
  | case5 c text _ _ _ control =>
      rw [readString_control control] at read
      cases read
  | case6 c text noQuote noUnit noEscape printable ih =>
      have noBackslash : c ≠ backslash := by
        rintro rfl
        cases text with
        | nil => cases read
        | cons d text => exact noEscape d text rfl rfl
      rw [readString_char noQuote noBackslash (not_lt.mp printable)] at read
      obtain ⟨⟨units, _⟩, later, same⟩ := Option.map_eq_some_iff.mp read
      cases same
      exact .char noQuote noBackslash (not_lt.mp printable) (ih later)

/-- A literal that is read has a body, and its end is where it was. -/
theorem body_of_readString {text rest : List Char} {units : List UInt16}
    (read : readString text = some (units, rest)) :
    ∃ body, Body body ∧ text = body ++ quoteMark :: rest := by
  replace read := stringRead_of_readString read
  induction read with
  | ends rest => exact ⟨[], .nil, rfl⟩
  | @unit a b c d u text rest units unit more ih =>
      obtain ⟨first, second, third, fourth⟩ := hexValue_of_hexUnit unit
      obtain ⟨body, inside, rfl⟩ := ih
      exact ⟨backslash :: 'u' :: a :: b :: c :: d :: body,
        .escape 'u' (.digit first (.digit second (.digit third (.digit fourth inside)))), rfl⟩
  | @letter c u text rest units unit more ih =>
      obtain ⟨body, inside, rfl⟩ := ih
      exact ⟨backslash :: c :: body, .escape c inside, rfl⟩
  | @char c text rest units noQuote noBackslash printable more ih =>
      obtain ⟨body, inside, rfl⟩ := ih
      exact ⟨c :: body, .plain noQuote noBackslash inside, rfl⟩

/-! ### The reader at a token -/

section Reading

variable {ν : Type} {F : NumberFormat ν} {n : ℕ} {text rest next : List Char}

theorem skip_skip (text : List Char) : skip (skip text) = skip text :=
  List.dropWhile_idempotent _ _

theorem readValue_skip : readValue F n (skip text) = readValue F n text := by
  cases n with
  | zero => rfl
  | succ n => rw [readValue, readValue, skip_skip]

theorem readValue_emptyArray (start : skip text = '[' :: rest) (closes : skip rest = ']' :: next) :
    readValue F (n + 1) text = some (.array [], next) := by
  rw [readValue, start]
  simp only [closes]

theorem readValue_emptyObject (start : skip text = '\x7b' :: rest)
    (closes : skip rest = '\x7d' :: next) :
    readValue F (n + 1) text = some (.object [], next) := by
  rw [readValue, start]
  simp only [closes]

theorem readValue_literal (start : skip text = quoteMark :: rest) :
    readValue F (n + 1) text = (readString rest).map fun r => (.string r.1, r.2) := by
  rw [readValue, start]
  rfl

/-- At a mark that opens nothing, the reader looks for a number. -/
theorem readValue_mark {c : Char} (listed : c ∈ [']', '\x7d', ',', ':'])
    (start : skip text = c :: rest) :
    readValue F (n + 1) text = (F.value []).map fun m => (.number m, c :: rest) := by
  simp only [List.mem_cons, List.not_mem_nil, or_false] at listed
  rcases listed with rfl | rfl | rfl | rfl <;>
  · rw [readValue, start]
    rfl

theorem readValue_end (start : skip text = []) :
    readValue F (n + 1) text = (F.value []).map fun m => (.number m, []) := by
  rw [readValue, start]
  rfl

/-- At a name, the reader takes it as a value, whatever follows. -/
theorem readValue_word {w : List Char} (listed : w ∈ words) :
    ∃ v : Json ν, ∀ {n text rest}, skip text = w ++ rest →
      readValue F (n + 1) text = some (v, rest) := by
  rcases mem_words listed with rfl | rfl | rfl
  · refine ⟨.null, fun start => ?_⟩
    rw [readValue, start]
    rfl
  · refine ⟨.bool true, fun start => ?_⟩
    rw [readValue, start]
    rfl
  · refine ⟨.bool false, fun start => ?_⟩
    rw [readValue, start]
    rfl

/-- At a number, the reader takes all of it. -/
theorem readValue_digits {digits : List Char} (chars : ∀ c ∈ digits, isNumberChar c = true)
    (some : digits ≠ []) (stops : Stops rest) (start : skip text = digits ++ rest) :
    readValue F (n + 1) text = (F.value digits).map fun m => (.number m, rest) := by
  have ends : rest.takeWhile isNumberChar = [] ∧ rest.dropWhile isNumberChar = rest := by
    cases rest with
    | nil => exact ⟨rfl, rfl⟩
    | cons c l =>
      have other : isNumberChar c = false := stops c rfl
      exact ⟨List.takeWhile_cons_of_neg (by simp [other]),
        List.dropWhile_cons_of_neg (by simp [other])⟩
  obtain ⟨c, l, rfl⟩ := List.exists_cons_of_ne_nil some
  rw [← readValue_skip, start, List.cons_append,
    readValue_number F (chars c List.mem_cons_self), ← List.cons_append,
    List.takeWhile_append_of_pos chars, List.dropWhile_append_of_pos chars, ends.1, ends.2,
    List.append_nil]

/-- The elements of an array: one, and then its end or more of them. -/
theorem readElements_eq_some {vs : List (Json ν)} :
    readElements F (n + 1) text = some (vs, next) ↔
      ∃ v rest, readValue F n text = some (v, rest) ∧
        ((∃ rest' vs', skip rest = ',' :: rest' ∧ readElements F n rest' = some (vs', next) ∧
            vs = v :: vs') ∨
          (skip rest = ']' :: next ∧ vs = [v])) := by
  rw [readElements]
  constructor
  · intro read
    obtain ⟨⟨v, rest⟩, value, more⟩ := Option.bind_eq_some_iff.mp read
    refine ⟨v, rest, value, ?_⟩
    dsimp only at more
    split at more
    · rename_i rest' comma
      obtain ⟨⟨vs', _⟩, later, same⟩ := Option.map_eq_some_iff.mp more
      cases same
      exact .inl ⟨rest', vs', comma, later, rfl⟩
    · rename_i rest' closes
      cases more
      exact .inr ⟨closes, rfl⟩
    · cases more
  · rintro ⟨v, rest, value, ⟨rest', vs', comma, later, rfl⟩ | ⟨closes, rfl⟩⟩
    · simp only [value, Option.bind_eq_bind, Option.bind_some, comma, later, Option.map_some]
    · simp only [value, Option.bind_eq_bind, Option.bind_some, closes]

/-- The properties of an object in the same way. -/
theorem readMembers_eq_some {ps : List (List UInt16 × Json ν)} :
    readMembers F (n + 1) text = some (ps, next) ↔
      ∃ start k r₁ r₂ v rest, skip text = quoteMark :: start ∧
        readString start = some (k, r₁) ∧ skip r₁ = ':' :: r₂ ∧
        readValue F n r₂ = some (v, rest) ∧
        ((∃ rest' ps', skip rest = ',' :: rest' ∧ readMembers F n rest' = some (ps', next) ∧
            ps = (k, v) :: ps') ∨
          (skip rest = '\x7d' :: next ∧ ps = [(k, v)])) := by
  rw [readMembers]
  constructor
  · intro read
    split at read
    case h_2 => cases read
    case h_1 start quote =>
      obtain ⟨⟨k, r₁⟩, key, read⟩ := Option.bind_eq_some_iff.mp read
      dsimp only at read
      split at read
      case h_2 => cases read
      case h_1 r₂ colon =>
        obtain ⟨⟨v, rest⟩, value, more⟩ := Option.bind_eq_some_iff.mp read
        refine ⟨start, k, r₁, r₂, v, rest, quote, key, colon, value, ?_⟩
        dsimp only at more
        split at more
        · rename_i rest' comma
          obtain ⟨⟨ps', _⟩, later, same⟩ := Option.map_eq_some_iff.mp more
          cases same
          exact .inl ⟨rest', ps', comma, later, rfl⟩
        · rename_i rest' closes
          cases more
          exact .inr ⟨closes, rfl⟩
        · cases more
  · rintro ⟨start, k, r₁, r₂, v, rest, quote, key, colon, value,
      ⟨rest', ps', comma, later, rfl⟩ | ⟨closes, rfl⟩⟩
    · have quote' : skip text = '\x22' :: start := quote
      simp only [quote', key, colon, value, Option.bind_eq_bind, Option.bind_some, comma, later,
        Option.map_some]
    · have quote' : skip text = '\x22' :: start := quote
      simp only [quote', key, colon, value, Option.bind_eq_bind, Option.bind_some, closes]

/-! ### The reader and the spacing -/

/-- What the reader finds in a text it finds in one that is spaced further,
with as much fuel or more. -/
def Finds {α : Type} (read : ℕ → List Char → Option (α × List Char)) (n : ℕ) : Prop :=
  ∀ {l r r' : List Char} {a : α}, Spaced l r → read n r = some (a, r') → ∀ m, n ≤ m →
    ∃ l', read m l = some (a, l') ∧ Spaced l' r'

theorem mem_marks_of_end {c : Char} (listed : c ∈ [']', '\x7d', ',', ':']) : c ∈ marks := by
  simp only [List.mem_cons, List.not_mem_nil, or_false] at listed
  rcases listed with rfl | rfl | rfl | rfl <;> decide

theorem finds_value (elements : Finds (readElements F) n) (members : Finds (readMembers F) n) :
    Finds (readValue F) (n + 1) := by
  rintro l r r' v spaced read (_ | m) enough
  · omega
  have less : n ≤ m := by omega
  rcases spaced.skip with ⟨left, right⟩ | ⟨text, l₁, r₁, token, more, left, right⟩
  · rw [readValue_end right] at read
    rw [readValue_end left]
    obtain ⟨k, value, same⟩ := Option.map_eq_some_iff.mp read
    cases same
    exact ⟨[], by rw [value]; rfl, .nil⟩
  cases token with
  | literal inside =>
      rw [List.append_assoc, List.cons_append, List.singleton_append] at left right
      rw [readValue_literal right] at read
      rw [readValue_literal left]
      rcases inside.read with fails | ⟨units, reads⟩
      · rw [fails] at read
        cases read
      · rw [reads] at read ⊢
        cases read
        exact ⟨l₁, rfl, more⟩
  | word listed =>
      obtain ⟨w, reads⟩ := readValue_word (F := F) listed
      rw [reads right] at read
      cases read
      exact ⟨l₁, reads left, more⟩
  | number chars some stops =>
      rw [readValue_digits chars some stops right] at read
      rw [readValue_digits chars some (more.stops stops) left]
      obtain ⟨k, value, same⟩ := Option.map_eq_some_iff.mp read
      cases same
      exact ⟨l₁, by rw [value]; rfl, more⟩
  | @mark c listed =>
      rw [List.singleton_append] at left right
      have goes {d : Char} (away : ∀ x, Json.skip r₁ ≠ d :: x) (x : List Char) :
          Json.skip l₁ ≠ d :: x := by
        intro here
        have head := more.head
        rw [here] at head
        obtain ⟨y, there⟩ := List.head?_eq_some_iff.mp head.symm
        exact away y there
      have opens : c = '[' ∨ c = '\x7b' ∨ c ∈ [']', '\x7d', ',', ':'] := by
        simp only [marks, List.mem_cons, List.not_mem_nil, or_false] at listed ⊢
        tauto
      rcases opens with rfl | rfl | ends
      · by_cases closes : ∃ x, Json.skip r₁ = ']' :: x
        · obtain ⟨x, closes⟩ := closes
          obtain ⟨y, closes', later⟩ := more.mark (by decide) closes
          rw [readValue_emptyArray right closes] at read
          cases read
          exact ⟨y, readValue_emptyArray left closes', later⟩
        · have away := not_exists.mp closes
          rw [readValue_elements right away] at read
          rw [readValue_elements left (goes away)]
          obtain ⟨⟨vs, _⟩, found, same⟩ := Option.map_eq_some_iff.mp read
          cases same
          obtain ⟨l', found', later⟩ := elements more.skipped found m less
          exact ⟨l', by rw [found']; rfl, later⟩
      · by_cases closes : ∃ x, Json.skip r₁ = '\x7d' :: x
        · obtain ⟨x, closes⟩ := closes
          obtain ⟨y, closes', later⟩ := more.mark (by decide) closes
          rw [readValue_emptyObject right closes] at read
          cases read
          exact ⟨y, readValue_emptyObject left closes', later⟩
        · have away := not_exists.mp closes
          rw [readValue_members right away] at read
          rw [readValue_members left (goes away)]
          obtain ⟨⟨ps, _⟩, found, same⟩ := Option.map_eq_some_iff.mp read
          cases same
          obtain ⟨l', found', later⟩ := members more.skipped found m less
          exact ⟨l', by rw [found']; rfl, later⟩
      · rw [readValue_mark ends right] at read
        rw [readValue_mark ends left]
        obtain ⟨k, value, same⟩ := Option.map_eq_some_iff.mp read
        cases same
        exact ⟨c :: l₁, by rw [value]; rfl, .token (.mark listed _) more⟩

theorem finds_elements (values : Finds (readValue F) n) (elements : Finds (readElements F) n) :
    Finds (readElements F) (n + 1) := by
  rintro l r r' vs spaced read (_ | m) enough
  · omega
  have less : n ≤ m := by omega
  obtain ⟨v, rest, value, more⟩ := readElements_eq_some.mp read
  obtain ⟨l₁, value', later⟩ := values spaced value m less
  rcases more with ⟨rest', vs', comma, found, rfl⟩ | ⟨closes, rfl⟩
  · obtain ⟨l₂, comma', further⟩ := later.mark (by decide) comma
    obtain ⟨l', found', last⟩ := elements further found m less
    exact ⟨l', readElements_eq_some.mpr
      ⟨v, l₁, value', .inl ⟨l₂, vs', comma', found', rfl⟩⟩, last⟩
  · obtain ⟨l', closes', last⟩ := later.mark (by decide) closes
    exact ⟨l', readElements_eq_some.mpr ⟨v, l₁, value', .inr ⟨closes', rfl⟩⟩, last⟩

theorem finds_members (values : Finds (readValue F) n) (members : Finds (readMembers F) n) :
    Finds (readMembers F) (n + 1) := by
  rintro l r r' ps spaced read (_ | m) enough
  · omega
  have less : n ≤ m := by omega
  obtain ⟨start, k, r₁, r₂, v, rest, quote, key, colon, value, more⟩ :=
    readMembers_eq_some.mp read
  obtain ⟨body, l₁, r₁', inside, after, rfl, quote'⟩ := spaced.quote quote
  obtain ⟨key', same⟩ : (∀ next, readString (body ++ quoteMark :: next) = some (k, next)) ∧
      r₁ = r₁' := by
    rcases inside.read with fails | ⟨units, reads⟩
    · rw [fails] at key
      cases key
    · have found := reads r₁'
      rw [key] at found
      cases found
      exact ⟨reads, rfl⟩
  subst same
  obtain ⟨l₂, colon', behind⟩ := after.mark (by decide) colon
  obtain ⟨l₃, value', later⟩ := values behind value m less
  rcases more with ⟨rest', ps', comma, found, rfl⟩ | ⟨closes, rfl⟩
  · obtain ⟨l₄, comma', further⟩ := later.mark (by decide) comma
    obtain ⟨l', found', last⟩ := members further found m less
    exact ⟨l', readMembers_eq_some.mpr ⟨_, k, l₁, l₂, v, l₃, quote', key' l₁, colon', value',
      .inl ⟨l₄, ps', comma', found', rfl⟩⟩, last⟩
  · obtain ⟨l', closes', last⟩ := later.mark (by decide) closes
    exact ⟨l', readMembers_eq_some.mpr ⟨_, k, l₁, l₂, v, l₃, quote', key' l₁, colon', value',
      .inr ⟨closes', rfl⟩⟩, last⟩

theorem finds (n : ℕ) : Finds (readValue F) n ∧ Finds (readElements F) n ∧
    Finds (readMembers F) n := by
  induction n with
  | zero => exact ⟨nofun, nofun, nofun⟩
  | succ n ih =>
      obtain ⟨values, elements, members⟩ := ih
      exact ⟨finds_value elements members, finds_elements values elements,
        finds_members values members⟩

theorem Spaced.length {l r : List Char} (spaced : Spaced l r) : r.length ≤ l.length := by
  induction spaced with
  | nil => exact Nat.le_refl _
  | blank | token => simp; omega
  | added => simp; omega

/-- Blanks that are added between the tokens do not change what is parsed. -/
theorem Spaced.parse {l r : List Char} {v : Json ν} (spaced : Spaced l r)
    (parsed : Json.parse F r = some v) : Json.parse F l = some v := by
  rw [Json.parse] at parsed
  split at parsed
  case h_2 => cases parsed
  case h_1 w rest read =>
    split_ifs at parsed with ended
    cases parsed
    obtain ⟨l', read', later⟩ := (finds _).1 spaced read (l.length + 1)
      (Nat.succ_le_succ spaced.length)
    have ended' : Json.skip l' = [] := by
      have head := later.head
      rw [ended] at head
      exact List.head?_eq_none_iff.mp head
    rw [Json.parse, read']
    exact if_pos ended'

/-! ### What is read is made of tokens -/

/-- How a value is read, with what follows it. -/
inductive ValueRead (F : NumberFormat ν) (n : ℕ) (text : List Char) : Json ν → List Char → Prop
  | string {start next : List Char} {units : List UInt16}
      (opens : Json.skip text = quoteMark :: start)
      (read : readString start = some (units, next)) : ValueRead F n text (.string units) next
  | emptyArray {start next : List Char} (opens : Json.skip text = '[' :: start)
      (closes : Json.skip start = ']' :: next) : ValueRead F n text (.array []) next
  | array {start next : List Char} {vs : List (Json ν)} (opens : Json.skip text = '[' :: start)
      (read : readElements F n (Json.skip start) = some (vs, next)) :
      ValueRead F n text (.array vs) next
  | emptyObject {start next : List Char} (opens : Json.skip text = '\x7b' :: start)
      (closes : Json.skip start = '\x7d' :: next) : ValueRead F n text (.object []) next
  | object {start next : List Char} {ps : List (List UInt16 × Json ν)}
      (opens : Json.skip text = '\x7b' :: start)
      (read : readMembers F n (Json.skip start) = some (ps, next)) :
      ValueRead F n text (.object (ps.foldl put [])) next
  | word {v : Json ν} {next : List Char} (listed : v = .null ∨ ∃ b, v = .bool b)
      (word : Json.skip text = stringify F v ++ next) : ValueRead F n text v next
  | number {k : ν} (value : F.value ((Json.skip text).takeWhile isNumberChar) = some k) :
      ValueRead F n text (.number k) ((Json.skip text).dropWhile isNumberChar)

theorem valueRead_of_readValue {v : Json ν} (read : readValue F (n + 1) text = some (v, rest)) :
    ValueRead F n text v rest := by
  rw [readValue] at read
  split at read
  case h_1 start quote =>
    obtain ⟨⟨units, _⟩, found, same⟩ := Option.map_eq_some_iff.mp read
    cases same
    exact .string quote found
  case h_2 start opens =>
    split at read
    case h_1 rest' closes =>
      cases read
      exact .emptyArray opens closes
    case h_2 =>
      obtain ⟨⟨vs, _⟩, found, same⟩ := Option.map_eq_some_iff.mp read
      cases same
      exact .array opens found
  case h_3 start opens =>
    split at read
    case h_1 rest' closes =>
      cases read
      exact .emptyObject opens closes
    case h_2 =>
      obtain ⟨⟨ps, _⟩, found, same⟩ := Option.map_eq_some_iff.mp read
      cases same
      exact .object opens found
  case h_4 start word =>
    cases read
    exact .word (.inl rfl) word
  case h_5 start word =>
    cases read
    exact .word (.inr ⟨true, rfl⟩) word
  case h_6 start word =>
    cases read
    exact .word (.inr ⟨false, rfl⟩) word
  case h_7 =>
    obtain ⟨k, value, same⟩ := Option.map_eq_some_iff.mp read
    cases same
    exact .number value

/-- The reader takes whole tokens from the text. -/
def Takes {α : Type} (read : List Char → Option (α × List Char)) : Prop :=
  ∀ {text rest : List Char} {a : α}, read text = some (a, rest) → Tokens rest → Tokens text

theorem tokens_of_skip {text : List Char} (tokens : Tokens (Json.skip text)) : Tokens text := by
  induction text with
  | nil => exact .nil
  | cons c l ih =>
      cases white : isBlank c with
      | true =>
          rw [skip_blank white] at tokens
          exact .blank white (ih tokens)
      | false =>
          rw [skip_cons white] at tokens
          exact tokens

theorem tokens_of_mark {c : Char} (listed : c ∈ marks) (start : Json.skip text = c :: rest)
    (more : Tokens rest) : Tokens text := by
  refine tokens_of_skip ?_
  rw [start]
  exact .token (.mark listed rest) more

theorem tokens_of_literal {units : List UInt16} (start : Json.skip text = quoteMark :: rest)
    (read : readString rest = some (units, next)) (more : Tokens next) : Tokens text := by
  obtain ⟨body, inside, rfl⟩ := body_of_readString read
  refine tokens_of_skip ?_
  have whole : quoteMark :: (body ++ quoteMark :: next) =
      (quoteMark :: body ++ [quoteMark]) ++ next := by simp
  rw [start, whole]
  exact .token (.literal inside next) more

theorem takes_value (elements : Takes (readElements F n)) (members : Takes (readMembers F n)) :
    Takes (readValue F (n + 1)) := by
  intro text rest v read more
  cases valueRead_of_readValue read with
  | string quote found => exact tokens_of_literal quote found more
  | emptyArray opens closes =>
      exact tokens_of_mark (by decide) opens (tokens_of_mark (by decide) closes more)
  | array opens found =>
      exact tokens_of_mark (by decide) opens (tokens_of_skip (elements found more))
  | emptyObject opens closes =>
      exact tokens_of_mark (by decide) opens (tokens_of_mark (by decide) closes more)
  | object opens found =>
      exact tokens_of_mark (by decide) opens (tokens_of_skip (members found more))
  | word listed word =>
      refine tokens_of_skip ?_
      rw [word]
      refine .token (.word ?_ _) more
      rcases listed with rfl | ⟨b, rfl⟩
      · exact (show ['n', 'u', 'l', 'l'] ∈ words by decide)
      cases b with
      | false => exact (show ['f', 'a', 'l', 's', 'e'] ∈ words by decide)
      | true => exact (show ['t', 'r', 'u', 'e'] ∈ words by decide)
  | number value =>
      refine tokens_of_skip ?_
      rw [← List.takeWhile_append_dropWhile (p := isNumberChar) (l := Json.skip text)]
      by_cases none : (Json.skip text).takeWhile isNumberChar = []
      · rw [none]
        exact more
      · refine .token (.number (fun c mem => List.mem_takeWhile_imp mem) none ?_) more
        intro c first
        have stopped := List.head?_dropWhile_not isNumberChar (Json.skip text)
        rw [Option.mem_def.mp first] at stopped
        simpa using stopped

theorem takes_elements (values : Takes (readValue F n)) (elements : Takes (readElements F n)) :
    Takes (readElements F (n + 1)) := by
  intro text next vs read more
  obtain ⟨v, rest, value, ⟨rest', vs', comma, found, rfl⟩ | ⟨closes, rfl⟩⟩ :=
    readElements_eq_some.mp read
  · exact values value (tokens_of_mark (by decide) comma (elements found more))
  · exact values value (tokens_of_mark (by decide) closes more)

theorem takes_members (values : Takes (readValue F n)) (members : Takes (readMembers F n)) :
    Takes (readMembers F (n + 1)) := by
  intro text next ps read more
  obtain ⟨start, k, r₁, r₂, v, rest, quote, key, colon, value, last⟩ :=
    readMembers_eq_some.mp read
  refine tokens_of_literal quote key (tokens_of_mark (by decide) colon (values value ?_))
  rcases last with ⟨rest', ps', comma, found, rfl⟩ | ⟨closes, rfl⟩
  · exact tokens_of_mark (by decide) comma (members found more)
  · exact tokens_of_mark (by decide) closes more

theorem takes (n : ℕ) : Takes (readValue F n) ∧ Takes (readElements F n) ∧
    Takes (readMembers F n) := by
  induction n with
  | zero => exact ⟨nofun, nofun, nofun⟩
  | succ n ih =>
      obtain ⟨values, elements, members⟩ := ih
      exact ⟨takes_value elements members, takes_elements values elements,
        takes_members values members⟩

/-- A text that is parsed is made of tokens and blanks. -/
theorem tokens_of_parse {text : List Char} {v : Json ν} (parsed : Json.parse F text = some v) :
    Tokens text := by
  rw [Json.parse] at parsed
  split at parsed
  case h_2 => cases parsed
  case h_1 w rest read =>
    split_ifs at parsed with ended
    refine (takes _).1 read (tokens_of_skip ?_)
    rw [ended]
    exact .nil

end Reading

end Library.Json
