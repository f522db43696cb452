import Mathlib.Data.List.Basic
import Mathlib.Data.List.Infix
import Mathlib.Tactic.Common

/-!
Placeholders in a text.

A placeholder is a name between `${` and `}`. From left to right a text is cut
into its placeholders and the characters outside of them; what replaces the
placeholders and the list of their names are read off the pieces. A braced
token is anything between `${` and the next `}`.

The alphabet is arbitrary: the patterns look at the codes of the characters.
-/

namespace Library.Placeholder

/-! ### Patterns -/

/-- A code that a name may begin with. -/
def isStart (n : ℕ) : Bool := decide (65 ≤ n ∧ n ≤ 90 ∨ n = 95 ∨ 97 ≤ n ∧ n ≤ 122)

/-- A code that may stand in a name. -/
def isPart (n : ℕ) : Bool := isStart n || decide (48 ≤ n ∧ n ≤ 57)

/-- The rest of a name, in front of the brace that ends the placeholder. -/
def nameFrom : List ℕ → Option (List ℕ)
  | [] => none
  | n :: rest =>
      if isPart n then (nameFrom rest).map (n :: ·) else if n = 125 then some [] else none

/-- `\$\{([A-Za-z_][A-Za-z0-9_]*)\}`: the name of the placeholder that a text
begins with. -/
def nameAt : List ℕ → Option (List ℕ)
  | d :: b :: n :: rest =>
      if d = 36 ∧ b = 123 ∧ isStart n then (nameFrom rest).map (n :: ·) else none
  | _ => none

/-- The placeholder of a name. -/
def placeholder (n : List ℕ) : List ℕ := 36 :: 123 :: (n ++ [125])

theorem isPart_of_isStart {n : ℕ} (start : isStart n = true) : isPart n = true := by
  rw [isPart, start, Bool.true_or]

/-- A name. -/
inductive IsName : List ℕ → Prop
  | intro {x : ℕ} {n : List ℕ} (start : isStart x = true) (parts : ∀ y ∈ n, isPart y = true) :
      IsName (x :: n)

theorem IsName.parts {n : List ℕ} (name : IsName n) : ∀ x ∈ n, isPart x = true := by
  cases name with
  | intro start parts => exact List.forall_mem_cons.mpr ⟨isPart_of_isStart start, parts⟩

theorem isPart_ne {n : ℕ} (part : isPart n = true) : n ≠ 36 ∧ n ≠ 123 ∧ n ≠ 125 := by
  refine ⟨?_, ?_, ?_⟩ <;>
  · rintro rfl
    exact absurd part (by decide)

theorem nameFrom_eq_some {l n : List ℕ} :
    nameFrom l = some n ↔ (∀ x ∈ n, isPart x = true) ∧ ∃ rest, l = n ++ 125 :: rest := by
  constructor
  · intro found
    induction l generalizing n with
    | nil => cases found
    | cons x l ih =>
        rw [nameFrom] at found
        split_ifs at found with part ends
        · obtain ⟨m, later, rfl⟩ := Option.map_eq_some_iff.mp found
          obtain ⟨parts, rest, rfl⟩ := ih later
          exact ⟨List.forall_mem_cons.mpr ⟨part, parts⟩, rest, rfl⟩
        · cases found
          exact ⟨nofun, l, by rw [ends, List.nil_append]⟩
  · rintro ⟨parts, rest, rfl⟩
    induction n with
    | nil => rfl
    | cons x n ih =>
        obtain ⟨part, parts⟩ := List.forall_mem_cons.mp parts
        rw [List.cons_append, nameFrom, if_pos part, ih parts, Option.map_some]

theorem nameAt_eq_some {l n : List ℕ} :
    nameAt l = some n ↔ IsName n ∧ ∃ rest, l = placeholder n ++ rest := by
  constructor
  · intro found
    rcases l with _ | ⟨d, _ | ⟨b, _ | ⟨x, l⟩⟩⟩
    · cases found
    · cases found
    · cases found
    rw [nameAt] at found
    split_ifs at found with opens
    obtain ⟨rfl, rfl, start⟩ := opens
    obtain ⟨m, later, rfl⟩ := Option.map_eq_some_iff.mp found
    obtain ⟨parts, rest, rfl⟩ := nameFrom_eq_some.mp later
    exact ⟨.intro start parts, rest, by simp [placeholder]⟩
  · rintro ⟨⟨start, parts⟩, rest, rfl⟩
    simp only [placeholder, List.cons_append, List.append_assoc, List.nil_append]
    rw [nameAt, if_pos ⟨rfl, rfl, start⟩, nameFrom_eq_some.mpr ⟨parts, rest, rfl⟩, Option.map_some]

/-- A code that a placeholder may hold. -/
def Inside (n : ℕ) : Prop := isPart n = true ∨ n = 36 ∨ n = 123 ∨ n = 125

/-- Two texts that are the same up to a code that no placeholder holds. -/
inductive Agree : List ℕ → List ℕ → Prop
  | same (n : ℕ) {l r : List ℕ} (more : Agree l r) : Agree (n :: l) (n :: r)
  | differ {l r : List ℕ} (left : ∀ n ∈ l.head?, ¬Inside n) (right : ∀ n ∈ r.head?, ¬Inside n) :
      Agree l r

theorem nameFrom_foreign {l : List ℕ} (foreign : ∀ n ∈ l.head?, ¬Inside n) :
    nameFrom l = none := by
  cases l with
  | nil => rfl
  | cons n l =>
      have outside : ¬Inside n := foreign n rfl
      rw [nameFrom, if_neg fun part => outside (.inl part),
        if_neg fun ends => outside (.inr (.inr (.inr ends)))]

theorem Agree.nameFrom {l r : List ℕ} (agree : Agree l r) : nameFrom l = nameFrom r := by
  induction agree with
  | same n more ih => rw [Placeholder.nameFrom, Placeholder.nameFrom, ih]
  | differ left right => rw [nameFrom_foreign left, nameFrom_foreign right]

theorem nameAt_of_head {l : List ℕ} (other : ∀ n ∈ l.head?, n ≠ 36) : nameAt l = none := by
  rcases l with _ | ⟨d, _ | ⟨b, _ | ⟨x, l⟩⟩⟩
  · rfl
  · rfl
  · rfl
  · rw [nameAt, if_neg fun opens => other d rfl opens.1]

theorem nameAt_of_ne {n : ℕ} (other : n ≠ 36) (l : List ℕ) : nameAt (n :: l) = none :=
  nameAt_of_head fun _ first => Option.some.inj first ▸ other

theorem nameAt_of_second {d : ℕ} {l : List ℕ} (other : ∀ n ∈ l.head?, n ≠ 123) :
    nameAt (d :: l) = none := by
  rcases l with _ | ⟨b, _ | ⟨x, l⟩⟩
  · rfl
  · rfl
  · rw [nameAt, if_neg fun opens => other b rfl opens.2.1]

theorem nameAt_of_third {d b : ℕ} {l : List ℕ} (other : ∀ n ∈ l.head?, isStart n = false) :
    nameAt (d :: b :: l) = none := by
  cases l with
  | nil => rfl
  | cons x l =>
      have no : ¬isStart x = true := by rw [other x rfl]; decide
      rw [nameAt, if_neg fun opens => no opens.2.2]

theorem isStart_of_foreign {n : ℕ} (outside : ¬Inside n) : isStart n = false := by
  by_contra start
  rw [Bool.not_eq_false] at start
  exact outside (.inl (isPart_of_isStart start))

/-- A placeholder is found in both texts or in none. -/
theorem Agree.nameAt {l r : List ℕ} (agree : Agree l r) : nameAt l = nameAt r := by
  have dollar {n : ℕ} (outside : ¬Inside n) : n ≠ 36 := fun h => outside (.inr (.inl h))
  have brace {n : ℕ} (outside : ¬Inside n) : n ≠ 123 := fun h => outside (.inr (.inr (.inl h)))
  cases agree with
  | differ left right =>
      rw [nameAt_of_head fun n h => dollar (left n h), nameAt_of_head fun n h => dollar (right n h)]
  | same d agree =>
  cases agree with
  | differ left right =>
      rw [nameAt_of_second fun n h => brace (left n h),
        nameAt_of_second fun n h => brace (right n h)]
  | same b agree =>
  cases agree with
  | differ left right =>
      rw [nameAt_of_third fun n h => isStart_of_foreign (left n h),
        nameAt_of_third fun n h => isStart_of_foreign (right n h)]
  | same x agree => rw [Placeholder.nameAt, Placeholder.nameAt, agree.nameFrom]

theorem Agree.head {l r : List ℕ} (agree : Agree l r) :
    l.head? = some 123 ↔ r.head? = some 123 := by
  cases agree with
  | same n more => rfl
  | differ left right =>
      have brace : Inside 123 := .inr (.inr (.inl rfl))
      exact ⟨fun h => absurd brace (left _ h), fun h => absurd brace (right _ h)⟩

/-! ### Pieces -/

/-- A character outside of the placeholders, or a placeholder. -/
inductive Piece (γ : Type) where
  | plain (c : γ)
  | name (n : List ℕ)

section Cut

variable {γ : Type} (code : γ → ℕ)

/-- The pieces of a text, behind so many characters that are passed over. -/
def cut : ℕ → List γ → List (Piece γ)
  | _, [] => []
  | k + 1, _ :: rest => cut k rest
  | 0, c :: rest =>
      match nameAt ((c :: rest).map code) with
      | some n => .name n :: cut (n.length + 2) rest
      | none => .plain c :: cut 0 rest

/-- The text of some pieces, with a value for each name. -/
def textOf (value : List ℕ → List γ) : List (Piece γ) → List γ
  | [] => []
  | .plain c :: ps => c :: textOf value ps
  | .name n :: ps => value n ++ textOf value ps

/-- The names among some pieces. -/
def namesOf : List (Piece γ) → List (List ℕ)
  | [] => []
  | .plain _ :: ps => namesOf ps
  | .name n :: ps => n :: namesOf ps

/-- Replace the placeholders. -/
def fill (value : List ℕ → List γ) (text : List γ) : List γ := textOf value (cut code 0 text)

/-- The names of the placeholders. -/
def names (text : List γ) : List (List ℕ) := namesOf (cut code 0 text)

variable {code}

@[simp] theorem textOf_append (value : List ℕ → List γ) (ps qs : List (Piece γ)) :
    textOf value (ps ++ qs) = textOf value ps ++ textOf value qs := by
  induction ps with
  | nil => rfl
  | cons p ps ih => cases p <;> simp [textOf, ih]

@[simp] theorem textOf_plain (value : List ℕ → List γ) (l : List γ) :
    textOf value (l.map .plain) = l := by
  induction l with
  | nil => rfl
  | cons c l ih => rw [List.map_cons, textOf, ih]

@[simp] theorem namesOf_append (ps qs : List (Piece γ)) :
    namesOf (ps ++ qs) = namesOf ps ++ namesOf qs := by
  induction ps with
  | nil => rfl
  | cons p ps ih => cases p <;> simp [namesOf, ih]

@[simp] theorem namesOf_plain (l : List γ) : namesOf (l.map Piece.plain) = [] := by
  induction l with
  | nil => rfl
  | cons c l ih => rw [List.map_cons, namesOf, ih]

theorem cut_name {c : γ} {rest : List γ} {n : List ℕ}
    (found : nameAt ((c :: rest).map code) = some n) :
    cut code 0 (c :: rest) = .name n :: cut code (n.length + 2) rest := by
  rw [cut, found]

theorem cut_plain {c : γ} {rest : List γ} (none : nameAt ((c :: rest).map code) = none) :
    cut code 0 (c :: rest) = .plain c :: cut code 0 rest := by
  rw [cut, none]

/-- Where no dollar sign stands, there is no placeholder. -/
theorem cut_append {l : List γ} (noDollar : ∀ c ∈ l, code c ≠ 36) (rest : List γ) :
    cut code 0 (l ++ rest) = l.map .plain ++ cut code 0 rest := by
  induction l with
  | nil => rfl
  | cons c l ih =>
      obtain ⟨first, others⟩ := List.forall_mem_cons.mp noDollar
      have none : nameAt ((c :: (l ++ rest)).map code) = none := nameAt_of_ne first _
      rw [List.cons_append, cut_plain none, ih others, List.map_cons, List.cons_append]

/-- A placeholder in front of a text. -/
theorem nameAt_cons {c : γ} {rest : List γ} {n : List ℕ}
    (found : nameAt ((c :: rest).map code) = some n) :
    code c = 36 ∧ ∃ after, rest.map code = 123 :: (n ++ 125 :: after) := by
  obtain ⟨-, after, text⟩ := nameAt_eq_some.mp found
  simp only [placeholder, List.map_cons, List.cons_append, List.append_assoc, List.nil_append,
    List.cons.injEq] at text
  exact ⟨text.1, after, text.2⟩

/-- What is passed over belongs to the placeholder. -/
theorem nameAt_take {c : γ} {rest : List γ} {n : List ℕ}
    (found : nameAt ((c :: rest).map code) = some n) :
    n.length + 2 ≤ rest.length ∧ (rest.take (n.length + 2)).map code = 123 :: (n ++ [125]) := by
  obtain ⟨-, after, others⟩ := nameAt_cons found
  constructor
  · have total := congrArg List.length others
    simp only [List.length_map, List.length_cons, List.length_append] at total
    omega
  · have whole : 123 :: (n ++ 125 :: after) = (123 :: (n ++ [125])) ++ after := by simp
    rw [List.map_take, others, whole, List.take_left' (by simp)]

/-- A placeholder holds one dollar sign. -/
theorem nameAt_noDollar {c : γ} {rest : List γ} {n : List ℕ}
    (found : nameAt ((c :: rest).map code) = some n) :
    ∀ x ∈ rest.take (n.length + 2), code x ≠ 36 := by
  intro x inside
  have listed := List.mem_map_of_mem (f := code) inside
  rw [(nameAt_take found).2] at listed
  simp only [List.mem_cons, List.mem_append, List.not_mem_nil, or_false] at listed
  rcases listed with h | h | h
  · omega
  · exact (isPart_ne ((nameAt_eq_some.mp found).1.parts _ h)).1
  · omega

end Cut

/-! ### Braced tokens -/

section Tokens

variable {γ : Type} (code : γ → ℕ)

/-- The text up to the first closing brace. -/
def upToBrace : List γ → Option (List γ)
  | [] => none
  | c :: rest => if code c = 125 then some [c] else (upToBrace rest).map (c :: ·)

/-- `\$\{[^}]*\}`: the token that a text begins with. -/
def tokenAt : List γ → Option (List γ)
  | d :: b :: rest =>
      if code d = 36 ∧ code b = 123 then (upToBrace code rest).map (d :: b :: ·) else none
  | _ => none

/-- The tokens of a text, behind so many characters that are passed over. -/
def tokensFrom : ℕ → List γ → List (List γ)
  | _, [] => []
  | k + 1, _ :: rest => tokensFrom k rest
  | 0, c :: rest =>
      match tokenAt code (c :: rest) with
      | some t => t :: tokensFrom (t.length - 1) rest
      | none => tokensFrom 0 rest

/-- The tokens of a text. -/
def tokens (text : List γ) : List (List γ) := tokensFrom code 0 text

/-- `^\$\{([A-Za-z_][A-Za-z0-9_]*)\}$`: the name, where a token is a
placeholder as a whole. -/
def wholeName (token : List γ) : Option (List ℕ) :=
  (nameAt (token.map code)).filter fun n => n.length + 3 = token.length

/-- The tokens that are no placeholders. -/
def malformed (text : List γ) : List (List γ) :=
  (tokens code text).filter fun token => (wholeName code token).isNone

/-- A dollar sign in front of an opening brace. -/
def Opens (text : List γ) : Prop := [36, 123] <:+: text.map code

instance (text : List γ) : Decidable (Opens code text) :=
  inferInstanceAs (Decidable (_ <:+: _))

variable {code}

theorem opens_append {d b : γ} (a r : List γ) (dollar : code d = 36) (brace : code b = 123) :
    Opens code (a ++ d :: b :: r) :=
  ⟨a.map code, r.map code, by simp [dollar, brace]⟩

theorem opens_cons {c : γ} {l : List γ} : Opens code (c :: l) ↔
    (code c = 36 ∧ (l.map code).head? = some 123) ∨ Opens code l := by
  rw [Opens, List.map_cons, List.infix_cons_iff, List.cons_prefix_cons, eq_comm (a := 36)]
  refine or_congr (and_congr_right fun _ => ?_) Iff.rfl
  cases l.map code with
  | nil => simp
  | cons n m => simp [eq_comm]

/-- Where no dollar sign stands, nothing is opened. -/
theorem opens_plain {l : List γ} (noDollar : ∀ c ∈ l, code c ≠ 36) {r : List γ} :
    Opens code (l ++ r) ↔ Opens code r := by
  induction l with
  | nil => rfl
  | cons c l ih =>
      obtain ⟨first, others⟩ := List.forall_mem_cons.mp noDollar
      rw [List.cons_append, opens_cons, ih others]
      simp [first]

theorem opens_iff {text : List γ} : Opens code text ↔
    ∃ a d b r, text = a ++ d :: b :: r ∧ code d = 36 ∧ code b = 123 := by
  constructor
  · rintro ⟨s, t, whole⟩
    rw [eq_comm, List.map_eq_append_iff] at whole
    obtain ⟨a, r, rfl, front, -⟩ := whole
    rw [List.map_eq_append_iff] at front
    obtain ⟨a, o, rfl, -, two⟩ := front
    obtain ⟨d, o, rfl, dollar, two⟩ := List.map_eq_cons_iff.mp two
    obtain ⟨b, o, rfl, brace, two⟩ := List.map_eq_cons_iff.mp two
    obtain rfl := List.map_eq_nil_iff.mp two
    exact ⟨a, d, b, r, by simp, dollar, brace⟩
  · rintro ⟨a, d, b, r, rfl, dollar, brace⟩
    exact opens_append a r dollar brace

theorem upToBrace_eq_some {l t : List γ} (found : upToBrace code l = some t) :
    ∃ body e r, t = body ++ [e] ∧ l = t ++ r ∧ code e = 125 ∧ ∀ c ∈ body, code c ≠ 125 := by
  induction l generalizing t with
  | nil => cases found
  | cons c l ih =>
      rw [upToBrace] at found
      split_ifs at found with ends
      · cases found
        exact ⟨[], c, l, rfl, rfl, ends, nofun⟩
      · obtain ⟨t, later, rfl⟩ := Option.map_eq_some_iff.mp found
        obtain ⟨body, e, r, rfl, rfl, brace, before⟩ := ih later
        exact ⟨c :: body, e, r, rfl, rfl, brace, List.forall_mem_cons.mpr ⟨ends, before⟩⟩

theorem upToBrace_eq_none {l : List γ} (none : upToBrace code l = none) :
    ∀ c ∈ l, code c ≠ 125 := by
  induction l with
  | nil => nofun
  | cons c l ih =>
      rw [upToBrace] at none
      split_ifs at none with ends
      exact List.forall_mem_cons.mpr ⟨ends, ih (Option.map_eq_none_iff.mp none)⟩

/-- A token and what stands behind it. -/
theorem tokenAt_eq_some {l t : List γ} (found : tokenAt code l = some t) :
    ∃ d b body e r, t = d :: b :: (body ++ [e]) ∧ l = t ++ r ∧ code d = 36 ∧ code b = 123 ∧
      code e = 125 ∧ ∀ c ∈ body, code c ≠ 125 := by
  rcases l with _ | ⟨d, _ | ⟨b, l⟩⟩
  · cases found
  · cases found
  rw [tokenAt] at found
  split_ifs at found with opens
  obtain ⟨t, later, rfl⟩ := Option.map_eq_some_iff.mp found
  obtain ⟨body, e, r, rfl, rfl, brace, before⟩ := upToBrace_eq_some later
  exact ⟨d, b, body, e, r, rfl, rfl, opens.1, opens.2, brace, before⟩

/-- Where a token stands. -/
theorem mem_tokensFrom {text t : List γ} {k : ℕ} (listed : t ∈ tokensFrom code k text) :
    ∃ a l, text = a ++ l ∧ tokenAt code l = some t := by
  induction text generalizing k with
  | nil => cases k <;> cases listed
  | cons c text ih =>
      have later {k : ℕ} (listed : t ∈ tokensFrom code k text) :
          ∃ a l, c :: text = a ++ l ∧ tokenAt code l = some t := by
        obtain ⟨a, l, rfl, found⟩ := ih listed
        exact ⟨c :: a, l, rfl, found⟩
      cases k with
      | succ k => exact later listed
      | zero =>
          rw [tokensFrom] at listed
          cases found : tokenAt code (c :: text) with
          | none =>
              rw [found] at listed
              exact later listed
          | some u =>
              rw [found] at listed
              rcases List.mem_cons.mp listed with rfl | listed
              · exact ⟨[], c :: text, rfl, found⟩
              · exact later listed

/-- In a text that ends with a closing brace, every opening makes a token. -/
theorem tokens_eq_nil_iff {text : List γ} (closed : ∃ e ∈ text.getLast?, code e = 125) :
    tokens code text = [] ↔ ¬Opens code text := by
  constructor
  · intro empty opens
    obtain ⟨a, d, b, r, rfl, dollar, brace⟩ := opens_iff.mp opens
    induction a with
    | nil =>
        have found : tokenAt code (d :: b :: r) = none := by
          rw [tokens, List.nil_append, tokensFrom] at empty
          cases found : tokenAt code (d :: b :: r) with
          | none => rfl
          | some t =>
              rw [found] at empty
              cases empty
        rw [tokenAt, if_pos ⟨dollar, brace⟩] at found
        obtain ⟨e, last, ends⟩ := closed
        have there : e ∈ d :: b :: r := List.mem_of_getLast? last
        rcases List.mem_cons.mp there with rfl | there
        · omega
        rcases List.mem_cons.mp there with rfl | there
        · omega
        exact upToBrace_eq_none (Option.map_eq_none_iff.mp found) e there ends
    | cons c a ih =>
        refine ih ?_ ?_ (opens_append a r dollar brace)
        · obtain ⟨e, last, ends⟩ := closed
          refine ⟨e, ?_, ends⟩
          rw [List.cons_append, List.getLast?_cons_of_ne_nil (by simp)] at last
          exact last
        · rw [tokens, List.cons_append, tokensFrom] at empty
          cases found : tokenAt code (c :: (a ++ d :: b :: r)) with
          | none =>
              rw [found] at empty
              exact empty
          | some t =>
              rw [found] at empty
              cases empty
  · intro clear
    by_contra some
    obtain ⟨t, listed⟩ := List.exists_mem_of_ne_nil _ some
    obtain ⟨a, l, rfl, found⟩ := mem_tokensFrom listed
    obtain ⟨d, b, body, e, r, rfl, rfl, dollar, brace, -, -⟩ := tokenAt_eq_some found
    exact clear (opens_append a (body ++ [e] ++ r) dollar brace)

/-- A name that is found in front of a token is that of the token. -/
theorem wholeName_of_nameAt {l t : List γ} {n : List ℕ} (token : tokenAt code l = some t)
    (found : nameAt (l.map code) = some n) : wholeName code t = some n := by
  obtain ⟨d, b, body, e, r, rfl, rfl, dollar, brace, ends, before⟩ := tokenAt_eq_some token
  obtain ⟨name, rest, whole⟩ := nameAt_eq_some.mp found
  have text : body.map code ++ 125 :: r.map code = n ++ 125 :: rest := by
    simpa [placeholder, dollar, brace, ends] using whole
  have same : body.map code = n := by
    have inBody : 125 ∉ body.map code := by simpa using before
    have inName : 125 ∉ n := fun h => (isPart_ne (name.parts _ h)).2.2 rfl
    have upTo {x z : List ℕ} (notIn : 125 ∉ x) : (x ++ 125 :: z).takeWhile (· ≠ 125) = x := by
      rw [List.takeWhile_append_of_pos, List.takeWhile_cons_of_neg (by simp), List.append_nil]
      intro y inside
      rw [decide_eq_true_eq]
      rintro rfl
      exact notIn inside
    rw [← upTo inBody, text, upTo inName]
  have again : nameAt ((d :: b :: (body ++ [e])).map code) = some n :=
    nameAt_eq_some.mpr ⟨name, [], by simp [placeholder, dollar, brace, ends, same]⟩
  rw [wholeName, again]
  simp [← same]

/-- An opening that begins no placeholder is left as it is. -/
theorem cut_opening {a r : List γ} {d b : γ} (dollar : code d = 36) (brace : code b = 123)
    (none : nameAt ((d :: b :: r).map code) = none) {k : ℕ} (within : k ≤ a.length) :
    ∃ p q, cut code k (a ++ d :: b :: r) = p ++ .plain d :: .plain b :: q := by
  induction a generalizing k with
  | nil =>
      obtain rfl : k = 0 := by simpa using within
      have none' : nameAt ((b :: r).map code) = .none := nameAt_of_ne (by omega) _
      exact ⟨[], cut code 0 r, by rw [List.nil_append, cut_plain none, cut_plain none']; rfl⟩
  | cons c a ih =>
      cases k with
      | succ k => exact ih (Nat.le_of_succ_le_succ within)
      | zero =>
          cases found : nameAt ((c :: (a ++ d :: b :: r)).map code) with
          | none =>
              obtain ⟨p, q, pieces⟩ := ih (Nat.zero_le _)
              exact ⟨.plain c :: p, q, by rw [List.cons_append, cut_plain found, pieces]; rfl⟩
          | some n =>
              have before : n.length + 2 ≤ a.length := by
                by_contra short
                have inside : d ∈ (a ++ d :: b :: r).take (n.length + 2) := by
                  obtain ⟨j, more⟩ : ∃ j, n.length + 2 - a.length = j + 1 :=
                    ⟨n.length + 1 - a.length, by omega⟩
                  rw [List.take_append, more, List.take_succ_cons]
                  simp
                exact nameAt_noDollar found d inside dollar
              obtain ⟨p, q, pieces⟩ := ih before
              exact ⟨.name n :: p, q, by rw [List.cons_append, cut_name found, pieces]; rfl⟩

/-- A malformed token leaves an opening, whatever the values are. -/
theorem opens_fill {value : List ℕ → List γ} {text : List γ} (some : malformed code text ≠ []) :
    Opens code (fill code value text) := by
  obtain ⟨t, listed⟩ := List.exists_mem_of_ne_nil _ some
  obtain ⟨listed, invalid⟩ := List.mem_filter.mp listed
  obtain ⟨a, l, rfl, found⟩ := mem_tokensFrom listed
  obtain ⟨d, b, body, e, r, rfl, rfl, dollar, brace, -, -⟩ := tokenAt_eq_some found
  have none : nameAt ((d :: b :: (body ++ [e] ++ r)).map code) = none := by
    by_contra named
    obtain ⟨n, named⟩ := Option.ne_none_iff_exists'.mp named
    rw [wholeName_of_nameAt found named] at invalid
    cases invalid
  obtain ⟨p, q, pieces⟩ := cut_opening dollar brace none (Nat.zero_le a.length)
  have text : fill code value (a ++ d :: b :: (body ++ [e] ++ r)) =
      textOf value p ++ d :: b :: textOf value q := by
    rw [fill, pieces, textOf_append, textOf, textOf]
  rw [List.cons_append, List.cons_append, text]
  exact opens_append _ _ dollar brace

end Tokens

end Library.Placeholder
