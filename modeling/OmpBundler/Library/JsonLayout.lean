import OmpBundler.Library.JsonSpacing

/-!
JSON texts that are laid out over several lines.

The layout is that of `JSON.stringify` with an indentation of two: it differs
from the text on one line by blanks between the tokens, so it is read back in
the same way.
-/

namespace Library.Json

open JsValue (quoteMark backslash further joined)

variable {ν : Type} (F : NumberFormat ν)

/-- A new line at some depth. -/
def newline (depth : ℕ) : List Char := '\n' :: List.replicate (2 * depth) ' '

mutual

/-- `JSON.stringify(value, null, 2)`. -/
def layout (depth : ℕ) : Json ν → List Char
  | .null => "null".toList
  | .bool b => (if b then "true" else "false").toList
  | .number n => F.text n
  | .string s => literal s
  | .array [] => ['[', ']']
  | .array (v :: l) =>
      '[' :: (newline (depth + 1) ++ (layout (depth + 1) v ++
        (layoutElements (depth + 1) l ++ (newline depth ++ [']']))))
  | .object [] => ['\x7b', '\x7d']
  | .object ((k, v) :: ps) =>
      '\x7b' :: (newline (depth + 1) ++ (literal k ++ ':' :: ' ' :: (layout (depth + 1) v ++
        (layoutMembers (depth + 1) ps ++ (newline depth ++ ['\x7d'])))))

/-- The elements after the first one. -/
def layoutElements (depth : ℕ) : List (Json ν) → List Char
  | [] => []
  | v :: l => ',' :: (newline depth ++ (layout depth v ++ layoutElements depth l))

def layoutMembers (depth : ℕ) : List (List UInt16 × Json ν) → List Char
  | [] => []
  | (k, v) :: ps =>
      ',' :: (newline depth ++ (literal k ++ ':' :: ' ' ::
        (layout depth v ++ layoutMembers depth ps)))

end

/-! ### Further blanks -/

theorem Spaced.newline {l r : List Char} (spaced : Spaced l r) (depth : ℕ) :
    Spaced (Json.newline depth ++ l) r := by
  have blanks : ∀ k, Spaced (List.replicate k ' ' ++ l) r := by
    intro k
    induction k with
    | zero => exact spaced
    | succ k ih =>
        rw [List.replicate_succ, List.cons_append]
        exact .added (by decide) ih
  exact .added (by decide) (blanks _)

theorem body_quoted (units : List UInt16) : Body (quoted units) := by
  have read : readString (quoted units ++ [quoteMark]) = some (units, []) :=
    readString_quoted units []
  obtain ⟨body, inside, text⟩ := body_of_readString read
  rw [List.append_cancel_right text]
  exact inside

theorem token_literal (units : List UInt16) (next : List Char) : Token (literal units) next :=
  .literal (body_quoted units) next

theorem Spaced.mark' {c : Char} {l r : List Char} (listed : c ∈ marks) (more : Spaced l r) :
    Spaced (c :: l) (c :: r) := .token (.mark listed r) more

theorem stops_of_mark {c : Char} (listed : c ∈ marks) (rest : List Char) : Stops (c :: rest) :=
  stops_cons (isBlank_of_mem_marks listed).2.1 rest

/-- Wherever a value stands, its layout is its text, further spaced. -/
def LaysOut (v : Json ν) : Prop :=
  ∀ {d : ℕ} {l r : List Char}, Spaced l r → Stops r →
    Spaced (layout F d v ++ l) (stringify F v ++ r)

theorem stops_further {texts : List (List Char)} {r : List Char} (stops : Stops r) :
    Stops (further texts ++ r) := by
  cases texts with
  | nil => exact stops
  | cons t texts => exact stops_of_mark (by decide) _

theorem layoutElements_spaced {elements : List (Json ν)}
    (each : ∀ v ∈ elements, LaysOut F v) {d : ℕ} {l r : List Char} (more : Spaced l r)
    (stops : Stops r) :
    Spaced (layoutElements F d elements ++ l) (further (elementTexts F elements) ++ r) := by
  induction elements with
  | nil => exact more
  | cons v elements ih =>
      have rest := ih fun w mem => each w (List.mem_cons_of_mem v mem)
      have value := each v List.mem_cons_self (d := d) rest (stops_further stops)
      have whole := Spaced.mark' (c := ',') (by decide) (value.newline d)
      simpa [layoutElements, elementTexts, further] using whole

/-- A name and its value. -/
theorem layoutMember_spaced {k : List UInt16} {v : Json ν} (value : LaysOut F v) {d : ℕ}
    {l r : List Char} (more : Spaced l r) (stops : Stops r) :
    Spaced (literal k ++ ':' :: ' ' :: (layout F d v ++ l))
      (literal k ++ ':' :: (stringify F v ++ r)) :=
  .token (token_literal k _)
    (.mark' (by decide) (.added (by decide) (value more stops)))

theorem layoutMembers_spaced {properties : List (List UInt16 × Json ν)}
    (each : ∀ p ∈ properties, LaysOut F p.2) {d : ℕ} {l r : List Char} (more : Spaced l r)
    (stops : Stops r) :
    Spaced (layoutMembers F d properties ++ l) (further (memberTexts F properties) ++ r) := by
  induction properties with
  | nil => exact more
  | cons p properties ih =>
      obtain ⟨k, v⟩ := p
      have rest := ih fun w mem => each w (List.mem_cons_of_mem _ mem)
      have member := layoutMember_spaced F (k := k) (each (k, v) List.mem_cons_self)
        (d := d) rest (stops_further stops)
      have whole := Spaced.mark' (c := ',') (by decide) (member.newline d)
      simpa [layoutMembers, memberTexts, further] using whole

theorem laysOut (v : Json ν) : LaysOut F v := by
  induction v using induct with
  | null =>
      exact fun more _ => Spaced.token (.word (show "null".toList ∈ words by decide) _) more
  | bool b =>
      cases b with
      | false =>
          exact fun more _ => Spaced.token (.word (show "false".toList ∈ words by decide) _) more
      | true =>
          exact fun more _ => Spaced.token (.word (show "true".toList ∈ words by decide) _) more
  | number n =>
      exact fun more stops => .token (.number (F.text_chars n) (F.text_ne_nil n) stops) more
  | string s => exact fun more _ => .token (token_literal s _) more
  | array elements ih =>
      intro d l r more stops
      have closed := Spaced.mark' (c := ']') (by decide) more
      have ends := stops_of_mark (c := ']') (by decide) r
      cases elements with
      | nil => exact .mark' (by decide) closed
      | cons v elements =>
          have rest := layoutElements_spaced F (d := d + 1)
            (fun w mem => ih w (List.mem_cons_of_mem v mem)) (closed.newline d) ends
          have value := ih v List.mem_cons_self (d := d + 1) rest (stops_further ends)
          have whole := Spaced.mark' (c := '[') (by decide) (value.newline (d + 1))
          simpa [layout, stringify, elementTexts, joined] using whole
  | object properties ih =>
      intro d l r more stops
      have closed := Spaced.mark' (c := '\x7d') (by decide) more
      have ends := stops_of_mark (c := '\x7d') (by decide) r
      cases properties with
      | nil => exact .mark' (by decide) closed
      | cons p properties =>
          obtain ⟨k, v⟩ := p
          have rest := layoutMembers_spaced F (d := d + 1)
            (fun w mem => ih w (List.mem_cons_of_mem _ mem)) (closed.newline d) ends
          have member := layoutMember_spaced F (k := k) (ih (k, v) List.mem_cons_self)
            (d := d + 1) rest (stops_further ends)
          have whole := Spaced.mark' (c := '\x7b') (by decide) (member.newline (d + 1))
          simpa [layout, stringify, memberTexts, joined] using whole

/-- A layout is read back, also with blanks behind it. -/
theorem parse_layout {v : Json ν} (proper : v.WellFormed) {l : List Char} (blanks : Spaced l []) :
    parse F (layout F 0 v ++ l) = some v := by
  have spaced := laysOut F v (d := 0) blanks nofun
  rw [List.append_nil] at spaced
  exact spaced.parse (parse_stringify F proper)

end Library.Json
