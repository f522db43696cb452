import Mathlib.Data.List.Sort
import Mathlib.Data.Rat.Defs
import OmpBundler.Library.Utf16

/-!
JSON values, their text, and their canonical text.

Values are those of JavaScript: an object lists its properties in the order
in which they are enumerated, and the value of a property may be undefined,
in which case the text leaves it out. The canonical text is that of the
value with the properties of all objects sorted by name. Two values have the
same canonical text exactly if they are `Similar`: equal up to the order of
properties and up to undefined ones.

How a number is written is a parameter. The theorem is about values without
numbers, so it does not depend on it.
-/

namespace Library

/-- A value as the language has it. -/
inductive JsValue where
  | undefined
  | null
  | bool (value : Bool)
  | number (value : ℚ)
  | string (text : String)
  | array (elements : List JsValue)
  | object (properties : List (String × JsValue))

namespace JsValue

/-- Induction with one hypothesis for each element and each property. -/
@[elab_as_elim]
theorem induct {motive : JsValue → Prop} (undefined : motive .undefined) (null : motive .null)
    (bool : ∀ b, motive (.bool b)) (number : ∀ q, motive (.number q))
    (string : ∀ s, motive (.string s))
    (array : ∀ l, (∀ v ∈ l, motive v) → motive (.array l))
    (object : ∀ ps, (∀ p ∈ ps, motive p.2) → motive (.object ps)) (v : JsValue) : motive v :=
  @JsValue.rec motive (fun l => ∀ v ∈ l, motive v) (fun ps => ∀ p ∈ ps, motive p.2)
    (fun p => motive p.2) undefined null bool number string array object
    (by simp) (fun _ _ head tail => List.forall_mem_cons.mpr ⟨head, tail⟩)
    (by simp) (fun _ _ head tail => List.forall_mem_cons.mpr ⟨head, tail⟩)
    (fun _ _ value => value) v

/-- Whether a value is undefined. -/
def isUndefined : JsValue → Bool
  | .undefined => true
  | _ => false

theorem isUndefined_iff {v : JsValue} : v.isUndefined = true ↔ v = .undefined := by
  cases v <;> simp [isUndefined]

/-! ### Text -/

/-- The double quote. -/
def quoteMark : Char := Char.ofNat 34

/-- The backslash. -/
def backslash : Char := Char.ofNat 92

/-- A lowercase hexadecimal digit. -/
def hexDigit (n : ℕ) : Char := if n < 10 then Char.ofNat (48 + n) else Char.ofNat (87 + n)

/-- The control characters that have a letter of their own in an escape. -/
def letters : List (Char × Char) :=
  [(Char.ofNat 8, 'b'), (Char.ofNat 9, 't'), (Char.ofNat 10, 'n'), (Char.ofNat 12, 'f'),
    (Char.ofNat 13, 'r')]

/-- A character of a string literal. -/
def escape (c : Char) : List Char :=
  if c = quoteMark ∨ c = backslash then [backslash, c]
  else if c.toNat < 0x20 then
    match letters.find? fun p => p.1 = c with
    | some p => [backslash, p.2]
    | none => [backslash, 'u', '0', '0', hexDigit (c.toNat / 16), hexDigit (c.toNat % 16)]
  else [c]

/-- A string literal. -/
def quote (s : String) : List Char := quoteMark :: s.toList.flatMap escape ++ [quoteMark]

/-- The items after the first one, each behind a comma. -/
def further : List (List Char) → List Char
  | [] => []
  | t :: rest => ',' :: t ++ further rest

/-- Items with commas between them. -/
def joined : List (List Char) → List Char
  | [] => []
  | t :: rest => t ++ further rest

section Text

variable (numberText : ℚ → List Char)

mutual

/-- The text of a value; an undefined element of an array is written as
`null`. -/
def text : JsValue → List Char
  | .undefined => "null".toList
  | .null => "null".toList
  | .bool b => (if b then "true" else "false").toList
  | .number q => numberText q
  | .string s => quote s
  | .array l => '[' :: joined (elementTexts l) ++ [']']
  | .object ps => '\x7b' :: joined (memberTexts ps) ++ ['\x7d']

def elementTexts : List JsValue → List (List Char)
  | [] => []
  | v :: rest => v.text :: elementTexts rest

/-- Undefined properties are left out. -/
def memberTexts : List (String × JsValue) → List (List Char)
  | [] => []
  | (k, v) :: rest =>
      if v.isUndefined then memberTexts rest
      else (quote k ++ ':' :: v.text) :: memberTexts rest

end

/-- `JSON.stringify` of a value that is not undefined. -/
def stringify (v : JsValue) : String := String.ofList (v.text numberText)

end Text

/-! ### Sorting properties -/

/-- Properties by name. -/
def sortProperties (ps : List (String × JsValue)) : List (String × JsValue) :=
  ps.insertionSort fun a b => Utf16.le a.1 b.1

mutual

/-- Sort the properties of every object by name. -/
def canonicalize : JsValue → JsValue
  | .array l => .array (canonicalizeElements l)
  | .object ps => .object (sortProperties (canonicalizeProperties ps))
  | v => v

def canonicalizeElements : List JsValue → List JsValue
  | [] => []
  | v :: rest => v.canonicalize :: canonicalizeElements rest

def canonicalizeProperties : List (String × JsValue) → List (String × JsValue)
  | [] => []
  | (k, v) :: rest => (k, v.canonicalize) :: canonicalizeProperties rest

end

/-! ### Equality up to the order of properties -/

/-- Equal up to the order of properties and up to undefined ones. -/
inductive Similar : JsValue → JsValue → Prop
  | refl (v : JsValue) : Similar v v
  | symm {v w : JsValue} : Similar v w → Similar w v
  | trans {u v w : JsValue} : Similar u v → Similar v w → Similar u w
  | order {ps qs : List (String × JsValue)} (distinct : (ps.map Prod.fst).Nodup)
      (reordered : ps.Perm qs) : Similar (.object ps) (.object qs)
  | drop (ps : List (String × JsValue)) (k : String) (qs : List (String × JsValue)) :
      Similar (.object (ps ++ (k, .undefined) :: qs)) (.object (ps ++ qs))
  | property (ps : List (String × JsValue)) (k : String) (qs : List (String × JsValue))
      {v w : JsValue} : Similar v w →
      Similar (.object (ps ++ (k, v) :: qs)) (.object (ps ++ (k, w) :: qs))
  | element (l r : List JsValue) {v w : JsValue} : Similar v w →
      Similar (.array (l ++ v :: r)) (.array (l ++ w :: r))

/-- No numbers, no name twice in an object, and nothing undefined but the
value of a property. -/
inductive Plain : JsValue → Prop
  | null : Plain .null
  | bool (b : Bool) : Plain (.bool b)
  | string (s : String) : Plain (.string s)
  | array {l : List JsValue} (elements : ∀ v ∈ l, Plain v) : Plain (.array l)
  | object {ps : List (String × JsValue)} (distinct : (ps.map Prod.fst).Nodup)
      (properties : ∀ p ∈ ps, p.2 ≠ .undefined → Plain p.2) : Plain (.object ps)

/-- No name occurs twice in an object. -/
inductive WellFormed : JsValue → Prop
  | undefined : WellFormed .undefined
  | null : WellFormed .null
  | bool (b : Bool) : WellFormed (.bool b)
  | number (q : ℚ) : WellFormed (.number q)
  | string (s : String) : WellFormed (.string s)
  | array {l : List JsValue} (elements : ∀ v ∈ l, WellFormed v) : WellFormed (.array l)
  | object {ps : List (String × JsValue)} (distinct : (ps.map Prod.fst).Nodup)
      (properties : ∀ p ∈ ps, WellFormed p.2) : WellFormed (.object ps)

/-- No numbers and nothing undefined at all. -/
inductive Bare : JsValue → Prop
  | null : Bare .null
  | bool (b : Bool) : Bare (.bool b)
  | string (s : String) : Bare (.string s)
  | array {l : List JsValue} (elements : ∀ v ∈ l, Bare v) : Bare (.array l)
  | object {ps : List (String × JsValue)} (properties : ∀ p ∈ ps, Bare p.2) : Bare (.object ps)

/-! ### The text determines the value -/

/-- The value of a hexadecimal digit. -/
def hexValue (c : Char) : ℕ := if c.toNat < 58 then c.toNat - 48 else c.toNat - 87

theorem hexValue_hexDigit : ∀ n < 16, hexValue (hexDigit n) = n := by decide

/-- Read one character of a string literal. -/
def unescape : List Char → Option (Char × List Char)
  | [] => none
  | c :: r =>
      if c ≠ backslash then some (c, r)
      else
        match r with
        | [] => none
        | e :: r =>
            if e = 'u' then
              match r with
              | _ :: _ :: a :: b :: r => some (Char.ofNat (16 * hexValue a + hexValue b), r)
              | _ => none
            else
              match letters.find? fun p => p.2 = e with
              | some p => some (p.1, r)
              | none => some (e, r)

theorem unescape_escape (c : Char) (r : List Char) :
    unescape (escape c ++ r) = some (c, r) := by
  unfold escape
  split
  · case isTrue marked =>
      rcases marked with rfl | rfl <;> rfl
  split
  · case isTrue unmarked control =>
      split
      · case h_1 p found =>
          have same : p.1 = c := by simpa using List.find?_some found
          have mem := List.mem_of_find?_eq_some found
          subst same
          simp only [letters, List.mem_cons, List.not_mem_nil, or_false] at mem
          rcases mem with rfl | rfl | rfl | rfl | rfl <;> rfl
      · have high := hexValue_hexDigit (c.toNat / 16) (by omega)
        have low := hexValue_hexDigit (c.toNat % 16) (by omega)
        have whole : 16 * (c.toNat / 16) + c.toNat % 16 = c.toNat := Nat.div_add_mod _ 16
        simp [unescape, high, low, whole]
  · case isFalse unmarked printable =>
      rw [not_or] at unmarked
      simp [unescape, unmarked.2]

theorem escape_append_ne (c : Char) (x r : List Char) : escape c ++ x ≠ quoteMark :: r := by
  have other : backslash ≠ quoteMark := by decide
  unfold escape
  split
  · simp [other]
  split
  · split <;> simp [other]
  · case isFalse unmarked printable =>
      rw [not_or] at unmarked
      simp [unmarked.1]

/-- What stands between the quotes is read up to the closing one. -/
theorem escaped_inj {l : List Char} : ∀ {l' r r' : List Char},
    l.flatMap escape ++ quoteMark :: r = l'.flatMap escape ++ quoteMark :: r' →
      l = l' ∧ r = r' := by
  induction l with
  | nil =>
      intro l' r r' same
      cases l' with
      | nil => exact ⟨rfl, (List.cons.inj same).2⟩
      | cons d l' =>
          rw [List.flatMap_cons, List.append_assoc] at same
          exact absurd same.symm (escape_append_ne d _ _)
  | cons c l ih =>
      intro l' r r' same
      cases l' with
      | nil =>
          rw [List.flatMap_cons, List.append_assoc] at same
          exact absurd same (escape_append_ne c _ _)
      | cons d l' =>
          rw [List.flatMap_cons, List.flatMap_cons, List.append_assoc, List.append_assoc] at same
          have read := congrArg unescape same
          rw [unescape_escape, unescape_escape] at read
          obtain ⟨rfl, rest⟩ := Prod.mk.inj (Option.some.inj read)
          obtain ⟨rfl, after⟩ := ih rest
          exact ⟨rfl, after⟩

theorem quote_inj {s s' : String} {r r' : List Char} (same : quote s ++ r = quote s' ++ r') :
    s = s' ∧ r = r' := by
  simp only [quote, List.cons_append, List.append_assoc, List.nil_append, List.cons.injEq,
    true_and] at same
  obtain ⟨chars, rest⟩ := escaped_inj same
  exact ⟨String.toList_inj.mp chars, rest⟩

section Join

variable {α : Type} {f : α → List Char} {close : Char}

/-- An item is read back whatever follows it. -/
def Decodes (f : α → List Char) (a b : α) : Prop :=
  ∀ r r' : List Char, f a ++ r = f b ++ r' → a = b ∧ r = r'

theorem further_inj {l : List α} : ∀ {l' : List α} {r r' : List Char},
    (∀ a ∈ l, ∀ b ∈ l', Decodes f a b) → close ≠ ',' →
      further (l.map f) ++ close :: r = further (l'.map f) ++ close :: r' → l = l' ∧ r = r' := by
  induction l with
  | nil =>
      intro l' r r' _ comma same
      cases l' with
      | nil => exact ⟨rfl, (List.cons.inj same).2⟩
      | cons b l' => exact absurd (List.cons.inj same).1 comma
  | cons a l ih =>
      intro l' r r' decodes comma same
      cases l' with
      | nil => exact absurd (List.cons.inj same).1.symm comma
      | cons b l' =>
          simp only [List.map_cons, further, List.cons_append, List.append_assoc,
            List.cons.injEq, true_and] at same
          obtain ⟨rfl, rest⟩ := decodes a List.mem_cons_self b List.mem_cons_self _ _ same
          obtain ⟨rfl, after⟩ := ih (fun x mem y mem' => decodes x (List.mem_cons_of_mem _ mem) y
            (List.mem_cons_of_mem _ mem')) comma rest
          exact ⟨rfl, after⟩

/-- A list whose items do not begin like its end is read back. -/
theorem joined_inj {l l' : List α} {r r' : List Char}
    (decodes : ∀ a ∈ l, ∀ b ∈ l', Decodes f a b) (comma : close ≠ ',')
    (begins : ∀ a ∈ l, ∀ x y, f a ++ x ≠ close :: y)
    (begins' : ∀ a ∈ l', ∀ x y, f a ++ x ≠ close :: y)
    (same : joined (l.map f) ++ close :: r = joined (l'.map f) ++ close :: r') :
    l = l' ∧ r = r' := by
  cases l with
  | nil =>
      cases l' with
      | nil => exact ⟨rfl, (List.cons.inj same).2⟩
      | cons b l' =>
          simp only [List.map_cons, joined, List.append_assoc] at same
          exact absurd same.symm (begins' b List.mem_cons_self _ _)
  | cons a l =>
      cases l' with
      | nil =>
          simp only [List.map_cons, joined, List.append_assoc] at same
          exact absurd same (begins a List.mem_cons_self _ _)
      | cons b l' =>
          simp only [List.map_cons, joined, List.append_assoc] at same
          obtain ⟨rfl, rest⟩ := decodes a List.mem_cons_self b List.mem_cons_self _ _ same
          obtain ⟨rfl, after⟩ := further_inj (fun x mem y mem' => decodes x
            (List.mem_cons_of_mem _ mem) y (List.mem_cons_of_mem _ mem')) comma rest
          exact ⟨rfl, after⟩

end Join

variable {numberText : ℚ → List Char}

/-- The text of a property. -/
def memberText (numberText : ℚ → List Char) (p : String × JsValue) : List Char :=
  quote p.1 ++ ':' :: p.2.text numberText

theorem elementTexts_eq (l : List JsValue) :
    elementTexts numberText l = l.map (text numberText) := by
  induction l with
  | nil => rw [elementTexts, List.map_nil]
  | cons v rest ih => rw [elementTexts, ih, List.map_cons]

theorem memberTexts_eq (ps : List (String × JsValue)) : memberTexts numberText ps =
    (ps.filter fun p => !p.2.isUndefined).map (memberText numberText) := by
  induction ps with
  | nil => rw [memberTexts, List.filter_nil, List.map_nil]
  | cons p rest ih =>
      obtain ⟨k, v⟩ := p
      rw [memberTexts, ih]
      by_cases gone : v.isUndefined = true <;> simp [gone, memberText]

theorem Bare.not_undefined {v : JsValue} (bare : v.Bare) : v.isUndefined = false := by
  cases bare <;> rfl

theorem memberTexts_of_bare {ps : List (String × JsValue)} (bare : ∀ p ∈ ps, p.2.Bare) :
    memberTexts numberText ps = ps.map (memberText numberText) := by
  rw [memberTexts_eq, List.filter_eq_self.mpr fun p mem => by simp [(bare p mem).not_undefined]]

/-- No text begins like the end of an array. -/
theorem Bare.text_append_ne {v : JsValue} (bare : v.Bare) (x y : List Char) :
    v.text numberText ++ x ≠ ']' :: y := by
  have mark : quoteMark ≠ ']' := by decide
  cases bare with
  | bool b => cases b <;> simp [text]
  | _ => simp [text, quote, mark]

/-- A value without numbers is read back from its text. -/
theorem Bare.decodes {v : JsValue} : v.Bare → ∀ {w : JsValue}, w.Bare →
    Decodes (text numberText) v w := by
  have mark : quoteMark ≠ 'n' ∧ quoteMark ≠ 't' ∧ quoteMark ≠ 'f' ∧ quoteMark ≠ '[' ∧
      quoteMark ≠ '\x7b' := by decide
  induction v using induct with
  | undefined | number => exact fun bare => by cases bare
  | null =>
      intro _ w other r r' same
      cases other with
      | null => exact ⟨rfl, by simpa [text] using same⟩
      | bool b => cases b <;> simp [text] at same
      | _ => simp [text, quote, Ne.symm mark.1] at same
  | bool b =>
      intro _ w other r r' same
      cases other with
      | bool b' => cases b <;> cases b' <;> simp_all [text]
      | _ => cases b <;> simp [text, quote, Ne.symm mark.2.1, Ne.symm mark.2.2.1] at same
  | string s =>
      intro _ w other r r' same
      cases other with
      | string s' =>
          rw [text, text] at same
          obtain ⟨rfl, rest⟩ := quote_inj same
          exact ⟨rfl, rest⟩
      | bool b => cases b <;> simp [text, quote, mark] at same
      | _ => simp [text, quote, mark] at same
  | array l ih =>
      intro bare w other r r' same
      cases bare with
      | array elements =>
      cases other with
      | @array l' elements' =>
          simp only [text, List.cons_append, List.append_assoc, List.nil_append, List.cons.injEq,
            true_and, elementTexts_eq] at same
          obtain ⟨rfl, rest⟩ := joined_inj
            (fun v mem w mem' => ih v mem (elements v mem) (elements' w mem'))
            (by decide : ']' ≠ ',')
            (fun v mem => (elements v mem).text_append_ne)
            (fun v mem => (elements' v mem).text_append_ne) same
          exact ⟨rfl, rest⟩
      | bool b => cases b <;> simp [text] at same
      | _ => simp [text, quote, Ne.symm mark.2.2.2.1] at same
  | object ps ih =>
      intro bare w other r r' same
      cases bare with
      | object properties =>
      cases other with
      | @object qs properties' =>
          simp only [text, List.cons_append, List.append_assoc, List.nil_append, List.cons.injEq,
            true_and, memberTexts_of_bare properties, memberTexts_of_bare properties'] at same
          have begins (p : String × JsValue) (x y : List Char) :
              memberText numberText p ++ x ≠ '\x7d' :: y := by
            have : quoteMark ≠ '\x7d' := by decide
            simp [memberText, quote, this]
          obtain ⟨rfl, rest⟩ := joined_inj (fun p mem q mem' r r' same => by
              simp only [memberText, List.append_assoc, List.cons_append] at same
              obtain ⟨name, rest⟩ := quote_inj same
              obtain ⟨value, rest⟩ := ih p mem (properties p mem) (properties' q mem') r r'
                (List.cons.inj rest).2
              exact ⟨Prod.ext name value, rest⟩) (by decide : '\x7d' ≠ ',')
            (fun p _ => begins p) (fun p _ => begins p) same
          exact ⟨rfl, rest⟩
      | bool b => cases b <;> simp [text] at same
      | _ => simp [text, quote, Ne.symm mark.2.2.2.2] at same

theorem Bare.stringify_inj {v w : JsValue} (bare : v.Bare) (bare' : w.Bare)
    (same : v.stringify numberText = w.stringify numberText) : v = w := by
  have chars : v.text numberText = w.text numberText := String.ofList_injective same
  exact (bare.decodes bare' [] [] (by rw [chars])).1

/-! ### Normal forms -/

mutual

/-- Sort the properties of every object and drop the undefined ones. -/
def normal : JsValue → JsValue
  | .array l => .array (normalElements l)
  | .object ps => .object (sortProperties (normalProperties ps))
  | v => v

def normalElements : List JsValue → List JsValue
  | [] => []
  | v :: rest => v.normal :: normalElements rest

def normalProperties : List (String × JsValue) → List (String × JsValue)
  | [] => []
  | (k, v) :: rest =>
      if v.isUndefined then normalProperties rest else (k, v.normal) :: normalProperties rest

end

theorem normalElements_eq (l : List JsValue) : normalElements l = l.map normal := by
  induction l with
  | nil => rw [normalElements, List.map_nil]
  | cons v rest ih => rw [normalElements, ih, List.map_cons]

theorem normalProperties_eq (ps : List (String × JsValue)) : normalProperties ps =
    (ps.filter fun p => !p.2.isUndefined).map fun p => (p.1, p.2.normal) := by
  induction ps with
  | nil => rw [normalProperties, List.filter_nil, List.map_nil]
  | cons p rest ih =>
      obtain ⟨k, v⟩ := p
      rw [normalProperties, ih]
      by_cases gone : v.isUndefined = true <;> simp [gone]

theorem canonicalizeElements_eq (l : List JsValue) :
    canonicalizeElements l = l.map canonicalize := by
  induction l with
  | nil => rw [canonicalizeElements, List.map_nil]
  | cons v rest ih => rw [canonicalizeElements, ih, List.map_cons]

theorem canonicalizeProperties_eq (ps : List (String × JsValue)) :
    canonicalizeProperties ps = ps.map fun p => (p.1, p.2.canonicalize) := by
  induction ps with
  | nil => rw [canonicalizeProperties, List.map_nil]
  | cons p rest ih => rw [canonicalizeProperties, ih, List.map_cons]

/-- The order of properties by name. -/
abbrev NameLe (a b : String × JsValue) : Prop := Utf16.le a.1 b.1

instance : Std.Total NameLe := ⟨fun a b => Utf16.total a.1 b.1⟩

instance : IsTrans (String × JsValue) NameLe := ⟨fun _ _ _ => Utf16.trans⟩

theorem perm_sortProperties (ps : List (String × JsValue)) : (sortProperties ps).Perm ps :=
  List.perm_insertionSort _ ps

theorem pairwise_sortProperties (ps : List (String × JsValue)) :
    (sortProperties ps).Pairwise NameLe := List.pairwise_insertionSort NameLe ps

/-- Sorted properties are determined by what they are, if no name occurs
twice. -/
theorem eq_of_sorted {ps qs : List (String × JsValue)} (distinct : (ps.map Prod.fst).Nodup)
    (reordered : ps.Perm qs) (sorted : ps.Pairwise NameLe) (sorted' : qs.Pairwise NameLe) :
    ps = qs := by
  refine reordered.eq_of_pairwise (fun a b mem mem' ab ba => ?_) sorted sorted'
  exact List.inj_on_of_nodup_map distinct mem (reordered.mem_iff.mpr mem')
    (Utf16.antisymm ab ba)

theorem sortProperties_congr {ps qs : List (String × JsValue)}
    (distinct : (ps.map Prod.fst).Nodup) (reordered : ps.Perm qs) :
    sortProperties ps = sortProperties qs := by
  have perm := perm_sortProperties ps
  exact eq_of_sorted ((perm.map Prod.fst).nodup_iff.mpr distinct)
    (perm.trans (reordered.trans (perm_sortProperties qs).symm)) (pairwise_sortProperties ps)
    (pairwise_sortProperties qs)

/-- Similar values have one normal form. -/
theorem Similar.normal_eq {v w : JsValue} (similar : Similar v w) : v.normal = w.normal := by
  induction similar with
  | refl => rfl
  | symm _ ih => exact ih.symm
  | trans _ _ ih ih' => exact ih.trans ih'
  | @order ps qs distinct reordered =>
      simp only [normal, normalProperties_eq]
      refine congrArg _ (sortProperties_congr ?_ ((reordered.filter _).map _))
      rw [List.map_map]
      exact distinct.sublist (List.Sublist.map Prod.fst List.filter_sublist)
  | drop ps k qs => simp [normal, normalProperties_eq, isUndefined]
  | @property ps k qs v w _ ih =>
      have undefined_of {u : JsValue} (h : u.isUndefined = true) : u.normal = .undefined := by
        simp [isUndefined_iff.mp h, normal]
      have of_normal {u : JsValue} (h : u.normal = .undefined) : u.isUndefined = true := by
        cases u <;> simp_all [normal, isUndefined]
      have both : v.isUndefined = w.isUndefined := by
        rw [Bool.eq_iff_iff]
        exact ⟨fun h => of_normal (ih ▸ undefined_of h), fun h => of_normal (ih ▸ undefined_of h)⟩
      by_cases gone : w.isUndefined = true <;>
        simp [normal, normalProperties_eq, both, gone, ih]
  | @element l r v w _ ih => simp [normal, normalElements_eq, ih]

/-- The elements of an array may be replaced one after the other. -/
theorem Similar.elements {f : JsValue → JsValue} (l : List JsValue) :
    ∀ before : List JsValue, (∀ v ∈ l, Similar v (f v)) →
      Similar (.array (before ++ l)) (.array (before ++ l.map f)) := by
  induction l with
  | nil => exact fun before _ => .refl _
  | cons v rest ih =>
      intro before similar
      obtain ⟨here, later⟩ := List.forall_mem_cons.mp similar
      refine (Similar.element before rest here).trans ?_
      simpa using ih (before ++ [f v]) later

/-- The properties of an object may be replaced one after the other, and the
undefined ones be dropped. -/
theorem Similar.properties {f : JsValue → JsValue} (ps : List (String × JsValue)) :
    ∀ before : List (String × JsValue), (∀ p ∈ ps, p.2 ≠ .undefined → Similar p.2 (f p.2)) →
      Similar (.object (before ++ ps)) (.object
        (before ++ (ps.filter fun p => !p.2.isUndefined).map fun p => (p.1, f p.2))) := by
  induction ps with
  | nil => exact fun before _ => .refl _
  | cons p rest ih =>
      intro before similar
      obtain ⟨k, v⟩ := p
      obtain ⟨here, later⟩ := List.forall_mem_cons.mp similar
      by_cases gone : v.isUndefined = true
      · obtain rfl := isUndefined_iff.mp gone
        refine (Similar.drop before k rest).trans ?_
        simpa [gone] using ih before later
      · refine (Similar.property before k rest
          (here fun undefined => gone (isUndefined_iff.mpr undefined))).trans ?_
        simpa [gone] using ih (before ++ [(k, f v)]) later

/-- A plain value is similar to its normal form. -/
theorem Plain.similar_normal {v : JsValue} : v.Plain → Similar v v.normal := by
  induction v using induct with
  | undefined | number => exact fun plain => by cases plain
  | null | bool | string =>
      intro _
      rw [normal]
      · exact .refl _
      all_goals simp
  | array l ih =>
      intro plain
      cases plain with
      | array elements =>
          rw [normal, normalElements_eq]
          exact Similar.elements l [] fun v mem => ih v mem (elements v mem)
  | object ps ih =>
      intro plain
      cases plain with
      | object distinct properties =>
          rw [normal, normalProperties_eq]
          refine (Similar.properties ps [] fun p mem defined =>
            ih p mem (properties p mem defined)).trans (.order ?_ (perm_sortProperties _).symm)
          rw [List.nil_append, List.map_map]
          exact distinct.sublist (List.Sublist.map Prod.fst List.filter_sublist)

theorem Plain.bare_normal {v : JsValue} : v.Plain → v.normal.Bare := by
  induction v using induct with
  | undefined | number => exact fun plain => by cases plain
  | null => exact fun _ => by simpa [normal] using Bare.null
  | bool b => exact fun _ => by simpa [normal] using Bare.bool b
  | string s => exact fun _ => by simpa [normal] using Bare.string s
  | array l ih =>
      intro plain
      cases plain with
      | array elements =>
          rw [normal, normalElements_eq]
          refine .array fun v mem => ?_
          obtain ⟨u, old, rfl⟩ := List.mem_map.mp mem
          exact ih u old (elements u old)
  | object ps ih =>
      intro plain
      cases plain with
      | object distinct properties =>
          rw [normal, normalProperties_eq]
          refine .object fun p mem => ?_
          obtain ⟨q, kept, rfl⟩ := List.mem_map.mp ((perm_sortProperties _).mem_iff.mp mem)
          obtain ⟨old, defined⟩ := List.mem_filter.mp kept
          refine ih q old (properties q old fun undefined => ?_)
          simp [undefined, isUndefined] at defined

theorem sortProperties_filter {ps : List (String × JsValue)}
    (distinct : (ps.map Prod.fst).Nodup) (keep : String × JsValue → Bool) :
    (sortProperties ps).filter keep = sortProperties (ps.filter keep) := by
  have perm := (perm_sortProperties ps).filter keep
  have kept : ((ps.filter keep).map Prod.fst).Nodup :=
    distinct.sublist (List.filter_sublist.map Prod.fst)
  exact eq_of_sorted ((perm.map Prod.fst).nodup_iff.mpr kept)
    (perm.trans (perm_sortProperties _).symm)
    ((pairwise_sortProperties ps).sublist List.filter_sublist) (pairwise_sortProperties _)

/-- Sorting looks at the names only. -/
theorem sortProperties_map {ps : List (String × JsValue)} (distinct : (ps.map Prod.fst).Nodup)
    (f : JsValue → JsValue) : sortProperties (ps.map fun p => (p.1, f p.2)) =
      (sortProperties ps).map fun p => (p.1, f p.2) := by
  have perm := (perm_sortProperties ps).map fun p => (p.1, f p.2)
  have names : ((ps.map fun p => (p.1, f p.2)).map Prod.fst).Nodup := by
    rwa [List.map_map]
  exact eq_of_sorted (((perm_sortProperties _).map Prod.fst).nodup_iff.mpr names)
    ((perm_sortProperties _).trans perm.symm) (pairwise_sortProperties _)
    (List.pairwise_map.mpr (pairwise_sortProperties ps))

/-- The canonical text of a plain value is the text of its normal form. -/
theorem Plain.text_canonicalize {v : JsValue} :
    v.Plain → v.canonicalize.text numberText = v.normal.text numberText := by
  induction v using induct with
  | undefined | number => exact fun plain => by cases plain
  | null | bool | string => simp [canonicalize, normal]
  | array l ih =>
      intro plain
      cases plain with
      | array elements =>
          simp only [canonicalize, normal, text, canonicalizeElements_eq, normalElements_eq,
            elementTexts_eq, List.map_map]
          have same : l.map (text numberText ∘ canonicalize) = l.map (text numberText ∘ normal) :=
            List.map_congr_left fun v mem => ih v mem (elements v mem)
          rw [same]
  | object ps ih =>
      intro plain
      have bare := plain.bare_normal
      cases plain with
      | object distinct properties =>
          rw [normal] at bare ⊢
          cases bare with
          | object bare =>
          -- both are the properties that are defined, sorted, with another value
          have defined (v : JsValue) : v.canonicalize.isUndefined = v.isUndefined := by
            cases v <;> simp [canonicalize, isUndefined]
          have kept : ((ps.filter fun p => !p.2.isUndefined).map Prod.fst).Nodup :=
            distinct.sublist (List.filter_sublist.map Prod.fst)
          have names : ((ps.map fun p => (p.1, p.2.canonicalize)).map Prod.fst).Nodup := by
            rwa [List.map_map]
          have split : ((ps.map fun p => (p.1, p.2.canonicalize)).filter
              fun p => !p.2.isUndefined) =
                (ps.filter fun p => !p.2.isUndefined).map fun p => (p.1, p.2.canonicalize) := by
            rw [List.filter_map]
            simp [Function.comp_def, defined]
          simp only [canonicalize, text]
          rw [memberTexts_of_bare bare, memberTexts_eq, canonicalizeProperties_eq,
            sortProperties_filter names, split, sortProperties_map kept, normalProperties_eq,
            sortProperties_map kept, List.map_map, List.map_map]
          have same : ∀ p ∈ sortProperties (ps.filter fun p => !p.2.isUndefined),
              (memberText numberText ∘ fun p => (p.1, p.2.canonicalize)) p =
                (memberText numberText ∘ fun p => (p.1, p.2.normal)) p := by
            intro p mem
            obtain ⟨old, present⟩ := List.mem_filter.mp ((perm_sortProperties _).mem_iff.mp mem)
            have value := ih p old (properties p old fun undefined => by
              simp [undefined, isUndefined] at present)
            simp only [Function.comp_apply, memberText, value]
          rw [List.map_congr_left same]

/-- Plain values have the same canonical text exactly if they are equal up to
the order of properties and up to undefined ones. -/
theorem Plain.stringify_canonicalize_iff {v w : JsValue} (plain : v.Plain)
    (numberText : ℚ → List Char) (plain' : w.Plain) :
    v.canonicalize.stringify numberText = w.canonicalize.stringify numberText ↔ Similar v w := by
  rw [stringify, stringify, plain.text_canonicalize, plain'.text_canonicalize]
  constructor
  · intro same
    have normals := plain.bare_normal.stringify_inj plain'.bare_normal same
    exact (plain.similar_normal.trans (normals ▸ .refl _)).trans plain'.similar_normal.symm
  · intro similar
    rw [similar.normal_eq]

end JsValue

end Library
