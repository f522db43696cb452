import Mathlib.Data.List.Induction
import Mathlib.Data.List.TakeWhile
import Mathlib.Tactic.Common

/-!
Paths of a POSIX file system as texts, and the absolute paths they stand for.

A text is read by what stands between its slashes: nothing and `.` stay
where they are, `..` goes to the parent (of the root, the root itself), and
anything else names an entry. `resolve` reads a text from a directory,
`relative` writes one that leads from a directory to a path, and `join`,
`dirname` and `basename` rewrite texts; what each of them does is said by
where its result leads.
-/

namespace Library.PosixPath

/-- The text may name an entry of a directory. -/
def IsName (n : List Char) : Prop := n ≠ [] ∧ n ≠ ['.'] ∧ n ≠ ['.', '.'] ∧ '/' ∉ n

instance (n : List Char) : Decidable (IsName n) := inferInstanceAs (Decidable (_ ∧ _))

/-- The entry above. -/
def up : List Char := ['.', '.']

theorem not_isName_up : ¬IsName up := fun h => h.2.2.1 rfl

/-- An absolute path without superfluous parts, as `realpath` gives it: the
names that lead to it from the root. -/
@[ext] structure Absolute where
  names : List (List Char)
  proper : ∀ n ∈ names, IsName n
  deriving DecidableEq

namespace Absolute

def root : Absolute := ⟨[], fun _ mem => absurd mem List.not_mem_nil⟩

def parent (p : Absolute) : Absolute :=
  ⟨p.names.dropLast, fun n mem => p.proper n (List.dropLast_subset _ mem)⟩

/-- The entry of this name. -/
def entry (p : Absolute) (n : List Char) (h : IsName n) : Absolute :=
  ⟨p.names ++ [n], fun m mem => (List.mem_append.mp mem).elim (p.proper m)
    fun last => List.mem_singleton.mp last ▸ h⟩

@[simp] theorem names_root : root.names = [] := rfl

@[simp] theorem names_parent (p : Absolute) : p.parent.names = p.names.dropLast := rfl

@[simp] theorem names_entry (p : Absolute) (n : List Char) (h : IsName n) :
    (p.entry n h).names = p.names ++ [n] := rfl

@[simp] theorem parent_root : root.parent = root := rfl

/-- The text of the path. -/
def text (p : Absolute) : List Char := '/' :: List.intercalate ['/'] p.names

/-- The path is the directory or lies in it. -/
def Within (directory p : Absolute) : Prop := directory.names <+: p.names

instance (directory p : Absolute) : Decidable (Within directory p) :=
  inferInstanceAs (Decidable (_ <+: _))

/-- The path lies in the directory and is not the directory itself. -/
def Below (directory p : Absolute) : Prop := Within directory p ∧ directory ≠ p

theorem Within.trans {p q r : Absolute} (first : Within p q) (second : Within q r) : Within p r :=
  List.IsPrefix.trans first second

theorem Within.entry {p q : Absolute} (h : Within p q) (n : List Char) (name : IsName n) :
    Below p (q.entry n name) := by
  refine ⟨List.IsPrefix.trans h (List.prefix_append _ _), fun same => ?_⟩
  have length := h.length_le
  rw [same, names_entry, List.length_append, List.length_singleton] at length
  omega

theorem within_parent (p : Absolute) : Within p.parent p := List.dropLast_prefix _

end Absolute

/-! ### Reading a text -/

/-- What stands between the slashes. -/
def segments (p : List Char) : List (List Char) := p.splitOn '/'

namespace Absolute

/-- One segment is read. -/
def step (p : Absolute) (segment : List Char) : Absolute :=
  if h : IsName segment then p.entry segment h
  else if segment = up then p.parent
  else p

/-- Some segments are read. -/
def descend (p : Absolute) (parts : List (List Char)) : Absolute := parts.foldl step p

/-- A text is read from here, whether or not it begins with a slash. -/
def walk (p : Absolute) (t : List Char) : Absolute := p.descend (segments t)

/-- `path.resolve`: where the text leads from here. -/
def resolve (p : Absolute) (t : List Char) : Absolute :=
  if t.head? = some '/' then root.walk t else p.walk t

variable {p q : Absolute} {n t : List Char}

theorem step_name (h : IsName n) : p.step n = p.entry n h := dif_pos h

@[simp] theorem step_up : p.step up = p.parent := by
  rw [step, dif_neg not_isName_up, if_pos rfl]

@[simp] theorem step_nil : p.step [] = p := by simp [step, IsName, up]

@[simp] theorem descend_nil : p.descend [] = p := rfl

@[simp] theorem descend_cons (parts : List (List Char)) :
    p.descend (n :: parts) = (p.step n).descend parts := rfl

@[simp] theorem descend_append (a b : List (List Char)) :
    p.descend (a ++ b) = (p.descend a).descend b := List.foldl_append

theorem names_descend {ns : List (List Char)} (names : ∀ n ∈ ns, IsName n) :
    (p.descend ns).names = p.names ++ ns := by
  induction ns generalizing p with
  | nil => simp
  | cons n ns ih =>
    obtain ⟨first, others⟩ := List.forall_mem_cons.mp names
    rw [descend_cons, step_name first, ih others, names_entry, List.append_assoc,
      List.singleton_append]

theorem descend_names (p : Absolute) : root.descend p.names = p := by
  ext1
  rw [names_descend p.proper, names_root, List.nil_append]

/-- As many steps up as there are names at the end. -/
theorem names_descend_up {c r : List (List Char)} (here : p.names = c ++ r) :
    (p.descend (r.map fun _ => up)).names = c := by
  induction r using List.reverseRec generalizing p with
  | nil => simpa using here
  | append_singleton r last ih =>
    have turned : (r ++ [last]).map (fun _ => up) = up :: r.map fun _ => up := by
      rw [List.map_const', List.map_const', List.length_append, List.length_singleton,
        List.replicate_succ]
    rw [turned, descend_cons, step_up]
    refine ih ?_
    rw [names_parent, here, ← List.append_assoc, List.dropLast_concat]

theorem walk_of_not_mem (bare : '/' ∉ n) : p.walk n = p.step n := by
  rw [walk, segments, List.splitOn_eq_singleton bare, descend_cons, descend_nil]

theorem walk_slash (s t : List Char) : p.walk (s ++ '/' :: t) = (p.walk s).walk t := by
  rw [walk, segments, List.splitOn_append_cons_self, descend_append]
  rfl

theorem walk_cons_slash (t : List Char) : p.walk ('/' :: t) = p.walk t := by
  have := walk_slash (p := p) [] t
  rwa [walk_of_not_mem List.not_mem_nil, step_nil] at this

theorem walk_intercalate {ns : List (List Char)} (bare : ∀ n ∈ ns, '/' ∉ n) (filled : ns ≠ []) :
    p.walk (List.intercalate ['/'] ns) = p.descend ns := by
  rw [walk, segments, List.splitOn_intercalate '/' bare filled]

theorem resolve_relative_text (relative : t.head? ≠ some '/') : p.resolve t = p.walk t :=
  if_neg relative

theorem resolve_slash (t : List Char) : p.resolve ('/' :: t) = root.walk ('/' :: t) :=
  if_pos rfl

/-- The text of a path leads to it, from everywhere. -/
theorem resolve_text (p q : Absolute) : p.resolve q.text = q := by
  rw [text, resolve_slash, walk_cons_slash]
  by_cases here : q.names = []
  · rw [here, List.intercalate_nil, walk_of_not_mem List.not_mem_nil, step_nil]
    ext1
    rw [names_root, here]
  · rw [walk_intercalate (fun n mem => (q.proper n mem).2.2.2) here, descend_names]

end Absolute

/-! ### A text that leads from one path to another -/

/-- What is left of two lists after what they begin with together. -/
def strip {α : Type*} [DecidableEq α] : List α → List α → List α × List α
  | a :: as, b :: bs => if a = b then strip as bs else (a :: as, b :: bs)
  | as, bs => (as, bs)

theorem strip_eq {α : Type*} [DecidableEq α] (as bs : List α) :
    ∃ c, as = c ++ (strip as bs).1 ∧ bs = c ++ (strip as bs).2 := by
  induction as generalizing bs with
  | nil => exact ⟨[], by simp [strip], by simp [strip]⟩
  | cons a as ih =>
    cases bs with
    | nil => exact ⟨[], rfl, rfl⟩
    | cons b bs =>
      by_cases same : a = b
      · obtain ⟨c, left, right⟩ := ih bs
        refine ⟨a :: c, ?_, ?_⟩
        · rw [strip, if_pos same, List.cons_append, ← left]
        · rw [strip, if_pos same, List.cons_append, ← right, same]
      · exact ⟨[], by rw [strip, if_neg same]; rfl, by rw [strip, if_neg same]; rfl⟩

theorem strip_fst_eq_nil {α : Type*} [DecidableEq α] {as bs : List α} :
    (strip as bs).1 = [] ↔ as <+: bs := by
  induction as generalizing bs with
  | nil => simp [strip]
  | cons a as ih =>
    cases bs with
    | nil => simp [strip]
    | cons b bs =>
      by_cases same : a = b
      · rw [strip, if_pos same, ih, same, List.prefix_cons_inj]
      · rw [strip, if_neg same]
        simp [List.cons_prefix_cons, same]

/-- The segments that lead from one path to another. -/
def route (p q : Absolute) : List (List Char) :=
  ((strip p.names q.names).1.map fun _ => up) ++ (strip p.names q.names).2

/-- `path.relative` -/
def relative (p q : Absolute) : List Char := List.intercalate ['/'] (route p q)

section

variable {p q : Absolute}

theorem descend_route (p q : Absolute) : p.descend (route p q) = q := by
  obtain ⟨c, left, right⟩ := strip_eq p.names q.names
  have proper : ∀ n ∈ (strip p.names q.names).2, IsName n := fun n mem =>
    q.proper n (right ▸ List.mem_append_right c mem)
  ext1
  rw [route, Absolute.descend_append, Absolute.names_descend proper,
    Absolute.names_descend_up left, ← right]

theorem mem_route {n : List Char} (mem : n ∈ route p q) : n = up ∨ IsName n := by
  obtain ⟨c, _, right⟩ := strip_eq p.names q.names
  rcases List.mem_append.mp mem with ups | names
  · obtain ⟨_, _, rfl⟩ := List.mem_map.mp ups
    exact .inl rfl
  · exact .inr (q.proper n (right ▸ List.mem_append_right c names))

theorem bare_of_proper {n : List Char} (h : n = up ∨ IsName n) : '/' ∉ n := by
  rcases h with rfl | name
  · decide
  · exact name.2.2.2

theorem ne_nil_of_proper {n : List Char} (h : n = up ∨ IsName n) : n ≠ [] := by
  rcases h with rfl | name
  · decide
  · exact name.1

theorem bare_of_mem_route {n : List Char} (mem : n ∈ route p q) : '/' ∉ n :=
  bare_of_proper (mem_route mem)

theorem ne_nil_of_mem_route {n : List Char} (mem : n ∈ route p q) : n ≠ [] :=
  ne_nil_of_proper (mem_route mem)

theorem route_eq_nil : route p q = [] ↔ p = q := by
  constructor
  · intro none
    have led := descend_route p q
    rwa [none] at led
  · rintro rfl
    have nil : (strip p.names p.names).1 = [] := strip_fst_eq_nil.mpr (List.prefix_refl _)
    obtain ⟨c, left, right⟩ := strip_eq p.names p.names
    have all : p.names = c := by rw [nil, List.append_nil] at left; exact left
    rw [← all] at right
    have rest : (strip p.names p.names).2 = [] := List.append_right_eq_self.mp right.symm
    rw [route, nil, rest]
    rfl

theorem intercalate_eq_nil {ns : List (List Char)} (filled : ∀ n ∈ ns, n ≠ []) :
    List.intercalate ['/'] ns = [] ↔ ns = [] := by
  constructor
  · intro none
    cases ns with
    | nil => rfl
    | cons n ns =>
      cases ns with
      | nil =>
        rw [List.intercalate_singleton] at none
        exact absurd none (filled n (by simp))
      | cons m ns => simp at none
  · rintro rfl
    rfl

/-- The text is empty when there is nowhere to go. -/
theorem relative_eq_nil : relative p q = [] ↔ p = q := by
  rw [relative, intercalate_eq_nil fun _ mem => ne_nil_of_mem_route mem, route_eq_nil]

theorem head?_intercalate {n : List Char} {ns : List (List Char)} (filled : n ≠ []) :
    (List.intercalate ['/'] (n :: ns)).head? = n.head? := by
  cases ns with
  | nil => rw [List.intercalate_singleton]
  | cons m ns =>
    obtain ⟨c, rest, rfl⟩ := List.exists_cons_of_ne_nil filled
    rfl

theorem head?_intercalate_ne {ns : List (List Char)} (proper : ∀ n ∈ ns, n = up ∨ IsName n) :
    (List.intercalate ['/'] ns).head? ≠ some '/' := by
  cases ns with
  | nil => simp
  | cons n ns =>
    have first := proper n List.mem_cons_self
    rw [head?_intercalate (ne_nil_of_proper first)]
    exact fun slash => bare_of_proper first (List.mem_of_mem_head? slash)

/-- The text begins with a step up: it is `..` or begins with `../`. -/
def Escapes (t : List Char) : Prop := t = up ∨ up ++ ['/'] <+: t

instance (t : List Char) : Decidable (Escapes t) := inferInstanceAs (Decidable (_ ∨ _))

theorem escapes_iff_head? {t : List Char} : Escapes t ↔ (segments t).head? = some up := by
  constructor
  · rintro (rfl | ⟨rest, rfl⟩)
    · rfl
    · rw [segments, List.append_assoc, List.singleton_append,
        List.splitOn_append_cons_self_of_not_mem (by decide), List.head?_cons]
  · intro first
    obtain ⟨rest, split⟩ : ∃ rest, segments t = up :: rest := by
      cases all : segments t with
      | nil => simp [all] at first
      | cons n rest => exact ⟨rest, by rw [all] at first; rw [Option.some.inj first]⟩
    have whole : List.intercalate ['/'] (segments t) = t := List.intercalate_splitOn '/'
    rw [split] at whole
    cases rest with
    | nil => exact .inl (by rw [← whole, List.intercalate_singleton])
    | cons m rest =>
      refine .inr ?_
      rw [← whole, List.intercalate_cons_cons]
      exact List.prefix_append _ _

/-- The text begins with a step up exactly when the path is not in the
directory. -/
theorem escapes_relative : Escapes (relative p q) ↔ ¬Absolute.Within p q := by
  rw [escapes_iff_head?, Absolute.Within, ← strip_fst_eq_nil]
  by_cases none : route p q = []
  · have same := route_eq_nil.mp none
    subst same
    have nil : (strip p.names p.names).1 = [] := strip_fst_eq_nil.mpr (List.prefix_refl _)
    simp only [relative, none, List.intercalate_nil, segments, List.splitOn_nil, List.head?_cons,
      nil, not_true, iff_false]
    decide
  · have split : segments (relative p q) = route p q :=
      List.splitOn_intercalate '/' (fun _ mem => bare_of_mem_route mem) none
    rw [split]
    cases ups : (strip p.names q.names).1 with
    | nil =>
      refine iff_of_false (fun first => ?_) (not_not_intro rfl)
      rw [route, ups, List.map_nil, List.nil_append] at first
      obtain ⟨c, _, right⟩ := strip_eq p.names q.names
      have mem : up ∈ q.names := right ▸ List.mem_append_right c (List.mem_of_mem_head? first)
      exact not_isName_up (q.proper up mem)
    | cons n ns =>
      refine iff_of_true ?_ (List.cons_ne_nil n ns)
      rw [route, ups]
      rfl

end

/-! ### Texts rewritten -/

/-- One segment is taken into a normal text. -/
def squeeze (aboveRoot : Bool) (done : List (List Char)) (segment : List Char) :
    List (List Char) :=
  if segment = [] ∨ segment = ['.'] then done
  else if segment = up then
    if done = [] ∨ done.getLast? = some up then
      if aboveRoot then done ++ [up] else done
    else done.dropLast
  else done ++ [segment]

/-- A text without the parts that lead nowhere. -/
def squeezed (aboveRoot : Bool) (t : List Char) : List (List Char) :=
  (segments t).foldl (squeeze aboveRoot) []

/-- `path.normalize` -/
def normalize (t : List Char) : List Char :=
  if t = [] then ['.']
  else
    let absolute := t.head? = some '/'
    let trailing := t.getLast? = some '/'
    let body := List.intercalate ['/'] (squeezed (!decide absolute) t)
    if body = [] then
      if absolute then ['/'] else if trailing then ['.', '/'] else ['.']
    else
      let body := if trailing then body ++ ['/'] else body
      if absolute then '/' :: body else body

/-- `path.join` -/
def join (parts : List (List Char)) : List Char :=
  normalize (List.intercalate ['/'] (parts.filter (· ≠ [])))

/-- `path.dirname` -/
def dirname : List Char → List Char
  | [] => ['.']
  | c :: rest =>
      match (rest.reverse.dropWhile (· = '/')).dropWhile (· ≠ '/') with
      | [] => if c = '/' then ['/'] else ['.']
      | _ :: before => if c = '/' ∧ before = [] then ['/', '/'] else c :: before.reverse

/-- What a text names on its way. -/
def parts (t : List Char) : List (List Char) := (segments t).filter (· ≠ [])

/-- `path.basename` -/
def basename (t : List Char) : List Char := (parts t).getLast?.getD []

example : normalize "a/./b//../../../c/".toList = "../c/".toList := by decide
example : dirname "/workspace/files/".toList = "/workspace".toList := by decide
example : basename "/workspace/files/".toList = "files".toList := by decide

namespace Absolute

variable {p : Absolute} {t : List Char}

end Absolute

/-! ### The last part of a text -/

theorem parts_slash (s t : List Char) : parts (s ++ '/' :: t) = parts s ++ parts t := by
  rw [parts, segments, List.splitOn_append_cons_self, List.filter_append]
  rfl

theorem parts_nil : parts [] = [] := by decide

namespace Absolute

variable {p : Absolute}

end Absolute

theorem text_injective : Function.Injective Absolute.text := fun p q same => by
  rw [← Absolute.resolve_text p p, same, Absolute.resolve_text]

theorem parts_text (p : Absolute) : parts p.text = p.names := by
  rw [Absolute.text, ← List.nil_append ('/' :: _), parts_slash, parts_nil, List.nil_append, parts]
  by_cases nil : p.names = []
  · rw [nil]
    rfl
  · rw [segments, List.splitOn_intercalate '/' (fun n mem => (p.proper n mem).2.2.2) nil,
      List.filter_eq_self.mpr fun n mem => by simpa using (p.proper n mem).1]

theorem basename_text (p : Absolute) : basename p.text = p.names.getLast?.getD [] := by
  rw [basename, parts_text]

theorem dirname_slash {b n : List Char} (bare : '/' ∉ n) (filled : n ≠ []) :
    dirname ('/' :: n) = ['/'] ∧ (b ≠ [] → dirname ('/' :: (b ++ '/' :: n)) = '/' :: b) := by
  have others : ∀ c ∈ n.reverse, c ≠ '/' := fun c mem same =>
    bare (same ▸ List.mem_reverse.mp mem)
  obtain ⟨c, rest, turned⟩ := List.exists_cons_of_ne_nil (List.reverse_ne_nil_iff.mpr filled)
  have kept (l : List Char) : (n.reverse ++ l).dropWhile (fun d => decide (d = '/')) =
      n.reverse ++ l := by
    rw [turned, List.cons_append, List.dropWhile_cons_of_neg]
    simpa using others c (by rw [turned]; exact List.mem_cons_self)
  have dropped (l : List Char) : (n.reverse ++ l).dropWhile (fun d => decide (d ≠ '/')) =
      l.dropWhile fun d => decide (d ≠ '/') :=
    List.dropWhile_append_of_pos fun d mem => by simpa using others d mem
  constructor
  · have alone : n.reverse = n.reverse ++ [] := (List.append_nil _).symm
    rw [dirname, alone, kept, dropped]
    rfl
  · intro before
    rw [dirname, List.reverse_append, List.reverse_cons, List.append_assoc, List.singleton_append,
      kept, dropped, List.dropWhile_cons_of_neg (by simp)]
    simp [before]

theorem intercalate_concat (ns : List (List Char)) (n : List Char) (filled : ns ≠ []) :
    List.intercalate ['/'] (ns ++ [n]) = List.intercalate ['/'] ns ++ '/' :: n := by
  induction ns with
  | nil => exact absurd rfl filled
  | cons m ns ih =>
    cases ns with
    | nil => rw [List.singleton_append, List.intercalate_cons_cons, List.intercalate_singleton,
        List.intercalate_singleton, List.append_assoc, List.singleton_append]
    | cons k ns =>
      rw [List.cons_append, List.cons_append, List.intercalate_cons_cons, ← List.cons_append,
        ih (List.cons_ne_nil k ns), List.intercalate_cons_cons]
      simp

/-- Every path but the root is written as its parent and its name. -/
theorem dirname_text (p : Absolute) (n : List Char) (name : IsName n) :
    dirname (p.entry n name).text = p.text := by
  rw [Absolute.text, Absolute.names_entry]
  by_cases nil : p.names = []
  · rw [nil, List.nil_append, List.intercalate_singleton,
      (dirname_slash (b := []) name.2.2.2 name.1).1, Absolute.text, nil]
    rfl
  · have before : List.intercalate ['/'] p.names ≠ [] := fun empty =>
      nil ((intercalate_eq_nil fun m mem => (p.proper m mem).1).mp empty)
    rw [intercalate_concat _ _ nil, (dirname_slash name.2.2.2 name.1).2 before, Absolute.text]

/-- A path below another one is an entry of some directory. -/
theorem Absolute.Below.exists_entry {p q : Absolute} (h : Below p q) :
    ∃ (d : Absolute) (n : List Char) (name : IsName n), q = d.entry n name := by
  have filled : q.names ≠ [] := fun nil => by
    refine h.2 ?_
    ext1
    rw [nil]
    exact List.eq_nil_of_prefix_nil (nil ▸ h.1)
  have name : IsName (q.names.getLast filled) := q.proper _ (List.getLast_mem filled)
  refine ⟨q.parent, _, name, ?_⟩
  ext1
  rw [names_entry, names_parent, List.dropLast_concat_getLast]

theorem below_iff {p q : Absolute} : Absolute.Below p q ↔
    ¬(relative p q = [] ∨ Escapes (relative p q)) := by
  rw [not_or, relative_eq_nil, escapes_relative, not_not]
  exact and_comm

end Library.PosixPath
