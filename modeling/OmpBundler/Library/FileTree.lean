import Mathlib.Data.List.Infix
import Mathlib.Tactic.Common

/-!
File trees.

A path is the list of names from the root down, and a tree gives each path
the node that it names, if there is one. That the ancestors of a node are
directories is a field of the structure, so an operation that would leave a
node without its directory cannot be written. A tree also lists its paths,
which makes it decidable whether a directory is empty; the list may be longer
than need be, and nothing depends on it otherwise. Two trees are compared by
`get`.

The operations follow the system calls: each returns `none` where the call is
refused. Calls that follow symbolic links are not modelled; a link is a leaf.
-/

namespace Library

/-- A file, a directory or a symbolic link. -/
inductive Node (β : Type) where
  | file (content : β) (mode : ℕ)
  | directory
  | symlink (target : String)
  deriving DecidableEq, Repr

instance {β : Type} : ∀ n : Option (Node β), Decidable (n = some .directory)
  | some .directory => isTrue rfl
  | some (.file _ _) => isFalse (by simp)
  | some (.symlink _) => isFalse (by simp)
  | none => isFalse (by simp)

/-- The names from the root down. -/
abbrev Path (ν : Type) : Type := List ν

namespace Path

variable {ν : Type} [DecidableEq ν] {a b p q : Path ν}

/-- The path of the directory that the path is in. -/
def dirname (p : Path ν) : Path ν := p.dropLast

/-- Where a path is after what was at `a` has gone to `b`. -/
def relocate (a b p : Path ν) : Path ν := if a <+: p then b ++ p.drop a.length else p

@[simp] theorem relocate_append (r : Path ν) : relocate a b (a ++ r) = b ++ r := by
  simp [relocate]

theorem relocate_of_not_below (h : ¬ a <+: p) : relocate a b p = p := by
  simp [relocate, h]

/-- Going to `b` and back, from a place that is not below `b`. -/
theorem relocate_relocate (h : ¬ b <+: p) : relocate b a (relocate a b p) = p := by
  by_cases below : a <+: p
  · obtain ⟨r, rfl⟩ := below
    simp
  · rw [relocate_of_not_below below, relocate_of_not_below h]

/-- An ancestor: a prefix that is shorter. -/
def Above (q p : Path ν) : Prop := q <+: p ∧ q ≠ p

instance (q p : Path ν) : Decidable (Above q p) := inferInstanceAs (Decidable (_ ∧ _))

omit [DecidableEq ν] in
theorem Above.prefix_dirname (h : Above q p) : q <+: dirname p := by
  obtain ⟨⟨r, rfl⟩, proper⟩ := h
  have more : r ≠ [] := by
    rintro rfl
    simp at proper
  rw [dirname, List.dropLast_append_of_ne_nil more]
  exact List.prefix_append q _

omit [DecidableEq ν] in
theorem Above.dirname_above (h : p ≠ []) : Above (dirname p) p := by
  refine ⟨List.dropLast_prefix p, fun same => ?_⟩
  have lengths := congrArg List.length same
  rw [dirname, List.length_dropLast] at lengths
  have positive := List.length_pos_iff.mpr h
  omega

end Path

open Library.Path

/-- A tree of nodes. -/
structure FileTree (ν β : Type) where
  get : Path ν → Option (Node β)
  /-- Every path that names a node, and maybe some that do not. -/
  paths : List (Path ν)
  listed : ∀ p, get p ≠ none → p ∈ paths
  /-- What is above a node is a directory. -/
  closed : ∀ p q, get p ≠ none → Above q p → get q = some .directory

namespace FileTree

variable {ν β : Type} [DecidableEq ν] {t u : FileTree ν β} {a b p q : Path ν}

/-- Whether a file is at the path. -/
def isFile (t : FileTree ν β) (p : Path ν) : Bool :=
  match t.get p with
  | some (.file _ _) => true
  | some .directory | some (.symlink _) | none => false

/-- Nothing is below the path. -/
def Childless (t : FileTree ν β) (p : Path ν) : Prop := ∀ q, Above p q → t.get q = none

omit [DecidableEq ν] in
theorem childless_of_ne_directory (h : t.get p ≠ some .directory) : t.Childless p := by
  intro q below
  by_contra present
  exact h (t.closed q p present below)

/-- Whether nothing is below the path, by the list of paths. -/
def childless (t : FileTree ν β) (p : Path ν) : Bool :=
  t.paths.all fun q => !decide (Above p q) || (t.get q).isNone

theorem childless_iff : t.childless p = true ↔ t.Childless p := by
  constructor
  · intro empty q below
    by_contra present
    have clear := List.all_eq_true.mp empty q (t.listed q present)
    simp [below, present] at clear
  · intro empty
    rw [childless, List.all_eq_true]
    intro q _
    by_cases below : Above p q
    · simp [empty q below]
    · simp [below]

/-- The tree that is only a root directory. -/
def bare : FileTree ν β where
  get p := if p = [] then some .directory else none
  paths := [[]]
  listed p present := by
    by_cases top : p = []
    · simp [top]
    · simp [top] at present
  closed p q present above := by
    by_cases top : p = []
    · subst top
      exact absurd (List.prefix_nil.mp above.1) above.2
    · simp [top] at present

/-- The node at `p` becomes `n`, which may be no node at all. -/
def update (t : FileTree ν β) (p : Path ν) (n : Option (Node β)) (leaf : t.Childless p)
    (placed : n ≠ none → ∀ q, Above q p → t.get q = some .directory) : FileTree ν β where
  get q := if q = p then n else t.get q
  paths := p :: t.paths
  listed q present := by
    by_cases same : q = p
    · simp [same]
    · rw [if_neg same] at present
      exact List.mem_cons_of_mem p (t.listed q present)
  closed q r present above := by
    have other : r ≠ p := by
      rintro rfl
      have below : q ≠ r := fun same => above.2 same.symm
      rw [if_neg below] at present
      exact present (leaf q above)
    rw [if_neg other]
    by_cases same : q = p
    · subst same
      rw [if_pos rfl] at present
      exact placed present r above
    · rw [if_neg same] at present
      exact t.closed q r present above

@[simp] theorem get_update {n : Option (Node β)} {leaf : t.Childless p}
    {placed : n ≠ none → ∀ q, Above q p → t.get q = some .directory} (q : Path ν) :
    (t.update p n leaf placed).get q = if q = p then n else t.get q := rfl

omit [DecidableEq ν] in
/-- If the directory of a path is there, so is everything above it. -/
theorem directory_of_above (parent : t.get (dirname p) = some .directory) (above : Above q p) :
    t.get q = some .directory := by
  by_cases same : q = dirname p
  · rw [same, parent]
  · exact t.closed (dirname p) q (by simp [parent]) ⟨above.prefix_dirname, same⟩

/-- Put a node where there is none, into a directory. -/
def create (t : FileTree ν β) (p : Path ν) (n : Node β) : Option (FileTree ν β) :=
  if h : t.get (dirname p) = some .directory ∧ t.get p = none then
    some (t.update p (some n) (childless_of_ne_directory (by simp [h.2]))
      fun _ _ above => directory_of_above h.1 above)
  else
    none

/-- The tree of these nodes, which are listed from the top down. -/
def ofNodes (nodes : List (Path ν × Node β)) : FileTree ν β :=
  (nodes.foldlM (fun tree entry => create tree entry.1 entry.2) bare).getD bare

/-- Take a node that is not a directory away: `rm` without `recursive`. -/
def remove (t : FileTree ν β) (p : Path ν) : Option (FileTree ν β) :=
  if h : t.get p ≠ none ∧ t.get p ≠ some .directory then
    some (t.update p none (childless_of_ne_directory h.2) fun bad => absurd rfl bad)
  else
    none

/-- Give a file other permissions. -/
def chmod (t : FileTree ν β) (p : Path ν) (mode : ℕ) : Option (FileTree ν β) :=
  match h : t.get p with
  | some (.file content _) =>
      some (t.update p (some (.file content mode)) (childless_of_ne_directory (by simp [h]))
        fun _ q above => t.closed p q (by simp [h]) above)
  | _ => none

/-- Take away what is at `p` and below: `rm` with `recursive`. -/
def prune (t : FileTree ν β) (p : Path ν) : FileTree ν β where
  get q := if p <+: q then none else t.get q
  paths := t.paths
  listed q present := by
    split at present
    · simp at present
    · exact t.listed q present
  closed q r present above := by
    have outside : ¬ p <+: q := by
      intro below
      simp [below] at present
    have outside' : ¬ p <+: r := fun below => outside (below.trans above.1)
    rw [if_neg outside] at present
    rw [if_neg outside']
    exact t.closed q r present above

/-- What may take the place of what under a rename: nothing is in the way,
or an empty directory is and a directory comes, or a leaf and a leaf. -/
def replaceable (t : FileTree ν β) (a b : Path ν) : Bool :=
  match t.get b with
  | none => true
  | some .directory => decide (t.get a = some .directory) && t.childless b
  | some _ => decide (t.get a ≠ some .directory)

/-- What is at `a` and below goes to `b`. -/
def move (t : FileTree ν β) (a b : Path ν) (outside : ¬ a <+: b)
    (parent : t.get (dirname b) = some .directory) : FileTree ν β where
  get q := if b <+: q then t.get (relocate b a q) else if a <+: q then none else t.get q
  paths := t.paths ++ t.paths.map (relocate a b)
  listed q there := by
    rw [List.mem_append]
    split at there
    · rename_i below
      obtain ⟨r, rfl⟩ := below
      rw [relocate_append] at there
      refine .inr (List.mem_map.mpr ⟨a ++ r, t.listed _ there, ?_⟩)
      simp
    · split at there
      · simp at there
      · exact .inl (t.listed q there)
  closed q r there above := by
    by_cases arrived : b <+: q
    · obtain ⟨s, rfl⟩ := arrived
      rw [if_pos (List.prefix_append b s), relocate_append] at there
      rcases List.prefix_or_prefix_of_prefix above.1 (List.prefix_append b s) with high | low
      · -- `r` is above `b`, or is `b` itself.
        by_cases same : r = b
        · subst same
          have proper : s ≠ [] := fun empty => above.2 (by simp [empty])
          rw [if_pos (List.prefix_refl r), relocate, if_pos (List.prefix_refl r),
            List.drop_length, List.append_nil]
          exact t.closed _ a there ⟨List.prefix_append a s, by simpa using proper⟩
        · have notBelow : ¬ b <+: r := fun back =>
            same (high.eq_of_length_le back.length_le)
          rw [if_neg notBelow, if_neg fun back => outside (back.trans high)]
          exact directory_of_above parent ⟨high, same⟩
      · obtain ⟨s', rfl⟩ := low
        rw [if_pos (List.prefix_append b s'), relocate_append]
        have higher : s' <+: s := (List.prefix_append_right_inj b).mp above.1
        have proper : s' ≠ s := fun same => above.2 (by rw [same])
        exact t.closed _ (a ++ s') there
          ⟨(List.prefix_append_right_inj a).mpr higher, by simpa using proper⟩
    · rw [if_neg arrived] at there
      have stayed : ¬ a <+: q := by
        intro gone
        simp [gone] at there
      rw [if_neg stayed] at there
      rw [if_neg fun back => arrived (back.trans above.1),
        if_neg fun back => stayed (back.trans above.1)]
      exact t.closed q r there above

/-- `rename`. A path stays where it is when it is renamed to itself. -/
def rename (t : FileTree ν β) (a b : Path ν) : Option (FileTree ν β) :=
  if a = b then
    if t.get a = none then none else some t
  else if h : t.get a ≠ none ∧ ¬ a <+: b ∧ t.get (dirname b) = some .directory ∧
      t.replaceable a b = true then
    some (t.move a b h.2.1 h.2.2.1)
  else
    none

/-! ### What the operations leave -/

section Results

variable {n : Node β}

theorem create_of_free (parent : t.get (dirname p) = some .directory) (free : t.get p = none) :
    ∃ u, t.create p n = some u := by
  rw [create, dif_pos ⟨parent, free⟩]
  exact ⟨_, rfl⟩

theorem get_create (h : t.create p n = some u) (q : Path ν) :
    u.get q = if q = p then some n else t.get q := by
  rw [create] at h
  split at h
  · obtain rfl := Option.some.inj h
    rfl
  · simp at h

theorem free_of_create (h : t.create p n = some u) :
    t.get (dirname p) = some .directory ∧ t.get p = none := by
  rw [create] at h
  split at h
  · assumption
  · simp at h

theorem remove_of_leaf (present : t.get p ≠ none) (leaf : t.get p ≠ some .directory) :
    ∃ u, t.remove p = some u := by
  rw [remove, dif_pos ⟨present, leaf⟩]
  exact ⟨_, rfl⟩

theorem get_remove (h : t.remove p = some u) (q : Path ν) :
    u.get q = if q = p then none else t.get q := by
  rw [remove] at h
  split at h
  · obtain rfl := Option.some.inj h
    rfl
  · simp at h

theorem leaf_of_remove (h : t.remove p = some u) :
    t.get p ≠ none ∧ t.get p ≠ some .directory := by
  rw [remove] at h
  split at h
  · assumption
  · simp at h

theorem get_chmod {mode : ℕ} (h : t.chmod p mode = some u) (q : Path ν) :
    ∃ content old, t.get p = some (.file content old) ∧
      u.get q = if q = p then some (.file content mode) else t.get q := by
  rw [chmod] at h
  split at h
  · rename_i content old present
    obtain rfl := Option.some.inj h
    exact ⟨content, old, present, rfl⟩
  · simp at h

theorem rename_of_free (present : t.get a ≠ none) (outside : ¬ a <+: b)
    (parent : t.get (dirname b) = some .directory) (free : t.get b = none) :
    ∃ u, t.rename a b = some u := by
  have differ : a ≠ b := by
    rintro rfl
    exact outside (List.prefix_refl a)
  have fits : t.replaceable a b = true := by rw [replaceable, free]
  rw [rename, if_neg differ, dif_pos ⟨present, outside, parent, fits⟩]
  exact ⟨_, rfl⟩

theorem get_rename (h : t.rename a b = some u) (differ : a ≠ b) (q : Path ν) :
    u.get q = if b <+: q then t.get (relocate b a q) else if a <+: q then none else t.get q := by
  rw [rename, if_neg differ] at h
  split at h
  · obtain rfl := Option.some.inj h
    rfl
  · simp at h

/-- The rename of a leaf to where nothing is. -/
theorem get_rename_leaf (h : t.rename a b = some u) (differ : a ≠ b)
    (leaf : t.get a ≠ some .directory) (free : t.get b = none) (q : Path ν) :
    u.get q = if q = b then t.get a else if q = a then none else t.get q := by
  have belowA := childless_of_ne_directory leaf
  have belowB := childless_of_ne_directory (t := t) (p := b) (by simp [free])
  rw [get_rename h differ]
  by_cases atB : q = b
  · subst atB
    rw [if_pos (List.prefix_refl q), if_pos rfl, relocate, if_pos (List.prefix_refl q)]
    simp
  rw [if_neg atB]
  by_cases underB : b <+: q
  · obtain ⟨r, rfl⟩ := underB
    have more : r ≠ [] := by
      rintro rfl
      simp at atB
    rw [if_pos (List.prefix_append b r), relocate_append,
      belowA (a ++ r) ⟨List.prefix_append a r, by simpa using more⟩,
      belowB (b ++ r) ⟨List.prefix_append b r, by simpa using more⟩, ite_self]
  rw [if_neg underB]
  by_cases atA : q = a
  · rw [if_pos atA, atA, if_pos (List.prefix_refl a)]
  rw [if_neg atA]
  by_cases underA : a <+: q
  · rw [if_pos underA, belowA q ⟨underA, fun same => atA same.symm⟩]
  · rw [if_neg underA]

theorem moved_of_rename (h : t.rename a b = some u) (differ : a ≠ b) :
    t.get a ≠ none ∧ ¬ a <+: b ∧ t.get (dirname b) = some .directory := by
  rw [rename, if_neg differ] at h
  split at h
  · rename_i conditions
    exact ⟨conditions.1, conditions.2.1, conditions.2.2.1⟩
  · simp at h

end Results

end FileTree

end Library
