import Mathlib.Data.List.Dedup
import OmpBundler.Cli.FilePlan

/-!
What an undo step gives back.

The stage files of the transaction are hidden: trees are compared at the
paths whose last name is not that of a stage file (`SameVisible`). A stage
file is known to the list of artifacts as long as it exists (`Accounted`), so
the cleanup finds it wherever it is by then. What is left to follow is the
rest of the list. An undo step gives back the artifacts that there were
before its operation, apart from the stage artifact that the operation has
installed: its path is then that of a file which is gone, or is an original
again. Such artifacts are `Spent`, and the undo steps of earlier moves take
their paths along.
-/

namespace OmpBundler.Cli

open Library Library.Proc Library.Path

/-! ### Names -/

def Name.IsPlain : Name → Prop
  | .plain _ => True
  | .transaction _ _ => False

instance : ∀ name : Name, Decidable name.IsPlain
  | .plain _ => isTrue trivial
  | .transaction _ _ => isFalse id

/-- A path without temporary names. -/
def PlainPath (path : FilePath) : Prop := ∀ name ∈ path, name.IsPlain

instance (path : FilePath) : Decidable (PlainPath path) :=
  inferInstanceAs (Decidable (∀ name ∈ path, name.IsPlain))

/-- The path of a stage file. -/
def IsStage (path : FilePath) : Prop := ∃ uuid, path.getLast? = some (.transaction .stage uuid)

section Paths

variable {path a b q r : FilePath} {label : Label} {uuid : ℕ}

theorem PlainPath.not_isStage (plain : PlainPath path) : ¬ IsStage path := by
  rintro ⟨uuid, last⟩
  exact plain _ (List.mem_of_getLast? last)

theorem PlainPath.append (left : PlainPath a) (right : PlainPath b) : PlainPath (a ++ b) := by
  intro name mem
  rcases List.mem_append.mp mem with before | after
  · exact left name before
  · exact right name after

theorem PlainPath.of_below (plain : PlainPath b) (h : a <+: b) : PlainPath a :=
  fun name mem => plain name (h.subset mem)

theorem PlainPath.dirname (plain : PlainPath path) : PlainPath (dirname path) :=
  plain.of_below (List.dropLast_prefix path)

theorem PlainPath.relocate (plain : PlainPath path) (target : PlainPath b) :
    PlainPath (relocate a b path) := by
  by_cases below : a <+: path
  · obtain ⟨r, rfl⟩ := below
    rw [relocate_append]
    exact target.append fun name mem => plain name (List.mem_append_right a mem)
  · rw [relocate_of_not_below below]
    exact plain

/-- The path that `uniqueSiblingPath` draws. -/
abbrev siblingPath (path : FilePath) (label : Label) (uuid : ℕ) : FilePath :=
  dirname path ++ [.transaction label uuid]

theorem not_plain_sibling : ¬ PlainPath (siblingPath path label uuid) := by
  intro plain
  exact plain (.transaction label uuid) (by simp)

@[simp] theorem dirname_sibling : dirname (siblingPath path label uuid) = dirname path := by
  simp [siblingPath, Path.dirname]

theorem isStage_sibling_iff : IsStage (siblingPath path label uuid) ↔ label = .stage := by
  simp [IsStage, siblingPath]

theorem isStage_append (more : r ≠ []) : IsStage (a ++ r) ↔ IsStage r := by
  simp [IsStage, List.getLast?_append_of_ne_nil _ more]

/-- Moving what is not a stage file to where none is. -/
theorem isStage_relocate (source : ¬ IsStage a) (target : ¬ IsStage b) :
    IsStage (relocate a b q) ↔ IsStage q := by
  by_cases below : a <+: q
  · obtain ⟨r, rfl⟩ := below
    rw [relocate_append]
    by_cases more : r = []
    · subst more
      simp [source, target]
    · rw [isStage_append more, isStage_append more]
  · rw [relocate_of_not_below below]

theorem prefix_relocate (root : FilePath) (inside : root <+: q) (target : root <+: b) :
    root <+: relocate a b q := by
  by_cases below : a <+: q
  · obtain ⟨r, rfl⟩ := below
    rw [relocate_append]
    exact target.trans (List.prefix_append b r)
  · rw [relocate_of_not_below below]
    exact inside

end Paths

section Trees

variable {α : Type} {root p a b q : FilePath} {t u v : Tree α}

/-! ### The check for symbolic links -/

theorem safe_iff : assertNoSymlinkComponents root p t = true ↔
    root <+: p ∧ ∀ q, q <+: p → (∀ target, t.get q ≠ some (.symlink target)) ∧
      (q ≠ p → ∀ content mode, t.get q ≠ some (.file content mode)) := by
  rw [assertNoSymlinkComponents, Bool.and_eq_true, List.isPrefixOf_iff_prefix, List.all_eq_true]
  refine and_congr_right fun _ => forall_congr' fun q => ?_
  rw [List.mem_inits]
  refine imp_congr_right fun _ => ?_
  cases t.get q with
  | none => simp
  | some node => cases node <;> simp

theorem inside_of_safe (h : assertNoSymlinkComponents root p t = true) : root <+: p :=
  (safe_iff.mp h).1

theorem not_symlink_of_safe (h : assertNoSymlinkComponents root p t = true) (target : String) :
    t.get p ≠ some (.symlink target) :=
  ((safe_iff.mp h).2 p (List.prefix_refl p)).1 target

/-- The check passes for what is there and is no link. -/
theorem safe_of_present (inside : root <+: p) (present : t.get p ≠ none)
    (noLink : ∀ target, t.get p ≠ some (.symlink target)) :
    assertNoSymlinkComponents root p t = true := by
  refine safe_iff.mpr ⟨inside, fun q above => ?_⟩
  by_cases same : q = p
  · subst same
    exact ⟨noLink, fun differ => absurd rfl differ⟩
  · have directory := t.closed p q present ⟨above, same⟩
    simp [directory]

/-- The check passes for what is missing in a directory that is there. -/
theorem safe_of_parent (inside : root <+: p) (free : t.get p = none)
    (parent : t.get (dirname p) = some .directory) :
    assertNoSymlinkComponents root p t = true := by
  refine safe_iff.mpr ⟨inside, fun q above => ?_⟩
  by_cases same : q = p
  · subst same
    simp [free]
  · have directory := FileTree.directory_of_above parent ⟨above, same⟩
    simp [directory]

/-! ### The guarded removal -/

theorem isFile_eq_false (h : ∀ content mode, t.get p ≠ some (.file content mode)) :
    t.isFile p = false := by
  rw [FileTree.isFile]
  cases node : t.get p with
  | none => rfl
  | some n =>
      cases n with
      | file content mode => exact absurd node (h content mode)
      | directory => rfl
      | symlink target => rfl

theorem isFile_iff : t.isFile p = true ↔ ∃ content mode, t.get p = some (.file content mode) := by
  constructor
  · intro file
    by_contra none
    push Not at none
    rw [isFile_eq_false none] at file
    contradiction
  · rintro ⟨content, mode, present⟩
    rw [FileTree.isFile, present]

theorem isFile_congr (same : t.get p = u.get q) : t.isFile p = u.isFile q := by
  rw [FileTree.isFile, FileTree.isFile, same]

/-- The guarded `rm` takes a file inside the root away and nothing else. -/
theorem get_removeQuietly (q : FilePath) :
    (removeQuietly root false t p).2.get q =
      if q = p ∧ root <+: p ∧ t.isFile p = true then none else t.get q := by
  unfold removeQuietly
  split
  · rename_i safe
    have inside := inside_of_safe safe
    split
    · rename_i free
      simp [FileTree.isFile, free]
    · rename_i present
      rw [if_neg (by simp)]
      cases removed : t.remove p with
      | none =>
          have directory : t.get p = some .directory := by
            by_contra leaf
            obtain ⟨u, taken⟩ := FileTree.remove_of_leaf present leaf
            simp [taken] at removed
          simp [FileTree.isFile, directory]
      | some u =>
          show u.get q = _
          rw [FileTree.get_remove removed]
          have leaf := (FileTree.leaf_of_remove removed).2
          have file : t.isFile p = true := by
            rw [FileTree.isFile]
            cases node : t.get p with
            | none => exact absurd node present
            | some n =>
                cases n with
                | file content mode => rfl
                | directory => exact absurd node leaf
                | symlink target => exact absurd node (not_symlink_of_safe safe target)
          simp [inside, file]
  · rename_i refused
    rw [if_neg]
    rintro ⟨-, inside, file⟩
    obtain ⟨content, mode, present⟩ := isFile_iff.mp file
    exact refused (safe_of_present inside (by simp [present]) (by simp [present]))

theorem get_removeEach (paths : List FilePath) (q : FilePath) :
    (removeEach root (fun _ => false) paths t).2.get q =
      if q ∈ paths ∧ root <+: q ∧ t.isFile q = true then none else t.get q := by
  induction paths generalizing t with
  | nil => simp [removeEach]
  | cons p paths ih =>
      show (removeEach root (fun _ => false) paths (removeQuietly root false t p).2).2.get q = _
      rw [ih]
      by_cases hit : q = p ∧ root <+: p ∧ t.isFile p = true
      · have gone : (removeQuietly root false t p).2.get q = none := by
          rw [get_removeQuietly, if_pos hit]
        rw [gone, ite_self, if_pos ⟨by simp [hit.1], hit.1 ▸ hit.2⟩]
      · have unchanged : (removeQuietly root false t p).2.get q = t.get q := by
          rw [get_removeQuietly, if_neg hit]
        rw [unchanged, isFile_congr unchanged]
        refine if_congr (and_congr_left fun file => ?_) rfl rfl
        have other : q ≠ p := by
          rintro rfl
          exact hit ⟨rfl, file⟩
        simp [other]

theorem get_cleanupCreatedDirectories (directories : List FilePath) (q : FilePath) :
    (cleanupCreatedDirectories root directories t).2.get q =
      if q ∈ directories ∧ root <+: q ∧ t.isFile q = true then none else t.get q := by
  rw [cleanupCreatedDirectories, get_removeEach, byLength]
  simp only [List.mem_mergeSort]

/-- The paths that the cleanup after a failure removes. -/
def exposed (artifacts : List TransactionArtifact) : List FilePath :=
  (artifacts.filter (·.cleanupOnFailure)).map (·.path)

theorem get_cleanupArtifacts (artifacts : List TransactionArtifact) (q : FilePath) :
    (cleanupArtifacts root artifacts false t).2.get q =
      if q ∈ exposed artifacts ∧ root <+: q ∧ t.isFile q = true then none else t.get q := by
  simp only [cleanupArtifacts, Bool.false_and, Bool.false_eq_true, if_false]
  rw [get_removeEach, byLength]
  refine if_congr (and_congr_left fun _ => ?_) rfl rfl
  rw [List.mem_mergeSort, List.mem_dedup, exposed]

/-- The two cleanups together. -/
theorem get_cleanups (artifacts : List TransactionArtifact) (directories : List FilePath)
    (q : FilePath) :
    (cleanupCreatedDirectories root directories
        (cleanupArtifacts root artifacts false t).2).2.get q =
      if (q ∈ exposed artifacts ∨ q ∈ directories) ∧ root <+: q ∧ t.isFile q = true then none
      else t.get q := by
  rw [get_cleanupCreatedDirectories, get_cleanupArtifacts]
  by_cases removed : q ∈ exposed artifacts ∧ root <+: q ∧ t.isFile q = true
  · simp [removed]
  · rw [isFile_congr ((get_cleanupArtifacts artifacts q).trans (if_neg removed))]
    rw [if_neg removed]
    by_cases file : root <+: q ∧ t.isFile q = true
    · have kept : q ∉ exposed artifacts := fun mem => removed ⟨mem, file⟩
      simp [kept]
    · rw [if_neg fun both => file both.2, if_neg fun both => file both.2]

end Trees

/-! ### What is given back -/

section Returned

variable {α : Type}

/-- Trees that agree on everything but stage files. -/
def SameVisible (t u : Tree α) : Prop := ∀ q, ¬ IsStage q → t.get q = u.get q

/-- The cleanup will find every stage file. -/
def Accounted (root : FilePath) (s : Transaction α) : Prop :=
  ∀ q, IsStage q → s.tree.get q ≠ none →
    s.tree.isFile q = true ∧ root <+: q ∧ q ∈ exposed s.artifacts

/-- The artifact `a` of a stage file has become `b`, and its file is gone. -/
structure Spent (root : FilePath) (a b : TransactionArtifact) : Prop where
  stage : IsStage a.path
  plain : PlainPath b.path
  inside : root <+: b.path
  cleaned : b.cleanupOnFailure = true

/-- The undo steps have come from later states back to `w`, and the state at
this point on the way forward was `s`. -/
structure Returned (root : FilePath) (s w : Transaction α) : Prop where
  visible : SameVisible w.tree s.tree
  accounted : Accounted root w
  known : ∀ (id : ℕ) (a : TransactionArtifact), s.artifacts[id]? = some a →
    ∃ b, w.artifacts[id]? = some b ∧ (b = a ∨ Spent root a b)
  extra : ∀ (id : ℕ) (b : TransactionArtifact), s.artifacts[id]? = none →
    w.artifacts[id]? = some b → b.cleanupOnFailure = false

/-- `x` is the path of a spent artifact. -/
def SpentAt (root : FilePath) (s w : Transaction α) (x : FilePath) : Prop :=
  ∃ (id : ℕ) (a b : TransactionArtifact), s.artifacts[id]? = some a ∧
    w.artifacts[id]? = some b ∧ Spent root a b ∧ b.path = x

variable {root a b path x : FilePath} {s w : Transaction α} {u v : Tree α} {id : ℕ}

theorem mem_exposed {artifacts : List TransactionArtifact} :
    x ∈ exposed artifacts ↔
      ∃ (id : ℕ) (artifact : TransactionArtifact), artifacts[id]? = some artifact ∧
        artifact.cleanupOnFailure = true ∧ artifact.path = x := by
  rw [exposed, List.mem_map]
  constructor
  · rintro ⟨artifact, selected, same⟩
    obtain ⟨mem, cleaned⟩ := List.mem_filter.mp selected
    obtain ⟨id, here⟩ := List.mem_iff_getElem?.mp mem
    exact ⟨id, artifact, here, cleaned, same⟩
  · rintro ⟨id, artifact, here, cleaned, same⟩
    exact ⟨artifact, List.mem_filter.mpr ⟨List.mem_of_getElem? here, cleaned⟩, same⟩

theorem Returned.refl (accounted : Accounted root s) : Returned root s s where
  visible _ _ := rfl
  accounted := accounted
  known id a here := ⟨a, here, .inl rfl⟩
  extra id b missing here := by
    rw [missing] at here
    contradiction

theorem not_spentAt_self : ¬ SpentAt root s s x := by
  rintro ⟨id, a, b, here, there, spent, -⟩
  obtain rfl := Option.some.inj (here.symm.trans there)
  exact spent.plain.not_isStage spent.stage

@[simp] theorem getElem?_rewriteArtifacts :
    (s.rewriteArtifacts a b).artifacts[id]? = s.artifacts[id]?.map fun artifact =>
      { artifact with path := relocate a b artifact.path } := by
  simp [Transaction.rewriteArtifacts]

/-- Stage files that go along with a rename are still accounted for. -/
theorem Accounted.rename (accounted : Accounted root w) (renamed : w.tree.rename a b = some v)
    (differ : a ≠ b) (target : ¬ IsStage b) (inside : root <+: b) :
    Accounted root ((w.setTree v).rewriteArtifacts a b) := by
  intro q stage present
  have after := FileTree.get_rename renamed differ q
  -- Where the stage file was before the rename.
  have origin : ∃ p, IsStage p ∧ v.get q = w.tree.get p ∧ relocate a b p = q := by
    by_cases below : b <+: q
    · obtain ⟨r, rfl⟩ := below
      rw [if_pos (List.prefix_append b r), relocate_append] at after
      have more : r ≠ [] := by
        rintro rfl
        rw [List.append_nil] at stage
        exact target stage
      exact ⟨a ++ r, by rwa [isStage_append more] at stage ⊢, after, relocate_append r⟩
    · rw [if_neg below] at after
      by_cases under : a <+: q
      · rw [if_pos under] at after
        exact absurd after present
      · rw [if_neg under] at after
        exact ⟨q, stage, after, relocate_of_not_below under⟩
  obtain ⟨p, stageP, same, moved⟩ := origin
  obtain ⟨file, insideP, listed⟩ := accounted p stageP (by rw [← same]; exact present)
  refine ⟨?_, ?_, ?_⟩
  · show v.isFile q = true
    rw [isFile_congr same, file]
  · rw [← moved]
    exact prefix_relocate root insideP inside
  · obtain ⟨id, artifact, here, cleaned, path⟩ := mem_exposed.mp listed
    refine mem_exposed.mpr
      ⟨id, { artifact with path := relocate a b artifact.path }, ?_, cleaned, ?_⟩
    · rw [getElem?_rewriteArtifacts]
      simp [here]
    · show relocate a b artifact.path = q
      rw [path, moved]

/-! #### A rename is taken back -/

/-- What a rename has to look like to be taken back. -/
structure Reversible (root a b : FilePath) (t u : Tree α) : Prop where
  renamed : t.rename a b = some u
  free : t.get b = none
  plain : PlainPath a
  target : ¬ IsStage b
  source_inside : root <+: a
  target_inside : root <+: b
  noLink : ∀ target, t.get a ≠ some (.symlink target)

namespace Reversible

variable {t : Tree α} (h : Reversible root a b t u)

include h

theorem differ : a ≠ b := by
  rintro rfl
  have renamed := h.renamed
  rw [FileTree.rename, if_pos rfl, if_pos h.free] at renamed
  contradiction

theorem present : t.get a ≠ none := (FileTree.moved_of_rename h.renamed h.differ).1

theorem outside : ¬ a <+: b := (FileTree.moved_of_rename h.renamed h.differ).2.1

theorem get_eq (q : FilePath) :
    u.get q = if b <+: q then t.get (relocate b a q) else if a <+: q then none else t.get q :=
  FileTree.get_rename h.renamed h.differ q

/-- Nothing was below the target. -/
theorem get_below {q : FilePath} (below : b <+: q) : t.get q = none := by
  by_cases same : q = b
  · rw [same, h.free]
  · have leaf := FileTree.childless_of_ne_directory (t := t) (p := b) (by simp [h.free])
    exact leaf q ⟨below, fun back => same back.symm⟩

theorem parent : t.get (dirname a) = some .directory := by
  have proper : a ≠ [] := by
    rintro rfl
    exact h.outside List.nil_prefix
  exact t.closed a (dirname a) h.present (Above.dirname_above proper)

theorem away : ¬ b <+: a := fun below => h.present (h.get_below below)

theorem get_target : u.get b = t.get a := by
  rw [h.get_eq, if_pos (List.prefix_refl b)]
  simp [relocate]

theorem get_source : u.get a = none := by
  rw [h.get_eq, if_neg h.away, if_pos (List.prefix_refl a)]

theorem get_parent : u.get (dirname a) = some .directory := by
  have notBelow : ¬ b <+: dirname a := fun below =>
    h.away (below.trans (List.dropLast_prefix a))
  have notAbove : ¬ a <+: dirname a := by
    intro back
    have short := back.length_le
    rw [dirname, List.length_dropLast] at short
    have positive : a ≠ [] := by
      rintro rfl
      exact h.outside List.nil_prefix
    have := List.length_pos_iff.mpr positive
    omega
  rw [h.get_eq, if_neg notBelow, if_neg notAbove, h.parent]

/-- In a tree that looks like the one after the rename, the rename back
succeeds. -/
theorem back {w : Tree α} (visible : SameVisible w u) :
    ∃ v, renameWithSafety root w b a = some v ∧ w.rename b a = some v := by
  have atTarget : w.get b = t.get a := by rw [visible b h.target, h.get_target]
  have atSource : w.get a = none := by rw [visible a h.plain.not_isStage, h.get_source]
  have above : w.get (dirname a) = some .directory := by
    rw [visible _ h.plain.dirname.not_isStage, h.get_parent]
  obtain ⟨v, renamed⟩ : ∃ v, w.rename b a = some v :=
    FileTree.rename_of_free (by rw [atTarget]; exact h.present) h.away above atSource
  have safeTarget : assertNoSymlinkComponents root b w = true :=
    safe_of_present h.target_inside (by rw [atTarget]; exact h.present)
      fun link => by rw [atTarget]; exact h.noLink link
  have safeSource : assertNoSymlinkComponents root a w = true :=
    safe_of_parent h.source_inside atSource above
  refine ⟨v, ?_, renamed⟩
  rw [renameWithSafety, safeTarget, safeSource]
  exact renamed

/-- The tree is then as it was. -/
theorem back_visible {w : Tree α} (visible : SameVisible w u) {v : Tree α}
    (renamed : w.rename b a = some v) : SameVisible v t := by
  intro q notStage
  have back := FileTree.get_rename renamed h.differ.symm q
  rw [back]
  by_cases below : a <+: q
  · obtain ⟨r, rfl⟩ := below
    rw [if_pos (List.prefix_append a r), relocate_append]
    have hidden : ¬ IsStage (b ++ r) := by
      by_cases more : r = []
      · subst more
        simpa using h.target
      · rw [isStage_append more]
        rwa [isStage_append more] at notStage
    rw [visible _ hidden, h.get_eq, if_pos (List.prefix_append b r), relocate_append]
  · rw [if_neg below]
    by_cases under : b <+: q
    · rw [if_pos under, h.get_below under]
    · rw [if_neg under, visible q notStage, h.get_eq, if_neg under, if_neg below]

/-- The artifacts are as they were, and the spent ones have gone along. -/
theorem back_returned {s : Transaction α} (tree : s.tree = t)
    (tracked : ∀ artifact ∈ s.artifacts, s.tree.get artifact.path ≠ none)
    (returned : Returned root ((s.setTree u).rewriteArtifacts a b) w) {v : Tree α}
    (renamed : w.tree.rename b a = some v) :
    Returned root s ((w.setTree v).rewriteArtifacts b a) ∧
      ∀ x, SpentAt root s ((w.setTree v).rewriteArtifacts b a) x ↔
        ∃ y, SpentAt root ((s.setTree u).rewriteArtifacts a b) w y ∧ x = relocate b a y := by
  have stage_iff (p : FilePath) := isStage_relocate (q := p) h.plain.not_isStage h.target
  have after (id : ℕ) (artifact : TransactionArtifact) (here : s.artifacts[id]? = some artifact) :
      ((s.setTree u).rewriteArtifacts a b).artifacts[id]? =
        some { artifact with path := relocate a b artifact.path } := by
    rw [getElem?_rewriteArtifacts]
    simp [here]
  have back (id : ℕ) (artifact : TransactionArtifact) (here : w.artifacts[id]? = some artifact) :
      ((w.setTree v).rewriteArtifacts b a).artifacts[id]? =
        some { artifact with path := relocate b a artifact.path } := by
    rw [getElem?_rewriteArtifacts]
    simp [here]
  have home (artifact : TransactionArtifact) (mem : artifact ∈ s.artifacts) :
      relocate b a (relocate a b artifact.path) = artifact.path := by
    apply relocate_relocate
    intro below
    have gone := h.get_below below
    rw [← tree] at gone
    exact tracked artifact mem gone
  have spent (artifact c : TransactionArtifact)
      (was : Spent root { artifact with path := relocate a b artifact.path } c) :
      Spent root artifact { c with path := relocate b a c.path } := by
    refine ⟨(stage_iff _).mp was.stage, was.plain.relocate h.plain, ?_, was.cleaned⟩
    exact prefix_relocate root was.inside h.source_inside
  refine ⟨⟨?_, returned.accounted.rename renamed h.differ.symm h.plain.not_isStage h.source_inside, ?_, ?_⟩, fun x => ⟨?_, ?_⟩⟩
  · show SameVisible v s.tree
    rw [tree]
    exact h.back_visible returned.visible renamed
  · intro id artifact here
    obtain ⟨c, there, same | was⟩ := returned.known id _ (after id artifact here)
    · refine ⟨_, back id c there, .inl ?_⟩
      rw [same]
      simp [home artifact (List.mem_of_getElem? here)]
    · exact ⟨_, back id c there, .inr (spent artifact c was)⟩
  · intro id c missing there
    rw [getElem?_rewriteArtifacts] at there
    obtain ⟨d, here, rfl⟩ := Option.map_eq_some_iff.mp there
    refine returned.extra id d ?_ here
    rw [getElem?_rewriteArtifacts]
    simp [missing]
  · rintro ⟨id, artifact, c, here, there, was, rfl⟩
    rw [getElem?_rewriteArtifacts] at there
    obtain ⟨d, before, rfl⟩ := Option.map_eq_some_iff.mp there
    obtain ⟨d', before', same | was'⟩ := returned.known id _ (after id artifact here)
    · obtain rfl := Option.some.inj (before.symm.trans before')
      have plain : PlainPath (relocate b a d.path) := was.plain
      rw [same, home artifact (List.mem_of_getElem? here)] at plain
      exact absurd was.stage plain.not_isStage
    · obtain rfl := Option.some.inj (before.symm.trans before')
      exact ⟨d.path, ⟨id, _, d, after id artifact here, before, was', rfl⟩, rfl⟩
  · rintro ⟨y, ⟨id, artifact, c, here, there, was, rfl⟩, rfl⟩
    rw [getElem?_rewriteArtifacts] at here
    obtain ⟨d, before, rfl⟩ := Option.map_eq_some_iff.mp here
    exact ⟨id, d, _, before, back id c there, spent d c was, rfl⟩

end Reversible

/-! #### A backup is put back -/

/-- A backup that is not in the list of `s` may be kept. -/
theorem Returned.keep (returned : Returned root (s.addArtifact ⟨b, .backup, true, true⟩) w)
    (backup : ¬ IsStage b) :
    Returned root s (w.keepArtifact s.artifacts.length) ∧
      ∀ x, SpentAt root s (w.keepArtifact s.artifacts.length) x ↔
        SpentAt root (s.addArtifact ⟨b, .backup, true, true⟩) w x := by
  have before (id : ℕ) (artifact : TransactionArtifact)
      (here : s.artifacts[id]? = some artifact) :
      (s.addArtifact ⟨b, .backup, true, true⟩).artifacts[id]? = some artifact := by
    have short := (List.getElem?_eq_some_iff.mp here).1
    rw [Transaction.addArtifact_artifacts, List.getElem?_append_left short, here]
  have other (id : ℕ) (short : id ≠ s.artifacts.length) :
      (w.keepArtifact s.artifacts.length).artifacts[id]? = w.artifacts[id]? := by
    rw [Transaction.keepArtifact_artifacts, List.getElem?_modify]
    simp [short.symm]
  have inList (id : ℕ) (artifact : TransactionArtifact)
      (here : s.artifacts[id]? = some artifact) : id ≠ s.artifacts.length := by
    have short := (List.getElem?_eq_some_iff.mp here).1
    omega
  refine ⟨⟨returned.visible, ?_, ?_, ?_⟩, fun x => ⟨?_, ?_⟩⟩
  · intro q stage present
    obtain ⟨file, inside, listed⟩ := returned.accounted q stage present
    refine ⟨file, inside, ?_⟩
    obtain ⟨id, artifact, here, cleaned, path⟩ := mem_exposed.mp listed
    refine mem_exposed.mpr ⟨id, artifact, ?_, cleaned, path⟩
    rw [other, here]
    rintro rfl
    obtain ⟨c, there, same | was⟩ := returned.known s.artifacts.length ⟨b, .backup, true, true⟩
      (by simp)
    · obtain rfl := Option.some.inj (here.symm.trans there)
      subst same
      subst path
      exact backup stage
    · exact backup was.stage
  · intro id artifact here
    rw [other id (inList id artifact here)]
    exact returned.known id artifact (before id artifact here)
  · intro id c missing there
    by_cases last : id = s.artifacts.length
    · subst last
      rw [Transaction.keepArtifact_artifacts, List.getElem?_modify] at there
      simp only [if_true, Option.map_eq_map, Option.map_eq_some_iff] at there
      obtain ⟨d, -, rfl⟩ := there
      rfl
    · rw [other id last] at there
      refine returned.extra id c ?_ there
      have long : s.artifacts.length ≤ id := List.getElem?_eq_none_iff.mp missing
      rw [Transaction.addArtifact_artifacts, List.getElem?_eq_none_iff, List.length_append,
        List.length_singleton]
      omega
  · rintro ⟨id, artifact, c, here, there, was, rfl⟩
    rw [other id (inList id artifact here)] at there
    exact ⟨id, artifact, c, before id artifact here, there, was, rfl⟩
  · rintro ⟨id, artifact, c, here, there, was, rfl⟩
    have differ : id ≠ s.artifacts.length := by
      rintro rfl
      have last : artifact = ⟨b, .backup, true, true⟩ := by
        simpa using here.symm
      rw [last] at was
      exact backup was.stage
    refine ⟨id, artifact, c, ?_, by rw [other id differ, there], was, rfl⟩
    have long := (List.getElem?_eq_some_iff.mp here).1
    rw [Transaction.addArtifact_artifacts, List.length_append, List.length_singleton] at long
    rw [Transaction.addArtifact_artifacts, List.getElem?_append_left (by omega)] at here
    exact here

theorem rewriteArtifacts_keepArtifact :
    (s.keepArtifact id).rewriteArtifacts a b = (s.rewriteArtifacts a b).keepArtifact id := by
  have same : ((s.keepArtifact id).rewriteArtifacts a b).artifacts =
      ((s.rewriteArtifacts a b).keepArtifact id).artifacts := by
    ext1 i
    simp only [getElem?_rewriteArtifacts, Transaction.keepArtifact_artifacts,
      List.getElem?_modify]
    by_cases here : id = i
    · simp [here, Function.comp_def]
    · simp [here]
  simp only [Transaction.rewriteArtifacts, Transaction.keepArtifact] at same ⊢
  rw [same]

/-- What was renamed to a backup comes back, and the backup is kept. -/
theorem restoreBackup_returned {t : Tree α} {s : Transaction α} (h : Reversible root a b t u)
    (drawn : ¬ PlainPath b) (tree : s.tree = t)
    (tracked : ∀ artifact ∈ s.artifacts, s.tree.get artifact.path ≠ none)
    (returned : Returned root
      (((s.setTree u).rewriteArtifacts a b).addArtifact ⟨b, .backup, true, true⟩) w) :
    Returned root s (restoreBackup root w s.artifacts.length a).2 ∧
      ∀ x, SpentAt root s (restoreBackup root w s.artifacts.length a).2 x ↔
        SpentAt root
          (((s.setTree u).rewriteArtifacts a b).addArtifact ⟨b, .backup, true, true⟩) w x := by
  have length : ((s.setTree u).rewriteArtifacts a b).artifacts.length = s.artifacts.length := by
    simp
  have position : w.artifactPath s.artifacts.length = b := by
    obtain ⟨c, there, same | was⟩ := returned.known s.artifacts.length ⟨b, .backup, true, true⟩
      (by simp)
    · rw [Transaction.artifactPath, there, same]
      rfl
    · exact absurd was.stage h.target
  obtain ⟨kept, keptSpent⟩ := returned.keep h.target
  rw [length] at kept keptSpent
  obtain ⟨v, safely, renamed⟩ := h.back kept.visible
  obtain ⟨done, doneSpent⟩ := h.back_returned tree tracked kept renamed
  have order : ((w.keepArtifact s.artifacts.length).setTree v).rewriteArtifacts b a =
      ((w.setTree v).rewriteArtifacts b a).keepArtifact s.artifacts.length :=
    rewriteArtifacts_keepArtifact (s := w.setTree v)
  have result : (restoreBackup root w s.artifacts.length a).2 =
      ((w.keepArtifact s.artifacts.length).setTree v).rewriteArtifacts b a := by
    rw [order, restoreBackup, position]
    have safely' : renameWithSafety root w.tree b a = some v := safely
    rw [safely']
  rw [result]
  refine ⟨done, fun x => ?_⟩
  rw [doneSpent]
  have still (y : FilePath) (spent : SpentAt root ((s.setTree u).rewriteArtifacts a b)
      (w.keepArtifact s.artifacts.length) y) : relocate b a y = y := by
    obtain ⟨id, artifact, c, -, -, was, rfl⟩ := spent
    exact relocate_of_not_below fun below => drawn (was.plain.of_below below)
  constructor
  · rintro ⟨y, spent, rfl⟩
    rw [still y spent]
    exact (keptSpent y).mp spent
  · intro spent
    have spent' := (keptSpent x).mpr spent
    exact ⟨x, spent', (still x spent').symm⟩

/-! #### An installed file is removed -/

/-- The file that a write has put at `path` goes away. -/
theorem removeInstalled_eq (inside : root <+: path)
    (file : w.tree.isFile path = true) :
    ∃ v, removeInstalled root w path = ([], w.setTree v) ∧
      ∀ q, v.get q = if q = path then none else w.tree.get q := by
  obtain ⟨content, mode, present⟩ := isFile_iff.mp file
  have safe : assertNoSymlinkComponents root path w.tree = true :=
    safe_of_present inside (by simp [present]) (by simp [present])
  obtain ⟨v, removed⟩ := FileTree.remove_of_leaf (t := w.tree) (p := path) (by simp [present])
    (by simp [present])
  refine ⟨v, ?_, FileTree.get_remove removed⟩
  rw [removeInstalled, if_pos safe, removed]

theorem Accounted.remove (accounted : Accounted root w) (plain : PlainPath path)
    (gone : ∀ q, v.get q = if q = path then none else w.tree.get q) :
    Accounted root (w.setTree v) := by
  intro q stage present
  have other : q ≠ path := by
    rintro rfl
    exact plain.not_isStage stage
  have same : v.get q = w.tree.get q := by rw [gone, if_neg other]
  have before : w.tree.get q ≠ none := by
    rw [← same]
    exact present
  obtain ⟨file, inside, listed⟩ := accounted q stage before
  exact ⟨by rw [Transaction.setTree_tree, isFile_congr same, file], inside, listed⟩

/-- What a write has to look like to be taken back: from `s` to `s'` the file
at `path` has appeared, made from the stage file of artifact `id`. -/
structure Installed (root path : FilePath) (id : ℕ) (s s' : Transaction α) : Prop where
  free : s.tree.get path = none
  plain : PlainPath path
  inside : root <+: path
  file : s'.tree.isFile path = true
  others : ∀ q, ¬ IsStage q → q ≠ path → s'.tree.get q = s.tree.get q
  staged : ∃ artifact, s.artifacts[id]? = some artifact ∧ IsStage artifact.path ∧
    artifact.cleanupOnFailure = true

namespace Installed

variable {s' : Transaction α} (h : Installed root path id s s')

include h

theorem back (visible : SameVisible w.tree s'.tree) :
    ∃ v, removeInstalled root w path = ([], w.setTree v) ∧ SameVisible v s.tree ∧
      ∀ q, v.get q = if q = path then none else w.tree.get q := by
  have file : w.tree.isFile path = true := by
    rw [isFile_congr (visible path h.plain.not_isStage), h.file]
  obtain ⟨v, removed, gone⟩ := removeInstalled_eq h.inside file
  refine ⟨v, removed, ?_, gone⟩
  intro q notStage
  rw [gone]
  by_cases same : q = path
  · rw [if_pos same, same, h.free]
  · rw [if_neg same, visible q notStage, h.others q notStage same]

/-- The artifact of the stage file is spent then. -/
theorem back_returned (artifacts : s'.artifacts = (s.installArtifact id path).artifacts)
    (returned : Returned root s' w) {v : Tree α} (visible : SameVisible v s.tree)
    (gone : ∀ q, v.get q = if q = path then none else w.tree.get q) :
    Returned root s (w.setTree v) ∧
      ∀ x, SpentAt root s (w.setTree v) x ↔ SpentAt root s' w x ∨ x = path := by
  obtain ⟨artifact, here, stage, cleaned⟩ := h.staged
  have installed : s'.artifacts[id]? =
      some { artifact with path := path, cleanupOnSuccess := false } := by
    rw [artifacts, Transaction.installArtifact_artifacts, List.getElem?_modify, here]
    simp
  have other (id' : ℕ) (differ : id' ≠ id) : s'.artifacts[id']? = s.artifacts[id']? := by
    rw [artifacts, Transaction.installArtifact_artifacts, List.getElem?_modify]
    simp [differ.symm]
  have now : w.artifacts[id]? = some { artifact with path := path, cleanupOnSuccess := false } := by
    obtain ⟨c, there, same | was⟩ := returned.known id _ installed
    · rw [there, same]
    · exact absurd was.stage h.plain.not_isStage
  have spent : Spent root artifact { artifact with path := path, cleanupOnSuccess := false } :=
    ⟨stage, h.plain, h.inside, cleaned⟩
  refine ⟨⟨visible, returned.accounted.remove h.plain gone, ?_, ?_⟩, fun x => ⟨?_, ?_⟩⟩
  · intro id' a here'
    by_cases same : id' = id
    · subst same
      obtain rfl := Option.some.inj (here.symm.trans here')
      exact ⟨_, now, .inr spent⟩
    · rw [← other id' same] at here'
      exact returned.known id' a here'
  · intro id' b missing there
    have differ : id' ≠ id := by
      rintro rfl
      rw [here] at missing
      contradiction
    rw [← other id' differ] at missing
    exact returned.extra id' b missing there
  · rintro ⟨id', a, c, here', there, was, rfl⟩
    by_cases same : id' = id
    · subst same
      obtain rfl := Option.some.inj (now.symm.trans there)
      exact .inr rfl
    · rw [← other id' same] at here'
      exact .inl ⟨id', a, c, here', there, was, rfl⟩
  · rintro (⟨id', a, c, here', there, was, rfl⟩ | rfl)
    · have differ : id' ≠ id := by
        rintro rfl
        obtain rfl := Option.some.inj (installed.symm.trans here')
        exact h.plain.not_isStage was.stage
      rw [other id' differ] at here'
      exact ⟨id', a, c, here', there, was, rfl⟩
    · exact ⟨id, artifact, _, here, now, spent, rfl⟩

end Installed

end Returned

end OmpBundler.Cli
