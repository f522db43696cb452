import OmpBundler.Cli.Rollback

/-!
One operation, and what its undo step gives back.

An operation is followed call by call from the state it begins in. Where a
call fails, the undo step that the operation has pushed by then takes the
tree and the artifacts back to that state (`Recovers`). Where the operation
is completed, its undo step does so from every state that the undo steps of
later operations may come back to (`Completed`).

Both hold as long as the operation finds the directory that it needs. When
the directory is missing, only the calls up to `mkdir` are followed.
-/

namespace OmpBundler.Cli

open Library Library.Proc Library.Path

section Programs

variable {α β γ : Type} {root : FilePath} {fault : Option Fault} {site : Site} {call : Call}
  {s : Transaction α} {E : Failure → Transaction α → Prop} {D : Transaction α → Prop}
  {post : γ → Transaction α → Prop}

/-! ### Calls from a known state -/

theorem fail_at (message : String) (bad : E (.failed ⟨site, call⟩ message) s) :
    Triple (fun x => x = s) (fail site call message : Step α γ) post E D :=
  Triple.throw fun _ same => same ▸ bad

theorem get_at {q : Transaction α → Step α γ}
    (rest : Triple (fun x => x = s) (q s) post E D) :
    Triple (fun x => x = s) (Proc.get >>= q) post E D := by
  apply Triple.bind (M := fun read x => x = s ∧ read = s)
  · exact Triple.get fun x same => ⟨same, same⟩
  intro read
  apply Triple.of_pre
  rintro _ ⟨rfl, rfl⟩
  exact rest

theorem modify_at {f : Transaction α → Transaction α} {q : Unit → Step α γ}
    (rest : Triple (fun x => x = f s) (q ()) post E D) :
    Triple (fun x => x = s) (Proc.modify f >>= q) post E D := by
  apply Triple.bind (M := fun _ x => x = f s)
  · exact Triple.modify fun x same => by rw [same]
  · exact fun _ => rest

theorem bind_at {t : Transaction α} {p : Step α β} {q : β → Step α γ} {Q : β → Prop}
    (first : Triple (fun x => x = s) p (fun b x => x = t ∧ Q b) E D)
    (rest : ∀ b, Q b → Triple (fun x => x = t) (q b) post E D) :
    Triple (fun x => x = s) (p >>= q) post E D := by
  apply Triple.bind first
  intro b
  apply Triple.of_pre
  rintro _ ⟨rfl, holds⟩
  exact rest b holds

theorem reach_spec (bad : ∀ message, E (.failed ⟨site, call⟩ message) s) :
    Triple (fun x => x = s) (reach fault site call) (fun _ x => x = s ∧ True) E D :=
  Triple.ite (fun _ => fail_at _ (bad _)) fun _ => Triple.pure () fun _ same => ⟨same, trivial⟩

theorem checkSafe_spec {path : FilePath} (bad : ∀ message, E (.failed ⟨site, call⟩ message) s) :
    Triple (fun x => x = s) (checkSafe root fault site call path)
      (fun _ x => x = s ∧ assertNoSymlinkComponents root path s.tree = true) E D := by
  refine bind_at (reach_spec bad) fun _ _ => get_at ?_
  exact Triple.ite (fun safe => Triple.pure () fun _ same => ⟨same, safe⟩)
    fun _ => fail_at _ (bad _)

theorem lstatIfPresent_spec {path : FilePath}
    (bad : ∀ message, E (.failed ⟨site, call⟩ message) s) :
    Triple (fun x => x = s) (lstatIfPresent fault site call path)
      (fun node x => x = s ∧ node = s.tree.get path) E D :=
  bind_at (reach_spec bad) fun _ _ => get_at (Triple.pure _ fun _ same => ⟨same, rfl⟩)

/-- A call that changes the tree. -/
theorem treeCall_spec {operation : Transaction α → Option (Tree α)}
    (bad : ∀ message, E (.failed ⟨site, call⟩ message) s) :
    Triple (fun x => x = s) (treeCall fault site call operation)
      (fun _ x => ∃ u, operation s = some u ∧ x = s.setTree u) E D := by
  refine bind_at (reach_spec bad) fun _ _ => get_at ?_
  cases done : operation s with
  | some u => exact Triple.modify fun x same => ⟨u, rfl, by rw [same]⟩
  | none => exact fail_at _ (bad _)

theorem treeCall_at {operation : Transaction α → Option (Tree α)} {q : Unit → Step α γ}
    (bad : ∀ message, E (.failed ⟨site, call⟩ message) s)
    (rest : ∀ u, operation s = some u → Triple (fun x => x = s.setTree u) (q ()) post E D) :
    Triple (fun x => x = s) (treeCall fault site call operation >>= q) post E D := by
  apply Triple.bind (treeCall_spec bad)
  intro _
  apply Triple.of_pre
  rintro _ ⟨u, done, rfl⟩
  exact rest u done

/-! ### Ensuring a directory -/

@[simp] theorem addCreated_nil : s.addCreated [] = s := by
  simp [Transaction.addCreated]

theorem reverse_inits (path : FilePath) :
    path.inits.reverse = path :: path.inits.reverse.tail := by
  cases path using List.reverseRecOn with
  | nil => rfl
  | append_singleton xs x => simp [List.inits_append]

theorem missingAbove_of_directory {tree : Tree α} {path : FilePath}
    (present : tree.get path = some .directory) : missingAbove tree path = [] := by
  rw [missingAbove, reverse_inits, List.takeWhile_cons_of_neg (by simp [present])]

theorem missingDirectories_of_directory {tree : Tree α} {path : FilePath}
    (present : tree.get path = some .directory) : missingDirectories root tree path = some [] := by
  rw [missingDirectories, missingAbove_of_directory present, reverse_inits,
    List.find?_cons_of_pos (by simp [present])]
  simp [present]

/-- Nothing is made where the directory is. -/
theorem ensureDirectory_spec {path : FilePath} (present : s.tree.get path = some .directory)
    (bad : ∀ call message, E (.failed ⟨site, call⟩ message) s) :
    Triple (fun x => x = s) (ensureDirectory root fault site path)
      (fun created x => x = s ∧ created = []) E D := by
  have nothing := missingAbove_of_directory present
  have made : makeDirectories s.tree [] = some s.tree := rfl
  have called : Triple (fun x => x = s) (mkdirCall fault site path)
      (fun _ x => x = s ∧ True) E D := by
    refine get_at ?_
    simp only [nothing, List.reverse_nil, List.take_nil, made, Option.getD_some]
    apply bind_at (Q := fun _ => True)
    · exact Triple.ite (fun _ => Triple.pure () fun _ same => ⟨same, trivial⟩)
        fun _ => Triple.modify fun x same => ⟨by rw [same]; rfl, trivial⟩
    · intro _ _
      apply (treeCall_spec (bad .mkdir)).adapt (fun _ same => same)
      rintro _ _ ⟨u, done, rfl⟩
      obtain rfl := Option.some.inj (made.symm.trans done)
      exact ⟨rfl, trivial⟩
  refine bind_at (checkSafe_spec (bad _)) fun _ _ => ?_
  refine bind_at (reach_spec (bad _)) fun _ _ => get_at ?_
  rw [missingDirectories_of_directory present]
  refine modify_at ?_
  rw [addCreated_nil]
  refine bind_at called fun _ _ => ?_
  refine bind_at (checkSafe_spec (bad _)) fun _ _ => ?_
  exact Triple.pure _ fun _ same => ⟨same, rfl⟩

/-- Whether the point is past the `mkdir` call of its operation, or that call
fails half-way. -/
def pastMkdir (fault : Option Fault) (point : Point) : Prop :=
  match point.call with
  | .safe | .lstat | .lstatDestination | .ensureSafe | .ensureLstat => False
  | .mkdir => residueAt fault point ≠ 0
  | _ => True

/-- Where the directory is missing, a failure up to the `mkdir` call has
changed nothing; if it is that call, the missing directories are recorded. -/
theorem ensureDirectory_missing {path : FilePath}
    (bad : ∀ message, E (.failed ⟨site, .ensureSafe⟩ message) s ∧
      E (.failed ⟨site, .ensureLstat⟩ message) s)
    (unmade : ∀ missing message, missingDirectories root s.tree path = some missing →
      residueAt fault ⟨site, .mkdir⟩ = 0 →
      E (.failed ⟨site, .mkdir⟩ message) (s.addCreated missing))
    (past : ∀ call message x, pastMkdir fault ⟨site, call⟩ → E (.failed ⟨site, call⟩ message) x) :
    Triple (fun x => x = s) (ensureDirectory root fault site path) (fun _ _ => True) E
      (fun _ => False) := by
  refine bind_at (checkSafe_spec fun m => (bad m).1) fun _ _ => ?_
  refine bind_at (reach_spec fun m => (bad m).2) fun _ _ => get_at ?_
  cases found : missingDirectories root s.tree path with
  | none => exact fail_at _ (bad _).2
  | some missing =>
      refine modify_at ?_
      apply Triple.bind (M := fun _ _ => True)
      · refine get_at ?_
        dsimp only
        by_cases half : residueAt fault ⟨site, .mkdir⟩ = 0
        · rw [if_pos half]
          refine bind_at (Q := fun _ => True) (Triple.pure () fun _ same => ⟨same, trivial⟩)
            fun _ _ => ?_
          exact (treeCall_spec fun m => unmade missing m found half).adapt (fun _ same => same)
            fun _ _ _ => trivial
        · rw [if_neg half]
          refine modify_at ?_
          exact (treeCall_spec fun m => past .mkdir m _ half).adapt (fun _ same => same)
            fun _ _ _ => trivial
      · intro _
        apply Triple.of_pre
        intro x _
        refine bind_at (checkSafe_spec fun m => past .ensureRecheck m x trivial) fun _ _ => ?_
        exact Triple.pure _ fun _ _ => trivial

end Programs

/-! ### Between operations -/

section Operations

variable {α : Type} {root : FilePath} {fault : Option Fault} {s x w : Transaction α}

/-- The temporary names in a path have been drawn. -/
def Drawn (uuid : ℕ) (path : FilePath) : Prop :=
  ∀ label drawn, Name.transaction label drawn ∈ path → drawn < uuid

/-- What holds before the operation at `index`: every artifact has its file,
that of a stage file is its only one, temporary names have been drawn, and
the stage files of the writes to come are there. -/
structure Forward (root : FilePath) (index : ℕ) (s : Transaction α) : Prop where
  accounted : Accounted root s
  tracked : ∀ artifact ∈ s.artifacts, s.tree.get artifact.path ≠ none
  drawn : ∀ q, s.tree.get q ≠ none → Drawn s.uuid q
  alone : ∀ (i j : ℕ) (a b : TransactionArtifact), s.artifacts[i]? = some a →
    s.artifacts[j]? = some b → IsStage a.path → a.path = b.path → i = j
  staged : ∀ i id, index ≤ i → s.stagedWrites.get i = some id →
    ∃ artifact, s.artifacts[id]? = some artifact ∧ IsStage artifact.path ∧
      artifact.cleanupOnFailure = true
  distinct : ∀ i j id, s.stagedWrites.get i = some id → s.stagedWrites.get j = some id → i = j

/-- The undo step that was pushed since `s`, if there is one, gives `s` back. -/
def Recovers (root : FilePath) (s x : Transaction α) : Prop :=
  ∃ y, (x.undoStack = s.undoStack ∧ y = x ∨
      ∃ entry, x.undoStack = entry :: s.undoStack ∧ y = (undo root x entry).2) ∧
    Returned root s y ∧ ∀ p, ¬ SpentAt root s y p

/-- Where a path goes when the operation is undone. -/
def backPath : FileOperation α → FilePath → FilePath
  | .move source destination, path => relocate destination source path
  | .write _ _ _ _, path | .mkdir _, path | .remove _, path => path

/-- The path at which the operation has installed a stage file. -/
def writtenPath : FileOperation α → Option FilePath
  | .write path _ _ _ => some path
  | .mkdir _ | .move _ _ | .remove _ => none

/-- The directory that the operation needs. -/
def neededDirectory : FileOperation α → Option FilePath
  | .write path _ _ _ => some (dirname path)
  | .mkdir path => some path
  | .move _ destination => some (dirname destination)
  | .remove _ => none

/-- The directory that the operation needs is there. -/
def DirectoryPresent (operation : FileOperation α) (tree : Tree α) : Prop :=
  ∀ path ∈ neededDirectory operation, tree.get path = some .directory

/-- The operation at `index` has led from `s` to `x`. -/
structure Completed (root : FilePath) (operation : FileOperation α) (s x : Transaction α) :
    Prop where
  created : x.createdDirectories = s.createdDirectories
  back : ∃ entry, x.undoStack = entry :: s.undoStack ∧
    ∀ w, Returned root x w → Returned root s (undo root w entry).2 ∧
      ∀ p, SpentAt root s (undo root w entry).2 p ↔
        (∃ q, SpentAt root x w q ∧ p = backPath operation q) ∨ writtenPath operation = some p

/-- The directories that have been recorded when a call fails: those that are
missing, if it is the `mkdir` call, and else none. -/
structure Recorded (root : FilePath) (operation : FileOperation α) (tree : Tree α) (call : Call)
    (extra : List FilePath) : Prop where
  exact : call = .mkdir → ∀ path ∈ neededDirectory operation,
    missingDirectories root tree path = some extra
  only : extra ≠ [] → call = .mkdir ∧ ∃ path, neededDirectory operation = some path

/-- A call of the operation that began in `s` has failed in `x`. -/
def FailedAt (root : FilePath) (fault : Option Fault) (site : Site)
    (operation : FileOperation α) (s : Transaction α) (failure : Failure) (x : Transaction α) :
    Prop :=
  ∃ call message, failure = .failed ⟨site, call⟩ message ∧
    (DirectoryPresent operation s.tree ∨ ¬ pastMkdir fault ⟨site, call⟩ →
      Recovers root s x ∧ ∃ extra, x.createdDirectories = s.createdDirectories ++ extra ∧
        Recorded root operation s.tree call extra)

theorem Accounted.congr (accounted : Accounted root s) (tree : x.tree = s.tree)
    (artifacts : x.artifacts = s.artifacts) : Accounted root x := by
  intro q stage present
  rw [tree] at present ⊢
  rw [artifacts]
  exact accounted q stage present

theorem Returned.congr (returned : Returned root s w) (tree : x.tree = w.tree)
    (artifacts : x.artifacts = w.artifacts) : Returned root s x where
  visible := by
    rw [tree]
    exact returned.visible
  accounted := returned.accounted.congr tree artifacts
  known := by
    rw [artifacts]
    exact returned.known
  extra := by
    rw [artifacts]
    exact returned.extra

theorem SpentAt.congr (artifacts : x.artifacts = w.artifacts) (p : FilePath) :
    SpentAt root s x p ↔ SpentAt root s w p := by
  simp only [SpentAt, artifacts]

theorem Returned.of_get (accounted : Accounted root s)
    (get : ∀ q, x.tree.get q = s.tree.get q) (artifacts : x.artifacts = s.artifacts) :
    Returned root s x where
  visible q _ := get q
  accounted q stage present := by
    rw [get] at present
    rw [isFile_congr (get q), artifacts]
    exact accounted q stage present
  known id a here := ⟨a, by rw [artifacts, here], .inl rfl⟩
  extra id b missing here := by
    rw [artifacts, missing] at here
    contradiction

/-- The start of the way back is known by its tree and its artifacts. -/
theorem Returned.since (returned : Returned root s w) (tree : x.tree = s.tree)
    (artifacts : x.artifacts = s.artifacts) : Returned root x w where
  visible := by
    rw [tree]
    exact returned.visible
  accounted := returned.accounted
  known := by
    rw [artifacts]
    exact returned.known
  extra := by
    rw [artifacts]
    exact returned.extra

theorem not_spentAt_of_artifacts (artifacts : x.artifacts = s.artifacts) (p : FilePath) :
    ¬ SpentAt root s x p := by
  rw [SpentAt.congr artifacts]
  exact not_spentAt_self

/-- Nothing has changed but the counter. -/
theorem Recovers.of_same (accounted : Accounted root s) (tree : x.tree = s.tree)
    (artifacts : x.artifacts = s.artifacts) (stack : x.undoStack = s.undoStack) :
    Recovers root s x := by
  refine ⟨x, .inl ⟨stack, rfl⟩, Returned.of_get accounted (fun q => by rw [tree]) artifacts, ?_⟩
  exact not_spentAt_of_artifacts artifacts

theorem Recovers.of_undo {entry : UndoOperation} (stack : x.undoStack = entry :: s.undoStack)
    (returned : Returned root s (undo root x entry).2)
    (unspent : ∀ p, ¬ SpentAt root s (undo root x entry).2 p) : Recovers root s x :=
  ⟨_, .inr ⟨entry, stack, rfl⟩, returned, unspent⟩

/-- The undo step does nothing. -/
theorem Recovers.of_idle {entry : UndoOperation} (accounted : Accounted root s)
    (tree : x.tree = s.tree) (artifacts : x.artifacts = s.artifacts)
    (stack : x.undoStack = entry :: s.undoStack) (idle : (undo root x entry).2 = x) :
    Recovers root s x := by
  apply Recovers.of_undo stack
  · rw [idle]
    exact Returned.of_get accounted (fun q => by rw [tree]) artifacts
  · rw [idle]
    exact not_spentAt_of_artifacts artifacts

@[simp] theorem undoCreated_nil : undoCreated root s [] = ([], s) := by
  simp [undoCreated, cleanupCreatedDirectories, byLength, removeEach, Transaction.setTree]

namespace Forward

variable {index id : ℕ} {u : Tree α} {path b sp : FilePath}

/-- The undo stack does not matter, and the counter may have moved on. -/
theorem congr (forward : Forward root index s) (tree : x.tree = s.tree)
    (artifacts : x.artifacts = s.artifacts) (staged : x.stagedWrites = s.stagedWrites)
    (uuid : s.uuid ≤ x.uuid) : Forward root index x where
  accounted := forward.accounted.congr tree artifacts
  tracked := by
    rw [tree, artifacts]
    exact forward.tracked
  drawn q present label drawn mem := by
    rw [tree] at present
    exact (forward.drawn q present label drawn mem).trans_le uuid
  alone := by
    rw [artifacts]
    exact forward.alone
  staged := by
    rw [staged, artifacts]
    exact forward.staged
  distinct := by
    rw [staged]
    exact forward.distinct

/-- An operation that does not use its stage file is done. -/
theorem next (forward : Forward root index s) : Forward root (index + 1) s :=
  { forward with staged := fun i id later => forward.staged i id (by omega) }

/-- Something is renamed to where nothing is. -/
theorem rename (forward : Forward root index s) (h : Reversible root path b s.tree u)
    (drawn : Drawn s.uuid b) : Forward root index ((s.setTree u).rewriteArtifacts path b) where
  accounted := forward.accounted.rename h.renamed h.differ h.target h.target_inside
  tracked artifact mem := by
    rw [Transaction.rewriteArtifacts_artifacts, List.mem_map] at mem
    obtain ⟨before, mem, rfl⟩ := mem
    have present := forward.tracked before mem
    show u.get (relocate path b before.path) ≠ none
    rw [h.get_eq]
    by_cases below : path <+: before.path
    · obtain ⟨r, same⟩ := below
      rw [← same, relocate_append, if_pos (List.prefix_append b r), relocate_append, same]
      exact present
    · rw [relocate_of_not_below below, if_neg fun under => present (h.get_below under),
        if_neg below]
      exact present
  drawn q present label uuid mem := by
    have present : u.get q ≠ none := present
    rw [h.get_eq] at present
    by_cases under : b <+: q
    · obtain ⟨r, rfl⟩ := under
      rw [if_pos (List.prefix_append b r), relocate_append] at present
      rcases List.mem_append.mp mem with inTarget | inRest
      · exact drawn label uuid inTarget
      · exact forward.drawn _ present label uuid (List.mem_append_right path inRest)
    · rw [if_neg under] at present
      split at present
      · exact absurd rfl present
      · exact forward.drawn q present label uuid mem
  alone i j c d here there stage same := by
    rw [getElem?_rewriteArtifacts] at here there
    obtain ⟨c, hereC, rfl⟩ := Option.map_eq_some_iff.mp here
    obtain ⟨d, thereD, rfl⟩ := Option.map_eq_some_iff.mp there
    have outside (artifact : TransactionArtifact) (mem : artifact ∈ s.artifacts) :
        ¬ b <+: artifact.path := fun under => forward.tracked artifact mem (h.get_below under)
    have paths : c.path = d.path := by
      have back := congrArg (relocate b path) same
      rwa [relocate_relocate (outside c (List.mem_of_getElem? hereC)),
        relocate_relocate (outside d (List.mem_of_getElem? thereD))] at back
    exact forward.alone i j c d hereC thereD
      ((isStage_relocate h.plain.not_isStage h.target).mp stage) paths
  staged i id later found := by
    obtain ⟨artifact, here, stage, cleaned⟩ := forward.staged i id later found
    refine ⟨{ artifact with path := relocate path b artifact.path }, ?_, ?_, cleaned⟩
    · rw [getElem?_rewriteArtifacts]
      exact congrArg _ here
    · exact (isStage_relocate h.plain.not_isStage h.target).mpr stage
  distinct := forward.distinct

/-- A backup is added to the artifacts. -/
theorem addBackup (forward : Forward root index s) (target : ¬ IsStage b)
    (present : s.tree.get b ≠ none) :
    Forward root index (s.addArtifact ⟨b, .backup, true, true⟩) where
  accounted q stage there := by
    obtain ⟨file, inside, listed⟩ := forward.accounted q stage there
    refine ⟨file, inside, ?_⟩
    rw [Transaction.addArtifact_artifacts, exposed, List.filter_append, List.map_append]
    exact List.mem_append_left _ listed
  tracked artifact mem := by
    rw [Transaction.addArtifact_artifacts, List.mem_append, List.mem_singleton] at mem
    rcases mem with before | rfl
    · exact forward.tracked artifact before
    · exact present
  drawn := forward.drawn
  alone i j c d here there stage same := by
    have old (i : ℕ) (c : TransactionArtifact) (stage : IsStage c.path)
        (here : (s.addArtifact ⟨b, .backup, true, true⟩).artifacts[i]? = some c) :
        s.artifacts[i]? = some c := by
      rw [Transaction.addArtifact_artifacts] at here
      by_cases short : i < s.artifacts.length
      · rwa [List.getElem?_append_left short] at here
      · rw [List.getElem?_append_right (by omega), List.getElem?_singleton] at here
        split at here
        · obtain rfl := Option.some.inj here
          exact absurd stage target
        · simp at here
    exact forward.alone i j c d (old i c stage here) (old j d (same ▸ stage) there) stage same
  staged i id later found := by
    obtain ⟨artifact, here, both⟩ := forward.staged i id later found
    have short := (List.getElem?_eq_some_iff.mp here).1
    refine ⟨artifact, ?_, both⟩
    rw [Transaction.addArtifact_artifacts, List.getElem?_append_left short, here]
  distinct := forward.distinct

/-- A file gets other permissions. -/
theorem chmod {mode : ℕ} (forward : Forward root index s) (changed : s.tree.chmod sp mode = some u) :
    Forward root index (s.setTree u) := by
  have files (q : FilePath) : u.isFile q = s.tree.isFile q ∧
      (u.get q = none ↔ s.tree.get q = none) := by
    obtain ⟨content, old, present, same⟩ := FileTree.get_chmod changed q
    rw [FileTree.isFile, same, FileTree.isFile]
    by_cases here : q = sp
    · subst here
      simp [present]
    · simp [here]
  refine ⟨?_, ?_, ?_, forward.alone, forward.staged, forward.distinct⟩
  · intro q stage present
    rw [Transaction.setTree_tree] at present ⊢
    rw [(files q).1]
    exact forward.accounted q stage fun missing => present ((files q).2.mpr missing)
  · intro artifact mem missing
    exact forward.tracked artifact mem ((files _).2.mp missing)
  · intro q present
    exact forward.drawn q fun missing => present ((files q).2.mpr missing)

/-- The stage file of the operation at `index` becomes the file at `path`. -/
theorem install {artifact : TransactionArtifact} (forward : Forward root index s)
    (found : s.stagedWrites.get index = some id) (here : s.artifacts[id]? = some artifact)
    (stage : IsStage artifact.path) (plain : PlainPath path) (moved : ∀ q, u.get q =
      if q = path then s.tree.get artifact.path else if q = artifact.path then none
      else s.tree.get q) :
    Forward root (index + 1) ((s.setTree u).installArtifact id path) := by
  have present := forward.tracked artifact (List.mem_of_getElem? here)
  have other (i : ℕ) (differ : i ≠ id) :
      ((s.setTree u).installArtifact id path).artifacts[i]? = s.artifacts[i]? := by
    rw [Transaction.installArtifact_artifacts, List.getElem?_modify]
    simp [differ.symm]
  have installed : ((s.setTree u).installArtifact id path).artifacts[id]? =
      some { artifact with path := path, cleanupOnSuccess := false } := by
    rw [Transaction.installArtifact_artifacts, List.getElem?_modify]
    simp [here]
  refine ⟨?_, ?_, ?_, ?_, ?_, forward.distinct⟩
  · intro q stageQ presentQ
    have notPath : q ≠ path := by
      rintro rfl
      exact plain.not_isStage stageQ
    have presentQ : u.get q ≠ none := presentQ
    rw [moved, if_neg notPath] at presentQ
    have notHere : q ≠ artifact.path := by
      rintro rfl
      simp at presentQ
    rw [if_neg notHere] at presentQ
    obtain ⟨file, inside, listed⟩ := forward.accounted q stageQ presentQ
    refine ⟨?_, inside, ?_⟩
    · show u.isFile q = true
      rw [isFile_congr (u := s.tree) (q := q) (by rw [moved, if_neg notPath, if_neg notHere]), file]
    · obtain ⟨i, c, there, cleaned, same⟩ := mem_exposed.mp listed
      refine mem_exposed.mpr ⟨i, c, ?_, cleaned, same⟩
      rw [other, there]
      rintro rfl
      obtain rfl := Option.some.inj (here.symm.trans there)
      exact notHere same.symm
  · intro c mem
    obtain ⟨i, there⟩ := List.mem_iff_getElem?.mp mem
    show u.get c.path ≠ none
    rw [moved]
    by_cases same : i = id
    · subst same
      obtain rfl := Option.some.inj (installed.symm.trans there)
      rw [if_pos rfl]
      exact present
    · rw [other i same] at there
      by_cases atPath : c.path = path
      · rw [if_pos atPath]
        exact present
      · have away : c.path ≠ artifact.path := fun equal =>
          same (forward.alone id i artifact c here there stage equal.symm).symm
        rw [if_neg atPath, if_neg away]
        exact forward.tracked c (List.mem_of_getElem? there)
  · intro q presentQ
    have presentQ : u.get q ≠ none := presentQ
    rw [moved] at presentQ
    by_cases atPath : q = path
    · intro label uuid mem
      rw [atPath] at mem
      exact (plain _ mem).elim
    · rw [if_neg atPath] at presentQ
      split at presentQ
      · exact absurd rfl presentQ
      · exact forward.drawn q presentQ
  · intro i j c d hereC thereD stageC same
    have notInstalled (k : ℕ) (e : TransactionArtifact) (stageE : IsStage e.path)
        (at_k : ((s.setTree u).installArtifact id path).artifacts[k]? = some e) : k ≠ id := by
      rintro rfl
      obtain rfl := Option.some.inj (installed.symm.trans at_k)
      exact plain.not_isStage stageE
    have differI := notInstalled i c stageC hereC
    have differJ := notInstalled j d (same ▸ stageC) thereD
    rw [other i differI] at hereC
    rw [other j differJ] at thereD
    exact forward.alone i j c d hereC thereD stageC same
  · intro i id' later found'
    obtain ⟨c, there, both⟩ := forward.staged i id' (by omega) found'
    refine ⟨c, ?_, both⟩
    rw [other, there]
    rintro rfl
    have := forward.distinct i index id' found' found
    omega

end Forward

section Failures

variable {site : Site} {operation : FileOperation α}

/-- A failure where the directory is there. -/
theorem FailedAt.of_recovers (present : DirectoryPresent operation s.tree)
    (recovers : Recovers root s x) (created : x.createdDirectories = s.createdDirectories)
    (call : Call) (message : String) :
    FailedAt root fault site operation s (.failed ⟨site, call⟩ message) x := by
  refine ⟨call, message, rfl, fun _ => ⟨recovers, [], by rw [created, List.append_nil], ?_⟩⟩
  exact ⟨fun _ path needed => missingDirectories_of_directory (present path needed),
    fun some => absurd rfl some⟩

/-- A failure before the `mkdir` call. -/
theorem FailedAt.of_early (accounted : Accounted root s) (call : Call) (notMkdir : call ≠ .mkdir)
    (message : String) :
    FailedAt root fault site operation s (.failed ⟨site, call⟩ message) s :=
  ⟨call, message, rfl, fun _ => ⟨Recovers.of_same accounted rfl rfl rfl, [], by simp,
    fun mkdir => absurd mkdir notMkdir, fun some => absurd rfl some⟩⟩

/-- A failure after the `mkdir` call of an operation whose directory is not
there. -/
theorem FailedAt.of_past (absent : ¬ DirectoryPresent operation s.tree) (call : Call)
    (message : String) (x : Transaction α) (past : pastMkdir fault ⟨site, call⟩) :
    FailedAt root fault site operation s (.failed ⟨site, call⟩ message) x :=
  ⟨call, message, rfl, fun either => absurd past (either.resolve_left absent)⟩

/-- The `mkdir` call fails, and has made nothing. -/
theorem FailedAt.of_unmade {path : FilePath} (accounted : Accounted root s)
    (needed : neededDirectory operation = some path) {missing : List FilePath}
    (found : missingDirectories root s.tree path = some missing) (message : String) :
    FailedAt root fault site operation s (.failed ⟨site, .mkdir⟩ message)
      (s.addCreated missing) := by
  refine ⟨.mkdir, message, rfl, fun _ => ⟨Recovers.of_same accounted rfl rfl rfl, missing, rfl,
    fun _ path' mem => ?_, fun _ => ⟨rfl, path, needed⟩⟩⟩
  rw [needed] at mem
  obtain rfl := Option.some.inj mem
  exact found

end Failures

end Operations

end OmpBundler.Cli
