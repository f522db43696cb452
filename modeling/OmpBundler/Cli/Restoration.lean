import OmpBundler.Cli.Applied
import OmpBundler.Cli.Staging

/-!
When a failed call gives the tree back.

The undo steps give back the tree that the staging phase has left, and the
cleanup then removes files by path. What can be wrong afterwards: a directory
that was made is still there, since `rm` without `recursive` refuses it; a
stage file that `writeFile` has left half-way is unknown to the artifacts;
the path of a stage artifact whose file had been installed is removed, and so
is the original that a rollback has put back there; and the paths that a
failed `mkdir` was about to make are removed, when an undo step has put files
there. Nothing else goes wrong.
-/

namespace OmpBundler.Cli

open Library Library.Proc Library.Path

section Restoration

variable {α : Type} {root : FilePath} {fault : Option Fault} {tree : Tree α}
  {plan : FilePlan α} {made : List FilePath} {s w x : Transaction α}

/-- The tree is as it was. -/
def Restored (tree final : Tree α) : Prop := ∀ path, final.get path = tree.get path

/-- What the staging phase leaves. -/
def stagedState (plan : FilePlan α) (fault : Option Fault) (tree : Tree α) : Transaction α :=
  (stageWrites plan.root fault plan.operations (Transaction.start tree) []).2.1

/-- Each operation of the applying phase that has got past its `mkdir` call
has found the directory that it needs. -/
def FoundToApply (plan : FilePlan α) (fault : Option Fault) (tree : Tree α) (point : Point) :
    Prop :=
  ∀ k, point.site = .applying k →
    FoundDirectories plan.root fault 0 plan.operations (stagedState plan fault tree) k point.call

/-- The operation at `index` has been staged, or is being staged and has got
past its `mkdir` call. -/
def PastStaging (fault : Option Fault) (point : Point) (index : ℕ) : Prop :=
  match point.site with
  | .staging k => index < k ∨ index = k ∧ pastMkdir fault point
  | .applying _ => True

/-- What has to hold where a call fails. -/
structure Recoverable (plan : FilePlan α) (fault : Option Fault) (tree : Tree α) (point : Point) :
    Prop where
  /-- Staging has made no directory. -/
  foundToStage : ∀ index operation, plan.operations[index]? = some operation →
    PastStaging fault point index → FoundToStage operation tree
  /-- No stage file is left half-way. -/
  wholeStage : ∀ k, point = ⟨.staging k, .writeFile⟩ → residueAt fault point = 0
  /-- No completed write has its place where an original file was. -/
  noOriginal : ∀ k, point.site = .applying k → ∀ j operation path, j < k →
    plan.operations[j]? = some operation → writtenPath operation = some path →
      tree.isFile (traceBack (plan.operations.take j) path) = false
  /-- No directory that a failed `mkdir` was to make was an original file. -/
  noOriginalMissing : ∀ k, point = ⟨.applying k, .mkdir⟩ → ∀ operation path missing,
    plan.operations[k]? = some operation → neededDirectory operation = some path →
    missingDirectories plan.root (stateAfter plan.root fault (plan.operations.zipIdx.take k)
      (stagedState plan fault tree)).tree path = some missing →
    ∀ q ∈ missing, plan.root <+: q → tree.isFile q = false

/-! ### The recorded directories -/

theorem restoreBackup_createdDirectories (id : ℕ) (path : FilePath) :
    (restoreBackup root s id path).2.createdDirectories = s.createdDirectories := by
  rw [restoreBackup]
  cases renameWithSafety root s.tree (s.artifactPath id) path <;> rfl

theorem removeInstalled_createdDirectories (path : FilePath) :
    (removeInstalled root s path).2.createdDirectories = s.createdDirectories := by
  rw [removeInstalled]
  cases (if assertNoSymlinkComponents root path s.tree then s.tree.remove path else none) <;> rfl

theorem undo_createdDirectories (entry : UndoOperation) :
    (undo root s entry).2.createdDirectories = s.createdDirectories := by
  cases entry with
  | mkdir created => rfl
  | write path installed backup created =>
      cases installed <;> cases backup <;>
        simp [undo, undoCreated, restoreBackup_createdDirectories,
          removeInstalled_createdDirectories]
  | move source destination moved created =>
      cases moved with
      | false => rfl
      | true =>
          rw [undo, if_pos rfl]
          cases renameWithSafety root s.tree destination source <;> rfl
  | remove path backup =>
      cases backup with
      | none => rfl
      | some id => exact restoreBackup_createdDirectories id path

theorem rollback_createdDirectories (entries : List UndoOperation) :
    (rollback root entries s).2.createdDirectories = s.createdDirectories := by
  induction entries generalizing s with
  | nil => rfl
  | cons entry entries ih =>
      show (rollback root entries (undo root s entry).2).2.createdDirectories = _
      rw [ih, undo_createdDirectories]

/-! ### After the cleanup -/

/-- The tree after both cleanups. -/
def cleaned (root : FilePath) (w : Transaction α) : Tree α :=
  (cleanupCreatedDirectories root w.createdDirectories
    (cleanupArtifacts root w.artifacts false w.tree).2).2

/-- The undo steps have led back to `s`, the state that staging has left. -/
theorem restored_iff (staged : Staged tree made s)
    (plainTree : ∀ q, tree.get q ≠ none → PlainPath q) (visible : SameVisible w.tree s.tree)
    (known : ∀ (id : ℕ) (a : TransactionArtifact), s.artifacts[id]? = some a →
      ∃ b, w.artifacts[id]? = some b ∧ (b = a ∨ Spent root a b))
    (extra : ∀ (id : ℕ) (b : TransactionArtifact), s.artifacts[id]? = none →
      w.artifacts[id]? = some b → b.cleanupOnFailure = false)
    (plainCreated : ∀ q ∈ w.createdDirectories, PlainPath q) :
    Restored tree (cleaned root w) ↔ made = [] ∧ Accounted root w ∧
      (∀ p, SpentAt root s w p → tree.isFile p = false) ∧
      ∀ q ∈ w.createdDirectories, root <+: q → tree.isFile q = false := by
  have final (q : FilePath) : (cleaned root w).get q =
      if (q ∈ exposed w.artifacts ∨ q ∈ w.createdDirectories) ∧ root <+: q ∧
        w.tree.isFile q = true then none else w.tree.get q :=
    get_cleanups w.artifacts w.createdDirectories q
  have hidden (q : FilePath) (stage : IsStage q) : tree.get q = none := by
    by_contra present
    exact (plainTree q present).not_isStage stage
  have back (q : FilePath) (notStage : ¬ IsStage q) :
      w.tree.get q = if q ∈ made then some .directory else tree.get q := by
    rw [visible q notStage, staged.visible q notStage]
  constructor
  · intro restored
    have noneMade : made = [] := by
      by_contra some
      obtain ⟨q, mem⟩ := List.exists_mem_of_ne_nil made some
      obtain ⟨absent, plain⟩ := staged.new q mem
      have directory : w.tree.get q = Option.some .directory := by
        rw [back q plain.not_isStage, if_pos mem]
      have gone := restored q
      rw [final, if_neg (by simp [FileTree.isFile, directory]), directory, absent] at gone
      contradiction
    subst noneMade
    have same (q : FilePath) (notStage : ¬ IsStage q) : w.tree.get q = tree.get q := by
      rw [back q notStage, if_neg List.not_mem_nil]
    -- A file at a path that the cleanup removes is lost.
    have lost (q : FilePath) (plain : PlainPath q) (inside : root <+: q)
        (removed : q ∈ exposed w.artifacts ∨ q ∈ w.createdDirectories) :
        tree.isFile q = false := by
      by_contra file
      rw [Bool.not_eq_false] at file
      have fileThere : w.tree.isFile q = true := by
        rw [isFile_congr (same q plain.not_isStage), file]
      have gone := restored q
      rw [final, if_pos ⟨removed, inside, fileThere⟩] at gone
      obtain ⟨content, mode, present⟩ := isFile_iff.mp file
      rw [present] at gone
      contradiction
    refine ⟨rfl, fun q stage present => ?_, ?_, fun q mem inside => ?_⟩
    · have notCreated : q ∉ w.createdDirectories := fun mem =>
        (plainCreated q mem).not_isStage stage
      by_contra missed
      have gone := restored q
      rw [final, hidden q stage, if_neg] at gone
      · exact present gone
      · rintro ⟨listed | created, inside, file⟩
        · exact missed ⟨file, inside, listed⟩
        · exact notCreated created
    · rintro p ⟨id, a, b, -, there, spent, rfl⟩
      exact lost b.path spent.plain spent.inside
        (.inl (mem_exposed.mpr ⟨id, b, there, spent.cleaned, rfl⟩))
    · exact lost q (plainCreated q mem) inside (.inr mem)
  · rintro ⟨rfl, accounted, spent, created⟩ q
    rw [final]
    by_cases stage : IsStage q
    · rw [hidden q stage]
      by_cases gone : w.tree.get q = none
      · rw [gone, ite_self]
      · obtain ⟨file, inside, listed⟩ := accounted q stage gone
        rw [if_pos ⟨.inl listed, inside, file⟩]
    · have same : w.tree.get q = tree.get q := by
        rw [back q stage, if_neg List.not_mem_nil]
      rw [if_neg, same]
      rintro ⟨listed | mem, inside, file⟩
      · rw [isFile_congr same] at file
        obtain ⟨id, b, there, cleaned, rfl⟩ := mem_exposed.mp listed
        cases here : s.artifacts[id]? with
        | none => exact absurd (extra id b here there) (by simp [cleaned])
        | some a =>
            obtain ⟨b', there', outcome⟩ := known id a here
            obtain rfl := Option.some.inj (there.symm.trans there')
            rcases outcome with rfl | was
            · exact stage (staged.stages b (List.mem_of_getElem? here))
            · exact absurd (spent b.path ⟨id, a, b, here, there, was, rfl⟩) (by simp [file])
      · rw [isFile_congr same] at file
        exact absurd (created q mem inside) (by simp [file])

theorem recover_tree (entries : List UndoOperation) (stack : s.undoStack = entries) :
    (recover root s).2 = cleaned root (rollback root entries s).2 := by
  rw [← stack]
  rfl

/-! ### A failing call -/

theorem prefix_of_missing {t : Tree α} {path q : FilePath} {missing : List FilePath}
    (found : missingDirectories root t path = some missing) (mem : q ∈ missing) : q <+: path := by
  have chosen : missing = (missingAbove t path).filter fun q => decide (root.length ≤ q.length) := by
    rw [missingDirectories] at found
    split at found
    · exact (Option.some.inj found).symm
    · split at found
      · exact (Option.some.inj found).symm
      · contradiction
  rw [chosen] at mem
  have taken := (List.takeWhile_prefix _).subset (List.mem_filter.mp mem).1
  exact (List.mem_inits q path).mp (List.mem_reverse.mp taken)

theorem plain_needed {operation : FileOperation α} {path : FilePath}
    (plain : PlainOperation operation) (needed : neededDirectory operation = some path) :
    PlainPath path := by
  cases operation with
  | mkdir path' =>
      obtain rfl := Option.some.inj needed
      exact plain path' (by simp [operationPaths])
  | write path' content overwrite mode =>
      obtain rfl := Option.some.inj needed
      exact (plain path' (by simp [operationPaths])).dirname
  | move source destination =>
      obtain rfl := Option.some.inj needed
      exact (plain destination (by simp [operationPaths])).dirname
  | remove path' => contradiction

/-- A call of the staging phase has failed: there is nothing to undo. -/
theorem restored_staging (plainTree : ∀ q, tree.get q ≠ none → PlainPath q) {failure : Failure}
    (failed : StageWritesFailed plan.root fault tree plan.operations failure x) {point : Point}
    {message : String} (same : failure = .failed point message) :
    Restored tree (recover plan.root x).2 ↔ Recoverable plan fault tree point := by
  obtain ⟨index, operation, call, message', made, here, rfl, staged, unmade, accounted⟩ := failed
  obtain ⟨rfl, -⟩ := Failure.failed.inj same
  rw [recover_tree [] staged.idle]
  have visible : SameVisible x.tree x.tree := fun _ _ => rfl
  have iff : Restored tree (cleaned plan.root x) ↔ _ := restored_iff staged plainTree visible
    (fun _ a here => ⟨a, here, .inl rfl⟩)
    (fun _ _ missing here => absurd (missing.symm.trans here) (by simp))
    (fun q mem => (staged.recorded q mem).2)
  refine iff.trans ⟨?_, ?_⟩
  · rintro ⟨none, whole, -, -⟩
    obtain ⟨before, now⟩ := unmade.mp none
    refine ⟨?_, ?_, fun k impossible => ?_, fun k impossible => ?_⟩
    · intro j operation' there past
      rcases past with earlier | ⟨rfl, past⟩
      · refine before operation' (List.mem_of_getElem? (i := j) ?_)
        rw [List.getElem?_take_of_lt earlier, there]
      · obtain rfl := Option.some.inj (here.symm.trans there)
        exact now past
    · intro k failing
      by_contra residue
      exact accounted.mp whole ⟨(Point.mk.inj failing).2, residue⟩
    · contradiction
    · exact absurd (congrArg Point.site impossible) (by simp)
  · rintro ⟨found, whole, -, -⟩
    refine ⟨unmade.mpr ⟨fun operation' mem => ?_, fun past => ?_⟩, accounted.mpr ?_,
      fun p spent => absurd spent not_spentAt_self, fun q mem _ => ?_⟩
    · obtain ⟨j, there⟩ := List.mem_iff_getElem?.mp mem
      have earlier : j < index := by
        have bound := (List.getElem?_eq_some_iff.mp there).1
        rw [List.length_take] at bound
        omega
      rw [List.getElem?_take_of_lt earlier] at there
      exact found j operation' there (.inl earlier)
    · exact found index operation here (.inr ⟨rfl, past⟩)
    · rintro ⟨rfl, residue⟩
      exact residue (whole index rfl)
    · rw [FileTree.isFile, (staged.recorded q mem).1]

/-- A call of the applying phase has failed. -/
theorem restored_applying (plainTree : ∀ q, tree.get q ≠ none → PlainPath q)
    (plain : ∀ operation ∈ plan.operations, PlainOperation operation)
    (first : StagedFirst plan.root tree plan.operations (stagedState plan fault tree)) {k : ℕ}
    {call : Call} {operation : FileOperation α} (here : plan.operations[k]? = some operation)
    {entries : List UndoOperation} {extra : List FilePath}
    (stopped : StoppedAt plan.root fault 0 plan.operations (stagedState plan fault tree) x k call
      entries extra) :
    Restored tree (recover plan.root x).2 ↔
      Recoverable plan fault tree ⟨.applying k, call⟩ := by
  obtain ⟨made, now, unmade⟩ := first
  have staged := now.staged
  have stack : x.undoStack = entries := by
    rw [stopped.stack, staged.idle, List.append_nil]
  rw [recover_tree entries stack]
  have created : (rollback plan.root entries x).2.createdDirectories =
      (stagedState plan fault tree).createdDirectories ++ extra := by
    rw [rollback_createdDirectories, stopped.created]
  have recorded := stopped.recorded operation here
  have plainExtra (q : FilePath) (mem : q ∈ extra) : PlainPath q := by
    obtain ⟨mkdir, path, needed⟩ := recorded.only (List.ne_nil_of_mem mem)
    have inside := prefix_of_missing (recorded.exact mkdir path needed) mem
    exact (plain_needed (plain operation (List.mem_of_getElem? here)) needed).of_below inside
  have iff := restored_iff staged plainTree stopped.returned.visible stopped.returned.known
    stopped.returned.extra fun q mem => by
      rw [created] at mem
      exact (List.mem_append.mp mem).elim (fun old => (staged.recorded q old).2) (plainExtra q)
  refine iff.trans ⟨?_, ?_⟩
  · rintro ⟨none, -, spent, unlost⟩
    refine ⟨?_, fun k' impossible => ?_, ?_, ?_⟩
    · intro j operation' there _
      exact unmade.mp none operation' (List.mem_of_getElem? there)
    · exact absurd (congrArg Point.site impossible) (by simp)
    · rintro k' site j operation' path earlier there written
      obtain rfl := Site.applying.inj site
      exact spent _ ((stopped.spent _).mpr ⟨j, operation', path, earlier, there, written, rfl⟩)
    · rintro k' same operation' path missing there needed found q mem
      obtain ⟨site, rfl⟩ := Point.mk.inj same
      obtain rfl := Site.applying.inj site
      obtain rfl := Option.some.inj (here.symm.trans there)
      obtain rfl := Option.some.inj (found.symm.trans (recorded.exact rfl path needed))
      refine unlost q ?_
      rw [created]
      exact List.mem_append_right _ mem
  · rintro ⟨found, -, original, missing⟩
    refine ⟨unmade.mpr fun operation' mem => ?_, stopped.returned.accounted, fun p lost => ?_,
      fun q mem inside => ?_⟩
    · obtain ⟨j, there⟩ := List.mem_iff_getElem?.mp mem
      exact found j operation' there trivial
    · obtain ⟨j, operation', path, earlier, there, written, rfl⟩ := (stopped.spent p).mp lost
      exact original k rfl j operation' path earlier there written
    · rw [created] at mem
      rcases List.mem_append.mp mem with old | extraMem
      · rw [FileTree.isFile, (staged.recorded q old).1]
      · obtain ⟨rfl, path, needed⟩ := recorded.only (List.ne_nil_of_mem extraMem)
        exact missing k rfl operation path extra here needed (recorded.exact rfl path needed)
          q extraMem inside

/-! ### The whole -/

theorem point_of_report {p point : Point} {told message : String} {errors : List String}
    (report : (if errors = [] then Failure.failed p told
      else withRollbackContext (.failed p told) errors) = .failed point message) : p = point := by
  split at report
  · exact (Failure.failed.inj report).1
  · exact (Failure.failed.inj report).1

/-- A failing transaction, by its phases. -/
theorem transact_threw {failure : Failure} {rest : List Empty}
    (run : transact plan fault (Transaction.start tree) [] = (.threw failure, x, rest)) :
    stageWrites plan.root fault plan.operations (Transaction.start tree) [] =
        (.threw failure, x, []) ∨
      stageWrites plan.root fault plan.operations (Transaction.start tree) [] =
          (.returned (), stagedState plan fault tree, []) ∧
        applyOperations plan.root fault plan.operations (stagedState plan fault tree) [] =
          (.threw failure, x, []) := by
  have noScript (script : List Empty) : script = [] :=
    List.eq_nil_iff_forall_not_mem.mpr fun answer => answer.elim
  change andThen (stageWrites plan.root fault plan.operations (Transaction.start tree) [])
    (fun _ => applyOperations plan.root fault plan.operations) = _ at run
  rw [stagedState]
  generalize stageWrites plan.root fault plan.operations (Transaction.start tree) [] = staged
    at run ⊢
  obtain ⟨exit, s, script⟩ := staged
  obtain rfl := noScript script
  obtain rfl := noScript rest
  cases exit with
  | died => exact absurd (congrArg Prod.fst run) (by simp [andThen])
  | threw failure' => exact .inl run
  | returned _ => exact .inr ⟨rfl, run⟩

/-- A call has failed: the transaction has thrown, and `catch` has run. -/
theorem applyFilePlan_failed {point : Point} {message : String}
    (failed : (applyFilePlan plan false fault tree).1 = .error (.failed point message)) :
    ∃ failure x rest, transact plan fault (Transaction.start tree) [] = (.threw failure, x, rest) ∧
      (applyFilePlan plan false fault tree).2 = (recover plan.root x).2 ∧
      (if (recover plan.root x).1 = [] then failure
        else withRollbackContext failure (recover plan.root x).1) = .failed point message := by
  rw [applyFilePlan, if_neg Bool.false_ne_true] at failed ⊢
  by_cases accepted : preflightFilePlan plan tree = true
  · rw [if_pos accepted] at failed ⊢
    generalize transact plan fault (Transaction.start tree) [] = result at failed ⊢
    obtain ⟨exit, x, rest⟩ := result
    cases exit with
    | threw failure => exact ⟨failure, x, rest, rfl, rfl, Except.error.inj failed⟩
    | returned _ | died =>
        dsimp only at failed
        split at failed
        · exact nomatch failed
        · exact nomatch failed
  · rw [if_neg accepted] at failed
    exact nomatch failed

/-- When a call of `applyFilePlan` fails, the tree is given back if the point
of the failure is recoverable; and only then, if the operations have found
their directories. -/
theorem applyFilePlan_restores {plan : FilePlan α} {fault : Option Fault} {tree : Tree α}
    {point : Point} {message : String} (rooted : tree.get [] = some .directory)
    (plainTree : ∀ path, tree.get path ≠ none → PlainPath path)
    (plain : ∀ operation ∈ plan.operations, PlainOperation operation)
    (failed : (applyFilePlan plan false fault tree).1 = .error (.failed point message)) :
    (FoundToApply plan fault tree point ∧ Recoverable plan fault tree point →
      Restored tree (applyFilePlan plan false fault tree).2) ∧
    (Restored tree (applyFilePlan plan false fault tree).2 →
      FoundToApply plan fault tree point → Recoverable plan fault tree point) := by
  obtain ⟨failure, x, rest, run, left, report⟩ := applyFilePlan_failed failed
  rw [left]
  suffices iff : FoundToApply plan fault tree point →
      (Restored tree (recover plan.root x).2 ↔ Recoverable plan fault tree point) from
    ⟨fun both => (iff both.1).mpr both.2, fun restored found => (iff found).mp restored⟩
  have staging : Ends _ _ _
      (stageWrites plan.root fault plan.operations (Transaction.start tree) []) :=
    stageWrites_spec rooted plainTree plain (Transaction.start tree) [] rfl
  rcases transact_threw run with threw | ⟨returned, threw⟩
  · rw [threw] at staging
    obtain ⟨index, operation, call, message', made, here, rfl, -⟩ := id staging
    obtain rfl := point_of_report report
    exact fun _ => restored_staging plainTree staging rfl
  · rw [returned] at staging
    obtain ⟨made, now, unmade⟩ := id staging
    obtain ⟨k, operation, call, message', here, rfl, stopped⟩ :=
      applyOperations_failed now.forward plain threw
    rw [Nat.zero_add] at report
    obtain rfl := point_of_report report
    intro found
    obtain ⟨entries, extra, stopped⟩ := stopped (found k rfl)
    exact restored_applying plainTree plain staging here stopped

/-! ### Two runs -/

/-- A directory with two files. -/
def twoFiles : Tree String :=
  FileTree.ofNodes [([.plain "p"], .directory),
    ([.plain "p", .plain "a"], .file "old" 0o644),
    ([.plain "p", .plain "b"], .file "other" 0o644)]

/-- The first file is overwritten, the second one removed. -/
def overwriteAndRemove : FilePlan String where
  root := [.plain "p"]
  operations := [.write [.plain "p", .plain "a"] "new" true none, .remove [.plain "p", .plain "b"]]

/-- Both files are removed. -/
def removeBoth : FilePlan String where
  root := [.plain "p"]
  operations := [.remove [.plain "p", .plain "a"], .remove [.plain "p", .plain "b"]]

/-- The second removal fails at its `rename`. -/
def secondRename : Fault := ⟨⟨.applying 1, .rename⟩, 0⟩

/-- Two removals can be taken back. -/
theorem removeBoth_is_restored :
    Restored twoFiles (applyFilePlan removeBoth false (some secondRename) twoFiles).2 := by
  have removals (j : ℕ) (operation : FileOperation String)
      (here : removeBoth.operations[j]? = some operation) : ∃ path, operation = .remove path := by
    have mem := List.mem_of_getElem? here
    rcases List.mem_cons.mp mem with rfl | mem
    · exact ⟨_, rfl⟩
    · rw [List.mem_singleton.mp mem]
      exact ⟨_, rfl⟩
  refine (applyFilePlan_restores (by decide) (fun path present => ?_) (by decide)
    (by decide +kernel :
      (applyFilePlan removeBoth false (some secondRename) twoFiles).1 =
        .error (.failed secondRename.point "injected"))).1 ⟨?_, ?_, ?_, ?_, ?_⟩
  · have all : ∀ path ∈ twoFiles.paths, PlainPath path := by decide
    exact all path (twoFiles.listed path present)
  · intro k site j operation here reached path needed
    obtain ⟨_, rfl⟩ := removals j operation here
    exact nomatch needed
  · intro j operation here past
    obtain ⟨_, rfl⟩ := removals j operation here
    trivial
  · intro k same
    exact nomatch same
  · intro k site j operation path earlier here written
    obtain ⟨_, rfl⟩ := removals j operation here
    exact nomatch written
  · intro k same
    exact nomatch same

/-- The overwrite is undone, and the cleanup removes the original file. -/
theorem overwriteAndRemove_loses_the_original :
    preflightFilePlan overwriteAndRemove twoFiles = true ∧
    (applyFilePlan overwriteAndRemove false (some secondRename) twoFiles).1 =
      .error (.failed secondRename.point "injected") ∧
    twoFiles.get [.plain "p", .plain "a"] = some (.file "old" 0o644) ∧
    (applyFilePlan overwriteAndRemove false (some secondRename) twoFiles).2.get
      [.plain "p", .plain "a"] = none := by
  decide +kernel

end Restoration

end OmpBundler.Cli
