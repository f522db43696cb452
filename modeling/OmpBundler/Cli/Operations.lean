import OmpBundler.Cli.Applying

/-!
What each operation does when it is applied.

For each kind of operation: it is followed through its calls, first where the
directory that it needs is there, and then where it is not. Between its calls
the state is known exactly, so a triple states what holds if the next call
fails, and goes on with the state that the call leaves.
-/

namespace OmpBundler.Cli

open Library Library.Proc Library.Path

section Operations

variable {α : Type} {root : FilePath} {fault : Option Fault} {site : Site} {index id : ℕ}
  {s : Transaction α} {path source destination : FilePath} {operation : FileOperation α}

/-- What an operation leaves when it returns: as long as its directory was
there, its undo step leads back, and the next operation may begin. -/
def Done (root : FilePath) (index : ℕ) (operation : FileOperation α) (s x : Transaction α) :
    Prop :=
  DirectoryPresent operation s.tree → Completed root operation s x ∧ Forward root (index + 1) x

/-- What the lemmas below state of an operation. -/
def Follows (root : FilePath) (fault : Option Fault) (site : Site) (index : ℕ)
    (operation : FileOperation α) (s : Transaction α) (program : Step α Unit) : Prop :=
  Triple (fun x => x = s) program (fun _ => Done root index operation s)
    (FailedAt root fault site operation s) fun _ => False

/-! ### Temporary paths -/

theorem fresh_sibling (forward : Forward root index s) {label : Label} :
    s.tree.get (siblingPath path label s.uuid) = none := by
  by_contra present
  have drawn := forward.drawn _ present label s.uuid (by simp)
  omega

/-- The first attempt finds a path that is free. -/
theorem uniqueSiblingPath_spec {x : Transaction α} {label : Label} {attempts : ℕ}
    {E : Failure → Transaction α → Prop} {D : Transaction α → Prop}
    (fresh : x.tree.get (siblingPath path label x.uuid) = none)
    (bad : ∀ message, E (.failed ⟨site, .sibling⟩ message) x.nextUuid) :
    Triple (fun y => y = x) (uniqueSiblingPath root fault site path label (attempts + 1))
      (fun candidate y => y = x.nextUuid ∧ candidate = siblingPath path label x.uuid) E D := by
  refine get_at (modify_at ?_)
  refine bind_at (checkSafe_spec bad) fun _ _ => ?_
  refine bind_at (lstatIfPresent_spec bad) fun node found => ?_
  have free : node = none := by rw [found, Transaction.nextUuid_tree, fresh]
  subst free
  exact Triple.pure _ fun _ same => ⟨same, rfl⟩

/-! ### Calls after the directory has been made -/

/-- The calls that come after `mkdir` in their operation. -/
def LateCall : Call → Prop
  | .safe | .lstat | .lstatDestination | .ensureSafe | .ensureLstat | .mkdir => False
  | _ => True

theorem LateCall.past {call : Call} (late : LateCall call) : pastMkdir fault ⟨site, call⟩ := by
  cases call <;> first | exact late.elim | trivial

/-- Only these calls of the program can fail. -/
abbrev Only {β : Type} (calls : Call → Prop) (site : Site) (program : Step α β) : Prop :=
  Triple (fun _ => True) program (fun _ _ => True)
    (fun failure _ => ∃ call message, failure = .failed ⟨site, call⟩ message ∧ calls call)
    fun _ => False

namespace Only

variable {β γ : Type} {calls : Call → Prop} {call : Call}

theorem bind {p : Step α β} {q : β → Step α γ} (first : Only calls site p)
    (second : ∀ b, Only calls site (q b)) : Only calls site (p >>= q) :=
  Triple.bind first second

theorem get : Only calls site (Proc.get : Step α (Transaction α)) :=
  Triple.get fun _ _ => trivial

theorem modify {f : Transaction α → Transaction α} :
    Only calls site (Proc.modify f : Step α Unit) :=
  Triple.modify fun _ _ => trivial

theorem pure (b : β) : Only calls site (Pure.pure b : Step α β) :=
  Triple.pure b fun _ _ => trivial

theorem fail {message : String} (allowed : calls call) :
    Only calls site (fail site call message : Step α β) :=
  Triple.throw fun _ _ => ⟨call, message, rfl, allowed⟩

theorem reach (allowed : calls call) : Only calls site (reach fault site call : Step α Unit) :=
  Triple.ite (fun _ => fail allowed) fun _ => pure ()

theorem checkSafe (allowed : calls call) :
    Only calls site (checkSafe root fault site call path : Step α Unit) :=
  (reach allowed).bind fun _ => get.bind fun _ =>
    Triple.ite (fun _ => pure ()) fun _ => fail allowed

theorem lstatIfPresent (allowed : calls call) :
    Only calls site (lstatIfPresent fault site call path : Step α (Option (Node α))) :=
  (reach allowed).bind fun _ => get.bind fun _ => pure _

theorem treeCall {change : Transaction α → Option (Tree α)} (allowed : calls call) :
    Only calls site (treeCall fault site call change) := by
  refine (reach allowed).bind fun _ => get.bind fun s => ?_
  cases change s with
  | some tree => exact modify
  | none => exact fail allowed

theorem uniqueSiblingPath {label : Label} (allowed : calls .sibling) (attempts : ℕ) :
    Only calls site
      (uniqueSiblingPath root fault site path label attempts : Step α FilePath) := by
  induction attempts with
  | zero => exact fail allowed
  | succ attempts ih =>
      refine get.bind fun _ => modify.bind fun _ => (checkSafe allowed).bind fun _ => ?_
      refine (lstatIfPresent allowed).bind fun _ => ?_
      exact Triple.ite (fun _ => ih) fun _ => pure _

theorem ensureDirectory (all : ∀ call, calls call) :
    Only calls site (ensureDirectory root fault site path : Step α (List FilePath)) := by
  refine (checkSafe (all _)).bind fun _ => (reach (all _)).bind fun _ => get.bind fun s => ?_
  cases missingDirectories root s.tree path with
  | none => exact fail (all _)
  | some missing =>
      refine modify.bind fun _ => bind ?_ fun _ => (checkSafe (all _)).bind fun _ => pure _
      refine get.bind fun _ => bind ?_ fun _ => treeCall (all _)
      exact Triple.ite (fun _ => pure ()) fun _ => modify

/-! The parts of operations that come after the `mkdir` call. -/

variable (late : ∀ call, LateCall call → calls call)

include late

theorem installNew {created : List FilePath} :
    Only calls site (installNew root fault site id path created : Step α Unit) := by
  refine (checkSafe (late _ (by trivial))).bind fun _ => get.bind fun _ => ?_
  refine (checkSafe (late _ (by trivial))).bind fun _ => ?_
  refine (treeCall (late _ (by trivial))).bind fun _ => ?_
  exact modify.bind fun _ => (treeCall (late _ (by trivial))).bind fun _ => modify

theorem installOver {created : List FilePath} {existing : Node α} :
    Only calls site (installOver root fault site id path created existing) := by
  refine (reach (late _ (by trivial))).bind fun _ => ?_
  refine (checkSafe (late _ (by trivial))).bind fun _ => ?_
  refine (uniqueSiblingPath (late _ (by trivial)) 8).bind fun _ => ?_
  refine (checkSafe (late _ (by trivial))).bind fun _ => ?_
  refine (treeCall (late _ (by trivial))).bind fun _ => ?_
  refine get.bind fun _ => modify.bind fun _ => modify.bind fun _ => modify.bind fun _ => ?_
  refine get.bind fun _ => (checkSafe (late _ (by trivial))).bind fun _ => ?_
  refine (treeCall (late _ (by trivial))).bind fun _ => ?_
  refine (checkSafe (late _ (by trivial))).bind fun _ => ?_
  refine get.bind fun _ => (checkSafe (late _ (by trivial))).bind fun _ => ?_
  refine (treeCall (late _ (by trivial))).bind fun _ => modify.bind fun _ => get.bind fun _ => ?_
  exact modify

end Only

/-- The target of a write is looked at, and the stage file is installed. -/
theorem writeTail_only {calls : Call → Prop}
    (late : ∀ call, LateCall call → calls call) {overwrite : Bool} {created : List FilePath} :
    Only calls site (do
      modify (·.push (.write path false none created))
      let existing ← lstatIfPresent fault site .lstatTarget path
      match existing with
      | none => installNew root fault site id path created
      | some .directory => fail site .lstatTarget "planned file path is a directory"
      | some node =>
          if overwrite then
            installOver root fault site id path created node
          else
            fail site .lstatTarget "planned file appeared before write" : Step α Unit) := by
  refine Only.modify.bind fun _ => ?_
  refine (Only.lstatIfPresent (late _ (by trivial))).bind fun existing => ?_
  cases existing with
  | none => exact Only.installNew late
  | some node =>
      cases node with
      | directory => exact Only.fail (late _ (by trivial))
      | file content mode =>
          exact Triple.ite (fun _ => Only.installOver late) fun _ => Only.fail (late _ (by trivial))
      | symlink target =>
          exact Triple.ite (fun _ => Only.installOver late) fun _ => Only.fail (late _ (by trivial))

theorem moveTail_only {calls : Call → Prop}
    (late : ∀ call, LateCall call → calls call) {created : List FilePath} :
    Only calls site (do
      modify (·.push (.move source destination false created))
      checkSafe root fault site .safeAgain source
      checkSafe root fault site .safeAgain destination
      treeCall fault site .rename fun s => s.tree.rename source destination
      modify (·.setTop (.move source destination true created))
      modify (·.rewriteArtifacts source destination) : Step α Unit) := by
  refine Only.modify.bind fun _ => (Only.checkSafe (late _ (by trivial))).bind fun _ => ?_
  refine (Only.checkSafe (late _ (by trivial))).bind fun _ => ?_
  refine (Only.treeCall (late _ (by trivial))).bind fun _ => ?_
  exact Only.modify.bind fun _ => Only.modify

/-- What follows the `mkdir` call does not matter where the directory was
missing. -/
theorem Only.follows {program : Step α Unit} (late : Only LateCall site program)
    (absent : ¬ DirectoryPresent operation s.tree) {pre : Transaction α → Prop} :
    Triple pre program (fun _ => Done root index operation s)
      (FailedAt root fault site operation s) fun _ => False := by
  refine late.weaken (fun _ _ => trivial) (fun _ x _ there => absurd there absent) ?_
    fun _ h => h
  rintro _ x ⟨call, message, rfl, lateCall⟩
  exact FailedAt.of_past absent call message x lateCall.past

/-- The directory is missing, and is made. -/
theorem ensureDirectory_absent {rest : List FilePath → Step α Unit}
    (accounted : Accounted root s) (needed : neededDirectory operation = some path)
    (absent : ¬ DirectoryPresent operation s.tree)
    (late : ∀ created, Only LateCall site (rest created)) :
    Triple (fun x => x = s) (ensureDirectory root fault site path >>= rest)
      (fun _ => Done root index operation s) (FailedAt root fault site operation s)
      fun _ => False := by
  apply Triple.bind (M := fun _ _ => True)
  · apply ensureDirectory_missing
    · intro message
      exact ⟨FailedAt.of_early accounted .ensureSafe (by simp) message,
        FailedAt.of_early accounted .ensureLstat (by simp) message⟩
    · intro missing message found _
      exact FailedAt.of_unmade accounted needed found message
    · exact fun call message x past => FailedAt.of_past absent call message x past
  · exact fun created => (late created).follows absent

/-! ### Directories -/

theorem applyMkdirOperation_present (forward : Forward root index s)
    (present : s.tree.get path = some .directory) :
    Follows root fault site index (.mkdir path) s (applyMkdirOperation root fault site path) := by
  have there : DirectoryPresent (.mkdir path : FileOperation α) s.tree := by
    rintro _ ⟨⟩
    exact present
  have bad (call : Call) (message : String) :
      FailedAt root fault site (.mkdir path) s (.failed ⟨site, call⟩ message) s :=
    FailedAt.of_recovers there (Recovers.of_same forward.accounted rfl rfl rfl) rfl call message
  refine bind_at (checkSafe_spec (bad _)) fun _ _ => ?_
  refine bind_at (ensureDirectory_spec present bad) fun created nothing => ?_
  subst nothing
  apply Triple.modify
  rintro _ rfl _
  refine ⟨⟨rfl, .mkdir [], rfl, fun w returned => ?_⟩, forward.next.congr rfl rfl rfl le_rfl⟩
  have idle : (undo root w (.mkdir [])).2 = w := by rw [undo, undoCreated_nil]
  rw [idle]
  refine ⟨⟨returned.visible, returned.accounted, returned.known, returned.extra⟩, fun p => ?_⟩
  simp [backPath, writtenPath, SpentAt]

/-! ### Writes -/

section Writes

variable {content : α} {overwrite : Bool} {mode : Option ℕ}

theorem linkFile_some {t u : Tree α} {a b : FilePath} (linked : linkFile t a b = some u) :
    ∃ content mode, t.get a = some (.file content mode) ∧
      t.create b (.file content mode) = some u := by
  rw [linkFile] at linked
  split at linked
  · exact ⟨_, _, by assumption, linked⟩
  · contradiction

theorem undo_write_idle {x : Transaction α} :
    (undo root x (.write path false none [])).2 = x := by
  rw [undo]
  simp

theorem undo_write_new {x : Transaction α} :
    (undo root x (.write path true none [])).2 = (removeInstalled root x path).2 := by
  rw [undo]
  simp

/-- A write of a file that is not there. -/
theorem installNew_spec (forward : Forward root index s) (plain : PlainPath path)
    (there : DirectoryPresent (.write path content overwrite mode) s.tree)
    (found : s.stagedWrites.get index = some id) (free : s.tree.get path = none) :
    Triple (fun x => x = s.push (.write path false none []))
      (installNew root fault site id path [])
      (fun _ => Done root index (.write path content overwrite mode) s)
      (FailedAt root fault site (.write path content overwrite mode) s) fun _ => False := by
  obtain ⟨artifact, here, stage, cleaned⟩ := forward.staged index id le_rfl found
  have stagePath : s.artifactPath id = artifact.path := by
    rw [Transaction.artifactPath, here]
    rfl
  have apart : artifact.path ≠ path := by
    intro same
    exact plain.not_isStage (same ▸ stage)
  have bad (call : Call) (message : String) :
      FailedAt root fault site (.write path content overwrite mode) s
        (.failed ⟨site, call⟩ message) (s.push (.write path false none [])) :=
    FailedAt.of_recovers (x := s.push (.write path false none [])) there
      (Recovers.of_idle forward.accounted rfl rfl rfl undo_write_idle) rfl call message
  refine bind_at (checkSafe_spec (bad _)) fun _ safe => ?_
  have inside : root <+: path := inside_of_safe safe
  refine get_at ?_
  refine bind_at (checkSafe_spec (bad _)) fun _ _ => ?_
  refine treeCall_at (bad _) fun u linked => ?_
  have linked : linkFile s.tree (s.artifactPath id) path = some u := linked
  rw [stagePath] at linked
  obtain ⟨written, permissions, file, created⟩ := linkFile_some linked
  have after := FileTree.get_create created
  refine modify_at ?_
  -- The file is there under both names.
  have undone : Recovers root s (((s.push (.write path false none [])).setTree u).setTop
      (.write path true none [])) := by
    have fileHere : u.isFile path = true := isFile_iff.mpr ⟨written, permissions, by
      rw [after, if_pos rfl]⟩
    obtain ⟨v, removed, gone⟩ := removeInstalled_eq
      (w := ((s.push (.write path false none [])).setTree u).setTop (.write path true none []))
      inside fileHere
    apply Recovers.of_undo rfl
    · rw [undo_write_new, removed]
      refine Returned.of_get forward.accounted (fun q => ?_) rfl
      show v.get q = s.tree.get q
      rw [gone]
      by_cases same : q = path
      · rw [if_pos same, same, free]
      · rw [if_neg same]
        show u.get q = s.tree.get q
        rw [after, if_neg same]
    · rw [undo_write_new, removed]
      exact not_spentAt_of_artifacts rfl
  refine treeCall_at (fun message => FailedAt.of_recovers there undone rfl _ message)
    fun u' unlinked => ?_
  have unlinked : u.remove (s.artifactPath id) = some u' := unlinked
  rw [stagePath] at unlinked
  have moved (q : FilePath) : u'.get q = if q = path then s.tree.get artifact.path
      else if q = artifact.path then none else s.tree.get q := by
    rw [FileTree.get_remove unlinked, after, file]
    by_cases atPath : q = path
    · rw [if_pos atPath, if_pos atPath, if_neg fun same => apart (same.symm.trans atPath)]
    · rw [if_neg atPath, if_neg atPath]
  apply Triple.modify
  rintro _ rfl _
  have installed : Installed root path id s
      (((((s.push (.write path false none [])).setTree u).setTop
        (.write path true none [])).setTree u').installArtifact id path) := by
    refine ⟨free, plain, inside, ?_, ?_, artifact, here, stage, cleaned⟩
    · refine isFile_iff.mpr ⟨written, permissions, ?_⟩
      show u'.get path = _
      rw [moved, if_pos rfl, file]
    · intro q notStage away
      show u'.get q = _
      have notHere : q ≠ artifact.path := fun same => notStage (same ▸ stage)
      rw [moved, if_neg away, if_neg notHere]
  refine ⟨⟨rfl, .write path true none [], rfl, fun w returned => ?_⟩, ?_⟩
  · obtain ⟨v, removed, visible, gone⟩ := installed.back returned.visible
    obtain ⟨done, spent⟩ := installed.back_returned rfl returned visible gone
    rw [undo_write_new, removed]
    refine ⟨done, fun p => ?_⟩
    rw [spent]
    simp [backPath, writtenPath, eq_comm]
  · exact (forward.install found here stage plain moved).congr rfl rfl rfl le_rfl

theorem undo_write_backup {x : Transaction α} :
    (undo root x (.write path false (some id) [])).2 = (restoreBackup root x id path).2 := by
  rw [undo]
  simp

theorem undo_write_over {x : Transaction α} :
    (undo root x (.write path true (some id) [])).2 =
      (restoreBackup root (removeInstalled root x path).2 id path).2 := by
  rw [undo]
  simp

/-- What is put under a temporary name can be taken back from it. -/
theorem reversible_backup (forward : Forward root index s) {label : Label}
    (notStage : label ≠ .stage) (plain : PlainPath path) {u : Tree α}
    (safe : assertNoSymlinkComponents root path s.tree = true)
    (target : root <+: siblingPath path label s.uuid)
    (renamed : s.tree.rename path (siblingPath path label s.uuid) = some u) :
    Reversible root path (siblingPath path label s.uuid) s.tree u where
  renamed := renamed
  free := fresh_sibling forward
  plain := plain
  target := fun stage => notStage (isStage_sibling_iff.mp stage)
  source_inside := inside_of_safe safe
  target_inside := target
  noLink := not_symlink_of_safe safe

theorem drawn_sibling {label : Label} (plain : PlainPath path) :
    Drawn (s.uuid + 1) (siblingPath path label s.uuid) := by
  intro label' uuid mem
  rcases List.mem_append.mp mem with inside | last
  · exact (plain.dirname _ inside).elim
  · rw [List.mem_singleton] at last
    obtain ⟨-, rfl⟩ := Name.transaction.inj last
    omega

/-- The state after the backup, but for the undo step. -/
abbrev backedUp (s : Transaction α) (u : Tree α) (path b : FilePath) : Transaction α :=
  ((s.nextUuid.setTree u).rewriteArtifacts path b).addArtifact ⟨b, .backup, true, true⟩

theorem forward_backedUp (forward : Forward root index s) {label : Label} {u : Tree α}
    (plain : PlainPath path) (h : Reversible root path (siblingPath path label s.uuid) s.tree u) :
    Forward root index (backedUp s u path (siblingPath path label s.uuid)) := by
  have later : Forward root index s.nextUuid := forward.congr rfl rfl rfl (by simp)
  have renamed := later.rename (u := u) h (drawn_sibling plain)
  refine renamed.addBackup h.target ?_
  show u.get _ ≠ none
  rw [h.get_target]
  exact h.present

/-- The backup goes back to its place. -/
theorem backedUp_restored (forward : Forward root index s) {label : Label} {u : Tree α}
    (h : Reversible root path (siblingPath path label s.uuid) s.tree u) {w : Transaction α}
    (returned : Returned root (backedUp s u path (siblingPath path label s.uuid)) w) :
    Returned root s (restoreBackup root w s.artifacts.length path).2 ∧
      ∀ p, SpentAt root s (restoreBackup root w s.artifacts.length path).2 p ↔
        SpentAt root (backedUp s u path (siblingPath path label s.uuid)) w p :=
  restoreBackup_returned h not_plain_sibling rfl forward.tracked (returned.since rfl rfl)

/-- An overwriting write. -/
theorem installOver_spec (forward : Forward root index s) (plain : PlainPath path)
    (there : DirectoryPresent (.write path content overwrite mode) s.tree)
    (found : s.stagedWrites.get index = some id) (existing : Node α) :
    Triple (fun x => x = s.push (.write path false none []))
      (installOver root fault site id path [] existing)
      (fun _ => Done root index (.write path content overwrite mode) s)
      (FailedAt root fault site (.write path content overwrite mode) s) fun _ => False := by
  -- Until the backup has been made, nothing has changed.
  have bad (x : Transaction α) (same : x.tree = s.tree ∧ x.artifacts = s.artifacts ∧
      x.undoStack = .write path false none [] :: s.undoStack ∧
      x.createdDirectories = s.createdDirectories) (call : Call) (message : String) :
      FailedAt root fault site (.write path content overwrite mode) s
        (.failed ⟨site, call⟩ message) x := by
    obtain ⟨tree, artifacts, stack, created⟩ := same
    exact FailedAt.of_recovers there
      (Recovers.of_idle forward.accounted tree artifacts stack undo_write_idle) created call message
  refine bind_at (reach_spec (bad _ (by exact ⟨rfl, rfl, rfl, rfl⟩) _)) fun _ _ => ?_
  refine bind_at (checkSafe_spec (bad _ (by exact ⟨rfl, rfl, rfl, rfl⟩) _)) fun _ safe => ?_
  have fresh : s.tree.get (siblingPath path .backup s.uuid) = none := fresh_sibling forward
  refine bind_at (uniqueSiblingPath_spec fresh (bad _ (by exact ⟨rfl, rfl, rfl, rfl⟩) _))
    fun b drawn => ?_
  subst drawn
  refine bind_at (checkSafe_spec (bad _ (by exact ⟨rfl, rfl, rfl, rfl⟩) _)) fun _ safeBackup => ?_
  refine treeCall_at (bad _ (by exact ⟨rfl, rfl, rfl, rfl⟩) _) fun u renamed => ?_
  have h : Reversible root path (siblingPath path .backup s.uuid) s.tree u :=
    reversible_backup forward (by simp) plain safe (inside_of_safe safeBackup) renamed
  have forward₁ := forward_backedUp forward plain h
  refine get_at (modify_at (modify_at (modify_at (get_at ?_))))
  -- From now on the backup has to be put back.
  have restored (x : Transaction α)
      (returned : Returned root (backedUp s u path (siblingPath path .backup s.uuid)) x)
      (rest : x.artifacts = (backedUp s u path (siblingPath path .backup s.uuid)).artifacts ∧
        x.undoStack = .write path false (some s.artifacts.length) [] :: s.undoStack ∧
        x.createdDirectories = s.createdDirectories) (call : Call) (message : String) :
      FailedAt root fault site (.write path content overwrite mode) s
        (.failed ⟨site, call⟩ message) x := by
    obtain ⟨artifacts, stack, created⟩ := rest
    obtain ⟨back, spent⟩ := backedUp_restored forward h returned
    refine FailedAt.of_recovers there (Recovers.of_undo stack ?_ fun p => ?_) created call message
    · rw [undo_write_backup]
      exact back
    · rw [undo_write_backup, spent]
      exact not_spentAt_of_artifacts artifacts p
  have same (x : Transaction α)
      (tree : x.tree = (backedUp s u path (siblingPath path .backup s.uuid)).tree)
      (artifacts : x.artifacts = (backedUp s u path (siblingPath path .backup s.uuid)).artifacts) :
      Returned root (backedUp s u path (siblingPath path .backup s.uuid)) x :=
    Returned.of_get forward₁.accounted (fun q => by rw [tree]) artifacts
  obtain ⟨artifact, here, stage, cleaned⟩ := forward₁.staged index id le_rfl found
  have apart : artifact.path ≠ path := by
    intro equal
    exact plain.not_isStage (equal ▸ stage)
  refine bind_at (checkSafe_spec (restored _ (by exact same _ rfl rfl)
    (by exact ⟨rfl, rfl, rfl⟩) _)) fun _ _ => ?_
  refine treeCall_at (restored _ (by exact same _ rfl rfl)
    (by exact ⟨rfl, rfl, rfl⟩) _) fun u₂ changed => ?_
  have stagePath : (backedUp s u path (siblingPath path .backup s.uuid)).artifactPath id =
      artifact.path := by
    rw [Transaction.artifactPath, here]
    rfl
  have changed : u.chmod ((backedUp s u path (siblingPath path .backup s.uuid)).artifactPath id)
      (modeOf existing) = some u₂ := changed
  rw [stagePath] at changed
  obtain ⟨written, old, staged, -⟩ := FileTree.get_chmod changed artifact.path
  have permitted (q : FilePath) : u₂.get q =
      if q = artifact.path then some (.file written (modeOf existing)) else u.get q := by
    obtain ⟨written', old', staged', after⟩ := FileTree.get_chmod changed q
    rw [staged] at staged'
    obtain ⟨rfl, rfl⟩ := Node.file.inj (Option.some.inj staged')
    exact after
  have forward₂ := forward₁.chmod (u := u₂) changed
  have returned₂ : Returned root (backedUp s u path (siblingPath path .backup s.uuid))
      ((backedUp s u path (siblingPath path .backup s.uuid)).setTree u₂) := by
    refine ⟨fun q notStage => ?_, forward₂.accounted, ?_, ?_⟩
    · show u₂.get q = u.get q
      have notHere : q ≠ artifact.path := fun same => notStage (same ▸ stage)
      rw [permitted, if_neg notHere]
    · exact (Returned.refl forward₁.accounted).known
    · exact (Returned.refl forward₁.accounted).extra
  refine bind_at (checkSafe_spec (restored _ (by exact returned₂.congr rfl rfl)
    (by exact ⟨rfl, rfl, rfl⟩) _)) fun _ _ => get_at ?_
  refine bind_at (checkSafe_spec (restored _ (by exact returned₂.congr rfl rfl)
    (by exact ⟨rfl, rfl, rfl⟩) _)) fun _ _ => ?_
  refine treeCall_at (restored _ (by exact returned₂.congr rfl rfl)
    (by exact ⟨rfl, rfl, rfl⟩) _) fun u₃ renamed₃ => ?_
  have renamed₃ : u₂.rename
      ((backedUp s u path (siblingPath path .backup s.uuid)).artifactPath id) path = some u₃ :=
    renamed₃
  rw [stagePath] at renamed₃
  have moved (q : FilePath) : u₃.get q = if q = path then u₂.get artifact.path
      else if q = artifact.path then none else u₂.get q := by
    refine FileTree.get_rename_leaf renamed₃ apart ?_ ?_ q
    · rw [permitted, if_pos rfl]
      simp
    · rw [permitted, if_neg apart.symm, h.get_source]
  refine modify_at (get_at (Triple.modify ?_))
  rintro _ rfl _
  refine ⟨⟨rfl, .write path true (some s.artifacts.length) [], by simp, fun w returned => ?_⟩, ?_⟩
  · have installed : Installed root path id (backedUp s u path (siblingPath path .backup s.uuid))
        (((backedUp s u path (siblingPath path .backup s.uuid)).setTree u₃).installArtifact
          id path) := by
      refine ⟨h.get_source, plain, inside_of_safe safe, ?_, ?_, artifact, here, stage, cleaned⟩
      · refine isFile_iff.mpr ⟨written, modeOf existing, ?_⟩
        show u₃.get path = _
        rw [moved, if_pos rfl, permitted, if_pos rfl]
      · intro q notStage away
        show u₃.get q = u.get q
        have notHere : q ≠ artifact.path := fun same => notStage (same ▸ stage)
        rw [moved, if_neg away, if_neg notHere, permitted, if_neg notHere]
    have returned := returned.since (x := ((backedUp s u path (siblingPath path .backup
      s.uuid)).setTree u₃).installArtifact id path) rfl rfl
    obtain ⟨v, removed, visible, gone⟩ := installed.back returned.visible
    obtain ⟨done, spent⟩ := installed.back_returned rfl returned visible gone
    obtain ⟨back, spentBack⟩ := backedUp_restored forward h done
    rw [undo_write_over, removed]
    refine ⟨back, fun p => ?_⟩
    rw [spentBack, spent]
    simp only [backPath, writtenPath, Option.some.injEq, exists_eq_right', eq_comm]
    exact Iff.rfl
  · exact (forward₂.install found here stage plain moved).congr rfl rfl rfl (by simp)

end Writes

theorem applyMkdirOperation_spec (forward : Forward root index s) :
    Follows root fault site index (.mkdir path) s (applyMkdirOperation root fault site path) := by
  by_cases present : s.tree.get path = some .directory
  · exact applyMkdirOperation_present forward present
  have absent : ¬ DirectoryPresent (.mkdir path : FileOperation α) s.tree :=
    fun there => present (there path rfl)
  refine bind_at (checkSafe_spec (FailedAt.of_early forward.accounted .safe (by simp)))
    fun _ _ => ?_
  exact ensureDirectory_absent forward.accounted rfl absent fun _ => Only.modify

theorem applyWriteOperation_spec {content : α} {overwrite : Bool} {mode : Option ℕ}
    (forward : Forward root index s) (plain : PlainPath path) :
    Follows root fault site index (.write path content overwrite mode) s
      (applyWriteOperation root fault site index path overwrite) := by
  have early (message : String) :
      FailedAt root fault site (.write path content overwrite mode) s
        (.failed ⟨site, .safe⟩ message) s :=
    FailedAt.of_early forward.accounted .safe (by simp) message
  refine get_at ?_
  cases found : s.stagedWrites.get index with
  | none => exact fail_at _ (early _)
  | some staged =>
      refine bind_at (checkSafe_spec early) fun _ _ => ?_
      by_cases there : DirectoryPresent (.write path content overwrite mode) s.tree
      · have bad (x : Transaction α) (same : x = s ∨ x = s.push (.write path false none []))
            (call : Call) (message : String) :
            FailedAt root fault site (.write path content overwrite mode) s
              (.failed ⟨site, call⟩ message) x := by
          rcases same with rfl | rfl
          · exact FailedAt.of_recovers there
              (Recovers.of_same forward.accounted rfl rfl rfl) rfl call message
          · exact FailedAt.of_recovers (x := s.push (.write path false none [])) there
              (Recovers.of_idle forward.accounted rfl rfl rfl undo_write_idle) rfl call message
        refine bind_at (ensureDirectory_spec (there _ rfl) (bad s (.inl rfl))) fun _ nothing => ?_
        subst nothing
        refine modify_at ?_
        refine bind_at (lstatIfPresent_spec (bad _ (.inr rfl) _)) fun existing here => ?_
        cases existing with
        | none => exact installNew_spec forward plain there found here.symm
        | some node =>
            cases node with
            | directory => exact fail_at _ (bad _ (.inr rfl) _ _)
            | file content' mode' =>
                exact Triple.ite (fun _ => installOver_spec forward plain there found _)
                  fun _ => fail_at _ (bad _ (.inr rfl) _ _)
            | symlink target =>
                exact Triple.ite (fun _ => installOver_spec forward plain there found _)
                  fun _ => fail_at _ (bad _ (.inr rfl) _ _)
      · exact ensureDirectory_absent forward.accounted rfl there
          fun created => writeTail_only fun _ late => late

/-! ### Moves -/

theorem PlainPath.drawn (plain : PlainPath path) (uuid : ℕ) : Drawn uuid path :=
  fun _ _ mem => (plain _ mem).elim

theorem undo_move_idle {x : Transaction α} :
    (undo root x (.move source destination false [])).2 = x := by
  rw [undo]
  simp

theorem undo_move {x : Transaction α} {v : Tree α}
    (renamed : renameWithSafety root x.tree destination source = some v) :
    (undo root x (.move source destination true [])).2 =
      (x.setTree v).rewriteArtifacts destination source := by
  rw [undo, if_pos rfl, renamed]
  simp

theorem applyMoveOperation_spec (forward : Forward root index s) (plain : PlainPath source)
    (target : PlainPath destination) :
    Follows root fault site index (.move source destination) s
      (applyMoveOperation root fault site source destination) := by
  have early (call : Call) (notMkdir : call ≠ .mkdir) (message : String) :
      FailedAt root fault site (.move source destination) s (.failed ⟨site, call⟩ message) s :=
    FailedAt.of_early forward.accounted call notMkdir message
  refine bind_at (checkSafe_spec (early _ (by simp))) fun _ safe => ?_
  refine bind_at (checkSafe_spec (early _ (by simp))) fun _ safeTarget => ?_
  refine bind_at (lstatIfPresent_spec (early _ (by simp))) fun node _ => ?_
  refine Triple.ite (fun _ => fail_at _ (early _ (by simp) _)) fun _ => ?_
  refine bind_at (lstatIfPresent_spec (early _ (by simp))) fun occupied found => ?_
  refine Triple.ite (fun _ => fail_at _ (early _ (by simp) _)) fun vacant => ?_
  have free : s.tree.get destination = none := by
    rw [← found]
    simpa using vacant
  by_cases there : DirectoryPresent (.move source destination) s.tree
  · have bad (x : Transaction α) (same : x = s ∨ x = s.push (.move source destination false []))
        (call : Call) (message : String) :
        FailedAt root fault site (.move source destination) s (.failed ⟨site, call⟩ message) x := by
      rcases same with rfl | rfl
      · exact FailedAt.of_recovers there
          (Recovers.of_same forward.accounted rfl rfl rfl) rfl call message
      · exact FailedAt.of_recovers (x := s.push (.move source destination false [])) there
          (Recovers.of_idle forward.accounted rfl rfl rfl undo_move_idle) rfl call message
    refine bind_at (ensureDirectory_spec (there _ rfl) (bad s (.inl rfl))) fun _ nothing => ?_
    subst nothing
    refine modify_at ?_
    refine bind_at (checkSafe_spec (bad _ (.inr rfl) _)) fun _ _ => ?_
    refine bind_at (checkSafe_spec (bad _ (.inr rfl) _)) fun _ _ => ?_
    refine treeCall_at (bad _ (.inr rfl) _) fun u renamed => ?_
    have h : Reversible root source destination s.tree u :=
      ⟨renamed, free, plain, target.not_isStage, inside_of_safe safe, inside_of_safe safeTarget,
        not_symlink_of_safe safe⟩
    refine modify_at (Triple.modify ?_)
    rintro _ rfl _
    refine ⟨⟨rfl, .move source destination true [], rfl, fun w returned => ?_⟩, ?_⟩
    · obtain ⟨v, safely, renamedBack⟩ := h.back returned.visible
      obtain ⟨done, spent⟩ := h.back_returned rfl forward.tracked
        (returned.since rfl rfl) renamedBack
      rw [undo_move safely]
      refine ⟨done, fun p => ?_⟩
      rw [spent]
      simp only [backPath, writtenPath, reduceCtorEq, or_false]
      exact Iff.rfl
    · exact (forward.rename h (target.drawn s.uuid)).next.congr rfl rfl rfl le_rfl
  · exact ensureDirectory_absent forward.accounted rfl there
      fun created => moveTail_only fun _ late => late

/-! ### Removals -/

theorem undo_remove {x : Transaction α} :
    (undo root x (.remove path (some id))).2 = (restoreBackup root x id path).2 := rfl

theorem applyRemoveOperation_spec (forward : Forward root index s) (plain : PlainPath path) :
    Follows root fault site index (.remove path) s
      (applyRemoveOperation root fault site path) := by
  have there : DirectoryPresent (.remove path) s.tree := by
    rintro _ ⟨⟩
  have bad (x : Transaction α) (same : x = s ∨ x = s.nextUuid ∨
      x = s.nextUuid.push (.remove path none)) (call : Call) (message : String) :
      FailedAt root fault site (.remove path) s (.failed ⟨site, call⟩ message) x := by
    rcases same with rfl | rfl | rfl
    · exact FailedAt.of_recovers there
        (Recovers.of_same forward.accounted rfl rfl rfl) rfl call message
    · exact FailedAt.of_recovers (x := s.nextUuid) there
        (Recovers.of_same forward.accounted rfl rfl rfl) rfl call message
    · exact FailedAt.of_recovers (x := s.nextUuid.push (.remove path none)) there
        (Recovers.of_idle forward.accounted rfl rfl rfl rfl) rfl call message
  refine bind_at (checkSafe_spec (bad _ (.inl rfl) _)) fun _ _ => ?_
  refine bind_at (lstatIfPresent_spec (bad _ (.inl rfl) _)) fun node _ => ?_
  refine Triple.ite (fun _ => fail_at _ (bad _ (.inl rfl) _ _)) fun _ => ?_
  have fresh : s.tree.get (siblingPath path .remove s.uuid) = none := fresh_sibling forward
  refine bind_at (uniqueSiblingPath_spec fresh (bad _ (.inr (.inl rfl)) _)) fun b drawn => ?_
  subst drawn
  refine bind_at (checkSafe_spec (bad _ (.inr (.inl rfl)) _)) fun _ safeBackup => modify_at ?_
  refine bind_at (checkSafe_spec (bad _ (.inr (.inr rfl)) _)) fun _ safe => ?_
  refine treeCall_at (bad _ (.inr (.inr rfl)) _) fun u renamed => ?_
  have h : Reversible root path (siblingPath path .remove s.uuid) s.tree u :=
    reversible_backup forward (by simp) plain safe (inside_of_safe safeBackup) renamed
  refine get_at (modify_at (modify_at (Triple.modify ?_)))
  rintro _ rfl _
  refine ⟨⟨rfl, .remove path (some s.artifacts.length), rfl, fun w returned => ?_⟩, ?_⟩
  · obtain ⟨done, spent⟩ := backedUp_restored forward h (returned.since rfl rfl)
    rw [undo_remove]
    refine ⟨done, fun p => ?_⟩
    rw [spent]
    simp only [backPath, writtenPath, reduceCtorEq, or_false, exists_eq_right']
    exact Iff.rfl
  · exact (forward_backedUp forward plain h).next.congr rfl rfl rfl le_rfl

/-! ### Every operation -/

/-- The paths of the operation are plain. -/
def PlainOperation (operation : FileOperation α) : Prop :=
  ∀ path ∈ operationPaths operation, PlainPath path

instance (operation : FileOperation α) : Decidable (PlainOperation operation) :=
  inferInstanceAs (Decidable (∀ path ∈ operationPaths operation, PlainPath path))

theorem applyOperation_spec (forward : Forward root index s) (plain : PlainOperation operation) :
    Follows root fault (.applying index) index operation s
      (applyOperation root fault index operation) := by
  cases operation with
  | mkdir path => exact applyMkdirOperation_spec forward
  | write path content overwrite mode =>
      exact applyWriteOperation_spec forward (plain path (by simp [operationPaths]))
  | move source destination =>
      exact applyMoveOperation_spec forward (plain source (by simp [operationPaths]))
        (plain destination (by simp [operationPaths]))
  | remove path => exact applyRemoveOperation_spec forward (plain path (by simp [operationPaths]))

/-- Whatever state an operation begins in, it fails at its own site. -/
theorem applyOperation_only :
    Only (fun _ => True) (.applying index) (applyOperation root fault index operation) := by
  cases operation with
  | mkdir path =>
      exact (Only.checkSafe trivial).bind fun _ =>
        (Only.ensureDirectory fun _ => trivial).bind fun _ => Only.modify
  | write path content overwrite mode =>
      refine Only.get.bind fun s => ?_
      cases s.stagedWrites.get index with
      | none => exact Only.fail trivial
      | some staged =>
          exact (Only.checkSafe trivial).bind fun _ =>
            (Only.ensureDirectory fun _ => trivial).bind fun _ => writeTail_only fun _ _ => trivial
  | move source destination =>
      refine (Only.checkSafe trivial).bind fun _ => (Only.checkSafe trivial).bind fun _ => ?_
      refine (Only.lstatIfPresent trivial).bind fun _ => ?_
      refine Triple.ite (fun _ => Only.fail trivial) fun _ => ?_
      refine (Only.lstatIfPresent trivial).bind fun _ => ?_
      refine Triple.ite (fun _ => Only.fail trivial) fun _ => ?_
      exact (Only.ensureDirectory fun _ => trivial).bind fun _ => moveTail_only fun _ _ => trivial
  | remove path =>
      refine (Only.checkSafe trivial).bind fun _ => (Only.lstatIfPresent trivial).bind fun _ => ?_
      refine Triple.ite (fun _ => Only.fail trivial) fun _ => ?_
      refine (Only.uniqueSiblingPath trivial 8).bind fun _ => ?_
      refine (Only.checkSafe trivial).bind fun _ => ?_
      refine Only.modify.bind fun _ => (Only.checkSafe trivial).bind fun _ => ?_
      refine (Only.treeCall trivial).bind fun _ => Only.get.bind fun _ => ?_
      exact Only.modify.bind fun _ => Only.modify.bind fun _ => Only.modify

end Operations

end OmpBundler.Cli
