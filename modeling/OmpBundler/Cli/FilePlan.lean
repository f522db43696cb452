import OmpBundler.Core.AdapterRegistry
import OmpBundler.Library.FileTree
import OmpBundler.Library.OrderedMap
import OmpBundler.Library.Proc

/-!
Applying a plan of file operations as a transaction.

The contents of all planned writes are staged in temporary files first, then
the operations are applied in order. What is overwritten or removed is
renamed to a backup beside it. An operation pushes its undo step on a stack;
when a call fails, the undo steps run in reverse order, and after them the
temporary files and the created directories are taken away.

Temporary names end in a random UUID, which is modelled by a constructor of
its own and a counter: such a name is none of the names in a plan or of a
tree that the transaction starts from.

A `Fault` makes one call fail, and every failure carries the point at which
it has happened. The check for symbolic links reads several paths; it is one
call here, since it changes nothing wherever it fails. No call of the
rollback is made to fail, so the rollback is a function.
-/

namespace OmpBundler.Cli

open Library Library.Proc Library.Path

/-! ### Paths -/

/-- What a temporary name is used for. -/
inductive Label where
  | stage
  | backup
  | remove
  deriving DecidableEq, Repr

/-- A file name: given by the user, or drawn by `uniqueSiblingPath`. -/
inductive Name where
  | plain (name : String)
  | transaction (label : Label) (uuid : ℕ)
  deriving DecidableEq, Repr

abbrev FilePath : Type := Path Name

/-- The length of a label's text. -/
def Label.length : Label → ℕ
  | .stage => 5
  | .backup => 6
  | .remove => 6

/-- The length of a name; the prefix of temporary names has 17 characters,
and a UUID has 36. -/
def Name.length : Name → ℕ
  | .plain name => Core.utf16Length name
  | .transaction label _ => 17 + label.length + 1 + 36

/-- The length of a path as a string. -/
def pathLength (path : FilePath) : ℕ := (path.map fun name => 1 + name.length).sum

section Content

-- The type of file contents: a string or bytes in the source.
variable {α : Type}

/-! ### Plans -/

inductive FileOperation (α : Type) where
  | write (path : FilePath) (content : α) (overwrite : Bool) (mode : Option ℕ)
  | mkdir (path : FilePath)
  | move (source destination : FilePath)
  | remove (path : FilePath)

structure FilePlan (α : Type) where
  root : FilePath
  operations : List (FileOperation α)

/-- The paths of an operation. -/
def operationPaths : FileOperation α → List FilePath
  | .write path _ _ _ => [path]
  | .mkdir path => [path]
  | .move source destination => [source, destination]
  | .remove path => [path]

/-- What is reported as applied. -/
def appliedPath : FileOperation α → FilePath
  | .write path _ _ _ => path
  | .mkdir path => path
  | .move _ destination => destination
  | .remove path => path

abbrev Tree (α : Type) : Type := FileTree Name α

/-- `assertNoSymlinkComponents`: the path is inside the root, and neither it
nor anything above it is a symbolic link. A file above it makes `lstat`
fail. -/
def assertNoSymlinkComponents (root path : FilePath) (tree : Tree α) : Bool :=
  root.isPrefixOf path && path.inits.all fun q =>
    match tree.get q with
    | some (.symlink _) => false
    | some (.file _ _) => decide (q = path)
    | some .directory | none => true

/-! ### The points at which a call may fail -/

/-- The loop that is running, and the index of the operation. -/
inductive Site where
  | staging (index : ℕ)
  | applying (index : ℕ)
  deriving DecidableEq, Repr

/-- The calls of an operation, in the order of the source. -/
inductive Call where
  | safe
  | lstat
  | lstatDestination
  | ensureSafe
  | ensureLstat
  | mkdir
  | ensureRecheck
  | safeAgain
  | lstatTarget
  | access
  | sibling
  | siblingSafe
  | writeFile
  | backup
  | stageSafe
  | chmod
  | safeFinally
  | stageSafeAgain
  | install
  | link
  | unlink
  | rename
  deriving DecidableEq, Repr

structure Point where
  site : Site
  call : Call
  deriving DecidableEq, Repr

/-- The call that is made to fail. A recursive `mkdir` may have made some of
its directories by then, and `writeFile` may have created its file. -/
structure Fault where
  point : Point
  residue : ℕ
  deriving DecidableEq, Repr

/-- What `applyFilePlan` throws. -/
inductive Failure where
  | refused (message : String)
  | failed (point : Point) (message : String)
  | uncleaned (message : String)
  deriving DecidableEq, Repr

/-! ### The transaction -/

inductive ArtifactKind where
  | stage
  | backup
  deriving DecidableEq, Repr

structure TransactionArtifact where
  path : FilePath
  kind : ArtifactKind
  cleanupOnSuccess : Bool
  cleanupOnFailure : Bool
  deriving DecidableEq, Repr

/-- An undo step with the variables it closes over. An artifact is known by
its place in the list of artifacts. -/
inductive UndoOperation where
  | mkdir (created : List FilePath)
  | write (path : FilePath) (targetInstalled : Bool) (backup : Option ℕ) (created : List FilePath)
  | move (source destination : FilePath) (moved : Bool) (created : List FilePath)
  | remove (path : FilePath) (backup : Option ℕ)
  deriving DecidableEq, Repr

structure Transaction (α : Type) where
  tree : Tree α
  artifacts : List TransactionArtifact
  createdDirectories : List FilePath
  /-- The artifact of each staged write. -/
  stagedWrites : OrderedMap ℕ ℕ
  /-- The undo steps, the last one first. -/
  undoStack : List UndoOperation
  /-- The next UUID. -/
  uuid : ℕ

namespace Transaction

def start (tree : Tree α) : Transaction α where
  tree := tree
  artifacts := []
  createdDirectories := []
  stagedWrites := .empty
  undoStack := []
  uuid := 0

@[simps]
def setTree (s : Transaction α) (tree : Tree α) : Transaction α := { s with tree := tree }

@[simps]
def addCreated (s : Transaction α) (directories : List FilePath) : Transaction α :=
  { s with createdDirectories := s.createdDirectories ++ directories }

@[simps]
def nextUuid (s : Transaction α) : Transaction α := { s with uuid := s.uuid + 1 }

@[simps]
def addArtifact (s : Transaction α) (artifact : TransactionArtifact) : Transaction α :=
  { s with artifacts := s.artifacts ++ [artifact] }

/-- A stage file has been written for the operation at `index`. -/
@[simps]
def addStaged (s : Transaction α) (index : ℕ) : Transaction α :=
  { s with stagedWrites := s.stagedWrites.set index (s.artifacts.length - 1) }

@[simps]
def push (s : Transaction α) (entry : UndoOperation) : Transaction α :=
  { s with undoStack := entry :: s.undoStack }

/-- The variables of the undo step that was pushed last have changed. -/
@[simps]
def setTop (s : Transaction α) (entry : UndoOperation) : Transaction α :=
  { s with undoStack := entry :: s.undoStack.tail }

/-- Artifacts at or below `source` are now at or below `destination`. -/
@[simps]
def rewriteArtifacts (s : Transaction α) (source destination : FilePath) : Transaction α :=
  { s with
    artifacts := s.artifacts.map fun artifact =>
      { artifact with path := relocate source destination artifact.path } }

/-- The stage file has become the file at `path`. -/
@[simps]
def installArtifact (s : Transaction α) (id : ℕ) (path : FilePath) : Transaction α :=
  { s with
    artifacts := s.artifacts.modify id fun artifact =>
      { artifact with path := path, cleanupOnSuccess := false } }

/-- The backup is back in its place. -/
@[simps]
def keepArtifact (s : Transaction α) (id : ℕ) : Transaction α :=
  { s with
    artifacts := s.artifacts.modify id fun artifact =>
      { artifact with cleanupOnSuccess := false, cleanupOnFailure := false } }

def artifactPath (s : Transaction α) (id : ℕ) : FilePath :=
  (s.artifacts[id]?.map TransactionArtifact.path).getD []

end Transaction

/-- A part of the transaction that may fail. -/
abbrev Step (α β : Type) : Type := Proc (Transaction α) Empty Failure β

section Calls

variable (root : FilePath) (fault : Option Fault) (site : Site)

def fail {β : Type} (call : Call) (message : String) : Step α β :=
  Proc.throw (.failed ⟨site, call⟩ message)

/-- Make a call, unless it is the one that is made to fail. -/
def reach (call : Call) : Step α Unit :=
  if fault.map Fault.point = some ⟨site, call⟩ then
    fail site call "injected"
  else
    pure ()

def checkSafe (call : Call) (path : FilePath) : Step α Unit := do
  reach fault site call
  let s ← Proc.get
  if assertNoSymlinkComponents root path s.tree then
    pure ()
  else
    fail site call "refusing to mutate through symlinked path component"

/-- `lstatIfPresent`. -/
def lstatIfPresent (call : Call) (path : FilePath) : Step α (Option (Node α)) := do
  reach fault site call
  let s ← Proc.get
  pure (s.tree.get path)

/-- A call that changes the tree, or is refused. -/
def treeCall (call : Call) (operation : Transaction α → Option (Tree α)) : Step α Unit := do
  reach fault site call
  let s ← Proc.get
  match operation s with
  | some tree => modify (·.setTree tree)
  | none => fail site call "refused"

/-- What is missing on the way to `path`, the deepest first. -/
def missingAbove (tree : Tree α) (path : FilePath) : List FilePath :=
  path.inits.reverse.takeWhile fun q => (tree.get q).isNone

/-- What is missing on the way to `path` from the root down, the deepest
first; or nothing, when something that is not a directory is in the way. -/
def missingDirectories (tree : Tree α) (path : FilePath) : Option (List FilePath) :=
  let missing := (missingAbove tree path).filter fun q => decide (root.length ≤ q.length)
  match path.inits.reverse.find? fun q => (tree.get q).isSome with
  | none => some missing
  | some found =>
      if found.length < root.length ∨ tree.get found = some .directory then
        some missing
      else
        none

/-- Make directories, from the top down. -/
def makeDirectories (tree : Tree α) (directories : List FilePath) : Option (Tree α) :=
  directories.foldlM (fun tree directory => tree.create directory .directory) tree

/-- How much the call leaves behind, if it is the one that is made to fail. -/
def residueAt (point : Point) : ℕ :=
  match fault with
  | some ⟨failing, residue⟩ => if failing = point then residue else 0
  | none => 0

/-- The recursive `mkdir`, which also makes what is missing above the root. -/
def mkdirCall (path : FilePath) : Step α Unit := do
  let s ← Proc.get
  let missing := (missingAbove s.tree path).reverse
  let residue := residueAt fault ⟨site, .mkdir⟩
  (if residue = 0 then
    pure ()
  else
    modify (·.setTree ((makeDirectories s.tree (missing.take residue)).getD s.tree)))
  treeCall fault site .mkdir fun s => makeDirectories s.tree missing

/-- Make the directory and all that is missing above it. -/
def ensureDirectory (path : FilePath) : Step α (List FilePath) := do
  checkSafe root fault site .ensureSafe path
  reach fault site .ensureLstat
  let s ← Proc.get
  match missingDirectories root s.tree path with
  | none => fail site .ensureLstat "planned directory path is not a directory"
  | some missing => do
      modify (·.addCreated missing)
      mkdirCall fault site path
      checkSafe root fault site .ensureRecheck path
      pure missing

/-- A temporary path in the directory of `path`; there are eight attempts. -/
def uniqueSiblingPath (path : FilePath) (label : Label) : ℕ → Step α FilePath
  | 0 => fail site .sibling "could not allocate a unique transaction path"
  | attempts + 1 => do
      let s ← Proc.get
      let candidate := dirname path ++ [.transaction label s.uuid]
      modify (·.nextUuid)
      checkSafe root fault site .sibling candidate
      let occupied ← lstatIfPresent fault site .sibling candidate
      if occupied.isSome then
        uniqueSiblingPath path label attempts
      else
        pure candidate

/-- The permissions of what is replaced: `existing.mode & 0o7777`. -/
def modeOf : Node α → ℕ
  | .file _ mode => mode % 4096
  | .directory | .symlink _ => 0

/-- What `writeFile` gives a file when the plan does not say. -/
def defaultMode : ℕ := 0o666

/-! ### Staging -/

/-- The exclusive `writeFile` of a stage file. -/
def writeFileCall (path : FilePath) (content : α) (mode : Option ℕ) : Step α Unit := do
  let s ← Proc.get
  let written := s.tree.create path (.file content (mode.getD defaultMode))
  (if residueAt fault ⟨site, .writeFile⟩ = 0 then
    pure ()
  else
    modify (·.setTree (written.getD s.tree)))
  treeCall fault site .writeFile fun _ => written

/-- Stage one write. -/
def stageWrite (index : ℕ) (path : FilePath) (content : α) (overwrite : Bool)
    (mode : Option ℕ) : Step α Unit := do
  checkSafe root fault site .safe path
  let existing ← lstatIfPresent fault site .lstat path
  if existing = some .directory then
    fail site .lstat "planned file path is a directory"
  else if existing.isSome ∧ overwrite = false then
    fail site .lstat "planned file appeared before write"
  else
    let _ ← ensureDirectory root fault site (dirname path)
    checkSafe root fault site .safeAgain path
    let stagePath ← uniqueSiblingPath root fault site path .stage 8
    checkSafe root fault site .siblingSafe stagePath
    writeFileCall fault site stagePath content mode
    modify (·.addArtifact ⟨stagePath, .stage, true, true⟩)
    (match existing with
    | some node => treeCall fault site .chmod fun s => s.tree.chmod stagePath (modeOf node)
    | none => pure ())
    modify (·.addStaged index)

/-! ### Applying -/

def applyMkdirOperation (path : FilePath) : Step α Unit := do
  checkSafe root fault site .safe path
  let created ← ensureDirectory root fault site path
  modify (·.push (.mkdir created))

/-- An overwriting write: what is there becomes a backup. -/
def installOver (staged : ℕ) (path : FilePath) (created : List FilePath) (existing : Node α) :
    Step α Unit := do
  reach fault site .access
  checkSafe root fault site .safeAgain path
  let backupPath ← uniqueSiblingPath root fault site path .backup 8
  checkSafe root fault site .siblingSafe backupPath
  treeCall fault site .backup fun s => s.tree.rename path backupPath
  let s ← Proc.get
  modify (·.setTop (.write path false (some s.artifacts.length) created))
  modify (·.rewriteArtifacts path backupPath)
  modify (·.addArtifact ⟨backupPath, .backup, true, true⟩)
  let s ← Proc.get
  checkSafe root fault site .stageSafe (s.artifactPath staged)
  treeCall fault site .chmod fun s => s.tree.chmod (s.artifactPath staged) (modeOf existing)
  checkSafe root fault site .safeFinally path
  let s ← Proc.get
  checkSafe root fault site .stageSafeAgain (s.artifactPath staged)
  treeCall fault site .install fun s => s.tree.rename (s.artifactPath staged) path
  modify (·.installArtifact staged path)
  let s ← Proc.get
  modify (·.setTop (.write path true (some (s.artifacts.length - 1)) created))

/-- The file at `source` is linked under `destination` as well. -/
def linkFile (tree : Tree α) (source destination : FilePath) : Option (Tree α) :=
  match tree.get source with
  | some (.file content mode) => tree.create destination (.file content mode)
  | _ => none

/-- A write of a file that is not there. -/
def installNew (staged : ℕ) (path : FilePath) (created : List FilePath) : Step α Unit := do
  checkSafe root fault site .safeFinally path
  let s ← Proc.get
  checkSafe root fault site .stageSafeAgain (s.artifactPath staged)
  treeCall fault site .link fun s => linkFile s.tree (s.artifactPath staged) path
  modify (·.setTop (.write path true none created))
  treeCall fault site .unlink fun s => s.tree.remove (s.artifactPath staged)
  modify (·.installArtifact staged path)

def applyWriteOperation (index : ℕ) (path : FilePath) (overwrite : Bool) : Step α Unit := do
  let s ← Proc.get
  match s.stagedWrites.get index with
  | none => fail site .safe "missing staged write"
  | some staged => do
      checkSafe root fault site .safe path
      let created ← ensureDirectory root fault site (dirname path)
      modify (·.push (.write path false none created))
      let existing ← lstatIfPresent fault site .lstatTarget path
      match existing with
      | none => installNew root fault site staged path created
      | some .directory => fail site .lstatTarget "planned file path is a directory"
      | some node =>
          if overwrite then
            installOver root fault site staged path created node
          else
            fail site .lstatTarget "planned file appeared before write"

def applyMoveOperation (source destination : FilePath) : Step α Unit := do
  checkSafe root fault site .safe source
  checkSafe root fault site .safe destination
  let present ← lstatIfPresent fault site .lstat source
  if present.isNone then
    fail site .lstat "move source does not exist"
  else
    let occupied ← lstatIfPresent fault site .lstatDestination destination
    if occupied.isSome then
      fail site .lstatDestination "move destination already exists"
    else
      let created ← ensureDirectory root fault site (dirname destination)
      modify (·.push (.move source destination false created))
      checkSafe root fault site .safeAgain source
      checkSafe root fault site .safeAgain destination
      treeCall fault site .rename fun s => s.tree.rename source destination
      modify (·.setTop (.move source destination true created))
      modify (·.rewriteArtifacts source destination)

def applyRemoveOperation (path : FilePath) : Step α Unit := do
  checkSafe root fault site .safe path
  let existing ← lstatIfPresent fault site .lstat path
  if existing.isNone then
    fail site .lstat "remove path does not exist"
  else
    let backupPath ← uniqueSiblingPath root fault site path .remove 8
    checkSafe root fault site .siblingSafe backupPath
    modify (·.push (.remove path none))
    checkSafe root fault site .safeAgain path
    treeCall fault site .rename fun s => s.tree.rename path backupPath
    let s ← Proc.get
    modify (·.setTop (.remove path (some s.artifacts.length)))
    modify (·.rewriteArtifacts path backupPath)
    modify (·.addArtifact ⟨backupPath, .backup, true, true⟩)

end Calls

section Phases

variable (root : FilePath) (fault : Option Fault)

/-- `stageWrites`, one round. -/
def stageOperation (index : ℕ) (operation : FileOperation α) : Step α Unit :=
  match operation with
  | .write path content overwrite mode =>
      stageWrite root fault (.staging index) index path content overwrite mode
  | .mkdir _ | .move _ _ | .remove _ => pure ()

def stageWrites (operations : List (FileOperation α)) : Step α Unit :=
  forEach operations.zipIdx fun (operation, index) => stageOperation root fault index operation

/-- The body of the loop in `applyFilePlan`. -/
def applyOperation (index : ℕ) (operation : FileOperation α) : Step α Unit :=
  match operation with
  | .mkdir path => applyMkdirOperation root fault (.applying index) path
  | .write path _ overwrite _ =>
      applyWriteOperation root fault (.applying index) index path overwrite
  | .move source destination =>
      applyMoveOperation root fault (.applying index) source destination
  | .remove path => applyRemoveOperation root fault (.applying index) path

def applyOperations (operations : List (FileOperation α)) : Step α Unit :=
  forEach operations.zipIdx fun (operation, index) => applyOperation root fault index operation

end Phases

/-! ### Rollback -/

section Rollback

variable (root : FilePath)

def renameWithSafety (tree : Tree α) (source destination : FilePath) : Option (Tree α) :=
  if assertNoSymlinkComponents root source tree &&
      assertNoSymlinkComponents root destination tree then
    tree.rename source destination
  else
    none

/-- The guarded `rm` of the cleanup: the errors it adds, and the tree. A path
that is missing is not an error. -/
def removeQuietly (recursive : Bool) (tree : Tree α) (path : FilePath) : List String × Tree α :=
  if assertNoSymlinkComponents root path tree then
    if tree.get path = none then
      ([], tree)
    else if recursive then
      ([], tree.prune path)
    else
      match tree.remove path with
      | some removed => ([], removed)
      | none => (["rm refused"], tree)
  else
    (["refusing to mutate through symlinked path component"], tree)

/-- The longest path first. -/
def byLength (paths : List FilePath) : List FilePath :=
  paths.mergeSort fun left right => decide (pathLength right ≤ pathLength left)

/-- Remove one path after the other. -/
def removeEach (recursive : FilePath → Bool) : List FilePath → Tree α → List String × Tree α
  | [], tree => ([], tree)
  | path :: paths, tree =>
      let (errors, tree) := removeQuietly root (recursive path) tree path
      let (more, tree) := removeEach recursive paths tree
      (errors ++ more, tree)

def cleanupCreatedDirectories (directories : List FilePath) (tree : Tree α) :
    List String × Tree α :=
  removeEach root (fun _ => false) (byLength directories) tree

/-- A backup goes back to its place; its artifact is not cleaned up then. -/
def restoreBackup (s : Transaction α) (id : ℕ) (path : FilePath) :
    List String × Transaction α :=
  match renameWithSafety root s.tree (s.artifactPath id) path with
  | some tree => ([], ((s.setTree tree).rewriteArtifacts (s.artifactPath id) path).keepArtifact id)
  | none => (["rename refused"], s)

/-- An installed file goes away. -/
def removeInstalled (s : Transaction α) (path : FilePath) : List String × Transaction α :=
  match (if assertNoSymlinkComponents root path s.tree then s.tree.remove path else none) with
  | some tree => ([], s.setTree tree)
  | none => (["rm refused"], s)

/-- The directories that the operation had created go away. -/
def undoCreated (s : Transaction α) (created : List FilePath) : List String × Transaction α :=
  let (errors, tree) := cleanupCreatedDirectories root created s.tree
  (errors, s.setTree tree)

/-- Run one undo step. -/
def undo (s : Transaction α) : UndoOperation → List String × Transaction α
  | .mkdir created => undoCreated root s created
  | .write path targetInstalled backup created =>
      let (errors₁, s) := if targetInstalled then removeInstalled root s path else ([], s)
      let (errors₂, s) :=
        match backup with
        | some id => restoreBackup root s id path
        | none => ([], s)
      let (errors₃, s) := undoCreated root s created
      (errors₁ ++ errors₂ ++ errors₃, s)
  | .move source destination moved created =>
      let (errors₁, s) :=
        if moved then
          match renameWithSafety root s.tree destination source with
          | some tree => ([], (s.setTree tree).rewriteArtifacts destination source)
          | none => (["rename refused"], s)
        else
          ([], s)
      let (errors₂, s) := undoCreated root s created
      (errors₁ ++ errors₂, s)
  | .remove path backup =>
      match backup with
      | some id => restoreBackup root s id path
      | none => ([], s)

/-- Run the undo steps, the last one first. -/
def rollback : List UndoOperation → Transaction α → List String × Transaction α
  | [], s => ([], s)
  | entry :: rest, s =>
      let (errors, s) := undo root s entry
      let (more, s) := rollback rest s
      (errors ++ more, s)

/-- Artifacts are removed by path, and each path once. A backup is removed
with all that is in it, but only after a success. -/
def cleanupArtifacts (artifacts : List TransactionArtifact) (success : Bool) (tree : Tree α) :
    List String × Tree α :=
  let selected := artifacts.filter fun artifact =>
    if success then artifact.cleanupOnSuccess else artifact.cleanupOnFailure
  let recursive path := success &&
    (selected.find? fun artifact => decide (artifact.path = path)).any (·.kind = .backup)
  removeEach root recursive (byLength (selected.map (·.path)).dedup) tree

/-- What the `catch` of `applyFilePlan` does. -/
def recover (s : Transaction α) : List String × Tree α :=
  let (errors₁, s) := rollback root s.undoStack s
  let (errors₂, tree) := cleanupArtifacts root s.artifacts false s.tree
  let (errors₃, tree) := cleanupCreatedDirectories root s.createdDirectories tree
  (errors₁ ++ errors₂ ++ errors₃, tree)

end Rollback

/-! ### The whole -/

/-- What `preflightFilePlan` asks of one operation. -/
def preflightOperation (root : FilePath) (tree : Tree α) (operation : FileOperation α) : Bool :=
  (operationPaths operation).all (assertNoSymlinkComponents root · tree) &&
    match operation with
    | .write path _ overwrite _ =>
        !((tree.get path).isSome && !overwrite) && decide (tree.get path ≠ some .directory)
    | .mkdir _ => true
    | .move source destination => (tree.get source).isSome && (tree.get destination).isNone
    | .remove path => (tree.get path).isSome

def preflightFilePlan (plan : FilePlan α) (tree : Tree α) : Bool :=
  plan.operations.all (preflightOperation plan.root tree)

/-- The error with what has gone wrong in the rollback. -/
def withRollbackContext (failure : Failure) (errors : List String) : Failure :=
  let context message := message ++ "; rollback failed: " ++ "; ".intercalate errors
  match failure with
  | .refused message => .refused (context message)
  | .failed point message => .failed point (context message)
  | .uncleaned message => .uncleaned (context message)

/-- The two phases. -/
def transact (plan : FilePlan α) (fault : Option Fault) : Step α Unit := do
  stageWrites plan.root fault plan.operations
  applyOperations plan.root fault plan.operations

/-- Apply a plan: how the call ends, and the tree it leaves. -/
def applyFilePlan (plan : FilePlan α) (dryRun : Bool) (fault : Option Fault) (tree : Tree α) :
    Except Failure (List FilePath) × Tree α :=
  if dryRun then
    (.ok (plan.operations.flatMap operationPaths), tree)
  else if preflightFilePlan plan tree then
    match transact plan fault (Transaction.start tree) [] with
    | (.threw failure, s, _) =>
        let (errors, tree) := recover plan.root s
        (.error (if errors = [] then failure else withRollbackContext failure errors), tree)
    | (_, s, _) =>
        let (errors, tree) := cleanupArtifacts plan.root s.artifacts true s.tree
        if errors = [] then
          (.ok (plan.operations.map appliedPath), tree)
        else
          (.error (.uncleaned ("file plan committed but cleanup failed: " ++
            "; ".intercalate errors)), tree)
  else
    (.error (.refused "the plan does not fit the tree"), tree)

end Content

end OmpBundler.Cli
