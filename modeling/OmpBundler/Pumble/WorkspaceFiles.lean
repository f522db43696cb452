import Mathlib.Algebra.GroupWithZero.Nat
import OmpBundler.Contracts
import OmpBundler.Library.Fallible
import OmpBundler.Library.Hex
import OmpBundler.Library.JsString
import OmpBundler.Library.PosixPath

/-!
The attachments of Pumble messages as files of the shared workspace.

`savePumbleFiles` downloads what a message carries into a directory below
`pumbleFileDir`, and the message refers to each file by its path from the
workspace root, which is where the agent reads it. What the system answers
to each call is anything: the directories may be replaced at any moment by
whoever else has the workspace mounted. The operations on files are recorded
with the handle of the directory they go through.
-/

namespace OmpBundler.Pumble

open Library Library.PosixPath Library.Fallible

structure PumbleMessageFile where
  id : String
  name : String
  mimeType : Option String
  path : Option String
  publicPath : Option String
  size : Option ℤ
  deriving DecidableEq, Repr

structure SavedPumbleFile where
  id : String
  name : String
  mimeType : Option String
  size : Option ℤ
  pumblePath : Option String
  publicPath : Option String
  localPath : Option (List Char)
  workspacePath : Option (List Char)
  bytesSaved : Option ℕ
  error : Option String
  deriving DecidableEq, Repr

/-- What the downloads read of the configuration and of the process. -/
structure FileSettings where
  pumbleFileDir : List Char
  pumbleFileMaxBytes : ℕ
  /-- `resolvePumbleFileDownloadUrl` -/
  downloadUrl : String → Except String String
  cwd : Absolute
  linux : Bool

/-- What is done to a file, through the handle of its directory. -/
inductive FileOp
  | create (directory : ℕ) (name : List Char)
  | write (directory : ℕ) (name : List Char) (bytes : ℕ)
  | rename (directory : ℕ) (name newName : List Char)
  | remove (directory : ℕ) (name : List Char)
  deriving DecidableEq, Repr

namespace FileOp

def directory : FileOp → ℕ
  | create fd _ | write fd _ _ | rename fd _ _ | remove fd _ => fd

def names : FileOp → List (List Char)
  | create _ n | write _ n _ | remove _ n => [n]
  | rename _ n n' => [n, n']

def bytes : FileOp → ℕ
  | write _ _ n => n
  | _ => 0

/-- The names that are left in the directory. -/
def apply (left : List (List Char)) : FileOp → List (List Char)
  | create _ n => n :: left.filter (· ≠ n)
  | write _ _ _ => left
  | rename _ n n' => n' :: left.filter fun m => m ≠ n ∧ m ≠ n'
  | remove _ n => left.filter (· ≠ n)

end FileOp

/-! ### Names -/

def tempName (final : List Char) (randomBytes : List UInt8) : List Char :=
  final ++ '.' :: (Hex.encode randomBytes ++ ".tmp".toList)

/-! ### One download -/

namespace FileSettings

variable (s : FileSettings)

def workspaceRoot : Absolute := s.cwd.resolve (dirname s.pumbleFileDir)

end FileSettings

def PumbleMessageFile.base (file : PumbleMessageFile) : SavedPumbleFile :=
  ⟨file.id, file.name, file.mimeType, file.size, file.path, file.publicPath, none, none, none, none⟩

theorem tempName_ne (final : List Char) (randomBytes : List UInt8) :
    tempName final randomBytes ≠ final := by
  intro same
  have length := congrArg List.length same
  rw [tempName, List.length_append, List.length_cons] at length
  omega

/-! ### What is done to files -/

section

variable {s : FileSettings} {event : PumbleMessageFilesEvent} {file : PumbleMessageFile}
  {a : DownloadAnswers} {accessToken botToken : Option String}

/-- The operations create the file and write so many bytes to it. -/
def Fills (fd : ℕ) (name : List Char) (ops : List FileOp) (bytes : ℕ) : Prop :=
  ∃ writes, ops = .create fd name :: writes ∧ (∀ op ∈ writes, ∃ n, op = .write fd name n) ∧
    (writes.map FileOp.bytes).sum = bytes

/-- Nothing was done, or the file was created and written to, up to the
limit. -/
def Attempts (maxBytes fd : ℕ) (name : List Char) (ops : List FileOp) : Prop :=
  ops = [] ∨ ∃ bytes ≤ maxBytes, Fills fd name ops bytes

theorem Fills.mem {fd bytes : ℕ} {name : List Char} {ops : List FileOp}
    (h : Fills fd name ops bytes) {op : FileOp} (mem : op ∈ ops) :
    op.directory = fd ∧ op.names = [name] := by
  obtain ⟨writes, rfl, shape, _⟩ := h
  rcases List.mem_cons.mp mem with rfl | mem
  · exact ⟨rfl, rfl⟩
  · obtain ⟨n, rfl⟩ := shape op mem
    exact ⟨rfl, rfl⟩

theorem Attempts.mem {maxBytes fd : ℕ} {name : List Char} {ops : List FileOp}
    (h : Attempts maxBytes fd name ops) {op : FileOp} (mem : op ∈ ops) :
    op.directory = fd ∧ op.names = [name] := by
  rcases h with rfl | ⟨bytes, _, fills⟩
  · exact absurd mem List.not_mem_nil
  · exact fills.mem mem

end

end OmpBundler.Pumble
