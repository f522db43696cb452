import OmpBundler.Core.IngestBuffer
import OmpBundler.Library.Base64
import OmpBundler.Library.Fallible
import OmpBundler.Library.Json
import OmpBundler.Library.JsString
import OmpBundler.Library.PosixPath
import OmpBundler.Library.Utf8

/-!
The extension that the core loads into its children.

An ambient message reaches a child as the argument of a command: JSON, as
bytes, in digits that a command line leaves alone. The tool for attachments
answers with the path of a file in the workspace, which an adapter reads
below its own root of the same workspace.
-/

namespace OmpBundler.Core

open Library Library.PosixPath Library.Fallible

/-! ### Ambient messages -/

def ambientIngestCommand : List Char := "omp-bundler-ambient".toList

structure AmbientCommandPayload where
  content : List UInt16
  triggerTurn : Bool
  deriving DecidableEq, Repr

section

variable {ν : Type} (F : NumberFormat ν)

def encodePayload (payload : AmbientCommandPayload) : List Char :=
  Base64.encodeUrl (Utf8.encode (Library.Json.stringify F (.object
    [(Library.Json.unitsOfText "content".toList, .string payload.content),
      (Library.Json.unitsOfText "triggerTurn".toList, .bool payload.triggerTurn)])))

/-- The prompt that `runAmbientCommand` sends. -/
def ambientPrompt (record : BufferedRecord) (triggerTurn : Bool) : List Char :=
  '/' :: (ambientIngestCommand ++
    ' ' :: encodePayload F ⟨Library.Json.unitsOfText (renderRecord record).toList, triggerTurn⟩)

/-- The value of a property. -/
def propertyOfObject (ps : List (List UInt16 × Library.Json ν)) (name : String) :
    Option (Library.Json ν) :=
  (ps.find? fun p => p.1 = Library.Json.unitsOfText name.toList).map (·.2)

def decodePayload (args : List Char) : Except String AmbientCommandPayload :=
  match Library.Json.parse F
      (Utf8.lossy .start (Base64.decodeUrl (JsString.trimChars args))) with
  | none => .error "ambient ingest payload is not valid base64url JSON"
  | some (.object ps) =>
      match propertyOfObject ps "content", propertyOfObject ps "triggerTurn" with
      | some (.string content), some (.bool triggerTurn) =>
          if content = [] then .error "ambient ingest content must be non-empty"
          else .ok ⟨content, triggerTurn⟩
      | _, _ => .error "ambient ingest payload requires content and triggerTurn"
  | some _ => .error "ambient ingest payload requires content and triggerTurn"

end

/-! ### Attachments -/

structure DeliveryAttachmentParams where
  path : List Char
  name : Option (List Char)
  mediaType : Option (List Char)
  deriving DecidableEq, Repr

structure DeliveryAttachment where
  path : List Char
  name : List Char
  mediaType : Option (List Char)
  deriving DecidableEq, Repr

/-- What the system answers: where the child runs, where the path leads in
the end, and whether that is a regular file. -/
structure AttachmentAnswers where
  workspace : Except String Absolute
  realPath : Except String Absolute
  isFile : Except String Bool

/-- An optional text without the white space around it; none if nothing is
left. -/
def trimmed (t : Option (List Char)) : Option (List Char) :=
  if JsString.trimChars (t.getD []) = [] then none else some (JsString.trimChars (t.getD []))

def resolveAttachment (a : AttachmentAnswers) (params : DeliveryAttachmentParams) :
    Except String DeliveryAttachment := do
  require (params.path.head? ≠ some '/') "attachment path must be workspace-relative"
  let workspace ← a.workspace
  let absolutePath := workspace.resolve params.path
  let workspacePath := relative workspace absolutePath
  require (¬(workspacePath = [] ∨ Escapes workspacePath))
    "attachment path must stay inside the workspace"
  let realPath ← a.realPath
  let realWorkspacePath := relative workspace realPath
  require (¬(realWorkspacePath = [] ∨ Escapes realWorkspacePath))
    "attachment path must stay inside the workspace"
  let isFile ← a.isFile
  require isFile "attachment path must name a regular file"
  return ⟨workspacePath, (trimmed params.name).getD (basename workspacePath), trimmed params.mediaType⟩

/-- The path that leads down from a directory to what lies below it. -/
theorem exists_names_of_below {p q : Absolute} (below : Absolute.Below p q) :
    ∃ ns, ns ≠ [] ∧ (∀ n ∈ ns, IsName n) ∧ q.names = p.names ++ ns ∧
      relative p q = List.intercalate ['/'] ns := by
  obtain ⟨c, left, right⟩ := strip_eq p.names q.names
  have nil : (strip p.names q.names).1 = [] := strip_fst_eq_nil.mpr below.1
  rw [nil, List.append_nil] at left
  refine ⟨(strip p.names q.names).2, fun empty => below.2 ?_, fun n mem => ?_, ?_, ?_⟩
  · ext1
    rw [right, empty, List.append_nil, left]
  · exact q.proper n (right ▸ List.mem_append_right c mem)
  · rw [← left] at right
    exact right
  · rw [relative, route, nil]
    rfl

/-- A path of names leads down from everywhere. -/
theorem names_resolve_intercalate (r : Absolute) {ns : List (List Char)} (filled : ns ≠ [])
    (names : ∀ n ∈ ns, IsName n) :
    (r.resolve (List.intercalate ['/'] ns)).names = r.names ++ ns := by
  rw [Absolute.resolve_relative_text (head?_intercalate_ne fun n mem => .inr (names n mem)),
    Absolute.walk_intercalate (fun n mem => (names n mem).2.2.2) filled, Absolute.names_descend names]

/-- Exactly these attachments are delivered: the path leads down from the
workspace, it is written without detours, and it leads to the same place
below every other root of the same workspace. -/
theorem resolveAttachment_eq_ok {a : AttachmentAnswers} {params : DeliveryAttachmentParams}
    {attachment : DeliveryAttachment} : resolveAttachment a params = .ok attachment ↔
      ∃ workspace real ns, a.workspace = .ok workspace ∧ a.realPath = .ok real ∧
        a.isFile = .ok true ∧ Absolute.Below workspace real ∧
        params.path.head? ≠ some '/' ∧ ns ≠ [] ∧ (∀ n ∈ ns, IsName n) ∧
        (workspace.resolve params.path).names = workspace.names ++ ns ∧
        attachment = ⟨List.intercalate ['/'] ns,
          (trimmed params.name).getD (basename (List.intercalate ['/'] ns)),
          trimmed params.mediaType⟩ := by
  simp only [resolveAttachment, bind_eq_ok, require_eq_ok, ← below_iff, pure, Except.pure,
    Except.ok.injEq]
  constructor
  · rintro ⟨_, relative', workspace, known, _, below, real, answered, _, inside, isFile, file, _,
      regular, rfl⟩
    obtain ⟨ns, filled, names, led, text⟩ := exists_names_of_below below
    refine ⟨workspace, real, ns, known, answered, ?_, inside, relative', filled, names, led, ?_⟩
    · rw [file, regular]
    · rw [text]
  · rintro ⟨workspace, real, ns, known, answered, file, inside, relative', filled, names, led, rfl⟩
    have below : Absolute.Below workspace (workspace.resolve params.path) := by
      refine ⟨by rw [Absolute.Within, led]; exact List.prefix_append _ _, fun same => filled ?_⟩
      rw [← same] at led
      exact List.append_right_eq_self.mp led.symm
    obtain ⟨ns', _, _, led', text⟩ := exists_names_of_below below
    obtain rfl : ns = ns' := List.append_cancel_left (led.symm.trans led')
    exact ⟨(), relative', workspace, known, (), below, real, answered, (), inside, true, file, (),
      rfl, by rw [text]⟩

end OmpBundler.Core
