import Mathlib.Algebra.Order.Floor.Defs
import Mathlib.Data.Rat.Floor
import OmpBundler.Core.AmbientExtension
import OmpBundler.Library.FormUrl
import OmpBundler.Library.LengthPrefix
import OmpBundler.Library.Transition
import OmpBundler.Pumble.WorkspaceFiles

/-!
The download links of the Pumble adapter.

An attachment of the agent is posted as a link that carries the path in the
workspace, the second in which it expires and a signature of the two;
`handleDownload` serves whoever presents a link, and nothing else is known
of them. The files of the workspace may be replaced at any moment, so what
the system answers is anything. What is signed and what is served is
recorded; the adapter does not keep it.
-/

namespace OmpBundler.Pumble

open Library Library.PosixPath Library.Fallible

/-- `Number.MAX_SAFE_INTEGER` -/
def maxSafeInteger : ℕ := 2 ^ 53 - 1

/-- `String` of a number: a natural number is written in digits, and what is
written in digits is that number. -/
structure NumberText where
  text : ℚ → List Char
  natural : ∀ n : ℕ, n ≤ maxSafeInteger → text n = Nat.toDigits 10 n
  digits : ∀ q, (∀ c ∈ text q, c.isDigit) → (Nat.ofDigitChars 10 (text q) 0 : ℚ) = q
  bare : ∀ q, '|' ∉ text q

/-- HMAC-SHA256 of a message under a key. -/
structure Hmac where
  digest : List UInt8 → List UInt8 → List UInt8
  length_digest : ∀ key message, (digest key message).length = 32

structure LinkSettings extends FileSettings where
  numbers : NumberText
  hmac : Hmac
  publicBaseUrl : List Char
  coreSharedSecret : List Char
  downloadLinkTtlSeconds : ℚ
  ttl_pos : 0 < downloadLinkTtlSeconds
  downloadMaxBytes : ℚ

/-! ### The workspace -/

/-- What the system answers when a path of the workspace is resolved. -/
structure PathAnswers where
  realRoot : Except String Absolute
  realPath : Except String Absolute
  isFile : Except String Bool

/-- The path is empty or leads up. -/
def Leaves (t : List Char) : Prop := t = [] ∨ Escapes t

instance (t : List Char) : Decidable (Leaves t) := inferInstanceAs (Decidable (_ ∨ _))

def resolveWorkspacePathStatic (s : FileSettings) (a : PathAnswers) (workspacePath : List Char) :
    Except String Absolute := do
  require (workspacePath ≠ []) "attachment path is empty"
  let escapes := "attachment path \"" ++ String.ofList workspacePath ++ "\" escapes workspace root"
  let resolved := s.workspaceRoot.resolve workspacePath
  require (¬Leaves (relative s.workspaceRoot resolved)) escapes
  let realRoot ← a.realRoot
  let realPath ← a.realPath
  require (¬Leaves (relative realRoot realPath)) escapes
  let isFile ← a.isFile
  require isFile "attachment path must name a regular file"
  return realPath

/-! ### Links -/

namespace LinkSettings

variable (s : LinkSettings)

/-- What is signed. -/
def message (path : List Char) (expiry : ℚ) : List UInt8 :=
  Utf8.encode (path ++ '|' :: s.numbers.text expiry)

def signatureBytes (path : List Char) (expiry : ℚ) : List UInt8 :=
  s.hmac.digest (Utf8.encode s.coreSharedSecret) (s.message path expiry)

def computeSignature (path : List Char) (expiry : ℚ) : List Char :=
  Hex.encode (s.signatureBytes path expiry)

/-- The query of a link. -/
def linkQuery (path : List Char) (expiry : ℚ) : List Char :=
  FormUrl.serialize [("p".toList, path), ("exp".toList, s.numbers.text expiry),
    ("sig".toList, s.computeSignature path expiry)]

def expiryAt (now : ℕ) : ℚ := (now / 1000 : ℕ) + s.downloadLinkTtlSeconds

def signDownloadLink (now : ℕ) (workspacePath : List Char) : Except String (List Char) := do
  require (s.publicBaseUrl ≠ [])
    "publicBaseUrl is required to generate download links but is not configured"
  require (s.coreSharedSecret ≠ [])
    "coreSharedSecret is required to sign download links but is not configured"
  return s.publicBaseUrl ++ "/download?".toList ++ s.linkQuery workspacePath (s.expiryAt now)

def verifyDownloadLink (now : ℕ) (queryPath queryExp querySig : List Char) :
    Except String (List Char) := do
  require (queryPath ≠ [] ∧ queryExp ≠ [] ∧ querySig ≠ [])
    "download link missing required query parameters"
  require (queryExp.all Char.isDigit) "download link has invalid expiry"
  let expiry := Nat.ofDigitChars 10 queryExp 0
  require (expiry ≤ maxSafeInteger ∧ 1 ≤ expiry) "download link has invalid expiry"
  require (now / 1000 ≤ expiry) "download link has expired"
  require (querySig.length = 64 ∧ querySig.all fun c => (Hex.value c).isSome)
    "download link signature mismatch"
  require (Hex.decode querySig = some (s.signatureBytes queryPath expiry))
    "download link signature mismatch"
  return queryPath

/-- The values of a query, as the route reads them. -/
def parameter (query : List Char) (name : String) : List Char :=
  (FormUrl.get (FormUrl.parse query) name.toList).getD []

def verifyQuery (now : ℕ) (query : List Char) : Except String (List Char) :=
  s.verifyDownloadLink now (parameter query "p") (parameter query "exp") (parameter query "sig")

end LinkSettings

/-! ### The routes -/

/-- What the system answers during one download. -/
structure ServeAnswers extends PathAnswers where
  openDirectory : Except String Unit
  openedDirectory : Except String Absolute
  workspaceRoot : Except String Absolute
  openFile : Except String Unit
  stat : Except String (Bool × ℕ)

inductive DownloadResponse
  | text (status : ℕ) (message : String)
  | file (root path : Absolute) (size : ℕ)
  deriving DecidableEq

/-- The directory of the file in the workspace is opened, and the file through
it. -/
def openAttachment (s : LinkSettings) (a : ServeAnswers) (verifiedPath : List Char) :
    Except String (Absolute × Absolute) := do
  let absolutePath ← resolveWorkspacePathStatic s.toFileSettings a.toPathAnswers verifiedPath
  a.openDirectory
  require s.linux "Secure attachment serving requires the Linux container runtime"
  let openedDirectory ← a.openedDirectory
  let workspaceRoot ← a.workspaceRoot
  require (¬Escapes (relative workspaceRoot openedDirectory)) "Attachment path escapes workspace root"
  require (openedDirectory.text = dirname absolutePath.text)
    "Attachment directory changed while opening it"
  a.openFile
  return (workspaceRoot, openedDirectory.step (basename absolutePath.text))

def handleDownload (s : LinkSettings) (now : ℕ) (query : List Char) (a : ServeAnswers) :
    DownloadResponse :=
  match s.verifyQuery now query with
  | .error e => .text 403 e
  | .ok verifiedPath =>
      match openAttachment s a verifiedPath with
      | .error _ => .text 404 "File not found"
      | .ok (root, path) =>
          match a.stat with
          | .error _ => .text 404 "File not found"
          | .ok (isFile, size) =>
              if isFile = false then .text 403 "Requested path is not a regular file"
              else if s.downloadMaxBytes < size then
                .text 403 "File exceeds maximum download size"
              else .file root path size

/-- A link that was signed. -/
structure Issued where
  path : List Char
  expiry : ℚ
  at' : ℕ
  deriving DecidableEq

/-- A file that was served, with the query that asked for it and the links
that had been signed by then. -/
structure Served where
  query : List Char
  known : List Issued
  at' : ℕ
  root : Absolute
  file : Absolute
  size : ℕ
  deriving DecidableEq

structure Links where
  now : ℕ
  issued : List Issued
  served : List Served

namespace Links

inductive Action
  | pass (ms : ℕ)
  /-- `PumbleAttachmentSender.send`, as far as the message -/
  | send (attachment : WorkspaceAttachment) (answers : PathAnswers)
  /-- `GET /download` -/
  | download (query : List Char) (answers : ServeAnswers)

/-- The message that is posted is the second component. -/
def send (s : LinkSettings) (t : Links) (attachment : WorkspaceAttachment) (a : PathAnswers) :
    Links × Except String (List Char) :=
  let path := attachment.path.toList
  match resolveWorkspacePathStatic s.toFileSettings a path with
  | .error e => (t, .error e)
  | .ok _ =>
      match s.signDownloadLink t.now path with
      | .error e => (t, .error e)
      | .ok link =>
          let label := if attachment.name.getD "" = "" then basename path
            else (attachment.name.getD "").toList
          ({ t with issued := t.issued ++ [⟨path, s.expiryAt t.now, t.now⟩] },
            .ok ("Attachment: ".toList ++ label ++ '\n' :: link))

/-- The answer is the second component. -/
def download (s : LinkSettings) (t : Links) (query : List Char) (a : ServeAnswers) :
    Links × DownloadResponse :=
  let response := handleDownload s t.now query a
  match response with
  | .text _ _ => (t, response)
  | .file root path size =>
      ({ t with served := t.served ++ [⟨query, t.issued, t.now, root, path, size⟩] }, response)

def step (s : LinkSettings) (t : Links) : Action → Option Links
  | .pass ms => some { t with now := t.now + ms }
  | .send attachment a => some (t.send s attachment a).1
  | .download query a => some (t.download s query a).1

def initial (now : ℕ) : Links := ⟨now, [], []⟩

def machine (s : LinkSettings) : Transition.Machine Links Action where
  init t := t.issued = [] ∧ t.served = []
  step := step s

end Links

/-! ### What is served lies in the workspace -/

section

variable {s : LinkSettings}

theorem below_iff_not_leaves {p q : Absolute} : Absolute.Below p q ↔ ¬Leaves (relative p q) :=
  below_iff

theorem resolveWorkspacePathStatic_spec {s : FileSettings} {a : PathAnswers} {path : List Char}
    {real : Absolute} (resolved : resolveWorkspacePathStatic s a path = .ok real) :
    path ≠ [] ∧ Absolute.Below s.workspaceRoot (s.workspaceRoot.resolve path) ∧
      a.realPath = .ok real ∧ ∃ root, a.realRoot = .ok root ∧ Absolute.Below root real := by
  simp only [resolveWorkspacePathStatic, bind_eq_ok, require_eq_ok, ← below_iff_not_leaves, pure,
    Except.pure, Except.ok.injEq] at resolved
  obtain ⟨_, filled, _, lexical, root, known, realPath, answered, _, below, _, _, _, _, rfl⟩ :=
    resolved
  exact ⟨filled, lexical, answered, root, known, below⟩

/-- The file is opened as an entry of the directory that was checked, and it
is the one that the path leads to. -/
theorem openAttachment_spec {a : ServeAnswers} {path : List Char} {root file : Absolute}
    (opened : openAttachment s a path = .ok (root, file)) :
    a.realPath = .ok file ∧ a.workspaceRoot = .ok root ∧ Absolute.Below root file := by
  simp only [openAttachment, bind_eq_ok, require_eq_ok, pure, Except.pure, Except.ok.injEq,
    Prod.mk.injEq] at opened
  obtain ⟨real, resolved, _, _, _, _, directory, _, root, known, _, contained, _, same, _, _, rfl,
    rfl⟩ := opened
  obtain ⟨_, _, answered, realRoot, _, below⟩ := resolveWorkspacePathStatic_spec resolved
  obtain ⟨parent, n, name, rfl⟩ := below.exists_entry
  have here : directory = parent := text_injective (by rw [same, dirname_text])
  have entry : directory.step (basename (parent.entry n name).text) = parent.entry n name := by
    rw [here, basename_text, Absolute.names_entry, List.getLast?_concat, Option.getD_some,
      Absolute.step_name name]
  rw [escapes_relative, not_not, here] at contained
  rw [entry]
  exact ⟨answered, known, contained.entry n name⟩

/-- A path of names is refused by nothing but the files themselves. -/
theorem resolveWorkspacePathStatic_names {s : FileSettings} {a : PathAnswers} {real : Absolute}
    {ns : List (List Char)} (filled : ns ≠ []) (names : ∀ n ∈ ns, IsName n) :
    resolveWorkspacePathStatic s a (List.intercalate ['/'] ns) = .ok real ↔
      (∃ root, a.realRoot = .ok root ∧ Absolute.Below root real) ∧ a.realPath = .ok real ∧
        a.isFile = .ok true := by
  have led := Core.names_resolve_intercalate s.workspaceRoot filled names
  have below : Absolute.Below s.workspaceRoot
      (s.workspaceRoot.resolve (List.intercalate ['/'] ns)) := by
    refine ⟨by rw [Absolute.Within, led]; exact List.prefix_append _ _, fun same => filled ?_⟩
    rw [← same] at led
    exact List.append_right_eq_self.mp led.symm
  have text : List.intercalate ['/'] ns ≠ [] := fun nil =>
    filled ((intercalate_eq_nil fun n mem => (names n mem).1).mp nil)
  simp only [resolveWorkspacePathStatic, bind_eq_ok, require_eq_ok, ← below_iff_not_leaves, pure,
    Except.pure, Except.ok.injEq]
  constructor
  · rintro ⟨_, _, _, _, root, known, path, answered, _, inside, isFile, file, _, regular, rfl⟩
    exact ⟨⟨root, known, inside⟩, answered, by rw [file, regular]⟩
  · rintro ⟨⟨root, known, inside⟩, answered, file⟩
    exact ⟨(), text, (), below, root, known, real, answered, (), inside, true, file, (), rfl, rfl⟩

/-- What the core lets the agent deliver, the adapter finds at the same place
below its own root, and refuses for its files only. -/
theorem delivered_attachments_are_found {a : Core.AttachmentAnswers}
    {params : Core.DeliveryAttachmentParams} {attachment : Core.DeliveryAttachment}
    (delivered : Core.resolveAttachment a params = .ok attachment) :
    ∃ workspace ns, a.workspace = .ok workspace ∧ ns ≠ [] ∧ (∀ n ∈ ns, IsName n) ∧
      (workspace.resolve params.path).names = workspace.names ++ ns ∧
      ∀ (s : FileSettings) (b : PathAnswers) (file : Absolute),
        (s.workspaceRoot.resolve attachment.path).names = s.workspaceRoot.names ++ ns ∧
        (resolveWorkspacePathStatic s b attachment.path = .ok file ↔
          (∃ root, b.realRoot = .ok root ∧ Absolute.Below root file) ∧ b.realPath = .ok file ∧
            b.isFile = .ok true) := by
  obtain ⟨workspace, _, ns, known, _, _, _, _, filled, names, led, rfl⟩ :=
    Core.resolveAttachment_eq_ok.mp delivered
  exact ⟨workspace, ns, known, filled, names, led, fun s b file =>
    ⟨Core.names_resolve_intercalate s.workspaceRoot filled names,
      resolveWorkspacePathStatic_names filled names⟩⟩

theorem delivered_attachment_found :
    ∃ ns, ns ≠ [] ∧ ∀ s : FileSettings,
      (s.workspaceRoot.resolve "a/b".toList).names = s.workspaceRoot.names ++ ns := by
  obtain ⟨_, ns, _, filled, _, _, found⟩ := delivered_attachments_are_found
    (show Core.resolveAttachment
        ⟨.ok ⟨[['w']], by decide⟩, .ok ⟨[['w'], ['a'], ['b']], by decide⟩, .ok true⟩
        ⟨"./a//c/../b".toList, none, none⟩ =
      .ok ⟨"a/b".toList, "b".toList, none⟩ from rfl)
  exact ⟨ns, filled, fun s => (found s ⟨.error "", .error "", .error ""⟩ Absolute.root).1⟩

/-! ### What a link says -/

/-- The last bar splits a text in one way only. -/
theorem append_bar_injective {p p' q q' : List Char} (bare : '|' ∉ q) (bare' : '|' ∉ q')
    (same : p ++ '|' :: q = p' ++ '|' :: q') : p = p' ∧ q = q' := by
  have turned := congrArg List.reverse same
  simp only [List.reverse_append, List.reverse_cons, List.append_assoc, List.singleton_append]
    at turned
  obtain ⟨last, first⟩ := split_unique turned (fun mem => bare (List.mem_reverse.mp mem))
    (fun mem => bare' (List.mem_reverse.mp mem))
  exact ⟨List.reverse_injective first, List.reverse_injective last⟩

/-- What is signed can be read back. -/
theorem message_injective {path path' : List Char} {expiry : ℚ} {n : ℕ} (safe : n ≤ maxSafeInteger)
    (same : s.message path expiry = s.message path' n) : path = path' ∧ expiry = n := by
  have texts := Utf8.encode_injective same
  obtain ⟨paths, digits⟩ := append_bar_injective (s.numbers.bare _) (s.numbers.bare _) texts
  refine ⟨paths, ?_⟩
  have all : ∀ c ∈ s.numbers.text expiry, c.isDigit := by
    rw [digits, s.numbers.natural n safe]
    exact fun c mem => isDigit_of_mem mem
  rw [← s.numbers.digits expiry all, digits, s.numbers.natural n safe,
    Nat.ofDigitChars_ten_toDigits]

theorem verifyDownloadLink_spec {now : ℕ} {path exp sig verified : List Char}
    (result : s.verifyDownloadLink now path exp sig = .ok verified) :
    verified = path ∧ ∃ n : ℕ, n ≤ maxSafeInteger ∧ now / 1000 ≤ n ∧
      n = Nat.ofDigitChars 10 exp 0 ∧ Hex.decode sig = some (s.signatureBytes path n) := by
  simp only [LinkSettings.verifyDownloadLink, bind_eq_ok, require_eq_ok, pure, Except.pure,
    Except.ok.injEq] at result
  obtain ⟨_, _, _, _, _, ⟨safe, _⟩, _, current, _, _, _, signed, rfl⟩ := result
  exact ⟨rfl, _, safe, current, rfl, signed⟩

/-- The query of a link is read back as it was written. -/
theorem verifyQuery_linkQuery (now : ℕ) (path : List Char) (expiry : ℚ) :
    s.verifyQuery now (s.linkQuery path expiry) =
      s.verifyDownloadLink now path (s.numbers.text expiry) (s.computeSignature path expiry) := by
  have read (name : String) : LinkSettings.parameter (s.linkQuery path expiry) name =
      (FormUrl.get [("p".toList, path), ("exp".toList, s.numbers.text expiry),
        ("sig".toList, s.computeSignature path expiry)] name.toList).getD [] := by
    rw [LinkSettings.parameter, LinkSettings.linkQuery, FormUrl.parse_serialize]
  rw [LinkSettings.verifyQuery, read, read, read]
  rfl

theorem digits_of_text {expiry : ℚ} (digits : ∀ c ∈ s.numbers.text expiry, c.isDigit) :
    expiry = Nat.ofDigitChars 10 (s.numbers.text expiry) 0 :=
  (s.numbers.digits expiry digits).symm

theorem text_ne_nil {expiry : ℚ} (pos : 0 < expiry) : s.numbers.text expiry ≠ [] := by
  intro nil
  have read := s.numbers.digits expiry (by rw [nil]; exact fun c mem => absurd mem List.not_mem_nil)
  rw [nil, Nat.ofDigitChars_nil, Nat.cast_zero] at read
  exact pos.ne read

/-- A link is accepted until it expires, if its expiry is a number that the
reader takes. -/
theorem verify_linkQuery {now : ℕ} {path : List Char} {expiry : ℚ} (filled : path ≠ [])
    (pos : 0 < expiry) :
    s.verifyQuery now (s.linkQuery path expiry) = .ok path ↔
      (∃ n : ℕ, expiry = n ∧ n ≤ maxSafeInteger) ∧ ((now / 1000 : ℕ) : ℚ) ≤ expiry := by
  rw [verifyQuery_linkQuery]
  constructor
  · intro result
    simp only [LinkSettings.verifyDownloadLink, bind_eq_ok, require_eq_ok, pure,
      Except.pure] at result
    obtain ⟨_, _, _, digits, _, ⟨safe, _⟩, _, current, _⟩ := result
    have read := digits_of_text (List.all_eq_true.mp digits)
    refine ⟨⟨_, read, safe⟩, ?_⟩
    rw [read]
    exact_mod_cast current
  · rintro ⟨⟨n, rfl, safe⟩, current⟩
    have text := s.numbers.natural n safe
    have digits : ∀ c ∈ s.numbers.text n, c.isDigit = true := by
      rw [text]
      exact fun c mem => isDigit_of_mem mem
    have value : Nat.ofDigitChars 10 (s.numbers.text n) 0 = n := by
      rw [text, Nat.ofDigitChars_ten_toDigits]
    have positive : 1 ≤ n := by exact_mod_cast pos
    have length : (s.computeSignature path n).length = 64 := by
      rw [LinkSettings.computeSignature, Hex.length_encode, LinkSettings.signatureBytes,
        s.hmac.length_digest]
    have signed : Hex.decode (s.computeSignature path n) = some (s.signatureBytes path n) :=
      Hex.decode_encode _
    have marks : s.computeSignature path n ≠ [] := fun nil => by simp [nil] at length
    have hexadecimal : (s.computeSignature path n).all fun c => (Hex.value c).isSome :=
      List.all_eq_true.mpr fun c mem => Hex.isSome_value_of_mem_encode mem
    simp only [LinkSettings.verifyDownloadLink, bind_eq_ok, require_eq_ok, pure, Except.pure]
    refine ⟨(), ⟨filled, text_ne_nil pos, marks⟩, (), List.all_eq_true.mpr digits, (), ?_, (), ?_,
      (), ⟨length, hexadecimal⟩, (), ?_, trivial⟩
    · rw [value]
      exact ⟨safe, positive⟩
    · rw [value]
      exact_mod_cast current
    · rw [value, signed]

end

/-! ### Runs -/

/-- The query carries the signature of a message that was never signed. -/
def Served.Forged (s : LinkSettings) (d : Served) : Prop :=
  ∃ n : ℕ, (∀ i ∈ d.known, s.message i.path i.expiry ≠
      s.message (LinkSettings.parameter d.query "p") n) ∧
    Hex.decode (LinkSettings.parameter d.query "sig") =
      some (s.signatureBytes (LinkSettings.parameter d.query "p") n)

/-- The query is that of a link that was signed, and not too long ago. -/
def Served.Linked (s : LinkSettings) (d : Served) : Prop :=
  ∃ i ∈ d.known, i.path = LinkSettings.parameter d.query "p" ∧ i.at' ≤ d.at' ∧
    ((d.at' / 1000 : ℕ) : ℚ) ≤ (i.at' / 1000 : ℕ) + s.downloadLinkTtlSeconds

namespace Links

/-- What the links give access to, and for how long. -/
structure Sound (s : LinkSettings) (t : Links) : Prop where
  confined : ∀ d ∈ t.served, Absolute.Below d.root d.file ∧ (d.size : ℚ) ≤ s.downloadMaxBytes
  known : ∀ d ∈ t.served, d.known <+: t.issued
  linked : ∀ d ∈ t.served, d.Linked s ∨ d.Forged s
  honoured : ∀ i ∈ t.issued, s.verifyQuery t.now (s.linkQuery i.path i.expiry) = .ok i.path ↔
    (∃ n : ℕ, i.expiry = n ∧ n ≤ maxSafeInteger) ∧ ((t.now / 1000 : ℕ) : ℚ) ≤ i.expiry

/-- What holds between two steps. -/
structure Kept (s : LinkSettings) (t : Links) : Prop where
  confined : ∀ d ∈ t.served, Absolute.Below d.root d.file ∧ (d.size : ℚ) ≤ s.downloadMaxBytes
  known : ∀ d ∈ t.served, d.known <+: t.issued
  linked : ∀ d ∈ t.served, d.Linked s ∨ d.Forged s
  issued : ∀ i ∈ t.issued, i.path ≠ [] ∧ i.expiry = s.expiryAt i.at' ∧ i.at' ≤ t.now

variable {s : LinkSettings} {t t' : Links}

theorem expiryAt_pos (now : ℕ) : 0 < s.expiryAt now :=
  add_pos_of_nonneg_of_pos (Nat.cast_nonneg _) s.ttl_pos

theorem Kept.sound (h : Kept s t) : Sound s t := by
  refine ⟨h.confined, h.known, h.linked, fun i mem => ?_⟩
  obtain ⟨filled, expiry, _⟩ := h.issued i mem
  exact verify_linkQuery filled (expiry ▸ expiryAt_pos _)

theorem Kept.send (h : Kept s t) (attachment : WorkspaceAttachment) (a : PathAnswers) :
    Kept s (t.send s attachment a).1 := by
  rw [Links.send]
  cases resolved : resolveWorkspacePathStatic s.toFileSettings a attachment.path.toList with
  | error e => exact h
  | ok real =>
    dsimp only
    cases s.signDownloadLink t.now attachment.path.toList with
    | error e => exact h
    | ok link =>
      refine ⟨h.confined, fun d mem => (h.known d mem).trans (List.prefix_append _ _), h.linked,
        fun i mem => ?_⟩
      rcases List.mem_append.mp mem with old | new
      · exact h.issued i old
      · rw [List.mem_singleton.mp new]
        exact ⟨(resolveWorkspacePathStatic_spec resolved).1, rfl, le_rfl⟩

/-- A file is served to who presents the signature of a message. -/
theorem Kept.serve (h : Kept s t) {query : List Char} {root file : Absolute} {size n : ℕ}
    (below : Absolute.Below root file) (fits : (size : ℚ) ≤ s.downloadMaxBytes)
    (safe : n ≤ maxSafeInteger) (current : t.now / 1000 ≤ n)
    (signed : Hex.decode (LinkSettings.parameter query "sig") =
      some (s.signatureBytes (LinkSettings.parameter query "p") n)) :
    Kept s { t with served := t.served ++ [⟨query, t.issued, t.now, root, file, size⟩] } := by
  refine ⟨fun d mem => ?_, fun d mem => ?_, fun d mem => ?_, h.issued⟩
  all_goals rcases List.mem_append.mp mem with old | new
  · exact h.confined d old
  · rw [List.mem_singleton.mp new]
    exact ⟨below, fits⟩
  · exact h.known d old
  · obtain rfl := List.mem_singleton.mp new
    exact List.prefix_refl _
  · exact h.linked d old
  · rw [List.mem_singleton.mp new]
    by_cases known : ∃ i ∈ t.issued, s.message i.path i.expiry =
        s.message (LinkSettings.parameter query "p") n
    · obtain ⟨i, mem, same⟩ := known
      obtain ⟨paths, expiry⟩ := message_injective safe same
      obtain ⟨_, given, earlier⟩ := h.issued i mem
      refine .inl ⟨i, mem, paths, earlier, ?_⟩
      calc ((t.now / 1000 : ℕ) : ℚ) ≤ n := by exact_mod_cast current
        _ = s.expiryAt i.at' := by rw [← expiry, given]
    · exact .inr ⟨n, fun i mem same => known ⟨i, mem, same⟩, signed⟩

theorem Kept.download (h : Kept s t) (query : List Char) (a : ServeAnswers) :
    Kept s (t.download s query a).1 := by
  rw [Links.download]
  cases response : handleDownload s t.now query a with
  | text status message => exact h
  | file root path size =>
    rw [handleDownload] at response
    cases verified : s.verifyQuery t.now query with
    | error e => simp [verified] at response
    | ok verifiedPath =>
      cases opened : openAttachment s a verifiedPath with
      | error e => simp [verified, opened] at response
      | ok found =>
        obtain ⟨root', file⟩ := found
        cases stat : a.stat with
        | error e => simp [verified, opened, stat] at response
        | ok stat' =>
          obtain ⟨isFile, size'⟩ := stat'
          simp only [verified, opened, stat] at response
          split at response
          · cases response
          · split at response
            · cases response
            next fits =>
              obtain ⟨rfl, rfl, rfl⟩ := DownloadResponse.file.inj response
              obtain ⟨_, _, below⟩ := openAttachment_spec opened
              obtain ⟨_, n, safe, current, _, signed⟩ := verifyDownloadLink_spec verified
              exact h.serve below (not_lt.mp fits) safe current signed

theorem Kept.step (h : Kept s t) {action : Action} (taken : t.step s action = some t') :
    Kept s t' := by
  cases action with
  | pass ms =>
    obtain rfl := Option.some.inj taken
    exact ⟨h.confined, h.known, h.linked, fun i mem =>
      ⟨(h.issued i mem).1, (h.issued i mem).2.1, (h.issued i mem).2.2.trans (Nat.le_add_right _ _)⟩⟩
  | send attachment a =>
    obtain rfl := Option.some.inj taken
    exact h.send attachment a
  | download query a =>
    obtain rfl := Option.some.inj taken
    exact h.download query a

end Links

end OmpBundler.Pumble
