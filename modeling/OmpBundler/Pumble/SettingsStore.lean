import OmpBundler.Library.JsonLayout
import OmpBundler.Library.Transition
import OmpBundler.Pumble.SettingsText

/-!
The settings file and the values in memory.

The store keeps the settings that it has read, and the stamp of the file (its
modification time and size): while the stamp is the same, `get` answers from
memory. Other processes may write the file between any two calls of the file
system. `get` takes the stamp before it reads, so it never keeps a stamp that
is newer than its values; `set` takes the stamp after the rename, so an edit
in between is taken for its own.
-/

namespace OmpBundler.Pumble

open Library Library.Json

/-! ### The file -/

/-- The settings, all of them. -/
structure Settings where
  streamInDirectMessages : Bool
  streamInChannels : Bool
  threadRepliesInChannels : Bool
  deriving DecidableEq, Repr

/-- The settings to change. -/
structure SettingsPatch where
  streamInDirectMessages : Option Bool
  streamInChannels : Option Bool
  threadRepliesInChannels : Option Bool
  deriving DecidableEq, Repr

namespace Settings

/-- `SETTING_DEFAULTS`. -/
def defaults : Settings where
  streamInDirectMessages := true
  streamInChannels := false
  threadRepliesInChannels := true

def merge (s : Settings) (patch : SettingsPatch) : Settings where
  streamInDirectMessages := patch.streamInDirectMessages.getD s.streamInDirectMessages
  streamInChannels := patch.streamInChannels.getD s.streamInChannels
  threadRepliesInChannels := patch.threadRepliesInChannels.getD s.threadRepliesInChannels

/-- The code units of a name. -/
def name (s : String) : List UInt16 := s.toList.flatMap Json.unitsOf

variable {ν : Type} (F : NumberFormat ν)

def json (s : Settings) : Json ν :=
  .object [(name "streamInDirectMessages", .bool s.streamInDirectMessages),
    (name "streamInChannels", .bool s.streamInChannels),
    (name "threadRepliesInChannels", .bool s.threadRepliesInChannels)]

/-- What `set` writes. -/
def body (s : Settings) : List Char := layout F 0 s.json ++ ['\n']

/-- The value of a setting, if it is a boolean. -/
def booleanAt (record : List (List UInt16 × Json ν)) (key : String) (default : Bool) : Bool :=
  match record.find? fun p => p.1 = name key with
  | some (_, .bool b) => b
  | _ => default

/-- What a settings file says; nothing if it is malformed. -/
def decode (raw : List Char) : Option Settings :=
  let text := stripJsonComments raw
  match parse F (if text = [] then ['\x7b', '\x7d'] else text) with
  | some (.object record) =>
      some {
        streamInDirectMessages :=
          booleanAt record "streamInDirectMessages" defaults.streamInDirectMessages
        streamInChannels := booleanAt record "streamInChannels" defaults.streamInChannels
        threadRepliesInChannels :=
          booleanAt record "threadRepliesInChannels" defaults.threadRepliesInChannels }
  | _ => none

theorem wellFormed_json (s : Settings) : (s.json : Json ν).WellFormed := by
  have distinct : [name "streamInDirectMessages", name "streamInChannels",
      name "threadRepliesInChannels"].Nodup := by decide
  refine .object _ distinct ?_
  simp only [List.forall_mem_cons, List.not_mem_nil, false_imp_iff, implies_true, and_true]
  exact ⟨.bool _, .bool _, .bool _⟩

/-- The file that `set` writes says what `set` was given. -/
theorem decode_body (s : Settings) : decode F (s.body F) = some s := by
  have newline : Spaced ['\n'] [] := .added (by decide) .nil
  have parsed : parse F (s.body F) = some s.json := parse_layout F s.wellFormed_json newline
  have some : s.body F ≠ [] := by
    rw [body]
    simp
  rw [decode, strip_tokens (tokens_of_parse parsed), if_neg some, parsed]
  rfl

end Settings

/-! ### The store -/

/-- What the file system says of the file. -/
structure FileStamp where
  mtimeMs : ℚ
  size : ℕ
  deriving DecidableEq, Repr

structure SettingsFile where
  content : List Char
  stamp : FileStamp

/-- Between which calls of the file system the store is. -/
inductive SettingsCall where
  | idle
  /-- `get`, for `set` or for itself, has seen the stamp and reads next. -/
  | reading (patch : Option SettingsPatch) (stamp : FileStamp)
  /-- `set` has merged its patch and renames next. -/
  | replacing (merged : Settings)
  /-- `set` has renamed and takes the stamp next. -/
  | stamping

structure SettingsStore where
  /-- The file, which every process may write. -/
  file : Option SettingsFile
  cached : Settings
  stamp : Option FileStamp
  call : SettingsCall

inductive SettingsAction where
  /-- `get` is called, or `set` with a patch, and takes the stamp. -/
  | stat (patch : Option SettingsPatch)
  | read
  | rename (stamp : FileStamp)
  | restat
  /-- Another process writes the file or deletes it. -/
  | edit (file : Option SettingsFile)

namespace SettingsStore

variable {ν : Type} (F : NumberFormat ν) (s : SettingsStore)

/-- A store that has read nothing. -/
def fresh (file : Option SettingsFile) : SettingsStore where
  file := file
  cached := .defaults
  stamp := none
  call := .idle

/-- `get` returns what is cached; `set` goes on with it. -/
def got : Option SettingsPatch → SettingsStore
  | none => { s with call := .idle }
  | some patch => { s with call := .replacing (s.cached.merge patch) }

def stat (patch : Option SettingsPatch) : SettingsStore :=
  match s.file with
  | none => { s with stamp := none, cached := .defaults }.got patch
  | some file =>
      if s.stamp = some file.stamp then s.got patch
      else { s with call := .reading patch file.stamp }

/-- A file that has gone or is malformed keeps the values. -/
def read (patch : Option SettingsPatch) (stamp : FileStamp) : SettingsStore :=
  { s with
    cached := (s.file.bind fun file => Settings.decode F file.content).getD s.cached
    stamp := some stamp }.got patch

/-- Every write changes the stamp. -/
def writable (file : Option SettingsFile) : Bool :=
  match s.file, file with
  | some old, some new => decide (old.stamp ≠ new.stamp)
  | _, _ => true

def step (s : SettingsStore) : SettingsAction → Option SettingsStore
  | .stat patch =>
      match s.call with
      | .idle => some (s.stat patch)
      | _ => none
  | .read =>
      match s.call with
      | .reading patch stamp => some (s.read F patch stamp)
      | _ => none
  | .rename stamp =>
      match s.call with
      | .replacing merged =>
          let file := some ⟨merged.body F, stamp⟩
          if s.writable file then some { s with file, cached := merged, call := .stamping }
          else none
      | _ => none
  | .restat =>
      match s.call with
      | .stamping =>
          some { s with stamp := s.file.map SettingsFile.stamp, call := .idle }
      | _ => none
  | .edit file => if s.writable file then some { s with file } else none

def machine : Transition.Machine SettingsStore SettingsAction where
  init s := ∃ file, s = fresh file
  step := step F

/-- What `get` returns when nothing comes between its calls. -/
def get : Settings :=
  match (s.stat none).call with
  | .reading patch stamp => ((s.stat none).read F patch stamp).cached
  | _ => (s.stat none).cached

/-- If `get` is called now, and the file is well formed and not edited during
the call, then it returns what the file says. -/
def Current : Prop :=
  s.call = .idle → ∀ file settings, s.file = some file →
    Settings.decode F file.content = some settings → s.get F = settings

/-- An edit between the calls of the store does not bring back the stamp that
the store has for other values; and when `set` takes the stamp, the file says
what `set` has written, unless it is gone or malformed. -/
def Steady (s : SettingsStore) : SettingsAction → Prop
  | .edit (some file) => s.call = .idle → s.stamp = some file.stamp →
      ∀ settings, Settings.decode F file.content = some settings → settings = s.cached
  | .restat => ∀ file settings, s.file = some file →
      Settings.decode F file.content = some settings → settings = s.cached
  | _ => True

variable {F s}

theorem get_of_file {file : SettingsFile} (present : s.file = some file) :
    s.get F = if s.stamp = some file.stamp then s.cached
      else (Settings.decode F file.content).getD s.cached := by
  rw [get, stat, present]
  dsimp only
  split_ifs with same <;> rfl

/-- `get` is current when the stamp that it remembers is not that of other
values. -/
theorem current_iff : s.Current F ↔ (s.call = .idle → ∀ file settings, s.file = some file →
    s.stamp = some file.stamp → Settings.decode F file.content = some settings →
      settings = s.cached) := by
  refine forall_congr' fun _ => forall_congr' fun file => forall_congr' fun settings => ?_
  refine forall_congr' fun present => ?_
  rw [get_of_file present]
  split_ifs with same
  · exact ⟨fun current _ decoded => (current decoded).symm,
      fun current decoded => (current same decoded).symm⟩
  · exact ⟨fun _ stamped => absurd stamped same, fun _ decoded => by rw [decoded]; rfl⟩

theorem got_current {patch : Option SettingsPatch} (current : ∀ file settings,
    s.file = some file → s.stamp = some file.stamp →
      Settings.decode F file.content = some settings → settings = s.cached) :
    (s.got patch).Current F := by
  cases patch with
  | none => exact current_iff.mpr fun _ => current
  | some patch => exact fun idle => nomatch idle

/-- What the store reads is what the file says. -/
theorem read_current (patch : Option SettingsPatch) (stamp : FileStamp) :
    (s.read F patch stamp).Current F := by
  refine got_current fun file settings present _ decoded => ?_
  have present' : s.file = some file := present
  show settings = (s.file.bind fun file => Settings.decode F file.content).getD s.cached
  rw [present', Option.bind_some, decoded]
  rfl

theorem stat_current {patch : Option SettingsPatch} (idle : s.call = .idle)
    (current : s.Current F) : (s.stat patch).Current F := by
  rw [stat]
  cases present : s.file with
  | none =>
      refine got_current fun file settings here => ?_
      cases here
  | some file =>
      dsimp only
      split_ifs
      · exact got_current (current_iff.mp current idle)
      · exact fun idle => nomatch idle

/-- A step keeps `get` current exactly if it is steady. -/
theorem current_step_iff {a : SettingsAction} {t : SettingsStore} (current : s.Current F)
    (taken : s.step F a = some t) : t.Current F ↔ s.Steady F a := by
  cases a with
  | stat patch =>
      rw [step] at taken
      split at taken
      case h_2 => cases taken
      case h_1 idle =>
        obtain rfl := Option.some.inj taken
        exact iff_of_true (stat_current idle current) trivial
  | read =>
      rw [step] at taken
      split at taken
      case h_2 => cases taken
      case h_1 patch stamp _ =>
        obtain rfl := Option.some.inj taken
        exact iff_of_true (read_current patch stamp) trivial
  | rename stamp =>
      rw [step] at taken
      split at taken
      case h_2 => cases taken
      case h_1 =>
        dsimp only at taken
        split at taken
        · obtain rfl := Option.some.inj taken
          exact iff_of_true (fun idle => nomatch idle) trivial
        · cases taken
  | restat =>
      rw [step] at taken
      split at taken
      case h_2 => cases taken
      case h_1 =>
        obtain rfl := Option.some.inj taken
        rw [current_iff]
        constructor
        · intro kept file settings present
          exact kept rfl file settings present (by rw [present]; rfl)
        · intro steady _ file settings present _
          exact steady file settings present
  | edit file =>
      rw [step] at taken
      split at taken
      case isFalse => cases taken
      case isTrue =>
        obtain rfl := Option.some.inj taken
        rw [current_iff]
        cases file with
        | none => exact iff_of_true (fun _ _ _ present => nomatch present) trivial
        | some file =>
            constructor
            · intro kept idle same settings
              exact kept idle file settings rfl same
            · rintro steady idle _ settings ⟨⟩ same
              exact steady idle same settings

/-- In a run that starts with any file, `get` is current throughout exactly
if all steps are steady. -/
theorem gets_are_current_iff {ν : Type} (F : NumberFormat ν) (file : Option SettingsFile)
    (actions : List SettingsAction) :
    (machine F).Throughout (Current F) (fresh file) actions ↔
      (machine F).EachStep (Steady F) (fresh file) actions :=
  Transition.Machine.throughout_iff_eachStep (I := fun _ => True) trivial
    (current_iff.mpr fun _ _ _ _ same => nomatch same) (fun _ _ _ _ _ => trivial)
    fun _ _ _ _ current taken => current_step_iff current taken

/-- What `set` has renamed says what is cached, so a `set` that nobody
interrupts is steady. -/
theorem uninterrupted_set_is_steady {stamp : FileStamp} {t : SettingsStore}
    (taken : s.step F (.rename stamp) = some t) : t.Steady F .restat := by
  rw [step] at taken
  split at taken
  case h_2 => cases taken
  case h_1 merged _ =>
    dsimp only at taken
    split at taken
    · obtain rfl := Option.some.inj taken
      rintro _ settings ⟨⟩ decoded
      rw [Settings.decode_body] at decoded
      exact (Option.some.inj decoded).symm
    · cases taken

/-- Streaming in channels is switched on, and before `set` takes the stamp
another process empties the file. -/
def interruptedSet : List SettingsAction :=
  [.stat (some ⟨none, some true, none⟩), .rename ⟨1, 96⟩,
    .edit (some ⟨['\x7b', '\x7d'], ⟨2, 2⟩⟩), .restat]

/-- From then on `get` returns a value that is not in the file. -/
theorem interrupted_set_is_stale :
    ∃ s, (machine .decimal).exec Transition.Always (fresh none) interruptedSet = some s ∧
      s.call = .idle ∧ s.file.map SettingsFile.content = some ['\x7b', '\x7d'] ∧
      Settings.decode .decimal ['\x7b', '\x7d'] = some .defaults ∧
      (s.get .decimal).streamInChannels = true ∧ Settings.defaults.streamInChannels = false :=
  ⟨_, rfl, rfl, rfl, rfl, rfl, rfl⟩

end SettingsStore

end OmpBundler.Pumble
