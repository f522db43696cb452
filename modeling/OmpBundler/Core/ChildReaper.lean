import Mathlib.Data.Int.Notation
import Mathlib.Data.List.Basic
import OmpBundler.Library.OrderedMap

/-!
The persistent registry of child process groups.

The file holds one JSON object from conversation keys to the process group
that was started under the key. Each operation on it reads the file,
decides, and rewrites the file by an atomic rename. The functions here are
the decisions: what an operation makes of the registry it has read.
-/

namespace OmpBundler.Core

open Library

/-- A persisted entry for one owned child process group. -/
structure ChildRegistryEntry where
  pgid : ℤ
  pid : ℤ
  startedAt : ℤ
  binary : Option String
  deriving DecidableEq, Repr

/-- Opaque conversation key to entry. -/
abbrev ChildRegistry := OrderedMap String ChildRegistryEntry

/-- What is found under the path of the registry. -/
inductive RegistryFile where
  | absent
  /-- A text that is not JSON. -/
  | corrupt
  /-- JSON, but not an object. -/
  | notAnObject
  /-- The value at `key` is the first one that is no entry. -/
  | invalidEntry (key : String)
  | valid (registry : ChildRegistry)

/-- Read and parse the registry file: only an absent file is an empty
registry, anything else that is not one is an error. -/
def readChildRegistry (path : String) : RegistryFile → Except String ChildRegistry
  | .absent => .ok .empty
  | .corrupt =>
      .error ("registry at " ++ path ++ " contains corrupt JSON; refusing to start with "
        ++ "live process groups unaccounted for")
  | .notAnObject =>
      .error ("registry at " ++ path ++ " is not a JSON object; refusing to start")
  | .invalidEntry key =>
      .error ("registry at " ++ path ++ " has an invalid entry for key \"" ++ key ++ "\"; "
        ++ "refusing to start with live process groups unaccounted for")
  | .valid registry => .ok registry

/-- The entry that the file holds under a key. -/
def RegistryFile.entry (file : RegistryFile) (key : String) : Option ChildRegistryEntry :=
  match file with
  | .valid registry => registry.get key
  | _ => none

/-- A file that can be read holds what is read from it. -/
theorem RegistryFile.entry_of_read {path : String} {file : RegistryFile}
    {registry : ChildRegistry} (read : readChildRegistry path file = .ok registry)
    (key : String) : file.entry key = registry.get key := by
  cases file with
  | absent => simpa [readChildRegistry, entry] using congrArg (·.get key) (Except.ok.inj read)
  | valid r => simpa [readChildRegistry, entry] using congrArg (·.get key) (Except.ok.inj read)
  | corrupt | notAnObject | invalidEntry => simp [readChildRegistry] at read

/-! ### Registering and unregistering -/

/-- The names that every object of the source has from its prototype: they
are looked up in a registry with success. -/
def inheritedNames : List String :=
  ["constructor", "hasOwnProperty", "isPrototypeOf", "propertyIsEnumerable", "toLocaleString",
    "toString", "valueOf", "__defineGetter__", "__defineSetter__", "__lookupGetter__",
    "__lookupSetter__", "__proto__"]

/-- The refusal of a key that another group holds. -/
def collision (key existing : String) (entry : ChildRegistryEntry) : String :=
  "registry key \"" ++ key ++ "\" is already registered with pgid " ++ existing
    ++ "; refusing to overwrite with pgid " ++ toString entry.pgid

/-- Enter a process group under its key; `none` when there is nothing to
write. -/
def registerChild (key : String) (entry : ChildRegistryEntry) (registry : ChildRegistry) :
    Except String (Option ChildRegistry) :=
  match registry.get key with
  | some existing =>
      if existing.pgid ≠ entry.pgid then
        .error (collision key (toString existing.pgid) entry)
      else .ok none
  | none =>
      if key ∈ inheritedNames then .error (collision key "undefined" entry)
      else .ok (some (registry.set key entry))

/-- Remove a key, whichever group holds it; `none` when it is absent. -/
def unregisterChild (key : String) (registry : ChildRegistry) : Option ChildRegistry :=
  if (registry.get key).isSome ∨ key ∈ inheritedNames then some (registry.delete key) else none

/-- A registration that writes adds its own entry and keeps the others. -/
theorem get_of_registerChild {key : String} {entry : ChildRegistryEntry}
    {registry next : ChildRegistry}
    (decided : registerChild key entry registry = .ok (some next)) (j : String) :
    registry.get key = none ∧
      next.get j = if key = j then some entry else registry.get j := by
  unfold registerChild at decided
  split at decided
  case h_1 existing present => split at decided <;> simp at decided
  case h_2 vacant =>
      split at decided
      case isTrue => simp at decided
      case isFalse =>
          simp only [Except.ok.injEq, Option.some.injEq] at decided
          subst decided
          exact ⟨vacant, OrderedMap.get_set registry key j entry⟩

/-- A registration that has nothing to write finds its own group. -/
theorem pgid_of_registerChild {key : String} {entry : ChildRegistryEntry}
    {registry : ChildRegistry} (decided : registerChild key entry registry = .ok none) :
    ∃ existing, registry.get key = some existing ∧ existing.pgid = entry.pgid := by
  unfold registerChild at decided
  split at decided
  case h_1 existing present =>
      split at decided
      case isTrue => simp at decided
      case isFalse same => exact ⟨existing, present, not_not.mp same⟩
  case h_2 => split at decided <;> simp at decided

theorem get_of_unregisterChild {key : String} {registry next : ChildRegistry}
    (decided : unregisterChild key registry = some next) (j : String) :
    next.get j = if key = j then none else registry.get j := by
  unfold unregisterChild at decided
  split at decided
  case isTrue =>
      obtain rfl := Option.some.inj decided
      exact OrderedMap.get_delete registry key j
  case isFalse => simp at decided

/-! ### The startup sweep -/

/-- How the operating system answers the sweep for the process group of one
key: the probe finds it gone; it is found and signalled; it is found, and
gone when the signal is sent; the signal is not permitted; another error. Two
keys of one group may get different answers: the first signal ends it. -/
inductive GroupProbe where
  | gone
  | signalled
  | goneMeanwhile
  | denied
  | failed (error : String)
  deriving DecidableEq, Repr

/-- The keys of a sweep, by what was done for them. -/
structure SweepResult where
  reclaimed : List String
  stale : List String
  denied : List String
  deriving DecidableEq, Repr

/-- The loop of the sweep over the entries it has left. -/
def sweepEntries (probe : String → GroupProbe) (result : SweepResult) :
    List (String × ChildRegistryEntry) → Except String SweepResult
  | [] => .ok result
  | (key, entry) :: rest =>
      if entry.pgid ≤ 0 then
        sweepEntries probe { result with stale := result.stale ++ [key] } rest
      else
        match probe key with
        | .gone | .goneMeanwhile =>
            sweepEntries probe { result with stale := result.stale ++ [key] } rest
        | .signalled =>
            sweepEntries probe { result with reclaimed := result.reclaimed ++ [key] } rest
        | .denied => sweepEntries probe { result with denied := result.denied ++ [key] } rest
        | .failed error => .error error

/-- Add to `kept` the entries of the denied keys, in their order. -/
def survivors (registry kept : ChildRegistry) : List String → ChildRegistry
  | [] => kept
  | key :: rest =>
      match registry.get key with
      | some entry => survivors registry (kept.set key entry) rest
      | none => survivors registry kept rest

/-- Reclaim the groups that the registry records, and the registry to
write afterwards. -/
def sweepChildRegistry (probe : String → GroupProbe) (registry : ChildRegistry) :
    Except String (SweepResult × ChildRegistry) :=
  match sweepEntries probe ⟨[], [], []⟩ registry.entries with
  | .ok result => .ok (result, survivors registry .empty result.denied)
  | .error error => .error error

theorem get_survivors (registry kept : ChildRegistry) (denied : List String) (key : String) :
    (survivors registry kept denied).get key =
      if key ∈ denied ∧ (registry.get key).isSome then registry.get key else kept.get key := by
  induction denied generalizing kept with
  | nil => simp [survivors]
  | cons k rest ih =>
      by_cases here : k = key
      · subst here
        cases present : registry.get k <;> simp [survivors, present, ih]
      · cases present : registry.get k <;> simp [survivors, present, ih, here, Ne.symm here]

/-- The sweep has come by the key. -/
def SweepResult.Covers (result : SweepResult) (key : String) : Prop :=
  key ∈ result.reclaimed ∨ key ∈ result.stale ∨ key ∈ result.denied

/-- The loop of the sweep covers the keys it comes by, and drops none. -/
theorem sweepEntries_covers {probe : String → GroupProbe} {before result : SweepResult}
    {entries : List (String × ChildRegistryEntry)}
    (swept : sweepEntries probe before entries = .ok result) :
    ∀ key, before.Covers key ∨ key ∈ entries.map Prod.fst → result.Covers key := by
  induction entries generalizing before with
  | nil =>
      obtain rfl := Except.ok.inj swept
      simp
  | cons e rest ih =>
      obtain ⟨key, entry⟩ := e
      -- Wherever the loop puts the key, the list that has it covers it.
      have next {later : SweepResult} (rest_swept : sweepEntries probe later rest = .ok result)
          (kept : ∀ j, before.Covers j ∨ j = key → later.Covers j) :
          ∀ j, before.Covers j ∨ j ∈ ((key, entry) :: rest).map Prod.fst → result.Covers j := by
        rintro j (old | listed)
        · exact ih rest_swept j (.inl (kept j (.inl old)))
        · rcases List.mem_cons.mp listed with rfl | listed
          · exact ih rest_swept _ (.inl (kept _ (.inr rfl)))
          · exact ih rest_swept j (.inr listed)
      unfold sweepEntries at swept
      split at swept
      · exact next swept (by simp only [SweepResult.Covers, List.mem_append]; grind)
      · split at swept
        · exact next swept (by simp only [SweepResult.Covers, List.mem_append]; grind)
        · exact next swept (by simp only [SweepResult.Covers, List.mem_append]; grind)
        · exact next swept (by simp only [SweepResult.Covers, List.mem_append]; grind)
        · exact next swept (by simp only [SweepResult.Covers, List.mem_append]; grind)
        · simp at swept

/-- The keys that the sweep has come by. -/
def SweepResult.keys (result : SweepResult) : List String :=
  result.reclaimed ++ result.stale ++ result.denied

/-- The loop of the sweep puts each key into one of the three lists. -/
theorem keys_of_sweepEntries {probe : String → GroupProbe} {before result : SweepResult}
    {entries : List (String × ChildRegistryEntry)}
    (swept : sweepEntries probe before entries = .ok result) :
    result.keys.Perm (before.keys ++ entries.map Prod.fst) := by
  induction entries generalizing before with
  | nil =>
      obtain rfl := Except.ok.inj swept
      simp
  | cons e rest ih =>
      obtain ⟨key, entry⟩ := e
      have next {later : SweepResult} (rest_swept : sweepEntries probe later rest = .ok result)
          (added : later.keys.Perm (before.keys ++ [key])) :
          result.keys.Perm (before.keys ++ ((key, entry) :: rest).map Prod.fst) := by
        refine (ih rest_swept).trans ((added.append_right _).trans ?_)
        rw [List.append_assoc]
        exact List.Perm.refl _
      unfold sweepEntries at swept
      split at swept
      · refine next swept (List.perm_iff_count.mpr fun k => ?_)
        simp only [SweepResult.keys, List.count_append]
        omega
      split at swept
      case h_5 => cases swept
      all_goals
        refine next swept (List.perm_iff_count.mpr fun k => ?_)
        simp only [SweepResult.keys, List.count_append]
        omega

/-- A sweep leaves the denied entries as they were, and no others. -/
theorem get_of_sweepChildRegistry {probe : String → GroupProbe} {registry next : ChildRegistry}
    {result : SweepResult} (swept : sweepChildRegistry probe registry = .ok (result, next))
    (key : String) : next.get key = if key ∈ result.denied then registry.get key else none := by
  unfold sweepChildRegistry at swept
  split at swept
  case h_2 => simp at swept
  case h_1 r _ =>
      simp only [Except.ok.injEq, Prod.mk.injEq] at swept
      obtain ⟨rfl, rfl⟩ := swept
      rw [get_survivors]
      cases present : registry.get key <;> simp

/-- A sweep partitions the keys of the registry. -/
theorem keys_of_sweepChildRegistry {probe : String → GroupProbe} {registry next : ChildRegistry}
    {result : SweepResult} (swept : sweepChildRegistry probe registry = .ok (result, next)) :
    result.keys.Perm (registry.entries.map Prod.fst) := by
  unfold sweepChildRegistry at swept
  split at swept
  case h_2 => simp at swept
  case h_1 r looped =>
      simp only [Except.ok.injEq, Prod.mk.injEq] at swept
      obtain ⟨rfl, rfl⟩ := swept
      exact keys_of_sweepEntries looped

/-- Every key of the registry is reclaimed, stale or denied. -/
theorem mem_of_sweepChildRegistry {probe : String → GroupProbe} {registry next : ChildRegistry}
    {result : SweepResult} (swept : sweepChildRegistry probe registry = .ok (result, next))
    {key : String} {entry : ChildRegistryEntry} (present : registry.get key = some entry) :
    result.Covers key := by
  unfold sweepChildRegistry at swept
  split at swept
  case h_2 => simp at swept
  case h_1 r looped =>
      simp only [Except.ok.injEq, Prod.mk.injEq] at swept
      obtain ⟨rfl, rfl⟩ := swept
      have listed : (key, entry) ∈ registry.entries := registry.mem_entries.mpr present
      exact sweepEntries_covers looped key (.inr (List.mem_map_of_mem listed))

end OmpBundler.Core
