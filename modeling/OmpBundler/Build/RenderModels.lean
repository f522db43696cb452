import Mathlib.Data.List.Dedup
import OmpBundler.Library.JsonWeight

/-!
The renderer of the model catalog.

A catalog from which providers or their keys have been removed is written as
JSON, and the placeholders are replaced in that text. So a value of the
environment stands in a string literal as it is; where it needs an escape there,
the catalog that is read is a different one.
-/

namespace OmpBundler.Build

open Library Library.Json Library.Placeholder

/-- `process.env`. -/
abbrev Env := String → Option String

def envValueMissing (env : Env) (name : String) : Bool :=
  match env name with
  | none => true
  | some value => value = ""

/-- A name as a string. -/
def nameText (n : List ℕ) : String := String.ofList (n.map Char.ofNat)

/-- What a placeholder is replaced by: its value, or itself. -/
def replacement (env : Env) (n : List ℕ) : List Char :=
  if envValueMissing env (nameText n) then (placeholder n).map Char.ofNat
  else ((env (nameText n)).getD "").toList

/-- The members of a set, sorted. -/
def sorted (l : List String) : List String := l.dedup.insertionSort Utf16.le

structure Expansion where
  text : List Char
  missing : List String
  survivors : List String

def expand (env : Env) (tmpl : List Char) : Expansion :=
  let missing := ((names Char.toNat tmpl).map nameText).filter (envValueMissing env)
  -- Names with no value are left in place.
  let text := fill Char.toNat (replacement env) tmpl
  -- The second pass also sees what the values have brought.
  let survivors := (tokens Char.toNat text).filter fun token =>
    match (names Char.toNat token).head? with
    | some n => decide (nameText n ∉ missing)
    | none => true
  { text, missing := sorted missing, survivors := sorted (survivors.map String.ofList) }

/-! ### Preparing the catalog -/

section Prepare

variable {ν : Type}

mutual

/-- The strings among the values; the names of the properties are not visited. -/
def visited : Json ν → List (List UInt16)
  | .null => []
  | .bool _ => []
  | .number _ => []
  | .string s => [s]
  | .array l => visitedElements l
  | .object ps => visitedMembers ps

def visitedElements : List (Json ν) → List (List UInt16)
  | [] => []
  | v :: l => visited v ++ visitedElements l

def visitedMembers : List (List UInt16 × Json ν) → List (List UInt16)
  | [] => []
  | (_, v) :: ps => visited v ++ visitedMembers ps

end

structure PlaceholderSummary where
  names : List String
  malformed : List (List UInt16)

def collectPlaceholders (v : Json ν) : PlaceholderSummary :=
  let found := (visited v).flatMap (tokens UInt16.toNat)
  { names := ((found.filterMap (wholeName UInt16.toNat)).map nameText).dedup
    malformed := (found.filter fun token => (wholeName UInt16.toNat token).isNone).dedup }

/-- A name of the source as it is in an object. -/
def key (name : String) : List UInt16 := name.toList.flatMap Json.unitsOf

def property? (ps : List (List UInt16 × Json ν)) (name : String) : Option (Json ν) :=
  (ps.find? fun p => p.1 = key name).map Prod.snd

/-- Set a property that is there. -/
def setProperty (ps : List (List UInt16 × Json ν)) (name : String) (v : Json ν) :
    List (List UInt16 × Json ν) :=
  ps.map fun p => if p.1 = key name then (p.1, v) else p

/-- The properties of the catalog and its providers, where it has some. -/
def providersOf : Json ν → Option (List (List UInt16 × Json ν) × List (List UInt16 × Json ν))
  | .object catalog =>
      match property? catalog "providers" with
      | some (.object providers) => some (catalog, providers)
      | _ => none
  | _ => none

/-- The names of a provider that have no value, where it has names and nothing
is malformed. -/
def missingNames (env : Env) : Json ν → Option (List String × List String)
  | .object provider =>
      let summary := collectPlaceholders (.object provider)
      if summary.malformed ≠ [] ∨ summary.names = [] then none
      else some (summary.names, (summary.names.filter (envValueMissing env)).insertionSort Utf16.le)
  | _ => none

/-- A provider none of whose names has a value. -/
def isUnconfigured (env : Env) (provider : Json ν) : Bool :=
  match missingNames env provider with
  | some (names, missing) => missing ≠ [] && missing.length = names.length
  | none => false

/-- The message for a provider some of whose names have no value. -/
def partlyConfigured (env : Env) (provider : List UInt16 × Json ν) :
    Option (List UInt16 × List String) :=
  match missingNames env provider.2 with
  | some (names, missing) =>
      if missing ≠ [] ∧ missing.length ≠ names.length then some (provider.1, missing) else none
  | none => none

variable (F : NumberFormat ν) (parseYaml : List Char → Option (Json ν))

/-- `omitUnconfiguredProviders`, where the template can be parsed. The messages
are given by their two parameters. -/
def omitUnconfiguredProviders (env : Env) (tmpl : List Char) :
    Option (List Char × List (List UInt16 × List String)) := do
  let parsed ← parseYaml tmpl
  match providersOf parsed with
  | none => return (tmpl, [])
  | some (catalog, providers) =>
      let kept := providers.filter fun p => !isUnconfigured env p.2
      let changed := providers.any fun p => isUnconfigured env p.2
      let text :=
        if changed then layout F 0 (.object (setProperty catalog "providers" (.object kept)))
        else tmpl
      return (text, providers.filterMap (partlyConfigured env))

/-- A provider without its key, unless something in the key is malformed. -/
def withoutApiKey : Json ν → Json ν
  | .object provider =>
      match property? provider "apiKey" with
      | some (.string apiKey) =>
          if (collectPlaceholders (ν := ν) (.string apiKey)).malformed ≠ [] then .object provider
          else .object (provider.filter fun p => p.1 ≠ key "apiKey")
      | _ => .object (provider.filter fun p => p.1 ≠ key "apiKey")
  | v => v

def omitProviderApiKeys (tmpl : List Char) : Option (List Char) := do
  let parsed ← parseYaml tmpl
  match providersOf parsed with
  | none => return tmpl
  | some (catalog, providers) =>
      let stripped := providers.map fun p => (p.1, withoutApiKey p.2)
      return layout F 0 (.object (setProperty catalog "providers" (.object stripped)))

variable {F parseYaml}

/-- What is written in place of a template is the text of an object. -/
theorem omitUnconfiguredProviders_text {env : Env} {tmpl text : List Char}
    {messages : List (List UInt16 × List String)}
    (omitted : omitUnconfiguredProviders F parseYaml env tmpl = some (text, messages)) :
    text = tmpl ∨ ∃ ps, text = layout F 0 (.object ps) := by
  unfold omitUnconfiguredProviders at omitted
  obtain ⟨parsed, -, omitted⟩ := Option.bind_eq_some_iff.mp omitted
  split at omitted
  · cases omitted
    exact .inl rfl
  · cases omitted
    split_ifs
    · exact .inr ⟨_, rfl⟩
    · exact .inl rfl

theorem omitProviderApiKeys_text {tmpl text : List Char}
    (omitted : omitProviderApiKeys F parseYaml tmpl = some text) :
    text = tmpl ∨ ∃ ps, text = layout F 0 (.object ps) := by
  unfold omitProviderApiKeys at omitted
  obtain ⟨parsed, -, omitted⟩ := Option.bind_eq_some_iff.mp omitted
  split at omitted
  · cases omitted
    exact .inl rfl
  · cases omitted
    exact .inr ⟨_, rfl⟩

end Prepare

/-! ### Expansion -/

section Expand

variable {env : Env}

theorem sorted_eq_nil {l : List String} : sorted l = [] ↔ l = [] := by
  rw [sorted, List.eq_nil_iff_forall_not_mem, List.eq_nil_iff_forall_not_mem]
  simp only [List.mem_insertionSort, List.mem_dedup]

theorem replacement_ne_nil (env : Env) (n : List ℕ) : replacement env n ≠ [] := by
  rw [replacement]
  split_ifs with missing
  · simp [placeholder]
  · rw [envValueMissing] at missing
    cases given : env (nameText n) with
    | none => simp [given] at missing
    | some value => simpa [given] using missing

theorem replacement_eq {n : List ℕ} {value : String} (given : env (nameText n) = some value)
    (nonempty : value ≠ "") : replacement env n = value.toList := by
  have known : envValueMissing env (nameText n) = false := by simp [envValueMissing, given, nonempty]
  rw [replacement, known, given]
  rfl

variable {ν : Type} (F : NumberFormat ν)

/-- The catalog with the values in its strings. -/
def substituted (env : Env) (v : Json ν) : Json ν := v.mapStrings (filled (replacement env))

/-- The malformed placeholders of the catalog. -/
def malformedTokens (v : Json ν) : List (List UInt16) :=
  v.strings.flatMap (malformed UInt16.toNat)

/-- Nothing is reported exactly when nothing is malformed, and the text has the
values in its strings and is otherwise the catalog. -/
def ExpandsFaithfully (env : Env) (v : Json ν) : Prop :=
  ((expand env (layout F 0 v)).missing = [] ∧ (expand env (layout F 0 v)).survivors = [] ↔
      malformedTokens v = []) ∧
    parse F (expand env (layout F 0 v)).text = some (substituted env v)

/-- Every placeholder of the catalog has a value. -/
def Given (env : Env) (v : Json ν) : Prop :=
  ∀ n ∈ v.placeholders, ∃ value, env (nameText n) = some value ∧ value ≠ ""

/-- No value needs an escape in a literal, no name comes to occur twice in an
object, and where nothing is malformed, no string has an opening left or gets
one. -/
structure Harmless (env : Env) (v : Json ν) : Prop where
  plain : ∀ n ∈ v.placeholders, ∀ value, env (nameText n) = some value →
    ∀ c ∈ value.toList, isPlain c = true
  distinct : (substituted env v).WellFormed
  closed : malformedTokens v = [] → ∀ s ∈ v.strings,
    ¬Opens UInt16.toNat (filled (replacement env) s)

theorem plain_iff {v : Json ν} (given : Given env v) :
    (∀ n ∈ v.placeholders, ∀ c ∈ replacement env n, isPlain c = true) ↔
      ∀ n ∈ v.placeholders, ∀ value, env (nameText n) = some value →
        ∀ c ∈ value.toList, isPlain c = true := by
  refine forall₂_congr fun n listed => ?_
  obtain ⟨value, found, nonempty⟩ := given n listed
  rw [replacement_eq found nonempty, found]
  simp

theorem missing_eq_nil {v : Json ν} (given : Given env v) :
    (expand env (layout F 0 v)).missing = [] := by
  have listed := (layout_filled F (replacement_ne_nil env) v).2
  show sorted _ = []
  rw [sorted_eq_nil, listed, List.filter_eq_nil_iff]
  intro name listed
  obtain ⟨n, inside, rfl⟩ := List.mem_map.mp listed
  obtain ⟨value, found, nonempty⟩ := given n inside
  simp [envValueMissing, found, nonempty]

theorem survivors_eq_nil {tmpl : List Char} (none : (expand env tmpl).missing = []) :
    (expand env tmpl).survivors = [] ↔ tokens Char.toNat (expand env tmpl).text = [] := by
  have none' : ((names Char.toNat tmpl).map nameText).filter (envValueMissing env) = [] :=
    sorted_eq_nil.mp none
  show sorted _ = [] ↔ _
  rw [sorted_eq_nil, List.map_eq_nil_iff, none', List.filter_eq_self.mpr]
  · rfl
  · intro token _
    cases (names Char.toNat token).head? <;> simp

/-- The text of an object ends with a brace. -/
theorem getLast_layout (ps : List (List UInt16 × Json ν)) :
    ∃ e ∈ (layout F 0 (.object ps)).getLast?, e.toNat = 125 := by
  refine ⟨'\x7d', ?_, rfl⟩
  cases ps with
  | nil => rfl
  | cons p ps => simp [layout, List.getLast?_cons, List.getLast?_append]

theorem expand_text {v : Json ν}
    (plain : ∀ n ∈ v.placeholders, ∀ c ∈ replacement env n, isPlain c = true) :
    (expand env (layout F 0 v)).text = layout F 0 (substituted env v) :=
  fill_plainValues F (replacement_ne_nil env) plain

/-- Where the text is that of the catalog with its values, nothing survives
unless a string has an opening. -/
theorem survivors_iff {ps : List (List UInt16 × Json ν)} (given : Given env (.object ps))
    (plain : ∀ n ∈ (Json.object ps).placeholders, ∀ c ∈ replacement env n, isPlain c = true) :
    (expand env (layout F 0 (.object ps))).survivors = [] ↔
      ∀ s ∈ (Json.object ps).strings, ¬Opens UInt16.toNat (filled (replacement env) s) := by
  rw [survivors_eq_nil (missing_eq_nil F given), expand_text F plain]
  have closed := getLast_layout F (mapMembers (filled (replacement env)) ps)
  have opens := opens_layout F (filled (replacement env)) (.object ps)
  refine (tokens_eq_nil_iff closed).trans ((not_congr opens).trans ?_)
  simp only [not_exists, not_and]

/-- What is malformed leaves an opening. -/
theorem malformed_survives (env : Env) {v : Json ν} (some : malformedTokens v ≠ []) :
    ∃ s ∈ v.strings, Opens UInt16.toNat (filled (replacement env) s) := by
  obtain ⟨token, listed⟩ := List.exists_mem_of_ne_nil _ some
  obtain ⟨s, inside, listed⟩ := List.mem_flatMap.mp listed
  exact ⟨s, inside, opens_fill (List.ne_nil_of_mem listed)⟩

/-- The expansion of a catalog is faithful if and only if the values of its
placeholders are harmless. -/
theorem expand_faithful_iff (F : NumberFormat ν) (env : Env)
    (catalog : List (List UInt16 × Json ν)) (given : Given env (.object catalog)) :
    ExpandsFaithfully F env (.object catalog) ↔ Harmless env (.object catalog) := by
  have text := parse_fill_iff F (replacement_ne_nil env) (.object catalog)
  have noneMissing := missing_eq_nil F given
  constructor
  · rintro ⟨reported, parsed⟩
    obtain ⟨plain, distinct⟩ := text.mp parsed
    refine ⟨(plain_iff given).mp plain, distinct, fun none => ?_⟩
    exact (survivors_iff F given plain).mp (reported.mpr none).2
  · rintro ⟨plain, distinct, closed⟩
    replace plain := (plain_iff given).mpr plain
    refine ⟨⟨fun reported => ?_, fun none => ?_⟩, text.mpr ⟨plain, distinct⟩⟩
    · by_contra some
      obtain ⟨s, inside, opens⟩ := malformed_survives env some
      exact (survivors_iff F given plain).mp reported.2 s inside opens
    · exact ⟨noneMissing, (survivors_iff F given plain).mpr (closed none)⟩

/-- A catalog with one key, taken from the environment. -/
def oneKey : List (List UInt16 × Json ℕ) := [(key "apiKey", .string (key "$\x7bK\x7d"))]

theorem placeholders_oneKey : (Json.object oneKey).placeholders = [[75]] := by decide

theorem given_oneKey {env : Env} {value : String} (found : env "K" = some value)
    (nonempty : value ≠ "") : Given env (.object oneKey) := by
  intro n listed
  rw [placeholders_oneKey, List.mem_singleton] at listed
  subst listed
  exact ⟨value, found, nonempty⟩

theorem expand_faithful_iff_oneKey :
    ExpandsFaithfully .decimal (fun _ => some "v") (.object oneKey) ↔
      Harmless (fun _ => some "v") (.object oneKey) :=
  expand_faithful_iff .decimal (fun _ => some "v") oneKey (given_oneKey rfl (by decide))

/-- A backslash in a value begins an escape. -/
theorem backslash_value_is_changed :
    Given (fun _ => some "C:\\new") (.object oneKey) ∧
      parse .decimal (expand (fun _ => some "C:\\new") (layout .decimal 0 (.object oneKey))).text =
        some (.object [(key "apiKey", .string (key "C:\new"))]) ∧
      ¬ExpandsFaithfully .decimal (fun _ => some "C:\\new") (.object oneKey) := by
  have parsed : parse .decimal
      (expand (fun _ => some "C:\\new") (layout .decimal 0 (.object oneKey))).text =
        some (.object [(key "apiKey", .string (key "C:\new"))]) := by rfl
  refine ⟨given_oneKey rfl (by decide), parsed, ?_⟩
  rintro ⟨-, faithful⟩
  rw [parsed] at faithful
  injection faithful with faithful
  injection faithful with faithful
  injection faithful with faithful
  injection faithful with _ faithful
  injection faithful with faithful
  exact absurd faithful (by decide)

end Expand

end OmpBundler.Build
