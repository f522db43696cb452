import OmpBundler.Cli.ModelBlock
import OmpBundler.Cli.YamlRoundTrip
import OmpBundler.Library.OrderedMap
import OmpBundler.Library.Placeholder

/-!
The model catalog and the command that adds to it.

`models.yml` has the providers by their ids, each with a list of models.
`model add` reads it, adds a model to a provider that is there or a new one,
writes it and reads what it has written once more before the file is replaced.
`runtime.env.example` gets a row for each variable the catalog refers to.
-/

namespace OmpBundler.Cli

open Library

/-- The code units of a text. -/
def units (t : String) : List UInt16 := Json.unitsOfText t.toList

/-- Fail with the message unless it holds. -/
def check (holds : Bool) (message : List UInt16) : Except (List UInt16) Unit :=
  if holds then .ok () else .error message

abbrev YamlObject (ν : Type) := List (List UInt16 × Json ν)

section

variable {ν : Type}

/-- A property of its own. -/
def YamlObject.get? (object : YamlObject ν) (key : List UInt16) : Option (Json ν) :=
  OrderedMap.lookup key object

/-- `{ ...object, [key]: v }` -/
def YamlObject.set (object : YamlObject ν) (key : List UInt16) (v : Json ν) : YamlObject ν :=
  OrderedMap.assign key v object

/-- `object[key]` for any key. What every object inherits is a function, which has none
of the properties that are read here. -/
def YamlObject.index (object : YamlObject ν) (key : List UInt16) : Option (Json ν) :=
  (object.get? key).or
    (if (inheritedNames.map Json.unitsOfText).contains key then some (.object []) else none)

def isLowerAlnum (u : UInt16) : Bool :=
  decide (97 ≤ u.toNat ∧ u.toNat ≤ 122 ∨ 48 ≤ u.toNat ∧ u.toNat ≤ 57)

/-- `/^[a-z0-9][a-z0-9_-]{0,63}$/` -/
def isProviderId : List UInt16 → Bool
  | [] => false
  | u :: rest => isLowerAlnum u && decide (rest.length ≤ 63) &&
      rest.all fun w => isLowerAlnum w || w.toNat == 95 || w.toNat == 45

/-- `text.includes(part)` -/
def includes (text : List UInt16) (part : List ℕ) : Bool := decide (part <:+: text.map UInt16.toNat)

def isSafeModelId (modelId : List UInt16) : Bool :=
  (modelId.any fun u => !JsString.isSpace (Char.ofNat u.toNat)) &&
    (modelId.all fun u => u.toNat != 10 && u.toNat != 0) &&
    !includes modelId [36, 123] && !includes modelId [46, 46, 47]

def splitModelSelector (selector : List UInt16) :
    Except (List UInt16) (List UInt16 × List UInt16) := do
  let providerId := selector.takeWhile (·.toNat != 47)
  let modelId := (selector.dropWhile (·.toNat != 47)).tail
  check (!providerId.isEmpty && !modelId.isEmpty)
    (units "model selector must use provider/model form")
  check (isProviderId providerId) (units "provider id '" ++ providerId ++ units "' is unsafe")
  check (isSafeModelId modelId) (units "model id '" ++ modelId ++ units "' is unsafe")
  return (providerId, modelId)

/-- `/^[A-Z_][A-Z0-9_]*$/` -/
def isEnvUnits : List UInt16 → Bool
  | [] => false
  | u :: rest => decide (65 ≤ u.toNat ∧ u.toNat ≤ 90 ∨ u.toNat = 95) &&
      rest.all fun w =>
        decide (65 ≤ w.toNat ∧ w.toNat ≤ 90 ∨ w.toNat = 95 ∨ 48 ≤ w.toNat ∧ w.toNat ≤ 57)

/-- What stands between the braces of a token. -/
def tokenName (token : List UInt16) : List UInt16 := (token.drop 2).dropLast

/-- The text with the same text for each token, behind so many units that are
passed over. -/
def replaceTokens (by_ : List UInt16) : ℕ → List UInt16 → List UInt16
  | _, [] => []
  | k + 1, _ :: rest => replaceTokens by_ k rest
  | 0, u :: rest =>
      match Placeholder.tokenAt UInt16.toNat (u :: rest) with
      | some t => by_ ++ replaceTokens by_ (t.length - 1) rest
      | none => u :: replaceTokens by_ 0 rest

/-- The names in a text, each once. -/
def placeholderNames (value label : List UInt16) : Except (List UInt16) (List (List UInt16)) := do
  let names := (Placeholder.tokens UInt16.toNat value).map tokenName
  check (names.all isEnvUnits && !includes (replaceTokens [] 0 value) [36, 123])
    (label ++ units ": contains a malformed environment placeholder")
  return names.dedup

/-! ### The catalog -/

section Parse

variable (F : NumberFormat ν) (isHttp : List UInt16 → Option Bool) (label : List UInt16)

end Parse

/-- `catalog.providers` -/
def providersOf (catalog : YamlObject ν) : YamlObject ν :=
  match catalog.get? (units "providers") with
  | some (.object providers) => providers
  | _ => []

/-- The models of a provider, if they are a list. -/
def modelsOf (provider : YamlObject ν) : List (Json ν) :=
  match provider.get? (units "models") with
  | some (.array models) => models
  | _ => []

/-- The model has this id. -/
def hasId (id : List UInt16) : Json ν → Bool
  | .object model =>
      match YamlObject.get? model (units "id") with
      | some (.string own) => own == id
      | _ => false
  | _ => false

/-- The provider of an id, if it is one. -/
def providerOf (catalog : YamlObject ν) (providerId : List UInt16) : Option (YamlObject ν) :=
  match (providersOf catalog).index providerId with
  | some (.object provider) => some provider
  | _ => none

def catalogHasSelector (catalog : YamlObject ν) (selector : List UInt16) :
    Except (List UInt16) Bool := do
  let (providerId, modelId) ← splitModelSelector selector
  return (providerOf catalog providerId).elim false fun provider =>
    (modelsOf provider).any (hasId modelId)

mutual

/-- `visit`: the names in the strings of a value, and what is wrong with the
first malformed one. -/
def visitPlaceholders (label : List UInt16) (path : List UInt16) :
    Json ν → Except (List UInt16) (List (List UInt16))
  | .string s => placeholderNames s (label ++ units " [" ++ path ++ units "]")
  | .array l => visitElements label path 0 l
  | .object ps => visitMembers label path ps
  | _ => .ok []

def visitElements (label path : List UInt16) (index : ℕ) :
    List (Json ν) → Except (List UInt16) (List (List UInt16))
  | [] => .ok []
  | v :: rest => do
      let first ← visitPlaceholders label (path ++ 46 :: units (toString index)) v
      return first ++ (← visitElements label path (index + 1) rest)

def visitMembers (label path : List UInt16) :
    List (List UInt16 × Json ν) → Except (List UInt16) (List (List UInt16))
  | [] => .ok []
  | (k, v) :: rest => do
      let first ← visitPlaceholders label (if path.isEmpty then k else path ++ 46 :: k) v
      return first ++ (← visitMembers label path rest)

end

/-- The options of `model add` for a provider of one's own. -/
structure ManualOptions where
  baseUrl : Option (List UInt16)
  api : Option (List UInt16)
  apiKeyEnv : Option (List UInt16)
  noAuth : Bool

/-- Where the model comes from: the options, or what was read from `omp`. -/
inductive ModelSource (ν : Type)
  | manual (options : ManualOptions)
  | omp (provider model : YamlObject ν)

structure AddModel (ν : Type) where
  selector : List UInt16
  source : ModelSource ν

/-- The text is there and not empty. -/
def given (option : Option (List UInt16)) : Bool := option.elim false fun t => !t.isEmpty

/-- The option is missing, or it is the property of the provider. -/
def agrees (provider : YamlObject ν) (key : List UInt16) (option : Option (List UInt16)) : Bool :=
  !given option ||
    match provider.get? key, option with
    | some (.string own), some t => own == t
    | _, _ => false

section Command

variable (F : NumberFormat ν) (isHttp : List UInt16 → Option Bool)
  (localeLe : List Char → List Char → Bool) (label : List UInt16)

end Command

end

end OmpBundler.Cli
