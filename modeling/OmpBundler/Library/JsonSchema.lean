import OmpBundler.Library.JsonText
import OmpBundler.Library.OrderedMap

/-!
Validation of parsed JSON against a schema.

A schema is a list of keywords, and a keyword is the values it lets through.
A keyword that is about values of one type lets every value of another type
through, so that `required` alone says nothing about a string. Most objects
are described by the same four keywords, which `record` puts together; what
it accepts is said by `record_iff`, property by property.
-/

namespace Library

open JsValue

/-- A parsed JSON text: nothing is undefined and no name occurs twice. -/
inductive JsValue.Json : JsValue → Prop
  | null : Json .null
  | bool (b : Bool) : Json (.bool b)
  | number (q : ℚ) : Json (.number q)
  | string (s : String) : Json (.string s)
  | array {l : List JsValue} (elements : ∀ v ∈ l, Json v) : Json (.array l)
  | object {ps : List (String × JsValue)} (distinct : (ps.map Prod.fst).Nodup)
      (properties : ∀ p ∈ ps, Json p.2) : Json (.object ps)

theorem JsValue.Json.not_undefined : ¬ JsValue.undefined.Json := nofun

/-- The values that a keyword, or all of them together, let through. -/
abbrev JsonSchema := JsValue → Bool

namespace JsonSchema

/-- The types that `type` tells apart. -/
inductive JsonType where
  | string
  | number
  | integer
  | boolean
  | array
  | object

def type : JsonType → JsonSchema
  | .string, .string _ => true
  | .number, .number _ => true
  | .integer, .number q => q.isInt
  | .boolean, .bool _ => true
  | .array, .array _ => true
  | .object, .object _ => true
  | _, _ => false

/-- A constant string. -/
def const (text : String) : JsonSchema
  | .string s => s = text
  | _ => false

/-- One of some constant strings. -/
def enum (texts : List String) : JsonSchema
  | .string s => s ∈ texts
  | _ => false

def minLength (n : ℕ) : JsonSchema
  | .string s => n ≤ s.length
  | _ => true

def minimum (bound : ℚ) : JsonSchema
  | .number q => bound ≤ q
  | _ => true

def minItems (n : ℕ) : JsonSchema
  | .array l => n ≤ l.length
  | _ => true

def items (element : JsonSchema) : JsonSchema
  | .array l => l.all element
  | _ => true

def required (names : List String) : JsonSchema
  | .object ps => names.all fun name => (OrderedMap.lookup name ps).isSome
  | _ => true

def properties (fields : List (String × JsonSchema)) : JsonSchema
  | .object ps => fields.all fun field =>
      match OrderedMap.lookup field.1 ps with
      | some v => field.2 v
      | none => true
  | _ => true

/-- `additionalProperties: false` beside these `properties`. -/
def noAdditionalProperties (fields : List (String × JsonSchema)) : JsonSchema
  | .object ps => ps.all fun p => p.1 ∈ fields.map Prod.fst
  | _ => true

/-- A list of keywords; also `allOf`. -/
def allOf (keywords : List JsonSchema) : JsonSchema := fun v => keywords.all fun k => k v

def oneOf (alternatives : List JsonSchema) : JsonSchema := fun v =>
  alternatives.countP (fun k => k v) = 1

/-- `if` and `then`. -/
def ifThen (condition consequence : JsonSchema) : JsonSchema := fun v =>
  !condition v || consequence v

/-- An object with these properties and no others. -/
def record (names : List String) (fields : List (String × JsonSchema)) : JsonSchema :=
  allOf [type .object, noAdditionalProperties fields, required names, properties fields]

variable {v : JsValue}

@[simp] theorem allOf_nil : allOf [] v = true := rfl

@[simp] theorem allOf_cons (k : JsonSchema) (keywords : List JsonSchema) :
    allOf (k :: keywords) v = true ↔ k v = true ∧ allOf keywords v = true := by
  simp [allOf]

theorem type_string_iff : type .string v = true ↔ ∃ s, v = .string s := by
  cases v <;> simp [type]

theorem type_boolean_iff : type .boolean v = true ↔ ∃ b, v = .bool b := by
  cases v <;> simp [type]

theorem type_array_iff : type .array v = true ↔ ∃ l, v = .array l := by
  cases v <;> simp [type]

theorem required_iff {names : List String} {ps : List (String × JsValue)} :
    required names (.object ps) = true ↔ ∀ name ∈ names, ∃ v, OrderedMap.lookup name ps = some v := by
  simp [required, Option.isSome_iff_exists]

theorem properties_iff {fields : List (String × JsonSchema)} {ps : List (String × JsValue)} :
    properties fields (.object ps) = true ↔
      ∀ field ∈ fields, ∀ v, OrderedMap.lookup field.1 ps = some v → field.2 v = true := by
  rw [properties, List.all_eq_true]
  refine forall_congr' fun field => forall_congr' fun _ => ?_
  cases OrderedMap.lookup field.1 ps <;> simp

theorem noAdditionalProperties_iff {fields : List (String × JsonSchema)}
    {ps : List (String × JsValue)} :
    noAdditionalProperties fields (.object ps) = true ↔ ∀ p ∈ ps, p.1 ∈ fields.map Prod.fst := by
  simp only [noAdditionalProperties, List.all_eq_true, decide_eq_true_eq]

/-- A property that is there and passes. -/
theorem present_iff {name : String} {schema : JsonSchema} {ps : List (String × JsValue)} :
    allOf [properties [(name, schema)], required [name]] (.object ps) = true ↔
      ∃ u, OrderedMap.lookup name ps = some u ∧ schema u = true := by
  rw [allOf_cons, allOf_cons, properties_iff, required_iff]
  simp only [List.forall_mem_cons, List.not_mem_nil, false_imp_iff, implies_true, and_true,
    allOf_nil]
  constructor
  · rintro ⟨passes, u, found⟩
    exact ⟨u, found, passes u found⟩
  · rintro ⟨u, found, passes⟩
    refine ⟨fun w found' => ?_, u, found⟩
    rwa [← Option.some.inj (found.symm.trans found')]

/-- What a record asks of an object. -/
theorem record_iff {names : List String} {fields : List (String × JsonSchema)} :
    record names fields v = true ↔ ∃ ps, v = .object ps ∧
      (∀ p ∈ ps, p.1 ∈ fields.map Prod.fst) ∧
      (∀ name ∈ names, ∃ u, OrderedMap.lookup name ps = some u) ∧
      ∀ field ∈ fields, ∀ u, OrderedMap.lookup field.1 ps = some u → field.2 u = true := by
  cases v with
  | object ps =>
      rw [record, allOf_cons, allOf_cons, allOf_cons, allOf_cons, noAdditionalProperties_iff,
        required_iff, properties_iff]
      simp [type]
  | _ => simp [record, allOf, type]

end JsonSchema

end Library
