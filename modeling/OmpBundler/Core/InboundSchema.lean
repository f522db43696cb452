import OmpBundler.Core.InboundValidation
import OmpBundler.Library.JsonSchema

/-!
The validator of inbound messages beside the published schema.

The server checks the shape of a message by hand, property by property, and
the schema says the same for everything but one property: the validator lets
`parentConversationKey` pass, and the schema, which closes the object, does
not list it. `validate_agrees_iff` says that nothing else differs.
-/

namespace OmpBundler.Core

open Library JsonSchema

/-! ### The schema -/

namespace InboundSchema

/-- A string that is not empty. -/
def opaqueString : JsonSchema := allOf [type .string, minLength 1]

def speaker : JsonSchema :=
  record ["id", "displayName"] [("id", opaqueString), ("displayName", opaqueString)]

def workspaceAttachment : JsonSchema :=
  record ["path"] [("path", opaqueString), ("name", type .string), ("mediaType", type .string)]

/-- A message whose text is empty has an attachment. -/
def textOrAttachments : JsonSchema :=
  ifThen (allOf [properties [("text", const "")], required ["text"]])
    (allOf [properties [("attachments", allOf [type .array, minItems 1])], required ["attachments"]])

def message : JsonSchema :=
  allOf
    [record ["messageId", "conversationKey", "speaker", "text", "attachments", "addressed"]
      [("messageId", opaqueString), ("conversationKey", opaqueString), ("speaker", speaker),
        ("text", type .string), ("attachments", allOf [type .array, items workspaceAttachment]),
        ("addressed", type .boolean)],
      allOf [textOrAttachments]]

end InboundSchema

/-! ### The checks of one property -/

/-- A check of a value accepts the parsed values that the schema accepts. -/
def Conforms {α : Type} (check : JsValue → Option α) (schema : JsonSchema) : Prop :=
  ∀ v : JsValue, v.Json → ((check v).isSome = true ↔ schema v = true)

variable {α : Type} {check : JsValue → Option α} {schema : JsonSchema} {v : JsValue}
  {ps : List (String × JsValue)} {name : String}

theorem json_of_lookup (json : (JsValue.object ps).Json) {u : JsValue}
    (found : OrderedMap.lookup name ps = some u) : u.Json := by
  cases json with
  | object distinct properties => exact properties _ (OrderedMap.mem_of_lookup found)

/-- A property that has to be there. -/
theorem Conforms.required (conforms : Conforms check schema) (json : (JsValue.object ps).Json)
    (undefined : check .undefined = none) : (check (property ps name)).isSome = true ↔
      (∃ u, OrderedMap.lookup name ps = some u) ∧
        ∀ u, OrderedMap.lookup name ps = some u → schema u = true := by
  rw [property]
  cases found : OrderedMap.lookup name ps with
  | none => simp [undefined]
  | some u =>
      rw [Option.getD_some, conforms u (json_of_lookup json found)]
      simp

/-- A property that may be left out. -/
theorem Conforms.optional (conforms : Conforms check schema) (json : (JsValue.object ps).Json)
    (undefined : (check .undefined).isSome = true) : (check (property ps name)).isSome = true ↔
      ∀ u, OrderedMap.lookup name ps = some u → schema u = true := by
  rw [property]
  cases found : OrderedMap.lookup name ps with
  | none => simp [undefined]
  | some u =>
      rw [Option.getD_some, conforms u (json_of_lookup json found)]
      simp

theorem conforms_nonEmptyString : Conforms nonEmptyString InboundSchema.opaqueString := by
  intro v json
  cases v with
  | string s =>
      have positive : 1 ≤ s.length ↔ s ≠ "" := by
        rw [Nat.one_le_iff_ne_zero, ne_eq, String.length_eq_zero_iff]
      by_cases empty : s = "" <;>
        simp [nonEmptyString, InboundSchema.opaqueString, type, minLength, positive, empty]
  | _ => simp [nonEmptyString, InboundSchema.opaqueString, type]

theorem conforms_optionalString : Conforms optionalString (type .string) := by
  intro v json
  cases json <;> simp [optionalString, type]

theorem conforms_validateSpeaker : Conforms validateSpeaker InboundSchema.speaker := by
  intro v json
  cases v with
  | object speaker =>
      have checks : (validateSpeaker (.object speaker)).isSome = true ↔
          hasOnlyProperties speaker ["id", "displayName"] = true ∧
          (nonEmptyString (property speaker "id")).isSome = true ∧
          (nonEmptyString (property speaker "displayName")).isSome = true := by
        simp only [validateSpeaker]
        cases hasOnlyProperties speaker ["id", "displayName"] <;>
          cases nonEmptyString (property speaker "id") <;>
          cases nonEmptyString (property speaker "displayName") <;> simp
      rw [checks, conforms_nonEmptyString.required json rfl,
        conforms_nonEmptyString.required json rfl, InboundSchema.speaker, record_iff]
      simp [hasOnlyProperties]
      tauto
  | _ => simp [validateSpeaker, InboundSchema.speaker, record, type]

theorem conforms_validateAttachment :
    Conforms validateAttachment InboundSchema.workspaceAttachment := by
  intro v json
  cases v with
  | object attachment =>
      have checks : (validateAttachment (.object attachment)).isSome = true ↔
          hasOnlyProperties attachment ["path", "name", "mediaType"] = true ∧
          (nonEmptyString (property attachment "path")).isSome = true ∧
          (optionalString (property attachment "name")).isSome = true ∧
          (optionalString (property attachment "mediaType")).isSome = true := by
        simp only [validateAttachment]
        cases hasOnlyProperties attachment ["path", "name", "mediaType"] <;>
          cases nonEmptyString (property attachment "path") <;>
          cases optionalString (property attachment "name") <;>
          cases optionalString (property attachment "mediaType") <;> simp
      rw [checks, conforms_nonEmptyString.required json rfl,
        conforms_optionalString.optional json rfl, conforms_optionalString.optional json rfl,
        InboundSchema.workspaceAttachment, record_iff]
      simp [hasOnlyProperties]
      tauto
  | _ => simp [validateAttachment, InboundSchema.workspaceAttachment, record, type]

/-- A list passes an optional check element by element. -/
theorem mapM_isSome {β : Type} {f : α → Option β} {l : List α} :
    (l.mapM f).isSome = true ↔ ∀ a ∈ l, (f a).isSome = true := by
  induction l with
  | nil => simp
  | cons a rest ih =>
      rw [List.forall_mem_cons, ← ih, List.mapM_cons]
      cases f a <;> cases rest.mapM f <;> simp

/-- The list that an optional check gives is as long as the one checked. -/
theorem mapM_eq_nil {β : Type} {f : α → Option β} {l : List α} {bs : List β}
    (passed : l.mapM f = some bs) : bs = [] ↔ l = [] := by
  cases l with
  | nil => simp_all
  | cons a rest =>
      simp only [List.mapM_cons, Option.bind_eq_bind, Option.bind_eq_some_iff] at passed
      obtain ⟨b, -, bs', -, same⟩ := passed
      obtain rfl := Option.some.inj same
      simp

theorem conforms_validateAttachments :
    Conforms validateAttachments (allOf [type .array, items InboundSchema.workspaceAttachment]) := by
  intro v json
  cases json with
  | @array l elements =>
      rw [validateAttachments, mapM_isSome]
      simp only [allOf_cons, allOf_nil, type, items, List.all_eq_true, true_and, and_true]
      exact forall_congr' fun u => forall_congr' fun mem =>
        conforms_validateAttachment u (elements u mem)
  | _ => simp [validateAttachments, type]

/-! ### The message -/

/-- What the validator asks of an object. -/
theorem validateInboundMessage_isSome :
    (validateInboundMessage (.object ps)).isSome = true ↔
      hasOnlyProperties ps messageProperties = true ∧
      (optionalNonEmptyString (property ps "parentConversationKey")).isSome = true ∧
      (nonEmptyString (property ps "messageId")).isSome = true ∧
      (nonEmptyString (property ps "conversationKey")).isSome = true ∧
      (validateSpeaker (property ps "speaker")).isSome = true ∧
      (∃ text, property ps "text" = .string text) ∧
      (validateAttachments (property ps "attachments")).isSome = true ∧
      (property ps "text" = .string "" → property ps "attachments" ≠ .array []) ∧
      ∃ addressed, property ps "addressed" = .bool addressed := by
  have none (attachments : List WorkspaceAttachment)
      (valid : validateAttachments (property ps "attachments") = some attachments) :
      attachments = [] ↔ property ps "attachments" = .array [] := by
    cases given : property ps "attachments" with
    | array l =>
        rw [given] at valid
        rw [mapM_eq_nil valid, JsValue.array.injEq]
    | _ => simp [given, validateAttachments] at valid
  simp only [validateInboundMessage]
  cases hasOnlyProperties ps messageProperties with
  | false => simp
  | true =>
      cases optionalNonEmptyString (property ps "parentConversationKey") <;>
        cases nonEmptyString (property ps "messageId") <;>
        cases nonEmptyString (property ps "conversationKey") <;>
        cases validateSpeaker (property ps "speaker") <;> try simp
      cases property ps "text" with
      | string text =>
          cases valid : validateAttachments (property ps "attachments") with
          | none => simp
          | some attachments =>
              simp only [Option.bind_some]
              by_cases empty : text = "" ∧ property ps "attachments" = .array []
              · rw [if_pos ⟨empty.1, (none attachments valid).mpr empty.2⟩]
                simp [empty]
              · rw [if_neg fun both => empty ⟨both.1, (none attachments valid).mp both.2⟩]
                cases property ps "addressed" with
                | bool addressed => simpa using empty
                | _ => simp
      | _ => simp

theorem property_eq_iff {u : JsValue} (defined : u ≠ .undefined) :
    property ps name = u ↔ OrderedMap.lookup name ps = some u := by
  rw [property]
  cases OrderedMap.lookup name ps with
  | none => simpa using Ne.symm defined
  | some w => simp

theorem textOrAttachments_iff : InboundSchema.textOrAttachments (.object ps) = true ↔
    (OrderedMap.lookup "text" ps = some (.string "") →
      ∃ l, OrderedMap.lookup "attachments" ps = some (.array l) ∧ l ≠ []) := by
  have empty (u : JsValue) : const "" u = true ↔ u = .string "" := by
    cases u <;> simp [const]
  have filled (u : JsValue) :
      allOf [type .array, minItems 1] u = true ↔ ∃ l, u = .array l ∧ l ≠ [] := by
    cases u <;> simp [type, minItems, Nat.one_le_iff_ne_zero]
  rw [InboundSchema.textOrAttachments, ifThen, Bool.or_eq_true, Bool.not_eq_true',
    ← Bool.not_eq_true, present_iff, present_iff, imp_iff_not_or]
  simp only [empty, filled]
  simp

/-- A message that names no parent is accepted by both or by neither. -/
theorem validate_conforms (json : (JsValue.object ps).Json)
    (absent : OrderedMap.lookup "parentConversationKey" ps = none) :
    (validateInboundMessage (.object ps)).isSome = true ↔
      InboundSchema.message (.object ps) = true := by
  have parent : (optionalNonEmptyString (property ps "parentConversationKey")).isSome = true := by
    rw [property, absent]
    rfl
  have closed : hasOnlyProperties ps messageProperties = true ↔ ∀ p ∈ ps,
      p.1 ∈ ["messageId", "conversationKey", "speaker", "text", "attachments", "addressed"] := by
    rw [hasOnlyProperties, List.all_eq_true]
    refine forall_congr' fun p => forall_congr' fun mem => ?_
    have other : p.1 ≠ "parentConversationKey" := fun same =>
      OrderedMap.lookup_eq_none.mp absent (same ▸ List.mem_map_of_mem mem)
    simp [messageProperties, other]
  rw [validateInboundMessage_isSome, closed, conforms_nonEmptyString.required json rfl,
    conforms_nonEmptyString.required json rfl, conforms_validateSpeaker.required json rfl,
    conforms_validateAttachments.required json rfl, InboundSchema.message, allOf_cons, allOf_cons,
    allOf_cons, textOrAttachments_iff, record_iff]
  have text : (∃ text, property ps "text" = .string text) ↔
      (∃ u, OrderedMap.lookup "text" ps = some u) ∧
        ∀ u, OrderedMap.lookup "text" ps = some u → type .string u = true := by
    rw [property]
    cases OrderedMap.lookup "text" ps with
    | none => simp
    | some u => cases u <;> simp [type]
  have addressed : (∃ addressed, property ps "addressed" = .bool addressed) ↔
      (∃ u, OrderedMap.lookup "addressed" ps = some u) ∧
        ∀ u, OrderedMap.lookup "addressed" ps = some u → type .boolean u = true := by
    rw [property]
    cases OrderedMap.lookup "addressed" ps with
    | none => simp
    | some u => cases u <;> simp [type]
  have attached (list : ∀ u, OrderedMap.lookup "attachments" ps = some u →
      allOf [type .array, items InboundSchema.workspaceAttachment] u = true)
      (given : ∃ u, OrderedMap.lookup "attachments" ps = some u) :
      property ps "attachments" ≠ .array [] ↔
        ∃ l, OrderedMap.lookup "attachments" ps = some (.array l) ∧ l ≠ [] := by
    obtain ⟨u, found⟩ := given
    obtain ⟨l, rfl⟩ := type_array_iff.mp ((allOf_cons ..).mp (list u found)).1
    simp [property, found]
  rw [text, addressed, property_eq_iff (by simp)]
  simp only [JsValue.object.injEq, exists_eq_left', List.forall_mem_cons, List.map_cons, List.map_nil,
    List.not_mem_nil, false_imp_iff, implies_true, and_true, allOf_nil, parent, true_and]
  constructor
  · rintro ⟨closed, ⟨m, m'⟩, ⟨c, c'⟩, ⟨s, s'⟩, ⟨t, t'⟩, ⟨a, a'⟩, attachment, b, b'⟩
    exact ⟨⟨closed, ⟨m, c, s, t, a, b⟩, m', c', s', t', a', b'⟩,
      fun empty => (attached a' a).mp (attachment empty)⟩
  · rintro ⟨⟨closed, ⟨m, c, s, t, a, b⟩, m', c', s', t', a', b'⟩, attachment⟩
    exact ⟨closed, ⟨m, m'⟩, ⟨c, c'⟩, ⟨s, s'⟩, ⟨t, t'⟩, ⟨a, a'⟩,
      fun empty => (attached a' a).mpr (attachment empty), b, b'⟩

/-- The parent is looked at by itself. -/
theorem validate_parent (json : (JsValue.object ps).Json) {u : JsValue}
    (found : OrderedMap.lookup "parentConversationKey" ps = some u) :
    (validateInboundMessage (.object ps)).isSome = true ↔
      (∃ key, u = .string key ∧ key ≠ "") ∧ (validateInboundMessage
        (.object (OrderedMap.remove "parentConversationKey" ps))).isSome = true := by
  obtain ⟨distinct, -⟩ : (ps.map Prod.fst).Nodup ∧ ∀ p ∈ ps, p.2.Json := by
    cases json with
    | object distinct properties => exact ⟨distinct, properties⟩
  have defined : u ≠ .undefined := fun same =>
    JsValue.Json.not_undefined (same ▸ json_of_lookup json found)
  have same (name : String) (other : "parentConversationKey" ≠ name) :
      property (OrderedMap.remove "parentConversationKey" ps) name = property ps name := by
    rw [property, property, OrderedMap.lookup_remove distinct, if_neg other]
  have gone : property (OrderedMap.remove "parentConversationKey" ps) "parentConversationKey" =
      .undefined := by
    rw [property, OrderedMap.lookup_remove distinct, if_pos rfl]
    rfl
  have parent : (optionalNonEmptyString (property ps "parentConversationKey")).isSome = true ↔
      ∃ key, u = .string key ∧ key ≠ "" := by
    rw [property, found, Option.getD_some]
    cases u with
    | undefined => exact absurd rfl defined
    | string key => by_cases empty : key = "" <;> simp [optionalNonEmptyString, nonEmptyString, empty]
    | _ => simp [optionalNonEmptyString, nonEmptyString]
  have only : hasOnlyProperties ps messageProperties = true ↔
      hasOnlyProperties (OrderedMap.remove "parentConversationKey" ps) messageProperties = true := by
    simp only [hasOnlyProperties, List.all_eq_true]
    constructor
    · exact fun all p mem => all p ((OrderedMap.remove_sublist _ _).subset mem)
    · intro all p mem
      by_cases own : "parentConversationKey" = p.1
      · simp [← own, messageProperties]
      · refine all p (OrderedMap.mem_of_lookup (k := p.1) (v := p.2) ?_)
        rw [OrderedMap.lookup_remove distinct, if_neg own]
        exact OrderedMap.lookup_of_mem distinct mem
  rw [validateInboundMessage_isSome, validateInboundMessage_isSome, gone, parent, only,
    same _ (by decide), same _ (by decide), same _ (by decide), same _ (by decide),
    same _ (by decide), same _ (by decide)]
  simp only [show (optionalNonEmptyString .undefined).isSome = true from rfl, true_and]
  exact and_left_comm

/-- The schema lists no parent. -/
theorem schema_refuses_parent {u : JsValue}
    (found : OrderedMap.lookup "parentConversationKey" ps = some u) :
    InboundSchema.message (.object ps) = false := by
  rw [← Bool.not_eq_true]
  intro accepted
  rw [InboundSchema.message, allOf_cons, record_iff] at accepted
  obtain ⟨⟨_, same, closed, -⟩, -⟩ := accepted
  obtain rfl := JsValue.object.inj same
  have listed := closed _ (OrderedMap.mem_of_lookup found)
  simp at listed

/-- Validator and schema agree on a parsed body, unless it names a parent
and is a message without it. -/
theorem validate_agrees_iff (v : JsValue) (json : v.Json) :
    ((validateInboundMessage v).isSome = true ↔ InboundSchema.message v = true) ↔
      ∀ ps key, v = .object ps → property ps "parentConversationKey" = .string key → key ≠ "" →
        InboundSchema.message (.object (OrderedMap.remove "parentConversationKey" ps)) = false := by
  cases v with
  | object ps =>
      cases found : OrderedMap.lookup "parentConversationKey" ps with
      | none =>
          refine iff_of_true (validate_conforms json found) fun ps' key same named => ?_
          obtain rfl := JsValue.object.inj same
          simp [property, found] at named
      | some u =>
          have removed : (JsValue.object (OrderedMap.remove "parentConversationKey" ps)).Json := by
            cases json with
            | object distinct properties =>
                exact .object (OrderedMap.nodup_remove distinct) fun p mem =>
                  properties p ((OrderedMap.remove_sublist _ _).subset mem)
          have gone : OrderedMap.lookup "parentConversationKey"
              (OrderedMap.remove "parentConversationKey" ps) = none := by
            cases json with
            | object distinct _ => rw [OrderedMap.lookup_remove distinct, if_pos rfl]
          rw [validate_parent json found, validate_conforms removed gone,
            schema_refuses_parent found]
          constructor
          · intro agree ps' key same named filled
            obtain rfl := JsValue.object.inj same
            rw [property, found, Option.getD_some] at named
            rw [← Bool.not_eq_true]
            exact fun accepted => Bool.noConfusion (agree.mp ⟨⟨key, named, filled⟩, accepted⟩)
          · intro refused
            refine iff_of_false ?_ Bool.false_ne_true
            rintro ⟨⟨key, rfl, filled⟩, accepted⟩
            have := refused ps key rfl (by rw [property, found]; rfl) filled
            exact Bool.false_ne_true (this.symm.trans accepted)
  | _ => simp [validateInboundMessage, InboundSchema.message, record, type]

/-- A message of a thread. -/
def threadMessage : List (String × JsValue) :=
  [("messageId", .string "m1"), ("conversationKey", .string "c2"),
    ("parentConversationKey", .string "c1"),
    ("speaker", .object [("id", .string "u1"), ("displayName", .string "Ada")]),
    ("text", .string "hello"), ("attachments", .array []), ("addressed", .bool true)]

theorem threadMessage_json : (JsValue.object threadMessage).Json := by
  have speaker :
      (JsValue.object [("id", .string "u1"), ("displayName", .string "Ada")]).Json :=
    .object (by decide) (by
      simp only [List.forall_mem_cons, List.not_mem_nil, false_imp_iff, implies_true, and_true]
      exact ⟨.string _, .string _⟩)
  refine .object (by decide) ?_
  simp only [threadMessage, List.forall_mem_cons, List.not_mem_nil, false_imp_iff, implies_true,
    and_true]
  exact ⟨.string _, .string _, .string _, speaker, .string _, .array (by simp), .bool _⟩

/-- It is accepted, and the schema refuses it. -/
theorem schema_refuses_threadMessage :
    ¬ ∀ v : JsValue, v.Json →
      ((validateInboundMessage v).isSome = true ↔ InboundSchema.message v = true) := by
  intro agree
  have accepted := (agree _ threadMessage_json).mp (by decide)
  exact absurd accepted (by decide)

theorem validate_agrees_iff_threadMessage :
    ((validateInboundMessage (.object threadMessage)).isSome = true ↔
      InboundSchema.message (.object threadMessage) = true) ↔
      ∀ ps key, JsValue.object threadMessage = .object ps →
        property ps "parentConversationKey" = .string key → key ≠ "" →
        InboundSchema.message (.object (OrderedMap.remove "parentConversationKey" ps)) = false :=
  validate_agrees_iff _ threadMessage_json

end OmpBundler.Core
