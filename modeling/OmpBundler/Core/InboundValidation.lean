import OmpBundler.Contracts
import OmpBundler.Library.JsonText
import OmpBundler.Library.OrderedMap

/-!
The shape of inbound messages.

The server parses the body of a request and passes the parsed object on if
it has the shape of a message. The object is what is hashed later; what the
rest of the core reads of it is an `InboundMessage`.
-/

namespace OmpBundler.Core

open Library

/-- The value of a property; undefined if there is none. -/
def property (properties : List (String × JsValue)) (name : String) : JsValue :=
  (OrderedMap.lookup name properties).getD .undefined

def hasOnlyProperties (properties : List (String × JsValue)) (allowed : List String) : Bool :=
  properties.all fun p => p.1 ∈ allowed

/-- The text of a non-empty string. -/
def nonEmptyString : JsValue → Option String
  | .string text => if text = "" then none else some text
  | _ => none

/-- The text of a string that may be absent. -/
def optionalString : JsValue → Option (Option String)
  | .undefined => some none
  | .string text => some (some text)
  | _ => none

/-- The text of a non-empty string that may be absent. -/
def optionalNonEmptyString : JsValue → Option (Option String)
  | .undefined => some none
  | value => (nonEmptyString value).map some

def validateSpeaker : JsValue → Option Speaker
  | .object speaker =>
      if hasOnlyProperties speaker ["id", "displayName"] then do
        let id ← nonEmptyString (property speaker "id")
        let displayName ← nonEmptyString (property speaker "displayName")
        some ⟨id, displayName⟩
      else none
  | _ => none

def validateAttachment : JsValue → Option WorkspaceAttachment
  | .object attachment =>
      if hasOnlyProperties attachment ["path", "name", "mediaType"] then do
        let path ← nonEmptyString (property attachment "path")
        let name ← optionalString (property attachment "name")
        let mediaType ← optionalString (property attachment "mediaType")
        some ⟨path, name, mediaType⟩
      else none
  | _ => none

def validateAttachments : JsValue → Option (List WorkspaceAttachment)
  | .array attachments => attachments.mapM validateAttachment
  | _ => none

/-- The properties of a message. -/
def messageProperties : List String :=
  ["messageId", "conversationKey", "parentConversationKey", "speaker", "text", "attachments",
    "addressed"]

/-- Validate a parsed body against the shape of a message. -/
def validateInboundMessage : JsValue → Option InboundMessage
  | .object message =>
      if hasOnlyProperties message messageProperties then do
        let parentConversationKey ←
          optionalNonEmptyString (property message "parentConversationKey")
        let messageId ← nonEmptyString (property message "messageId")
        let conversationKey ← nonEmptyString (property message "conversationKey")
        let speaker ← validateSpeaker (property message "speaker")
        let .string text := property message "text" | none
        let attachments ← validateAttachments (property message "attachments")
        if text = "" ∧ attachments = [] then none
        else
          let .bool addressed := property message "addressed" | none
          some ⟨messageId, conversationKey, parentConversationKey, speaker, text, attachments,
            addressed⟩
      else none
  | _ => none

/-- A parsed body that has the shape of a message. -/
structure ValidatedMessage where
  value : JsValue
  message : InboundMessage
  wellFormed : value.WellFormed
  valid : validateInboundMessage value = some message

/-! ### Validated messages are plain -/

theorem plain_of_nonEmptyString {v : JsValue} {s : String} (valid : nonEmptyString v = some s) :
    v.Plain := by
  cases v with
  | string text => exact .string text
  | _ => simp [nonEmptyString] at valid

theorem plain_of_optionalString {v : JsValue} {s : Option String}
    (valid : optionalString v = some s) : v ≠ .undefined → v.Plain := by
  intro defined
  cases v with
  | string text => exact .string text
  | undefined => exact absurd rfl defined
  | _ => simp [optionalString] at valid

theorem plain_of_optionalNonEmptyString {v : JsValue} {s : Option String}
    (valid : optionalNonEmptyString v = some s) : v ≠ .undefined → v.Plain := by
  intro defined
  cases v with
  | string text => exact .string text
  | undefined => exact absurd rfl defined
  | _ => simp [optionalNonEmptyString, nonEmptyString] at valid

/-- An object with known properties is plain if these are. -/
theorem plain_object {ps : List (String × JsValue)} {allowed : List String}
    (wellFormed : (JsValue.object ps).WellFormed) (only : hasOnlyProperties ps allowed = true)
    (plain : ∀ name ∈ allowed, property ps name ≠ .undefined → (property ps name).Plain) :
    (JsValue.object ps).Plain := by
  cases wellFormed with
  | object distinct properties =>
      refine .object distinct fun p mem defined => ?_
      have known : p.1 ∈ allowed := by simpa using List.all_eq_true.mp only p mem
      have value : property ps p.1 = p.2 := by
        rw [property, OrderedMap.lookup_of_mem distinct mem, Option.getD_some]
      exact value ▸ plain p.1 known (value ▸ defined)

theorem wellFormed_property {ps : List (String × JsValue)}
    (wellFormed : (JsValue.object ps).WellFormed) (name : String) :
    (property ps name).WellFormed := by
  cases wellFormed with
  | object distinct properties =>
      cases found : OrderedMap.lookup name ps with
      | none =>
          rw [property, found]
          exact .undefined
      | some v =>
          rw [property, found]
          exact properties _ (OrderedMap.mem_of_lookup found)

theorem plain_of_validateSpeaker {v : JsValue} {speaker : Speaker} (wellFormed : v.WellFormed)
    (valid : validateSpeaker v = some speaker) : v.Plain := by
  cases v with
  | object ps =>
      simp only [validateSpeaker, Option.ite_none_right_eq_some, Option.bind_eq_bind,
        Option.bind_eq_some_iff] at valid
      obtain ⟨only, id, validId, displayName, validName, -⟩ := valid
      refine plain_object wellFormed only fun name mem _ => ?_
      simp only [List.mem_cons, List.not_mem_nil, or_false] at mem
      rcases mem with rfl | rfl
      · exact plain_of_nonEmptyString validId
      · exact plain_of_nonEmptyString validName
  | _ => simp [validateSpeaker] at valid

theorem plain_of_validateAttachment {v : JsValue} {attachment : WorkspaceAttachment}
    (wellFormed : v.WellFormed) (valid : validateAttachment v = some attachment) : v.Plain := by
  cases v with
  | object ps =>
      simp only [validateAttachment, Option.ite_none_right_eq_some, Option.bind_eq_bind,
        Option.bind_eq_some_iff] at valid
      obtain ⟨only, path, validPath, name, validName, mediaType, validType, -⟩ := valid
      refine plain_object wellFormed only fun name mem defined => ?_
      simp only [List.mem_cons, List.not_mem_nil, or_false] at mem
      rcases mem with rfl | rfl | rfl
      · exact plain_of_nonEmptyString validPath
      · exact plain_of_optionalString validName defined
      · exact plain_of_optionalString validType defined
  | _ => simp [validateAttachment] at valid

/-- Every attachment of a valid list is valid. -/
theorem validateAttachment_of_mem {l : List JsValue} : ∀ {attachments : List WorkspaceAttachment},
    l.mapM validateAttachment = some attachments →
      ∀ v ∈ l, ∃ attachment, validateAttachment v = some attachment := by
  induction l with
  | nil => simp
  | cons u rest ih =>
      intro attachments valid
      simp only [List.mapM_cons, Option.bind_eq_bind, Option.bind_eq_some_iff] at valid
      obtain ⟨attachment, here, later, valid, -⟩ := valid
      exact List.forall_mem_cons.mpr ⟨⟨attachment, here⟩, ih valid⟩

theorem plain_of_validateAttachments {v : JsValue} {attachments : List WorkspaceAttachment}
    (wellFormed : v.WellFormed) (valid : validateAttachments v = some attachments) : v.Plain := by
  cases v with
  | array l =>
      cases wellFormed with
      | array elements =>
      refine .array fun v mem => ?_
      obtain ⟨attachment, valid⟩ := validateAttachment_of_mem valid v mem
      exact plain_of_validateAttachment (elements v mem) valid
  | _ => simp [validateAttachments] at valid

/-- What the checks of a validated message have found. -/
theorem validateInboundMessage_eq_some {v : JsValue} {m : InboundMessage}
    (valid : validateInboundMessage v = some m) :
    ∃ ps, v = .object ps ∧ hasOnlyProperties ps messageProperties = true ∧
      nonEmptyString (property ps "messageId") = some m.messageId ∧
      nonEmptyString (property ps "conversationKey") = some m.conversationKey ∧
      optionalNonEmptyString (property ps "parentConversationKey") =
        some m.parentConversationKey ∧
      validateSpeaker (property ps "speaker") = some m.speaker ∧
      property ps "text" = .string m.text ∧
      validateAttachments (property ps "attachments") = some m.attachments ∧
      property ps "addressed" = .bool m.addressed := by
  cases v with
  | object ps =>
      simp only [validateInboundMessage, Option.ite_none_right_eq_some, Option.bind_eq_bind,
        Option.bind_eq_some_iff] at valid
      obtain ⟨only, parent, validParent, messageId, validId, conversationKey, validKey, speaker,
        validSpeaker, valid⟩ := valid
      split at valid
      case h_2 => simp at valid
      case h_1 text textual =>
      obtain ⟨attachments, validAttachments, valid⟩ := Option.bind_eq_some_iff.mp valid
      split at valid
      case isTrue => simp at valid
      case isFalse =>
      split at valid
      case h_2 => simp at valid
      case h_1 addressed flagged =>
      obtain rfl := Option.some.inj valid
      exact ⟨ps, rfl, only, validId, validKey, validParent, validSpeaker, textual,
        validAttachments, flagged⟩
  | _ => simp [validateInboundMessage] at valid

theorem ValidatedMessage.plain (m : ValidatedMessage) : m.value.Plain := by
  obtain ⟨value, message, wellFormed, valid⟩ := m
  obtain ⟨ps, rfl, only, validId, validKey, validParent, validSpeaker, textual, validAttachments,
    flagged⟩ := validateInboundMessage_eq_some valid
  refine plain_object wellFormed only fun name mem defined => ?_
  simp only [messageProperties, List.mem_cons, List.not_mem_nil, or_false] at mem
  rcases mem with rfl | rfl | rfl | rfl | rfl | rfl | rfl
  · exact plain_of_nonEmptyString validId
  · exact plain_of_nonEmptyString validKey
  · exact plain_of_optionalNonEmptyString validParent defined
  · exact plain_of_validateSpeaker (wellFormed_property wellFormed _) validSpeaker
  · exact textual ▸ .string message.text
  · exact plain_of_validateAttachments (wellFormed_property wellFormed _) validAttachments
  · exact flagged ▸ .bool message.addressed

theorem ValidatedMessage.messageId_ne (m : ValidatedMessage) : m.message.messageId ≠ "" := by
  obtain ⟨ps, -, -, validId, -⟩ := validateInboundMessage_eq_some m.valid
  intro empty
  cases id : property ps "messageId" <;> simp_all [nonEmptyString]

end OmpBundler.Core
