import OmpBundler.Contracts
import OmpBundler.Library.Proc

/-!
What the Pumble adapter calls, and what those calls answer.

The adapter calls the Pumble API, the conversation resolver, the attachment
sender, the clock, the settings and the file system. Every one of them
answers with a `Reply`: either the call rejects with an error, or it resolves
and the caller reads the field it is about. A Pumble call or a sender call
that resolves leaves an `Effect`, tagged with the event being rendered.
-/

namespace OmpBundler.Pumble

open Library

/-- Conversation target resolved for a correlation. -/
structure ResolvedTarget where
  appKey : String
  botToken : String
  channelId : String
  triggerMessageId : String
  threadRootId : Option String
  /-- True when this conversation is a direct message. -/
  direct : Option Bool
  deriving DecidableEq, Repr

/-- The settings that decide whether an interim message is shown. -/
structure AdapterSettings where
  streamInDirectMessages : Bool
  streamInChannels : Bool
  deriving DecidableEq, Repr

/-- `SETTING_DEFAULTS`. -/
def settingDefaults : AdapterSettings where
  streamInDirectMessages := true
  streamInChannels := false

/-- The string fields of a send response that may carry the message id. -/
structure SendResponse where
  id : Option String
  messageId : Option String
  /-- The same two fields of the nested `message` object, when there is one. -/
  message : Option (Option String × Option String)
  deriving DecidableEq, Repr

/-- The first candidate that is a string and not empty. -/
def firstId (candidates : List (Option String)) : Option String :=
  candidates.findSome? fun candidate => candidate.filter (· ≠ "")

/-- Extracts the id of a created message from the parsed response. -/
def messageIdOf (response : SendResponse) : Option String :=
  match firstId [response.id, response.messageId] with
  | some id => some id
  | none =>
      match response.message with
      | some (id, messageId) => firstId [id, messageId]
      | none => none

/-- The answer to one call. -/
structure Reply where
  /-- The call rejects with this error. -/
  error : Option String := none
  /-- What the resolver resolves to. -/
  target : Option ResolvedTarget := none
  /-- What Pumble answers to a sent message. -/
  response : SendResponse := ⟨none, none, none⟩
  /-- What the clock shows. -/
  now : ℕ := 0
  /-- What the settings file says. -/
  settings : AdapterSettings := settingDefaults
  deriving DecidableEq, Repr

/-- Something that has happened in Pumble. -/
inductive Effect where
  | sendMessage (target : ResolvedTarget) (text : String)
  | editMessage (target : ResolvedTarget) (messageId text : String)
  | deleteMessage (target : ResolvedTarget) (messageId : String)
  | addReaction (target : ResolvedTarget) (emoji : String)
  | removeReaction (target : ResolvedTarget) (emoji : String)
  /-- The sender was handed the attachment at this index of its reply. -/
  | sendAttachment (target : ResolvedTarget) (index : ℕ) (attachment : WorkspaceAttachment)
  deriving DecidableEq, Repr

/-- A call that may reject. -/
def attempt {σ : Type} : Proc σ Reply String Reply :=
  Proc.call >>= fun reply =>
    match reply.error with
    | some error => Proc.throw error
    | none => pure reply

theorem attempt_error {σ : Type} {reply : Reply} {text : String} (error : reply.error = some text)
    (s : σ) (rest : List Reply) :
    (attempt : Proc σ Reply String Reply) s (reply :: rest) = (.threw text, s, rest) := by
  change (match reply.error with
    | some error => Proc.throw error
    | none => pure reply : Proc σ Reply String Reply) s rest = _
  rw [error]
  rfl

theorem attempt_none {σ : Type} {reply : Reply} (error : reply.error = none)
    (s : σ) (rest : List Reply) :
    (attempt : Proc σ Reply String Reply) s (reply :: rest) = (.returned reply, s, rest) := by
  change (match reply.error with
    | some error => Proc.throw error
    | none => pure reply : Proc σ Reply String Reply) s rest = _
  rw [error]
  rfl

theorem Triple.attempt {σ : Type} {pre dead : σ → Prop} {post : Reply → σ → Prop}
    {err : String → σ → Prop} (killed : ∀ s, pre s → dead s) (rejected : ∀ e s, pre s → err e s)
    (resolved : ∀ reply s, pre s → post reply s) :
    Proc.Triple pre attempt post err dead := by
  apply Proc.Triple.bind (M := fun _ => pre) (Proc.Triple.call killed fun _ _ h => h)
  intro reply
  cases reply.error with
  | some error => exact Proc.Triple.throw (rejected error)
  | none => exact Proc.Triple.pure reply fun s h => resolved reply s h

theorem Keeps.attempt {σ : Type} {J : σ → Prop} : Proc.Keeps J attempt :=
  Triple.attempt (fun _ h => h) (fun _ _ h => h) fun _ _ h => h

end OmpBundler.Pumble
