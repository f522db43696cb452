import Mathlib.Algebra.GroupWithZero.Nat
import OmpBundler.Library.LengthPrefix

/-!
The key under which the core stores everything that belongs to one
conversation. The length prefix counts UTF-16 code units, as `length` does
on a string of the source.
-/

namespace OmpBundler.Core

open Library

/-- The width of a character, in UTF-16 code units. -/
def unitWidth (c : Char) : ℕ := if c.toNat < 0x10000 then 1 else 2

/-- The number of UTF-16 code units of a string. -/
def utf16Length (s : String) : ℕ := (s.toList.map unitWidth).sum

/-- Collision-proof key for the adapter-scoped conversation tuple. -/
def conversationStorageKey (adapterId conversationKey : String) : String :=
  toString (utf16Length adapterId) ++ ":" ++ adapterId ++ conversationKey

/-! ### The key determines the pair

The decimal length prefix has no colon in it, so the first colon of a key
ends the prefix; and of two strings that begin one and the same text, the
one with as many code units as the other is the other. -/

private theorem unitWidth_pos (c : Char) : 0 < unitWidth c := by
  unfold unitWidth
  split <;> omega

/-- Two prefixes of one text that have the same width are the same. -/
private theorem append_inj_of_width {a a' c c' : List Char} (text : a ++ c = a' ++ c')
    (width : (a.map unitWidth).sum = (a'.map unitWidth).sum) : a = a' ∧ c = c' := by
  induction a generalizing a' with
  | nil =>
      cases a' with
      | nil => exact ⟨rfl, text⟩
      | cons x a' =>
          have := unitWidth_pos x
          simp only [List.map_nil, List.sum_nil, List.map_cons, List.sum_cons] at width
          omega
  | cons x a ih =>
      cases a' with
      | nil =>
          have := unitWidth_pos x
          simp only [List.map_nil, List.sum_nil, List.map_cons, List.sum_cons] at width
          omega
      | cons y a' =>
          simp only [List.cons_append, List.cons.injEq] at text
          obtain ⟨rfl, text⟩ := text
          simp only [List.map_cons, List.sum_cons, Nat.add_left_cancel_iff] at width
          obtain ⟨rfl, rest⟩ := ih text width
          exact ⟨rfl, rest⟩

private theorem colon_notMem_toDigits (n : ℕ) : ':' ∉ Nat.toDigits 10 n := fun h =>
  absurd (isDigit_of_mem h) (by decide)

theorem conversationStorageKey_injective {a a' c c' : String}
    (h : conversationStorageKey a c = conversationStorageKey a' c') : a = a' ∧ c = c' := by
  have text := congrArg String.toList h
  have toList_toString (n : ℕ) : (toString n).toList = Nat.toDigits 10 n := by simp
  have colon : ":".toList = [':'] := rfl
  simp only [conversationStorageKey, String.toList_append, toList_toString, colon,
    List.append_assoc, List.singleton_append] at text
  obtain ⟨digits, rest⟩ :=
    split_unique text (colon_notMem_toDigits _) (colon_notMem_toDigits _)
  have width : utf16Length a = utf16Length a' := toDigits_injective digits
  obtain ⟨left, right⟩ := append_inj_of_width rest width
  exact ⟨String.toList_inj.mp left, String.toList_inj.mp right⟩

/-- The pair that names a conversation: the key alone is scoped to the
adapter that chose it. -/
structure Conversation where
  adapterId : String
  conversationKey : String
  deriving DecidableEq, Repr

/-- The storage key of a conversation. -/
def Conversation.id (c : Conversation) : String :=
  conversationStorageKey c.adapterId c.conversationKey

theorem Conversation.id_injective : Function.Injective Conversation.id := by
  rintro ⟨a, c⟩ ⟨a', c'⟩ h
  obtain ⟨rfl, rfl⟩ := conversationStorageKey_injective h
  rfl

end OmpBundler.Core
