import OmpBundler.Core.AdapterRegistry
import OmpBundler.Library.LengthPrefix
import OmpBundler.Library.OrderedMap
import OmpBundler.Library.Utf16
import Mathlib.Logic.Function.Basic

/-!
The storage key over every string of the source.

A string of the source is any sequence of 16-bit code units, lone
surrogates included, so there are more of them than texts of characters.
The pool, the registry, the buffer and the reaper take their keys from
`conversationStorageKey`, the supervisor from a copy of its own. A map
under such keys behaves as a map under the pairs themselves.
-/

namespace OmpBundler.Core.CodeUnits

open Library

/-- A string of the source. -/
abbrev Text := List UInt16

/-- The code unit of a digit. -/
def digit (c : Char) : UInt16 := UInt16.ofNat c.toNat

/-- The code unit of `:`. -/
def colon : UInt16 := 58

/-- Collision-proof key for the adapter-scoped conversation tuple. -/
def conversationStorageKey (adapterId conversationKey : Text) : Text :=
  (Nat.toDigits 10 adapterId.length).map digit ++ colon :: (adapterId ++ conversationKey)

/-- The supervisor's composite conversation key. -/
def compositeKey (adapterId conversationKey : Text) : Text :=
  (Nat.toDigits 10 adapterId.length).map digit ++ colon :: (adapterId ++ conversationKey)

/-- The code units of a text of characters. -/
def ofString (s : String) : Text := (Utf16.codeUnits s).map UInt16.ofNat

/-! ### The units of the key -/

theorem digit_bounds {c : Char} (isDigit : c.isDigit = true) : 48 ≤ c.toNat ∧ c.toNat ≤ 57 := by
  simp only [Char.isDigit, Bool.and_eq_true, decide_eq_true_eq, UInt32.le_iff_toNat_le] at isDigit
  exact isDigit

theorem toNat_digit {c : Char} (isDigit : c.isDigit = true) : (digit c).toNat = c.toNat := by
  have := digit_bounds isDigit
  rw [digit, UInt16.toNat_ofNat']
  omega

/-- The digits are ten different units, and the colon is not one of them. -/
theorem numerals : Numerals digit colon where
  distinct x y hx hy same := by
    have units := congrArg UInt16.toNat same
    rw [toNat_digit hx, toNat_digit hy] at units
    exact Char.toNat_inj.mp units
  apart x hx same := by
    have units := congrArg UInt16.toNat same
    rw [toNat_digit hx] at units
    have : colon.toNat = 58 := rfl
    have := digit_bounds hx
    omega

/-! ### Texts of characters -/

theorem ofString_append (s t : String) : ofString (s ++ t) = ofString s ++ ofString t := by
  rw [ofString, Utf16.codeUnits, String.toList_append, List.flatMap_append, List.map_append]
  rfl

/-- A character below the surrogates is one unit. -/
theorem ofString_small {s : String} (small : ∀ c ∈ s.toList, c.toNat < 0x10000) :
    ofString s = s.toList.map digit := by
  rw [ofString, Utf16.codeUnits]
  generalize s.toList = l at small
  induction l with
  | nil => rfl
  | cons c l ih =>
      have one : Utf16.unitsOf c = [c.toNat] := if_pos (small c List.mem_cons_self)
      rw [List.flatMap_cons, one, List.map_append, ih fun d hd => small d (.tail _ hd)]
      rfl

theorem length_unitsOf (c : Char) : (Utf16.unitsOf c).length = unitWidth c := by
  unfold Utf16.unitsOf unitWidth
  split <;> rfl

theorem length_ofString (s : String) : (ofString s).length = utf16Length s := by
  rw [ofString, List.length_map, Utf16.codeUnits, utf16Length, List.length_flatMap]
  congr 2
  funext c
  exact length_unitsOf c

/-- The key of two texts of characters, in code units. -/
theorem ofString_conversationStorageKey (adapterId conversationKey : String) :
    ofString (Core.conversationStorageKey adapterId conversationKey) =
      conversationStorageKey (ofString adapterId) (ofString conversationKey) := by
  have digits : ofString (toString (utf16Length adapterId)) =
      (Nat.toDigits 10 (ofString adapterId).length).map digit := by
    have toList : (toString (utf16Length adapterId)).toList =
        Nat.toDigits 10 (utf16Length adapterId) := by simp
    rw [ofString_small, toList, length_ofString]
    intro c mem
    rw [toList] at mem
    have := digit_bounds (isDigit_of_mem mem)
    omega
  have separator : ofString ":" = [colon] := by decide
  rw [Core.conversationStorageKey, ofString_append, ofString_append, ofString_append, digits,
    separator, conversationStorageKey, List.append_assoc, List.append_assoc]
  rfl

/-! ### Maps under such keys -/

/-- What a map under storage keys holds for a pair. -/
def entryOf {ν : Type*} (key : Text → Text → Text) (m : OrderedMap Text ν) (p : Text × Text) :
    Option ν :=
  m.get (key p.1 p.2)

section Maps

variable {ν : Type*} {key : Text → Text → Text}

theorem entryOf_set (injective : ∀ a c a' c', key a c = key a' c' ↔ a = a' ∧ c = c')
    (m : OrderedMap Text ν) (p : Text × Text) (v : ν) :
    entryOf key (m.set (key p.1 p.2) v) = Function.update (entryOf key m) p (some v) := by
  funext q
  rw [entryOf, OrderedMap.get_set]
  by_cases same : q = p
  · rw [same, Function.update_self, if_pos rfl]
  · rw [Function.update_of_ne same, if_neg, entryOf]
    intro keys
    exact same (Prod.ext_iff.mpr ((injective _ _ _ _).mp keys)).symm

theorem entryOf_delete (injective : ∀ a c a' c', key a c = key a' c' ↔ a = a' ∧ c = c')
    (m : OrderedMap Text ν) (p : Text × Text) :
    entryOf key (m.delete (key p.1 p.2)) = Function.update (entryOf key m) p none := by
  funext q
  rw [entryOf, OrderedMap.get_delete]
  by_cases same : q = p
  · rw [same, Function.update_self, if_pos rfl]
  · rw [Function.update_of_ne same, if_neg, entryOf]
    intro keys
    exact same (Prod.ext_iff.mpr ((injective _ _ _ _).mp keys)).symm

end Maps

theorem storageKey_inj (a c a' c' : Text) :
    conversationStorageKey a c = conversationStorageKey a' c' ↔ a = a' ∧ c = c' :=
  numerals.lengthPrefixed_inj

/-- Both keys determine the pair, the copy is the original, and a map under
such keys holds one entry for each pair: setting or deleting the entry of a
pair is seen at that pair only. -/
theorem storageKeys_separate_conversations :
    (∀ a c a' c' : Text,
      conversationStorageKey a c = conversationStorageKey a' c' ↔ a = a' ∧ c = c') ∧
    (∀ a c a' c' : Text, compositeKey a c = compositeKey a' c' ↔ a = a' ∧ c = c') ∧
    compositeKey = conversationStorageKey ∧
    ∀ (ν : Type) (m : OrderedMap Text ν) (p : Text × Text),
      (∀ v, entryOf conversationStorageKey (m.set (conversationStorageKey p.1 p.2) v) =
        Function.update (entryOf conversationStorageKey m) p (some v)) ∧
      entryOf conversationStorageKey (m.delete (conversationStorageKey p.1 p.2)) =
        Function.update (entryOf conversationStorageKey m) p none := by
  refine ⟨storageKey_inj, storageKey_inj, rfl, ?_⟩
  intro ν m p
  exact ⟨entryOf_set storageKey_inj m p, entryOf_delete storageKey_inj m p⟩

end OmpBundler.Core.CodeUnits
