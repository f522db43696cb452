import Mathlib.Data.List.Basic
import Mathlib.Tactic.Common

/-!
Bytes as hexadecimal digits.

Writing uses small letters; reading takes both.
-/

namespace Library.Hex

/-- The digit that stands for `n`. -/
def digit (n : ℕ) : Char := if n < 10 then Char.ofNat (48 + n) else Char.ofNat (87 + n)

/-- What a digit stands for. -/
def value (c : Char) : Option ℕ :=
  if 48 ≤ c.toNat ∧ c.toNat ≤ 57 then some (c.toNat - 48)
  else if 97 ≤ c.toNat ∧ c.toNat ≤ 102 then some (c.toNat - 87)
  else if 65 ≤ c.toNat ∧ c.toNat ≤ 70 then some (c.toNat - 55)
  else none

def encode (bytes : List UInt8) : List Char :=
  bytes.flatMap fun b => [digit (b.toNat / 16), digit (b.toNat % 16)]

def decode : List Char → Option (List UInt8)
  | [] => some []
  | a :: b :: rest => do
      let x ← value a
      let y ← value b
      let bytes ← decode rest
      some (UInt8.ofNat (x * 16 + y) :: bytes)
  | [_] => none

theorem value_digit {n : ℕ} (small : n < 16) : value (digit n) = some n := by
  have all : ∀ m : Fin 16, value (digit m) = some m.val := by decide
  exact all ⟨n, small⟩

@[simp] theorem encode_nil : encode [] = [] := rfl

@[simp] theorem encode_cons (b : UInt8) (bytes : List UInt8) :
    encode (b :: bytes) = digit (b.toNat / 16) :: digit (b.toNat % 16) :: encode bytes := rfl

theorem decode_encode (bytes : List UInt8) : decode (encode bytes) = some bytes := by
  induction bytes with
  | nil => rfl
  | cons b bytes ih =>
    have small : b.toNat < 256 := b.toNat_lt
    have whole : b.toNat / 16 * 16 + b.toNat % 16 = b.toNat := by omega
    rw [encode_cons, decode, value_digit (by omega), value_digit (by omega), ih]
    simp only [Option.bind_eq_bind, Option.bind_some, whole, UInt8.ofNat_toNat]

theorem length_encode (bytes : List UInt8) : (encode bytes).length = 2 * bytes.length := by
  induction bytes with
  | nil => rfl
  | cons b bytes ih =>
    rw [encode_cons, List.length_cons, List.length_cons, ih, List.length_cons]
    omega

/-- Everything that is written can be read. -/
theorem isSome_value_of_mem_encode {bytes : List UInt8} {c : Char} (mem : c ∈ encode bytes) :
    (value c).isSome := by
  induction bytes with
  | nil => exact absurd mem List.not_mem_nil
  | cons b bytes ih =>
    have small : b.toNat < 256 := b.toNat_lt
    rw [encode_cons] at mem
    rcases List.mem_cons.mp mem with rfl | mem
    · rw [value_digit (by omega)]
      rfl
    · rcases List.mem_cons.mp mem with rfl | mem
      · rw [value_digit (by omega)]
        rfl
      · exact ih mem

/-- A text of digits of an even length is read, whatever the case of its
letters. -/
theorem exists_decode : ∀ {t : List Char}, t.length % 2 = 0 → (∀ c ∈ t, (value c).isSome) →
    ∃ bytes, decode t = some bytes ∧ 2 * bytes.length = t.length
  | [], _, _ => ⟨[], rfl, rfl⟩
  | [_], even, _ => by simp at even
  | a :: b :: rest, even, digits => by
      obtain ⟨x, first⟩ := Option.isSome_iff_exists.mp (digits a (by simp))
      obtain ⟨y, second⟩ := Option.isSome_iff_exists.mp (digits b (by simp))
      obtain ⟨bytes, read, length⟩ := exists_decode (t := rest)
        (by simp only [List.length_cons] at even; omega) (fun c mem => digits c (by simp [mem]))
      refine ⟨UInt8.ofNat (x * 16 + y) :: bytes, by rw [decode, first, second, read]; rfl, ?_⟩
      simp only [List.length_cons]
      omega

end Library.Hex
