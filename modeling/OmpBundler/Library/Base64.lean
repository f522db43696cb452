import Mathlib.Data.List.Basic
import Mathlib.Tactic.Common

/-!
Base64 with padding.

`decode` reads exactly the texts of the grammar: groups of four digits,
the last of which may end in padding. Bits of the last digit that the
padding cuts off are ignored, so different texts may decode to the same
bytes; `encode` gives the one of them in which these bits are zero, and
decoding it gives the bytes back.
-/

namespace Library.Base64

/-- The digit that stands for `n`. -/
def digit (n : ℕ) : Char :=
  if n < 26 then Char.ofNat (65 + n)
  else if n < 52 then Char.ofNat (71 + n)
  else if n < 62 then Char.ofNat (n - 4)
  else if n = 62 then '+' else '/'

/-- What a digit stands for. -/
def value (c : Char) : Option ℕ :=
  if 65 ≤ c.toNat ∧ c.toNat ≤ 90 then some (c.toNat - 65)
  else if 97 ≤ c.toNat ∧ c.toNat ≤ 122 then some (c.toNat - 71)
  else if 48 ≤ c.toNat ∧ c.toNat ≤ 57 then some (c.toNat + 4)
  else if c = '+' then some 62
  else if c = '/' then some 63
  else none

/-- The padding. -/
def pad : Char := '='

def encode : List UInt8 → List Char
  | [] => []
  | [a] => [digit (a.toNat / 4), digit (a.toNat % 4 * 16), pad, pad]
  | [a, b] =>
      [digit (a.toNat / 4), digit (a.toNat % 4 * 16 + b.toNat / 16), digit (b.toNat % 16 * 4), pad]
  | a :: b :: c :: rest =>
      digit (a.toNat / 4) :: digit (a.toNat % 4 * 16 + b.toNat / 16) ::
        digit (b.toNat % 16 * 4 + c.toNat / 64) :: digit (c.toNat % 64) :: encode rest

def decode : List Char → Option (List UInt8)
  | [] => some []
  | a :: b :: c :: d :: rest => do
      let w ← value a
      let x ← value b
      let first := UInt8.ofNat (w * 4 + x / 16)
      if rest = [] ∧ c = pad ∧ d = pad then some [first]
      else
        let y ← value c
        let second := UInt8.ofNat (x % 16 * 16 + y / 4)
        if rest = [] ∧ d = pad then some [first, second]
        else
          let z ← value d
          let bytes ← decode rest
          some (first :: second :: UInt8.ofNat (y % 4 * 64 + z) :: bytes)
  | _ => none

theorem value_digit {n : ℕ} (small : n < 64) : value (digit n) = some n := by
  have all : ∀ m : Fin 64, value (digit m) = some m.val := by decide
  exact all ⟨n, small⟩

theorem value_pad : value pad = none := by decide

theorem digit_ne_pad {n : ℕ} (small : n < 64) : digit n ≠ pad := by
  intro same
  have known := value_digit small
  rw [same, value_pad] at known
  simp at known

/-- A byte put together again from its parts. -/
theorem ofNat_eq {n : ℕ} {b : UInt8} (same : n = b.toNat) : UInt8.ofNat n = b := by
  rw [same, UInt8.ofNat_toNat]

theorem decode_encode (bytes : List UInt8) : decode (encode bytes) = some bytes := by
  induction bytes using encode.induct with
  | case1 => rfl
  | case2 a =>
      have := a.toNat_lt
      have first : UInt8.ofNat (a.toNat / 4 * 4 + a.toNat % 4 * 16 / 16) = a := ofNat_eq (by omega)
      simp only [encode, decode]
      rw [value_digit (by omega), value_digit (by omega)]
      simp only [Option.bind_eq_bind, Option.bind_some, first]
      rfl
  | case3 a b =>
      have := a.toNat_lt
      have := b.toNat_lt
      have first : UInt8.ofNat (a.toNat / 4 * 4 + (a.toNat % 4 * 16 + b.toNat / 16) / 16) = a :=
        ofNat_eq (by omega)
      have second : UInt8.ofNat ((a.toNat % 4 * 16 + b.toNat / 16) % 16 * 16
          + b.toNat % 16 * 4 / 4) = b := ofNat_eq (by omega)
      have digits : digit (b.toNat % 16 * 4) ≠ pad := digit_ne_pad (by omega)
      simp only [encode, decode]
      rw [value_digit (by omega), value_digit (by omega), value_digit (by omega)]
      simp only [Option.bind_eq_bind, Option.bind_some, first, second]
      simp [digits]
  | case4 a b c rest ih =>
      have := a.toNat_lt
      have := b.toNat_lt
      have := c.toNat_lt
      have first : UInt8.ofNat (a.toNat / 4 * 4 + (a.toNat % 4 * 16 + b.toNat / 16) / 16) = a :=
        ofNat_eq (by omega)
      have second : UInt8.ofNat ((a.toNat % 4 * 16 + b.toNat / 16) % 16 * 16
          + (b.toNat % 16 * 4 + c.toNat / 64) / 4) = b := ofNat_eq (by omega)
      have third : UInt8.ofNat ((b.toNat % 16 * 4 + c.toNat / 64) % 4 * 64 + c.toNat % 64) = c :=
        ofNat_eq (by omega)
      have digits : digit (c.toNat % 64) ≠ pad := digit_ne_pad (by omega)
      simp only [encode, decode]
      rw [value_digit (by omega), value_digit (by omega), value_digit (by omega),
        value_digit (by omega), ih]
      simp only [Option.bind_eq_bind, Option.bind_some, first, second, third]
      simp [digits]

/-- Bytes have a text, which is empty for no bytes only. -/
theorem encode_eq_nil {bytes : List UInt8} : encode bytes = [] ↔ bytes = [] := by
  rcases bytes with _ | ⟨a, _ | ⟨b, _ | ⟨c, rest⟩⟩⟩ <;> simp [encode]

/-! ### For URLs -/

/-- The digit that stands for `n` in the alphabet of URLs. -/
def urlDigit (n : ℕ) : Char := if n = 62 then '-' else if n = 63 then '_' else digit n

/-- What a digit of either alphabet stands for. -/
def urlValue (c : Char) : Option ℕ :=
  if c = '-' then some 62 else if c = '_' then some 63 else value c

/-- Without padding. -/
def encodeUrl : List UInt8 → List Char
  | [] => []
  | [a] => [urlDigit (a.toNat / 4), urlDigit (a.toNat % 4 * 16)]
  | [a, b] =>
      [urlDigit (a.toNat / 4), urlDigit (a.toNat % 4 * 16 + b.toNat / 16),
        urlDigit (b.toNat % 16 * 4)]
  | a :: b :: c :: rest =>
      urlDigit (a.toNat / 4) :: urlDigit (a.toNat % 4 * 16 + b.toNat / 16) ::
        urlDigit (b.toNat % 16 * 4 + c.toNat / 64) :: urlDigit (c.toNat % 64) :: encodeUrl rest

/-- The bytes of some digits; a digit too many is dropped. -/
def bytesOf : List ℕ → List UInt8
  | w :: x :: y :: z :: rest =>
      UInt8.ofNat (w * 4 + x / 16) :: UInt8.ofNat (x % 16 * 16 + y / 4) ::
        UInt8.ofNat (y % 4 * 64 + z) :: bytesOf rest
  | [w, x, y] => [UInt8.ofNat (w * 4 + x / 16), UInt8.ofNat (x % 16 * 16 + y / 4)]
  | [w, x] => [UInt8.ofNat (w * 4 + x / 16)]
  | _ => []

/-- Read any text: what is no digit is skipped. -/
def decodeUrl (t : List Char) : List UInt8 := bytesOf (t.filterMap urlValue)

end Library.Base64
