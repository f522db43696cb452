import Mathlib.Data.List.Basic
import Mathlib.Data.Nat.Notation

/-!
UTF-8, written all at once and read in pieces.

The reader takes one byte after the other and remembers the character that
it is inside of, so a text may be cut between any two bytes. A byte that
cannot stand where it stands is an error (the reader is a fatal one), and so
is an end of the text inside a character. A byte order mark at the very
beginning is dropped.
-/

namespace Library.Utf8

/-- The bytes of a text. -/
def encode (text : List Char) : List UInt8 := text.flatMap String.utf8EncodeChar

@[simp] theorem encode_append (a b : List Char) : encode (a ++ b) = encode a ++ encode b :=
  List.flatMap_append

@[simp] theorem encode_cons (c : Char) (l : List Char) :
    encode (c :: l) = String.utf8EncodeChar c ++ encode l := List.flatMap_cons

/-! ### One byte -/

/-- Where the reader stands inside a character: the bits read so far, how
many bytes are still owed, and the bounds of the next one. -/
structure Decoder where
  codePoint : ℕ
  owed : ℕ
  lower : ℕ
  upper : ℕ
  deriving DecidableEq

namespace Decoder

/-- Between two characters. -/
def start : Decoder := ⟨0, 0, 0x80, 0xBF⟩

/-- The first byte of a character. -/
def lead (b : ℕ) : Option (Decoder × List Char) :=
  if b ≤ 0x7F then some (start, [Char.ofNat b])
  else if 0xC2 ≤ b ∧ b ≤ 0xDF then some (⟨b - 0xC0, 1, 0x80, 0xBF⟩, [])
  else if 0xE0 ≤ b ∧ b ≤ 0xEF then
    some (⟨b - 0xE0, 2, if b = 0xE0 then 0xA0 else 0x80, if b = 0xED then 0x9F else 0xBF⟩, [])
  else if 0xF0 ≤ b ∧ b ≤ 0xF4 then
    some (⟨b - 0xF0, 3, if b = 0xF0 then 0x90 else 0x80, if b = 0xF4 then 0x8F else 0xBF⟩, [])
  else none

/-- A further byte of a character. -/
def trail (d : Decoder) (b : ℕ) : Option (Decoder × List Char) :=
  if d.lower ≤ b ∧ b ≤ d.upper then
    let codePoint := d.codePoint * 64 + (b - 0x80)
    if d.owed = 1 then some (start, [Char.ofNat codePoint])
    else some (⟨codePoint, d.owed - 1, 0x80, 0xBF⟩, [])
  else none

/-- Read one byte: where the reader stands after it, and the character that
it completes. -/
def byte (d : Decoder) (b : UInt8) : Option (Decoder × List Char) :=
  if d.owed = 0 then lead b.toNat else d.trail b.toNat

/-- Read some bytes. -/
def run : Decoder → List UInt8 → Option (Decoder × List Char)
  | d, [] => some (d, [])
  | d, b :: rest => do
      let (d, read) ← d.byte b
      let (d, more) ← run d rest
      return (d, read ++ more)

theorem run_append {d d' d'' : Decoder} {xs ys : List UInt8} {cs cs' : List Char}
    (first : d.run xs = some (d', cs)) (second : d'.run ys = some (d'', cs')) :
    d.run (xs ++ ys) = some (d'', cs ++ cs') := by
  induction xs generalizing d cs with
  | nil =>
    obtain ⟨rfl, rfl⟩ : d = d' ∧ [] = cs := by simpa [run] using first
    exact second
  | cons b rest ih =>
    simp only [run, Option.bind_eq_bind, Option.bind_eq_some_iff, Option.pure_def,
      Option.some.injEq, Prod.mk.injEq] at first
    obtain ⟨⟨e, read⟩, one, ⟨e', more⟩, next, rfl, rfl⟩ := first
    have := ih next
    simp [run, one, this]

theorem run_split {d d'' : Decoder} {xs ys : List UInt8} {read : List Char}
    (ran : d.run (xs ++ ys) = some (d'', read)) :
    ∃ d' cs cs', d.run xs = some (d', cs) ∧ d'.run ys = some (d'', cs') ∧ read = cs ++ cs' := by
  induction xs generalizing d read with
  | nil => exact ⟨d, [], read, rfl, ran, rfl⟩
  | cons b rest ih =>
    simp only [List.cons_append, run, Option.bind_eq_bind, Option.bind_eq_some_iff,
      Option.pure_def, Option.some.injEq, Prod.mk.injEq] at ran
    obtain ⟨⟨e, read⟩, one, ⟨e', more⟩, next, rfl, rfl⟩ := ran
    obtain ⟨d', cs, cs', first, second, rfl⟩ := ih next
    exact ⟨d', read ++ cs, cs', by simp [run, one, first], second, by simp⟩

/-! ### One character -/

/-- The bytes complete this character, the last of them and no earlier one. -/
def Completes (c : Char) : Decoder → List UInt8 → Prop
  | _, [] => False
  | d, [b] => d.byte b = some (start, [c])
  | d, b :: rest => ∃ d', d.byte b = some (d', []) ∧ Completes c d' rest

theorem Completes.run {c : Char} : ∀ {l : List UInt8} {d : Decoder},
    Completes c d l → d.run l = some (start, [c])
  | [b], d, last => by
      have last : d.byte b = some (start, [c]) := last
      simp [Decoder.run, last]
  | b :: b' :: rest, d, ⟨d', one, more⟩ => by
      have := Completes.run more
      rw [Decoder.run, one]
      simp [this]

/-- Inside the character nothing is reported. -/
theorem Completes.run_prefix {c : Char} : ∀ {p q : List UInt8} {d : Decoder},
    Completes c d (p ++ q) → q ≠ [] → ∃ d', d.run p = some (d', [])
  | [], _, d, _, _ => ⟨d, rfl⟩
  | [_], [], _, _, more => absurd rfl more
  | [b], _ :: _, _, ⟨d', one, _⟩, _ => ⟨d', by simp [Decoder.run, one]⟩
  | b :: b' :: rest, q, _, ⟨d', one, inside⟩, more => by
      obtain ⟨d'', next⟩ := Completes.run_prefix (p := b' :: rest) inside more
      exact ⟨d'', by rw [Decoder.run, one]; simp [next]⟩

theorem lead_byte (n : ℕ) (small : n < 256) : byte start (UInt8.ofNat n) = lead n := by
  rw [byte, if_pos (show start.owed = 0 from rfl), UInt8.toNat_ofNat', Nat.mod_eq_of_lt small]

/-- The last byte of a character. -/
theorem last_byte (codePoint lower upper n : ℕ) (above : lower ≤ n) (below : n ≤ upper)
    (small : n < 256) :
    byte ⟨codePoint, 1, lower, upper⟩ (UInt8.ofNat n) =
      some (start, [Char.ofNat (codePoint * 64 + (n - 0x80))]) := by
  rw [byte, if_neg Nat.one_ne_zero, UInt8.toNat_ofNat', Nat.mod_eq_of_lt small, trail,
    if_pos ⟨above, below⟩]
  exact if_pos rfl

/-- A byte after the first one and before the last one. -/
theorem inner_byte (codePoint owed lower upper n : ℕ) (above : lower ≤ n) (below : n ≤ upper)
    (small : n < 256) :
    byte ⟨codePoint, owed + 2, lower, upper⟩ (UInt8.ofNat n) =
      some (⟨codePoint * 64 + (n - 0x80), owed + 1, 0x80, 0xBF⟩, []) := by
  rw [byte, if_neg (Nat.succ_ne_zero _), UInt8.toNat_ofNat', Nat.mod_eq_of_lt small, trail,
    if_pos ⟨above, below⟩]
  exact if_neg (by simp)

/-- A character is no surrogate and at most 0x10FFFF. -/
private theorem bounds (c : Char) :
    c.val.toNat < 0xD800 ∨ 0xDFFF < c.val.toNat ∧ c.val.toNat < 0x110000 := c.valid

/-- The bytes of a character complete it. -/
theorem completes_encode (c : Char) : Completes c start (String.utf8EncodeChar c) := by
  have range := bounds c
  have same : Char.ofNat c.val.toNat = c := Char.ofNat_toNat c
  unfold String.utf8EncodeChar
  generalize c.val.toNat = v at *
  simp only []
  split_ifs with one two three
  · show byte start _ = _
    rw [lead_byte v (by omega), lead, if_pos one, same]
  · refine ⟨⟨v / 64, 1, 0x80, 0xBF⟩, ?_, ?_⟩
    · have bits : v / 64 % 32 + 192 - 192 = v / 64 := by omega
      rw [lead_byte _ (by omega), lead, if_neg (by omega), if_pos (by omega), bits]
    · have bits : v / 64 * 64 + (v % 64 + 128 - 128) = v := by omega
      show byte _ _ = _
      rw [last_byte _ _ _ _ (by omega) (by omega) (by omega), bits, same]
  · refine ⟨⟨v / 4096, 2, if v / 4096 = 0 then 0xA0 else 0x80,
      if v / 4096 = 13 then 0x9F else 0xBF⟩, ?_, ⟨v / 64, 1, 0x80, 0xBF⟩, ?_, ?_⟩
    · have bits : v / 4096 % 16 + 224 - 224 = v / 4096 := by omega
      have low : v / 4096 % 16 + 224 = 0xE0 ↔ v / 4096 = 0 := by omega
      have high : v / 4096 % 16 + 224 = 0xED ↔ v / 4096 = 13 := by omega
      rw [lead_byte _ (by omega), lead, if_neg (by omega), if_neg (by omega), if_pos (by omega),
        bits]
      simp only [low, high]
    · have bits : v / 4096 * 64 + (v / 64 % 64 + 128 - 128) = v / 64 := by omega
      rw [inner_byte _ 0 _ _ _ (by split_ifs <;> omega) (by split_ifs <;> omega) (by omega), bits]
    · have bits : v / 64 * 64 + (v % 64 + 128 - 128) = v := by omega
      show byte _ _ = _
      rw [last_byte _ _ _ _ (by omega) (by omega) (by omega), bits, same]
  · refine ⟨⟨v / 262144, 3, if v / 262144 = 0 then 0x90 else 0x80,
      if v / 262144 = 4 then 0x8F else 0xBF⟩, ?_, ⟨v / 4096, 2, 0x80, 0xBF⟩, ?_,
      ⟨v / 64, 1, 0x80, 0xBF⟩, ?_, ?_⟩
    · have bits : v / 262144 % 8 + 240 - 240 = v / 262144 := by omega
      have low : v / 262144 % 8 + 240 = 0xF0 ↔ v / 262144 = 0 := by omega
      have high : v / 262144 % 8 + 240 = 0xF4 ↔ v / 262144 = 4 := by omega
      rw [lead_byte _ (by omega), lead, if_neg (by omega), if_neg (by omega), if_neg (by omega),
        if_pos (by omega), bits]
      simp only [low, high]
    · have bits : v / 262144 * 64 + (v / 4096 % 64 + 128 - 128) = v / 4096 := by omega
      rw [inner_byte _ 1 _ _ _ (by split_ifs <;> omega) (by split_ifs <;> omega) (by omega), bits]
    · have bits : v / 4096 * 64 + (v / 64 % 64 + 128 - 128) = v / 64 := by omega
      rw [inner_byte _ 0 _ _ _ (by omega) (by omega) (by omega), bits]
    · have bits : v / 64 * 64 + (v % 64 + 128 - 128) = v := by omega
      show byte _ _ = _
      rw [last_byte _ _ _ _ (by omega) (by omega) (by omega), bits, same]

/-! ### A text -/

theorem run_encode (text : List Char) : start.run (encode text) = some (start, text) := by
  induction text with
  | nil => rfl
  | cons c rest ih =>
    rw [encode_cons]
    exact run_append (completes_encode c).run ih

/-- A piece of a text up to some byte is read without an error, and what is
reported is what lies in the piece completely. -/
theorem run_prefix {text : List Char} : ∀ {p q : List UInt8}, p ++ q = encode text →
    ∃ d read owed, start.run p = some (d, read) ∧ read <+: text ∧ p = encode read ++ owed := by
  induction text with
  | nil =>
    intro p q cut
    obtain ⟨rfl, rfl⟩ : p = [] ∧ q = [] := List.append_eq_nil_iff.mp cut
    exact ⟨start, [], [], rfl, List.prefix_rfl, rfl⟩
  | cons c rest ih =>
    intro p q cut
    rw [encode_cons] at cut
    rcases List.append_eq_append_iff.mp cut with ⟨inside, char, -⟩ | ⟨after, rfl, more⟩
    · by_cases whole : inside = []
      · rw [whole, List.append_nil] at char
        subst char
        exact ⟨start, [c], [], (completes_encode c).run, by simp, by simp [encode]⟩
      · have completes := completes_encode c
        rw [char] at completes
        obtain ⟨d, silent⟩ := completes.run_prefix whole
        exact ⟨d, [], p, silent, List.nil_prefix, rfl⟩
    · obtain ⟨d, read, owed, ran, part, rfl⟩ := ih more.symm
      exact ⟨d, c :: read, owed, run_append (completes_encode c).run ran,
        List.cons_prefix_cons.mpr ⟨rfl, part⟩, by simp⟩

end Decoder

/-! ### In pieces -/

/-- The byte order mark. -/
def mark : Char := Char.ofNat 0xFEFF

/-- A reader of a text that comes in pieces, and whether it has read a
character already. -/
structure TextDecoder where
  decoder : Decoder
  begun : Bool
  deriving DecidableEq

namespace TextDecoder

def fresh : TextDecoder := ⟨.start, false⟩

/-- Read a piece that more may follow. -/
def decode (t : TextDecoder) (piece : List UInt8) : Option (TextDecoder × List Char) := do
  let (d, read) ← t.decoder.run piece
  let text := if t.begun = false ∧ read.head? = some mark then read.tail else read
  return (⟨d, t.begun || decide (read ≠ [])⟩, text)

/-- The end of the text. -/
def flush (t : TextDecoder) : Option (List Char) := if t.decoder.owed = 0 then some [] else none

theorem decode_eq {t : TextDecoder} {piece : List UInt8} {d : Decoder} {read : List Char}
    (ran : t.decoder.run piece = some (d, read))
    (unmarked : t.begun = true ∨ read.head? ≠ some mark) :
    t.decode piece = some (⟨d, t.begun || decide (read ≠ [])⟩, read) := by
  have keep : ¬ (t.begun = false ∧ read.head? = some mark) := by
    rintro ⟨fresh, marked⟩
    rcases unmarked with begun | other
    · rw [fresh] at begun
      cases begun
    · exact other marked
  simp only [decode, ran, Option.bind_eq_bind, Option.bind_some, if_neg keep, Option.pure_def]

end TextDecoder

/-! ### Anything -/

/-- Stands for what is no character. -/
def replacement : Char := Char.ofNat 0xFFFD

/-- Read any bytes. A byte that cannot stand where it stands ends the
character before it and is read again as a first one. -/
def lossy : Decoder → List UInt8 → List Char
  | d, [] => if d.owed = 0 then [] else [replacement]
  | d, b :: rest =>
      match d.byte b with
      | some (d, read) => read ++ lossy d rest
      | none =>
          if d.owed = 0 then replacement :: lossy .start rest
          else
            match Decoder.start.byte b with
            | some (d, read) => replacement :: (read ++ lossy d rest)
            | none => replacement :: replacement :: lossy .start rest

theorem lossy_of_run {d d' : Decoder} {bytes : List UInt8} {read : List Char}
    (ran : d.run bytes = some (d', read)) (complete : d'.owed = 0) : lossy d bytes = read := by
  induction bytes generalizing d read with
  | nil =>
    obtain ⟨rfl, rfl⟩ : d = d' ∧ [] = read := by simpa [Decoder.run] using ran
    rw [lossy, if_pos complete]
  | cons b rest ih =>
    simp only [Decoder.run, Option.bind_eq_bind, Option.bind_eq_some_iff, Option.pure_def,
      Option.some.injEq, Prod.mk.injEq] at ran
    obtain ⟨⟨e, first⟩, one, ⟨e', more⟩, next, rfl, rfl⟩ := ran
    rw [lossy, one]
    exact congrArg (first ++ ·) (ih next)

theorem lossy_encode (text : List Char) : lossy .start (encode text) = text :=
  lossy_of_run (Decoder.run_encode text) rfl

theorem encode_injective : Function.Injective encode := fun a b same => by
  rw [← lossy_encode a, same, lossy_encode]

end Library.Utf8
