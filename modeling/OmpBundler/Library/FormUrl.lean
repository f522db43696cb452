import OmpBundler.Library.Hex
import OmpBundler.Library.Utf8

/-!
Lists of names and values as the query of a URL
(`application/x-www-form-urlencoded`).

The writer escapes every byte of a text but letters, digits and four marks;
the reader takes anything.
-/

namespace Library.FormUrl

/-! ### One text -/

/-- The bytes that stand for themselves. -/
def plain (b : UInt8) : Bool :=
  (48 ≤ b.toNat && b.toNat ≤ 57) || (65 ≤ b.toNat && b.toNat ≤ 90) ||
    (97 ≤ b.toNat && b.toNat ≤ 122) || b.toNat ∈ [42, 45, 46, 95]

/-- The digit that stands for `n` in an escape. -/
def upperDigit (n : ℕ) : Char := if n < 10 then Char.ofNat (48 + n) else Char.ofNat (55 + n)

def encodeByte (b : UInt8) : List Char :=
  if plain b then [Char.ofNat b.toNat]
  else if b.toNat = 32 then ['+']
  else ['%', upperDigit (b.toNat / 16), upperDigit (b.toNat % 16)]

def encode (t : List Char) : List Char := (Utf8.encode t).flatMap encodeByte

/-- The bytes that a piece of a query stands for. -/
def decodeBytes : List Char → List UInt8
  | [] => []
  | '%' :: a :: b :: rest =>
      match Hex.value a, Hex.value b with
      | some x, some y => UInt8.ofNat (x * 16 + y) :: decodeBytes rest
      | _, _ => 37 :: decodeBytes (a :: b :: rest)
  | '+' :: rest => 32 :: decodeBytes rest
  | c :: rest => String.utf8EncodeChar c ++ decodeBytes rest

def decode (t : List Char) : List Char := Utf8.lossy .start (decodeBytes t)

/-- What can be told of every byte is told by trying them all. -/
theorem forall_byte {P : UInt8 → Prop} [DecidablePred P] (all : ∀ n : Fin 256, P (UInt8.ofNat n))
    (b : UInt8) : P b := by
  have := all ⟨b.toNat, b.toNat_lt⟩
  rwa [UInt8.ofNat_toNat] at this

theorem value_upperDigit {n : ℕ} (small : n < 16) : Hex.value (upperDigit n) = some n := by
  have all : ∀ m : Fin 16, Hex.value (upperDigit m) = some m.val := by decide
  exact all ⟨n, small⟩

theorem decodeBytes_plain {c : Char} (rest : List Char) (percent : c ≠ '%') (plus : c ≠ '+') :
    decodeBytes (c :: rest) = String.utf8EncodeChar c ++ decodeBytes rest := by
  rw [decodeBytes]
  · exact fun _ _ _ same => absurd same percent
  · exact fun same => absurd same plus

theorem encodeByte_plain : ∀ b : UInt8, plain b = true →
    Char.ofNat b.toNat ≠ '%' ∧ Char.ofNat b.toNat ≠ '+' ∧ Char.ofNat b.toNat ≠ '&' ∧
      Char.ofNat b.toNat ≠ '=' ∧ String.utf8EncodeChar (Char.ofNat b.toNat) = [b] :=
  forall_byte (by decide +kernel)

theorem decodeBytes_encodeByte (b : UInt8) (rest : List Char) :
    decodeBytes (encodeByte b ++ rest) = b :: decodeBytes rest := by
  rw [encodeByte]
  split
  next h =>
    obtain ⟨percent, plus, _, _, bytes⟩ := encodeByte_plain b h
    rw [List.singleton_append, decodeBytes_plain rest percent plus, bytes]
    rfl
  · split
    next space =>
      have : b = 32 := UInt8.toNat_inj.mp space
      rw [this]
      rfl
    · have small : b.toNat < 256 := b.toNat_lt
      have whole : b.toNat / 16 * 16 + b.toNat % 16 = b.toNat := by omega
      rw [List.cons_append, List.cons_append, List.singleton_append, decodeBytes,
        value_upperDigit (by omega), value_upperDigit (by omega)]
      simp only [whole, UInt8.ofNat_toNat]

theorem decodeBytes_flatMap (bytes : List UInt8) :
    decodeBytes (bytes.flatMap encodeByte) = bytes := by
  induction bytes with
  | nil => rfl
  | cons b bytes ih => rw [List.flatMap_cons, decodeBytes_encodeByte, ih]

theorem decode_encode (t : List Char) : decode (encode t) = t := by
  rw [decode, encode, decodeBytes_flatMap, Utf8.lossy_encode]

theorem mem_encodeByte {b : UInt8} {c : Char} (mem : c ∈ encodeByte b) : c ≠ '&' ∧ c ≠ '=' := by
  have digits : ∀ n : Fin 16, upperDigit n ≠ '&' ∧ upperDigit n ≠ '=' := by decide
  have small : b.toNat < 256 := b.toNat_lt
  rw [encodeByte] at mem
  split at mem
  next h =>
    obtain ⟨_, _, amp, equals, _⟩ := encodeByte_plain b h
    rw [List.mem_singleton.mp mem]
    exact ⟨amp, equals⟩
  · split at mem
    · rw [List.mem_singleton.mp mem]
      decide
    · rcases List.mem_cons.mp mem with rfl | mem
      · decide
      · rcases List.mem_cons.mp mem with rfl | mem
        · exact digits ⟨b.toNat / 16, by omega⟩
        · rw [List.mem_singleton.mp mem]
          exact digits ⟨b.toNat % 16, by omega⟩

theorem mem_encode {t : List Char} {c : Char} (mem : c ∈ encode t) : c ≠ '&' ∧ c ≠ '=' := by
  obtain ⟨b, _, mem⟩ := List.mem_flatMap.mp mem
  exact mem_encodeByte mem

/-! ### A query -/

def writePair (p : List Char × List Char) : List Char := encode p.1 ++ '=' :: encode p.2

/-- `URLSearchParams.toString` -/
def serialize (pairs : List (List Char × List Char)) : List Char :=
  List.intercalate ['&'] (pairs.map writePair)

def readPair (piece : List Char) : List Char × List Char :=
  (decode (piece.takeWhile (· ≠ '=')), decode ((piece.dropWhile (· ≠ '=')).drop 1))

/-- `new URLSearchParams` -/
def parse (query : List Char) : List (List Char × List Char) :=
  ((query.splitOn '&').filter (· ≠ [])).map readPair

/-- `URLSearchParams.get` -/
def get (pairs : List (List Char × List Char)) (name : List Char) : Option (List Char) :=
  (pairs.find? fun p => p.1 = name).map (·.2)

theorem readPair_writePair (p : List Char × List Char) : readPair (writePair p) = p := by
  have bare : ∀ c ∈ encode p.1, decide (c ≠ '=') = true := fun c mem => by
    simpa using (mem_encode mem).2
  rw [readPair, writePair, List.takeWhile_append_of_pos bare, List.dropWhile_append_of_pos bare,
    List.takeWhile_cons_of_neg (by simp), List.dropWhile_cons_of_neg (by simp), List.append_nil,
    List.drop_one, List.tail_cons, decode_encode, decode_encode]

theorem parse_serialize (pairs : List (List Char × List Char)) : parse (serialize pairs) = pairs := by
  by_cases nil : pairs = []
  · rw [nil]
    rfl
  · have bare : ∀ piece ∈ pairs.map writePair, '&' ∉ piece := fun piece mem => by
      obtain ⟨p, _, rfl⟩ := List.mem_map.mp mem
      rw [writePair, List.mem_append, List.mem_cons, not_or, not_or]
      exact ⟨fun mem => (mem_encode mem).1 rfl, by decide, fun mem => (mem_encode mem).1 rfl⟩
    have filled : ∀ piece ∈ pairs.map writePair, decide (piece ≠ []) = true := fun piece mem => by
      obtain ⟨p, _, rfl⟩ := List.mem_map.mp mem
      simp [writePair]
    rw [parse, serialize, List.splitOn_intercalate '&' bare (by simpa using nil),
      List.filter_eq_self.mpr filled, List.map_map]
    exact List.map_id'' (fun p => readPair_writePair p) pairs

end Library.FormUrl
