import Mathlib.Data.List.Basic
import Mathlib.Data.Nat.Notation

/-!
White space in strings.

The same characters are matched by `\s` in a regular expression, removed by
`trim`, and separators of `split(/\s+/)`.
-/

namespace Library.JsString

/-- White space and line terminators. -/
def isSpace (c : Char) : Bool :=
  decide (c.toNat ∈ [9, 10, 11, 12, 13, 32, 0xA0, 0x1680, 0x2028, 0x2029, 0x202F, 0x205F, 0x3000,
    0xFEFF]) || (0x2000 ≤ c.toNat && c.toNat ≤ 0x200A)

/-- `trim`, on characters. -/
def trimChars (l : List Char) : List Char :=
  ((l.dropWhile isSpace).reverse.dropWhile isSpace).reverse

/-- Remove white space from both ends. -/
def trim (s : String) : String := String.ofList (trimChars s.toList)

/-- Replace each run of white space by one space. -/
def collapse : List Char → List Char
  | [] => []
  | [c] => if isSpace c then [' '] else [c]
  | c :: d :: rest =>
      if isSpace c then
        if isSpace d then collapse (d :: rest) else ' ' :: collapse (d :: rest)
      else c :: collapse (d :: rest)

/-- The pieces between the white space. -/
def words (l : List Char) : List (List Char) := (l.splitOnP isSpace).filter (· ≠ [])

/-- `split(/\s+/)` of a trimmed text: its words, or one empty piece. -/
def splitSpaces (l : List Char) : List (List Char) :=
  if words l = [] then [[]] else words l

end Library.JsString
