import Mathlib.Data.List.TakeWhile
import OmpBundler.Library.Fallible
import OmpBundler.Library.Json
import OmpBundler.Library.JsString
import OmpBundler.Library.Lines

/-!
The YAML that the command line reads and writes.

`parseYaml` reads a subset of YAML: mappings and lists by indentation, plain
and quoted scalars, and collections on one line. `stringifyYaml` writes a
value. A value is one of JSON, and keys and strings are code units; a text
has characters.

The recursion by indentation takes a bound on its depth; no text needs more
than it has lines.
-/

namespace OmpBundler.Cli

open Library

inductive YamlError
  | tabs (line : ℕ)
  | root (line : ℕ)
  | indentation (line : ℕ)
  | pair (line : ℕ)
  | duplicate (key : List UInt16) (line : ℕ)
  | item (line : ℕ)
  | continuation (line : ℕ)
  | inline (line : ℕ)
  | quoted
  /-- The bound on the depth was too small. -/
  | depth
  deriving DecidableEq, Repr

/-- The text of an error. -/
def YamlError.message : YamlError → List UInt16
  | tabs n => Json.unitsOfText s!"tabs are not supported at line {n}".toList
  | root n => Json.unitsOfText s!"root must start at column 1 (line {n})".toList
  | indentation n => Json.unitsOfText s!"unexpected indentation at line {n}".toList
  | pair n => Json.unitsOfText s!"expected 'key: value' at line {n}".toList
  | duplicate key n => Json.unitsOfText "duplicate key '".toList ++ key ++
      Json.unitsOfText s!"' at line {n}".toList
  | item n => Json.unitsOfText s!"expected list item at line {n}".toList
  | continuation n =>
      Json.unitsOfText s!"list item continuation must be a mapping at line {n}".toList
  | inline n => Json.unitsOfText s!"invalid inline mapping at line {n}".toList
  | quoted => Json.unitsOfText "invalid quoted scalar".toList
  | depth => []

structure YamlLine where
  number : ℕ
  indent : ℕ
  text : List Char
  deriving DecidableEq, Repr

def trim (t : List Char) : List Char := JsString.trimChars t

def trimStart (t : List Char) : List Char := t.dropWhile JsString.isSpace

def trimEnd (t : List Char) : List Char := (t.reverse.dropWhile JsString.isSpace).reverse

/-! ### Quotes -/

/-- Which quote a scanner is inside of, and whether a backslash has just been
read there. -/
structure Quoting where
  quote : Option Char
  escaped : Bool
  deriving DecidableEq, Repr

namespace Quoting

def none : Quoting := ⟨.none, false⟩

/-- A character is passed. -/
def next (s : Quoting) (c : Char) : Quoting :=
  if s.quote = some '"' ∧ s.escaped then { s with escaped := false }
  else if s.quote = some '"' ∧ c = '\\' then { s with escaped := true }
  else if c = '\'' ∨ c = '"' then
    { s with quote := if s.quote = some c then .none else s.quote.or (some c) }
  else s

end Quoting

def isBlankAt (t : List Char) : Bool := t.head?.elim true JsString.isSpace

/-- The text before a comment, from what has been passed already. -/
def stripCommentFrom (s : Quoting) (before : List Char) : List Char → List Char
  | [] => before.reverse
  | c :: rest =>
      if s.quote = .none ∧ c = '#' ∧ isBlankAt before then before.reverse
      else stripCommentFrom (s.next c) (c :: before) rest

def stripComment (t : List Char) : List Char := stripCommentFrom .none [] t

/-- The text before and after the first colon that ends a key. -/
def findColon (s : Quoting) (before : List Char) : List Char → Option (List Char × List Char)
  | [] => none
  | c :: rest =>
      if s.quote = .none ∧ c = ':' ∧ isBlankAt rest then some (before.reverse, rest)
      else findColon (s.next c) (c :: before) rest

/-! ### Lines -/

/-- A line that says something. -/
def readLine (number : ℕ) (raw : List Char) : Except YamlError (Option YamlLine) :=
  if '\t' ∈ raw then .error (.tabs number)
  else
    let withoutComment := trimEnd (stripComment raw)
    if trim withoutComment = [] ∨ trim withoutComment = "---".toList ∨
        trim withoutComment = "...".toList then .ok none
    else
      let indent := withoutComment.length - (trimStart withoutComment).length
      .ok (some ⟨number, indent, withoutComment.drop indent⟩)

def readLines : ℕ → List (List Char) → Except YamlError (List YamlLine)
  | _, [] => .ok []
  | number, raw :: rest => do
      let line ← readLine number raw
      let lines ← readLines (number + 1) rest
      return line.toList ++ lines

/-! ### Scalars -/

section

variable {ν : Type} (F : NumberFormat ν)

/-- Two quotes stand for one. -/
def undouble : List Char → List Char
  | '\'' :: '\'' :: rest => '\'' :: undouble rest
  | c :: rest => c :: undouble rest
  | [] => []

def isWrapped (first last : Char) (t : List Char) : Bool :=
  t.head? = some first && t.getLast? = some last

/-- `slice(1, -1)` -/
def inner (t : List Char) : List Char := t.tail.dropLast

def unquote (t : List Char) : Except YamlError (List UInt16) :=
  if isWrapped '\'' '\'' t then .ok (Json.unitsOfText (undouble (inner t)))
  else if isWrapped '"' '"' t then
    match Json.parse F t with
    | some (.string units) => .ok units
    | _ => .error .quoted
  else .ok (Json.unitsOfText t)

def splitPair (t : List Char) : Except YamlError (Option (List UInt16 × List Char)) :=
  match findColon .none [] t with
  | none => .ok none
  | some (before, after) =>
      if trim before = [] then .ok none
      else do
        let key ← unquote F (trim before)
        return some (key, trim after)

/-- The parts between the commas that are not inside of anything. A backslash
means nothing here. -/
def splitInlineFrom (quote : Option Char) (depth : ℤ) (part : List Char) :
    List Char → List (List Char)
  | [] => if trim part.reverse = [] then [] else [trim part.reverse]
  | c :: rest =>
      if c = '"' ∨ c = '\'' then
        splitInlineFrom (if quote = some c then none else quote.or (some c)) depth (c :: part) rest
      else if quote = none ∧ (c = '[' ∨ c = '\x7b') then
        splitInlineFrom quote (depth + 1) (c :: part) rest
      else if quote = none ∧ (c = ']' ∨ c = '\x7d') then
        splitInlineFrom quote (depth - 1) (c :: part) rest
      else if quote = none ∧ depth = 0 ∧ c = ',' then
        trim part.reverse :: splitInlineFrom quote depth [] rest
      else splitInlineFrom quote depth (c :: part) rest

def splitInline (t : List Char) : List (List Char) := splitInlineFrom none 0 [] t

def lowered (t : List Char) : List Char := t.map Char.toLower

/-- `/^-?(?:0|[1-9]\d*)(?:\.\d+)?$/` -/
def isNumeral (t : List Char) : Bool :=
  let t := if t.head? = some '-' then t.tail else t
  let whole := t.takeWhile Char.isDigit
  let rest := t.dropWhile Char.isDigit
  (whole = ['0'] || (whole ≠ [] && whole.head? ≠ some '0')) &&
    (rest = [] || (rest.head? = some '.' && rest.tail ≠ [] && rest.tail.all Char.isDigit))

/-- A scalar that is no collection. -/
def parsePlain (t : List Char) : Except YamlError (Json ν) :=
  if isWrapped '"' '"' t ∨ isWrapped '\'' '\'' t then do
    let units ← unquote F t
    return .string units
  else if lowered t = "true".toList ∨ lowered t = "false".toList then
    .ok (.bool (lowered t = "true".toList))
  else if lowered t = "null".toList ∨ lowered t = "~".toList then .ok .null
  else
    match if isNumeral t then F.value t else none with
    | some n => .ok (.number n)
    | none => .ok (.string (Json.unitsOfText t))

theorem length_trim_le (t : List Char) : (trim t).length ≤ t.length := by
  rw [trim, JsString.trimChars, List.length_reverse]
  refine (List.length_dropWhile_le _ _).trans ?_
  rw [List.length_reverse]
  exact List.length_dropWhile_le _ _

theorem length_le_of_mem_splitInlineFrom {quote : Option Char} {depth : ℤ}
    {part rest p : List Char} (mem : p ∈ splitInlineFrom quote depth part rest) :
    p.length ≤ part.length + rest.length := by
  induction rest generalizing quote depth part with
  | nil =>
    rw [splitInlineFrom] at mem
    split at mem
    · exact absurd mem List.not_mem_nil
    · rw [List.mem_singleton.mp mem]
      exact (length_trim_le _).trans (by rw [List.length_reverse]; exact Nat.le_refl _)
  | cons c rest ih =>
    have further {quote : Option Char} {depth : ℤ}
        (mem : p ∈ splitInlineFrom quote depth (c :: part) rest) :
        p.length ≤ part.length + (c :: rest).length := by
      have := ih mem
      simp only [List.length_cons] at this ⊢
      omega
    rw [splitInlineFrom] at mem
    split at mem
    · exact further mem
    · split at mem
      · exact further mem
      · split at mem
        · exact further mem
        · split at mem
          · rcases List.mem_cons.mp mem with rfl | mem
            · refine (length_trim_le _).trans ?_
              rw [List.length_reverse]
              exact Nat.le_add_right _ _
            · have := ih mem
              simp only [List.length_nil, List.length_cons] at this ⊢
              omega
          · exact further mem

theorem length_le_of_mem_splitInline {t p : List Char} (mem : p ∈ splitInline t) :
    p.length ≤ t.length := by
  have := length_le_of_mem_splitInlineFrom mem
  simpa using this

theorem length_le_of_findColon {s : Quoting} {before t key value : List Char}
    (found : findColon s before t = some (key, value)) : value.length ≤ t.length := by
  induction t generalizing s before with
  | nil => cases found
  | cons c rest ih =>
    rw [findColon] at found
    split at found
    · obtain ⟨_, rfl⟩ := Prod.mk.inj (Option.some.inj found)
      exact Nat.le_succ _
    · exact (ih found).trans (Nat.le_succ _)

theorem length_le_of_splitPair {t value : List Char} {key : List UInt16}
    (found : splitPair F t = .ok (some (key, value))) : value.length ≤ t.length := by
  rw [splitPair] at found
  cases colon : findColon .none [] t with
  | none =>
    rw [colon] at found
    cases found
  | some pair =>
    obtain ⟨before, after⟩ := pair
    rw [colon] at found
    dsimp only at found
    split at found
    · cases found
    · simp only [Fallible.bind_eq_ok, pure, Except.pure, Except.ok.injEq, Option.some.injEq,
        Prod.mk.injEq] at found
      obtain ⟨_, _, _, rfl⟩ := found
      exact (length_trim_le _).trans (length_le_of_findColon colon)

theorem length_inner_lt {t : List Char} (filled : t ≠ []) : (inner t).length < t.length := by
  rw [inner, List.length_dropLast, List.length_tail]
  have := List.length_pos_of_ne_nil filled
  omega

/-- What a scalar stands for. -/
def parseScalar (line : ℕ) (t : List Char) : Except YamlError (Json ν) :=
  if _filled : t = [] then .ok .null
  else if isWrapped '[' ']' t ∨ isWrapped '\x7b' '\x7d' t then
    match Json.parse F t with
    | some v => .ok v
    | none =>
        if t.head? = some '[' then do
          let elements ← (splitInline (inner t)).attach.mapM fun p => parseScalar line p.1
          return .array elements
        else do
          let entries ← (splitInline (inner t)).attach.mapM fun p =>
            match _here : splitPair F p.1 with
            | .error e => .error e
            | .ok none => .error (.inline line)
            | .ok (some (key, value)) => (parseScalar line value).map fun v => (key, v)
          return .object (entries.foldl Json.put [])
  else parsePlain F t
termination_by t.length
decreasing_by
  · exact (length_le_of_mem_splitInline p.2).trans_lt (length_inner_lt _filled)
  · exact ((length_le_of_splitPair F _here).trans (length_le_of_mem_splitInline p.2)).trans_lt
      (length_inner_lt _filled)

/-! ### Blocks -/

/-- The names that every object has. -/
def inheritedNames : List (List Char) :=
  ["constructor".toList, "__defineGetter__".toList, "__defineSetter__".toList,
    "hasOwnProperty".toList, "__lookupGetter__".toList, "__lookupSetter__".toList,
    "isPrototypeOf".toList, "propertyIsEnumerable".toList, "toString".toList, "valueOf".toList,
    "__proto__".toList, "toLocaleString".toList]

/-- `key in object` -/
def hasKey (object : List (List UInt16 × Json ν)) (key : List UInt16) : Bool :=
  (object.map Prod.fst).contains key || (inheritedNames.map Json.unitsOfText).contains key

def isItem (t : List Char) : Bool := t.take 2 = ['-', ' '] || t = ['-']

/-- The properties of a continuation are added to the object of a list item,
one after the other. -/
def addEntries (line : ℕ) : List (List UInt16 × Json ν) → List (List UInt16 × Json ν) →
    Except YamlError (List (List UInt16 × Json ν))
  | object, [] => .ok object
  | object, (key, v) :: rest =>
      if hasKey object key then .error (.duplicate key line)
      else addEntries line (object ++ [(key, v)]) rest

mutual

def parseBlock (n : ℕ) (lines : List YamlLine) (indent : ℕ) :
    Except YamlError (Json ν × List YamlLine) :=
  if (lines.head?.elim false fun line => isItem line.text) then parseSequence n lines indent []
  else parseMapping n lines indent []
termination_by (n, 1)

/-- The loop of `parseBlock`, from the properties read so far. -/
def parseMapping (n : ℕ) (lines : List YamlLine) (indent : ℕ) (object : List (List UInt16 × Json ν)) :
    Except YamlError (Json ν × List YamlLine) :=
  match n, lines with
  | 0, _ => .error .depth
  | _ + 1, [] => .ok (.object object, [])
  | n + 1, line :: rest =>
      if line.indent < indent then .ok (.object object, line :: rest)
      else if indent < line.indent then .error (.indentation line.number)
      else if isItem line.text then .ok (.object object, line :: rest)
      else do
        match ← splitPair F line.text with
        | none => .error (.pair line.number)
        | some (key, value) =>
            if hasKey object key then .error (.duplicate key line.number)
            else if value ≠ [] then do
              let v ← parseScalar F line.number value
              parseMapping n rest indent (object ++ [(key, v)])
            else
              match rest with
              | [] => parseMapping n [] indent (object ++ [(key, .object [])])
              | next :: _ =>
                  if next.indent ≤ indent then
                    parseMapping n rest indent (object ++ [(key, .object [])])
                  else do
                    let (v, rest) ← parseBlock n rest next.indent
                    parseMapping n rest indent (object ++ [(key, v)])
termination_by (n, 0)

/-- The loop of `parseSequence`, from the items read so far. -/
def parseSequence (n : ℕ) (lines : List YamlLine) (indent : ℕ) (values : List (Json ν)) :
    Except YamlError (Json ν × List YamlLine) :=
  match n, lines with
  | 0, _ => .error .depth
  | _ + 1, [] => .ok (.array values, [])
  | n + 1, line :: rest =>
      if line.indent < indent then .ok (.array values, line :: rest)
      else if line.indent ≠ indent ∨ ¬isItem line.text then .error (.item line.number)
      else
        let item := if line.text = ['-'] then [] else trim (line.text.drop 2)
        if item = [] then
          match rest with
          | [] => parseSequence n [] indent (values ++ [.null])
          | next :: _ =>
              if next.indent ≤ indent then parseSequence n rest indent (values ++ [.null])
              else do
                let (v, rest) ← parseBlock n rest next.indent
                parseSequence n rest indent (values ++ [v])
        else do
          match ← splitPair F item with
          | none => do
              let v ← parseScalar F line.number item
              parseSequence n rest indent (values ++ [v])
          | some (key, value) => do
              let first ← if value ≠ [] then parseScalar F line.number value else .ok (.object [])
              match rest with
              | [] => parseSequence n [] indent (values ++ [.object [(key, first)]])
              | next :: _ =>
                  if next.indent ≤ indent then
                    parseSequence n rest indent (values ++ [.object [(key, first)]])
                  else do
                    let (first, rest) ←
                      if value = [] then parseBlock n rest next.indent else .ok (first, rest)
                    match rest with
                    | [] => parseSequence n [] indent (values ++ [.object [(key, first)]])
                    | line :: _ =>
                        if line.indent = next.indent ∧ line.text.take 2 ≠ ['-', ' '] then do
                          let (more, rest) ← parseBlock n rest next.indent
                          match more with
                          | .object entries => do
                              let object ← addEntries line.number [(key, first)] entries
                              parseSequence n rest indent (values ++ [.object object])
                          | _ => .error (.continuation line.number)
                        else parseSequence n rest indent (values ++ [.object [(key, first)]])
termination_by (n, 0)

end

def parseYaml (source : List Char) : Except YamlError (Json ν) := do
  let lines ← readLines 1 (Lines.splitLines source)
  match lines with
  | [] => return .object []
  | first :: _ =>
      if first.indent ≠ 0 then .error (.root first.number)
      else
        let (v, rest) ← parseBlock F (lines.length + 1) lines first.indent
        match rest with
        | [] => return v
        | line :: _ => .error (.indentation line.number)

/-! ### Writing -/

/-- `[A-Za-z0-9_./:@+-]` -/
def isPlainUnit (u : UInt16) : Bool :=
  decide (u.toNat < 128) && ((Char.ofNat u.toNat).isAlphanum ||
    decide (Char.ofNat u.toNat ∈ ['_', '.', '/', ':', '@', '+', '-']))

/-- `/^(?:true|false|null|~)$/i` -/
def isWord (t : List Char) : Bool :=
  ["true".toList, "false".toList, "null".toList, "~".toList].contains (lowered t)

/-- The string is written without quotes. -/
def isPlainString (units : List UInt16) : Bool :=
  !units.isEmpty && units.all isPlainUnit && !isWord (Json.textOfUnits units)

def formatScalar : Json ν → List Char
  | .bool b => (if b then "true" else "false").toList
  | .number n => F.text n
  | .string units => if isPlainString units then Json.textOfUnits units else Json.literal units
  | _ => "null".toList

/-- The text of a value behind its key, if it has one. -/
def labelled (key : Option (List UInt16)) (t : List Char) : List Char :=
  match key with
  | none => t
  | some k => Json.textOfUnits k ++ ':' :: ' ' :: t

def spaces (n : ℕ) : List Char := List.replicate n ' '

/-- The line of a key whose value follows. -/
def header (indent : ℕ) : Option (List UInt16) → List (List Char)
  | none => []
  | some k => [spaces indent ++ (Json.textOfUnits k ++ [':'])]

/-- Below a key everything is indented further. -/
def childIndent (indent : ℕ) (key : Option (List UInt16)) : ℕ :=
  if key = none then indent else indent + 2

mutual

def writeYamlValue (v : Json ν) (indent : ℕ) (key : Option (List UInt16)) : List (List Char) :=
  match v with
  | .array [] => [spaces indent ++ labelled key "[]".toList]
  | .array items => header indent key ++ writeItems items (childIndent indent key)
  | .object [] => [spaces indent ++ labelled key "\x7b\x7d".toList]
  | .object entries => header indent key ++ writeEntries entries (childIndent indent key)
  | v => [spaces indent ++ labelled key (formatScalar F v)]

/-- The items of a list, each with its hyphen at this column. -/
def writeItems (items : List (Json ν)) (itemIndent : ℕ) : List (List Char) :=
  match items with
  | [] => []
  | item :: rest =>
      (match item with
      | .object [] => [spaces itemIndent ++ "- \x7b\x7d".toList]
      | .object ((k, v) :: entries) =>
          let firstLines := writeYamlValue v (itemIndent + 2) (some k)
          (spaces itemIndent ++ '-' :: ' ' :: trimStart (firstLines.head?.getD [])) ::
            (firstLines.tail ++ writeEntries entries (itemIndent + 2))
      | .array [] => [spaces itemIndent ++ "- []".toList]
      | .array (x :: xs) => (spaces itemIndent ++ ['-']) :: writeItems (x :: xs) (itemIndent + 2)
      | item => [spaces itemIndent ++ '-' :: ' ' :: formatScalar F item]) ++
        writeItems rest itemIndent

def writeEntries (entries : List (List UInt16 × Json ν)) (indent : ℕ) : List (List Char) :=
  match entries with
  | [] => []
  | (k, v) :: rest => writeYamlValue v indent (some k) ++ writeEntries rest indent

end

def stringifyYaml (v : Json ν) : List Char :=
  List.intercalate ['\n'] (writeYamlValue F v 0 none) ++ ['\n']

end

/-! ### The depth suffices -/

section

variable {ν : Type} (F : NumberFormat ν)

/-- The bound on the depth is not what makes it fail. -/
def Deep {α : Type} (x : Except YamlError α) : Prop := x ≠ .error .depth

theorem deep_bind {α β : Type} {x : Except YamlError α} {next : α → Except YamlError β}
    (first : Deep x) (more : ∀ a, x = .ok a → Deep (next a)) : Deep (x >>= next) := by
  cases x with
  | error e => exact fun same => first (congrArg Except.error (Except.error.inj same))
  | ok a => exact more a rfl

theorem deep_mapM {α β : Type} {f : α → Except YamlError β} {l : List α}
    (each : ∀ a ∈ l, Deep (f a)) : Deep (l.mapM f) := by
  induction l with
  | nil => exact nofun
  | cons a l ih =>
    obtain ⟨first, others⟩ := List.forall_mem_cons.mp each
    rw [List.mapM_cons]
    exact deep_bind first fun _ _ => deep_bind (ih others) fun _ _ => nofun

theorem deep_unquote (t : List Char) : Deep (unquote F t) := by
  rw [unquote]
  split
  · exact nofun
  · split
    · split <;> exact nofun
    · exact nofun

theorem deep_splitPair (t : List Char) : Deep (splitPair F t) := by
  rw [splitPair]
  split
  · exact nofun
  · split
    · exact nofun
    · exact deep_bind (deep_unquote F _) fun _ _ => nofun

theorem deep_parsePlain (t : List Char) : Deep (parsePlain F t) := by
  rw [parsePlain]
  split
  · exact deep_bind (deep_unquote F t) fun _ _ => nofun
  · split
    · exact nofun
    · split
      · exact nofun
      · split <;> exact nofun

theorem deep_parseScalar (line : ℕ) (t : List Char) : Deep (parseScalar F line t) := by
  induction t using parseScalar.induct F with
  | case1 =>
    rw [parseScalar]
    exact nofun
  | case2 t filled wrapped v parsed =>
    rw [parseScalar, dif_neg filled, if_pos wrapped, parsed]
    exact nofun
  | case3 t filled wrapped noJson list ih =>
    rw [parseScalar, dif_neg filled, if_pos wrapped, noJson]
    dsimp only
    rw [if_pos list]
    exact deep_bind (deep_mapM fun p _ => ih p) fun _ _ => nofun
  | case4 t filled wrapped noJson noList ih =>
    rw [parseScalar, dif_neg filled, if_pos wrapped, noJson]
    dsimp only
    rw [if_neg noList]
    refine deep_bind (deep_mapM fun p _ => ?_) fun _ _ => nofun
    split
    · next e found =>
      intro same
      cases same
      exact deep_splitPair F p.1 found
    · exact nofun
    · next key value found =>
      have deep := ih p key value found
      cases read : parseScalar F line value with
      | error e =>
        rw [read] at deep
        exact fun same => deep (congrArg Except.error (Except.error.inj same))
      | ok v => exact nofun
  | case5 t filled plain =>
    rw [parseScalar, dif_neg filled, if_neg plain]
    exact deep_parsePlain F t

theorem deep_addEntries (line : ℕ) (object entries : List (List UInt16 × Json ν)) :
    Deep (addEntries line object entries) := by
  induction entries generalizing object with
  | nil => exact nofun
  | cons p entries ih =>
    rw [addEntries]
    split
    · exact nofun
    · exact ih _

/-- A block is read within the depth, and what is left is no longer. -/
def Within (lines : List YamlLine) (x : Except YamlError (Json ν × List YamlLine)) : Prop :=
  Deep x ∧ ∀ v rest, x = .ok (v, rest) → rest.length ≤ lines.length

variable {F}

theorem within_ok {lines rest : List YamlLine} (v : Json ν) (le : rest.length ≤ lines.length) :
    Within lines (.ok (v, rest)) :=
  ⟨nofun, fun _ _ same => (Prod.mk.inj (Except.ok.inj same)).2 ▸ le⟩

theorem within_error {lines : List YamlLine} {e : YamlError} (other : e ≠ .depth) :
    Within lines (.error e : Except YamlError (Json ν × List YamlLine)) :=
  ⟨fun same => other (Except.error.inj same), nofun⟩

theorem within_bind {α : Type} {lines : List YamlLine} {x : Except YamlError α}
    {next : α → Except YamlError (Json ν × List YamlLine)} (first : Deep x)
    (more : ∀ a, x = .ok a → Within lines (next a)) : Within lines (x >>= next) := by
  cases x with
  | error e => exact within_error fun same => first (congrArg Except.error same)
  | ok a => exact more a rfl

theorem Within.mono {lines lines' : List YamlLine}
    {x : Except YamlError (Json ν × List YamlLine)} (within : Within lines x)
    (le : lines.length ≤ lines'.length) : Within lines' x :=
  ⟨within.1, fun v rest same => (within.2 v rest same).trans le⟩

/-- Continue behind a block. -/
theorem Within.bind {lines lines' : List YamlLine} {x : Except YamlError (Json ν × List YamlLine)}
    {next : Json ν × List YamlLine → Except YamlError (Json ν × List YamlLine)}
    (within : Within lines x)
    (more : ∀ v rest, rest.length ≤ lines.length → Within lines' (next (v, rest))) :
    Within lines' (x >>= next) :=
  within_bind within.1 fun (v, rest) same => more v rest (within.2 v rest same)

variable (F) in
/-- Blocks of fewer lines than the bound are read within it. -/
def Suffices (n : ℕ) : Prop := ∀ lines : List YamlLine, lines.length < n →
  (∀ indent object, Within lines (parseMapping F n lines indent object)) ∧
    ∀ indent values, Within lines (parseSequence F n lines indent values)

theorem Suffices.block {n : ℕ} (deep : Suffices F n) {lines : List YamlLine}
    (enough : lines.length < n) (indent : ℕ) : Within lines (parseBlock F n lines indent) := by
  rw [parseBlock]
  split
  · exact (deep lines enough).2 indent []
  · exact (deep lines enough).1 indent []

theorem Suffices.mapping {n : ℕ} (deep : Suffices F n) {lines : List YamlLine}
    (enough : lines.length < n + 1) (indent : ℕ) (object : List (List UInt16 × Json ν)) :
    Within lines (parseMapping F (n + 1) lines indent object) := by
  cases lines with
  | nil =>
    rw [parseMapping.eq_def]
    exact within_ok _ (Nat.le_refl _)
  | cons line rest =>
    have left : rest.length < n := Nat.lt_of_succ_lt_succ enough
    have longer : rest.length ≤ (line :: rest).length := Nat.le_succ _
    have go_on (object : List (List UInt16 × Json ν)) {rest' : List YamlLine}
        (le : rest'.length ≤ rest.length) :
        Within (line :: rest) (parseMapping F n rest' indent object) :=
      ((deep rest' (le.trans_lt left)).1 indent object).mono (le.trans longer)
    rw [parseMapping.eq_def]
    dsimp only
    split
    · exact within_ok _ (Nat.le_refl _)
    split
    · exact within_error nofun
    split
    · exact within_ok _ (Nat.le_refl _)
    refine within_bind (deep_splitPair F line.text) fun pair _ => ?_
    split
    · exact within_error nofun
    split
    · exact within_error nofun
    split
    · exact within_bind (deep_parseScalar F _ _) fun v _ => go_on _ (Nat.le_refl _)
    split
    · exact go_on _ (Nat.zero_le _)
    split
    · exact go_on _ (Nat.le_refl _)
    · exact (deep.block left _).bind fun v rest' le => go_on _ le

/-- What may follow the first property of an item. -/
theorem Suffices.continued {n : ℕ} (deep : Suffices F n) {lines : List YamlLine}
    (enough : lines.length < n) (key : List UInt16) (first : Json ν) (deeper indent : ℕ)
    (values : List (Json ν)) :
    Within lines (match lines with
      | [] => parseSequence F n [] indent (values ++ [.object [(key, first)]])
      | line :: _ =>
          if line.indent = deeper ∧ line.text.take 2 ≠ ['-', ' '] then do
            let (more, rest) ← parseBlock F n lines deeper
            match more with
            | .object entries => do
                let object ← addEntries line.number [(key, first)] entries
                parseSequence F n rest indent (values ++ [.object object])
            | _ => .error (.continuation line.number)
          else parseSequence F n lines indent (values ++ [.object [(key, first)]])) := by
  have go_on (values : List (Json ν)) {rest : List YamlLine} (le : rest.length ≤ lines.length) :
      Within lines (parseSequence F n rest indent values) :=
    ((deep rest (le.trans_lt enough)).2 indent values).mono le
  split
  · exact go_on _ (Nat.le_refl _)
  split
  · refine (deep.block enough deeper).bind fun more rest le => ?_
    dsimp only
    split
    · exact within_bind (deep_addEntries _ _ _) fun object _ => go_on _ le
    · exact within_error nofun
  · exact go_on _ (Nat.le_refl _)

theorem Suffices.sequence {n : ℕ} (deep : Suffices F n) {lines : List YamlLine}
    (enough : lines.length < n + 1) (indent : ℕ) (values : List (Json ν)) :
    Within lines (parseSequence F (n + 1) lines indent values) := by
  cases lines with
  | nil =>
    rw [parseSequence.eq_def]
    exact within_ok _ (Nat.le_refl _)
  | cons line rest =>
    have left : rest.length < n := Nat.lt_of_succ_lt_succ enough
    have longer : rest.length ≤ (line :: rest).length := Nat.le_succ _
    have go_on (values : List (Json ν)) {rest' : List YamlLine}
        (le : rest'.length ≤ rest.length) :
        Within (line :: rest) (parseSequence F n rest' indent values) :=
      ((deep rest' (le.trans_lt left)).2 indent values).mono (le.trans longer)
    rw [parseSequence.eq_def]
    dsimp only
    generalize (if line.text = ['-'] then [] else trim (line.text.drop 2)) = item
    split
    · exact within_ok _ (Nat.le_refl _)
    split
    · exact within_error nofun
    split
    · split
      · exact go_on _ (Nat.le_refl _)
      split
      · exact go_on _ (Nat.le_refl _)
      · exact (deep.block left _).bind fun v rest' le => go_on _ le
    refine within_bind (deep_splitPair F item) fun pair _ => ?_
    split
    · exact within_bind (deep_parseScalar F _ _) fun v _ => go_on _ (Nat.le_refl _)
    split
    · refine within_bind (deep_parseScalar F _ _) fun first _ => ?_
      split
      · exact go_on _ (Nat.le_refl _)
      split
      · exact go_on _ (Nat.le_refl _)
      · exact (deep.continued left _ first _ indent values).mono longer
    · refine within_bind nofun fun first _ => ?_
      split
      · exact go_on _ (Nat.le_refl _)
      split
      · exact go_on _ (Nat.le_refl _)
      split
      · refine (deep.block left _).bind fun first rest' le => ?_
        exact (deep.continued (le.trans_lt left) _ first _ indent values).mono (le.trans longer)
      · exact (deep.continued left _ first _ indent values).mono longer

theorem suffices_all (n : ℕ) : Suffices F n := by
  induction n with
  | zero => exact fun _ enough => absurd enough (Nat.not_lt_zero _)
  | succ n ih => exact fun lines enough => ⟨ih.mapping enough, ih.sequence enough⟩

theorem deep_readLines (number : ℕ) (raws : List (List Char)) : Deep (readLines number raws) := by
  induction raws generalizing number with
  | nil => exact nofun
  | cons raw raws ih =>
    have line : Deep (readLine number raw) := by
      rw [readLine]
      split
      · exact nofun
      · dsimp only
        split <;> exact nofun
    rw [readLines]
    exact deep_bind line fun _ _ => deep_bind (ih _) fun _ _ => nofun

variable (F) in
/-- No text is too deep. -/
theorem parseYaml_deep (source : List Char) : parseYaml F source ≠ .error .depth := by
  refine deep_bind (deep_readLines 1 _) fun lines _ => ?_
  split
  · exact nofun
  · next first rest =>
    split
    · exact nofun
    · refine deep_bind ((suffices_all _).block (Nat.lt_succ_self _) _).1 fun pair _ => ?_
      obtain ⟨v, left⟩ := pair
      cases left <;> exact nofun

end

end OmpBundler.Cli
