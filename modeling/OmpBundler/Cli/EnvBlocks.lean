import Mathlib.Data.List.Dedup
import Mathlib.Data.List.Sort
import OmpBundler.Library.JsString
import OmpBundler.Library.Lines
import OmpBundler.Library.Utf16

/-!
The generated blocks of an env file.

A block is a comment line and the rows that follow it. The functions rewrite
their block, remove the rows that it replaces elsewhere, and leave the other
lines as they are; the rows of a model block are protected.
-/

namespace OmpBundler.Cli

open Library Library.Lines
open JsString (isSpace)

/-! ### Rows -/

def isEnvChar (c : Char) : Bool := c.isUpper || c.isDigit || c = '_'

/-- `^\s*([A-Z0-9_]*)\s*=`: the name in a row. -/
def rowName (line : Line) : Option Line :=
  let body := line.dropWhile isSpace
  match (body.dropWhile isEnvChar).dropWhile isSpace with
  | '=' :: _ => some (body.takeWhile isEnvChar)
  | _ => none

/-- `ENV_ASSIGNMENT_RE`. -/
def isAssignment (line : Line) : Bool :=
  match rowName line with
  | some (c :: _) => !c.isDigit
  | _ => false

/-- `ENV_NAME_RE`. -/
def isEnvName (name : Line) : Bool :=
  match name with
  | c :: _ => !c.isDigit && name.all isEnvChar
  | [] => false

/-- What stands behind the equals sign. -/
def rowValue (line : Line) : Line := (line.dropWhile (· ≠ '=')).drop 1

/-- The row with another value. -/
def setRow (line value : Line) : Line := line.takeWhile (· ≠ '=') ++ '=' :: value

/-- `trim() === ""`. -/
def isBlankLine (line : Line) : Bool := line.all isSpace

def isComment (line : Line) : Bool := (line.dropWhile isSpace).head? = some '#'

/-! ### Headings -/

def modelEnvHeading : Line :=
  "# Model provider credentials. Copy this file to runtime.env and fill these values.".toList

def pumbleEnvHeading : Line :=
  "# Pumble adapter. Fill these values from the Pumble app dashboard, then run the bundle.".toList

/-! The characters of a fixed text are spelled out once, for decoding it is slow. -/

theorem modelEnvHeading_chars : modelEnvHeading =
    ['#', ' ', 'M', 'o', 'd', 'e', 'l', ' ', 'p', 'r', 'o', 'v', 'i', 'd', 'e', 'r', ' ', 'c',
     'r', 'e', 'd', 'e', 'n', 't', 'i', 'a', 'l', 's', '.', ' ', 'C', 'o', 'p', 'y', ' ', 't',
     'h', 'i', 's', ' ', 'f', 'i', 'l', 'e', ' ', 't', 'o', ' ', 'r', 'u', 'n', 't', 'i', 'm',
     'e', '.', 'e', 'n', 'v', ' ', 'a', 'n', 'd', ' ', 'f', 'i', 'l', 'l', ' ', 't', 'h', 'e',
     's', 'e', ' ', 'v', 'a', 'l', 'u', 'e', 's', '.'] :=
  String.toList_ofList

theorem pumbleEnvHeading_chars : pumbleEnvHeading =
    ['#', ' ', 'P', 'u', 'm', 'b', 'l', 'e', ' ', 'a', 'd', 'a', 'p', 't', 'e', 'r', '.', ' ',
     'F', 'i', 'l', 'l', ' ', 't', 'h', 'e', 's', 'e', ' ', 'v', 'a', 'l', 'u', 'e', 's', ' ',
     'f', 'r', 'o', 'm', ' ', 't', 'h', 'e', ' ', 'P', 'u', 'm', 'b', 'l', 'e', ' ', 'a', 'p',
     'p', ' ', 'd', 'a', 's', 'h', 'b', 'o', 'a', 'r', 'd', ',', ' ', 't', 'h', 'e', 'n', ' ',
     'r', 'u', 'n', ' ', 't', 'h', 'e', ' ', 'b', 'u', 'n', 'd', 'l', 'e', '.'] :=
  String.toList_ofList

def isConnectionIdChar (c : Char) : Bool := c.isLower || c.isDigit || c = '_' || c = '-'

/-- The heading of a block in the older format, with the id of a provider. -/
def isConnectionHeading (line : Line) : Bool :=
  let opening := "# Model connection for ".toList
  let rest := line.drop opening.length
  let id := rest.takeWhile isConnectionIdChar
  opening.isPrefixOf line && id.length ≤ 64 && (id.head?.any fun c => c.isLower || c.isDigit) &&
    rest.dropWhile isConnectionIdChar = ". Copy this file to runtime.env and fill these values.".toList

/-- `MODEL_ENV_HEADING_RE`. -/
def isModelHeading (line : Line) : Bool := line = modelEnvHeading || isConnectionHeading line

/-! ### A managed block -/

/-- The name in an assignment; without an equals sign `slice(0, -1)`. -/
def assignmentName (assignment : Line) : Line :=
  if '=' ∈ assignment then assignment.takeWhile (· ≠ '=') else assignment.dropLast

def isManagedRow (line : Line) : Bool :=
  !isBlankLine line && !isComment line && isAssignment line

/-- A blank line in front of what is appended, unless there is one. -/
def separator (lines : List Line) : List Line :=
  match lines.getLast? with
  | some last => if isBlankLine last then [] else [[]]
  | none => []

/-- The lines without the first blank one. -/
def dropBlankLine : List Line → List Line
  | [] => []
  | l :: rest => if isBlankLine l then rest else l :: rest

section Managed

variable (localeLe : Line → Line → Bool)

/-- `updateManagedEnvBlock`; it throws the name that is invalid. -/
def updateManagedEnvBlock (source : List Char) (heading : Line) (assignments : List Line) :
    Except Line (List Char) :=
  match assignments.find? fun assignment => !isEnvName (assignmentName assignment) with
  | some invalid => .error (assignmentName invalid)
  | none =>
      let eol := detectEol source
      let lines := linesOf source
      let sorted := assignments.mergeSort localeLe
      match lines.dropWhile (· ≠ heading) with
      | _ :: rest =>
          let before := lines.takeWhile (· ≠ heading)
          let after := rest.dropWhile isManagedRow
          if sorted = [] then .ok (unlines eol (before ++ dropBlankLine after))
          else .ok (unlines eol (before ++ heading :: (sorted ++ after)))
      | [] =>
          if sorted = [] then .ok source
          else .ok (unlines eol (lines ++ separator lines ++ heading :: sorted))

/-- The model blocks are removed from the last one to the first, each with a
blank line behind it. -/
def removeModelBlocks : List Line → List Line
  | [] => []
  | line :: lines =>
      let rest := removeModelBlocks lines
      if isModelHeading line then dropBlankLine (rest.dropWhile isAssignment) else line :: rest

/-- The rows for some names, each name once. -/
def envAssignments (envNames : List String) : List Line :=
  (envNames.dedup.insertionSort Utf16.le).map fun name => name.toList ++ ['=']

def updateModelEnvBlock (source : List Char) (envNames : List String) : Except Line (List Char) :=
  let cleaned := unlines (detectEol source) (removeModelBlocks (linesOf source))
  updateManagedEnvBlock localeLe cleaned modelEnvHeading (envAssignments envNames)

end Managed

/-! ### The Pumble block -/

def pumbleRuntimeFields : List Line :=
  ["PUMBLE_APP_ID".toList, "PUMBLE_APP_CLIENT_SECRET".toList, "PUMBLE_APP_KEY".toList,
    "PUMBLE_APP_SIGNING_SECRET".toList, "PUMBLE_PUBLIC_BASE_URL".toList,
    "PUMBLE_CORE_SHARED_SECRET".toList]

theorem pumbleRuntimeFields_chars : pumbleRuntimeFields =
    [['P', 'U', 'M', 'B', 'L', 'E', '_', 'A', 'P', 'P', '_', 'I', 'D'],
     ['P', 'U', 'M', 'B', 'L', 'E', '_', 'A', 'P', 'P', '_', 'C', 'L', 'I', 'E', 'N', 'T', '_',
      'S', 'E', 'C', 'R', 'E', 'T'],
     ['P', 'U', 'M', 'B', 'L', 'E', '_', 'A', 'P', 'P', '_', 'K', 'E', 'Y'],
     ['P', 'U', 'M', 'B', 'L', 'E', '_', 'A', 'P', 'P', '_', 'S', 'I', 'G', 'N', 'I', 'N', 'G',
      '_', 'S', 'E', 'C', 'R', 'E', 'T'],
     ['P', 'U', 'M', 'B', 'L', 'E', '_', 'P', 'U', 'B', 'L', 'I', 'C', '_', 'B', 'A', 'S', 'E',
      '_', 'U', 'R', 'L'],
     ['P', 'U', 'M', 'B', 'L', 'E', '_', 'C', 'O', 'R', 'E', '_', 'S', 'H', 'A', 'R', 'E', 'D',
      '_', 'S', 'E', 'C', 'R', 'E', 'T']] := by
  simp only [pumbleRuntimeFields, List.cons.injEq]
  exact ⟨String.toList_ofList, String.toList_ofList, String.toList_ofList, String.toList_ofList,
    String.toList_ofList, String.toList_ofList, trivial⟩

def adapterName : Line := "OMP_BUNDLER_ADAPTER".toList

theorem adapterName_chars : adapterName =
    ['O', 'M', 'P', '_', 'B', 'U', 'N', 'D', 'L', 'E', 'R', '_', 'A', 'D', 'A', 'P', 'T', 'E',
     'R'] :=
  String.toList_ofList

def agentIdName : Line := "PUMBLE_AGENT_ID".toList

def isPumbleName (name : Line) : Bool := "PUMBLE_".toList.isPrefixOf name

/-- Which lines belong to a model block, where `inside` says that the line
before the first one does. -/
def managedModelBlockLines (inside : Bool) : List Line → List Bool
  | [] => []
  | line :: lines =>
      let own := isModelHeading line || inside && isAssignment line
      own :: managedModelBlockLines own lines

/-- A row that may belong to the Pumble block. -/
def isPumbleBlockRow (line : Line) : Bool :=
  !isBlankLine line && !isComment line &&
    (rowName line).any fun name => name = adapterName || isPumbleName name

/-- Which lines belong to the first Pumble block. -/
def pumbleBlockLines (lines : List Line) : List Bool :=
  let before := lines.takeWhile (· ≠ pumbleEnvHeading)
  before.map (fun _ => false) ++
    match lines.dropWhile (· ≠ pumbleEnvHeading) with
    | [] => []
    | _ :: rest =>
        true :: ((rest.takeWhile isPumbleBlockRow).map (fun _ => true) ++
          (rest.dropWhile isPumbleBlockRow).map fun _ => false)

/-- The first value of a field that is not blank, outside of model blocks. -/
def knownValue (lines : List Line) (field : Line) : Line :=
  ((lines.zip (managedModelBlockLines false lines)).findSome? fun (line, model) =>
    if !model && rowName line = some field && !isBlankLine (rowValue line) then
      some (rowValue line)
    else none).getD []

/-- A row that the block replaces. -/
def isReplacedRow (line : Line) : Bool :=
  (rowName line).any fun name =>
    name = agentIdName || isPumbleName name && name ∈ pumbleRuntimeFields

/-- The lines without the rows that the block replaces. -/
def filteredLines (lines : List Line) : List Line :=
  ((lines.zip (managedModelBlockLines false lines)).zip (pumbleBlockLines lines)).filterMap
    fun ((line, model), block) => if model || block || !isReplacedRow line then some line else none

def isAdapterRow (line : Line) : Bool := rowName line = some adapterName

/-- The adapter rows outside of model blocks are set; where there is none, one is
put in front. -/
def withAdapter (lines : List Line) : List Line :=
  let flagged := lines.zip (managedModelBlockLines false lines)
  let set := flagged.map fun (line, model) =>
    if model || !isAdapterRow line then line else setRow line "pumble".toList
  if flagged.any fun (line, model) => !model && isAdapterRow line then set
  else (adapterName ++ "=pumble".toList) :: set

/-- The block, with the values that are known. -/
def pumbleBlock (value : Line → Line) : List Line :=
  pumbleEnvHeading :: pumbleRuntimeFields.map fun field => field ++ '=' :: value field

/-- The block in place of the one that is there, or at the end. -/
def withBlock (block lines : List Line) : List Line :=
  match lines.dropWhile (· ≠ pumbleEnvHeading) with
  | _ :: rest =>
      lines.takeWhile (· ≠ pumbleEnvHeading) ++ (block ++ rest.dropWhile isPumbleBlockRow)
  | [] => lines ++ separator lines ++ block

def updatedLines (lines : List Line) : List Line :=
  withBlock (pumbleBlock (knownValue lines)) (withAdapter (filteredLines lines))

def updatePumbleBlock (source : List Char) : List Char :=
  unlines (detectEol source) (updatedLines (linesOf source))

end OmpBundler.Cli
