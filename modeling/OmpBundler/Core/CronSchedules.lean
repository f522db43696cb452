import OmpBundler.Core.CronExpression
import OmpBundler.Core.InboundValidation
import OmpBundler.Library.Fallible

/-!
The schedule files that the cron scheduler loads.

Every file whose name ends in `.yml` is a schedule, and its stem is the id
of the job. A file that is not well formed makes the whole load throw. The
parser of YAML, the conversion of texts to numbers and the knowledge of
time zones are those of the runtime, and parameters here.
-/

namespace OmpBundler.Core

open Library Library.Fallible

/-- What the runtime provides. -/
structure ScheduleRuntime where
  parseYaml : String → Except String JsValue
  /-- `Number(text)`; none if it is not a finite number. -/
  numberOf : String → Option ℚ
  /-- Whether `Intl` can format times of this zone. -/
  validTimezone : String → Bool
  utc : validTimezone "UTC" = true

/-- What to do about fires that were missed. -/
inductive MissedPolicy where
  | skip
  | catchUp
  deriving DecidableEq, Repr

/-- A job, loaded from a schedule file. -/
structure CronJob where
  id : String
  schedule : String
  timezone : String
  missed : MissedPolicy
  prompt : Option String
  command : Option String
  timeout : Option ℕ
  runAtBoot : Bool
  parsed : CronSchedule
  deriving DecidableEq, Repr

/-- A file of the schedules directory. -/
inductive EntryKind where
  | file
  | symlink
  | other
  deriving DecidableEq, Repr

structure ScheduleEntry where
  name : String
  kind : EntryKind
  /-- Its text, or why it cannot be read. -/
  content : Except String String

namespace Cron

/-- Default timeout of commands, in seconds. -/
def defaultCommandTimeoutSeconds : ℕ := 600

/-- A text that is more than white space. -/
def nonBlank (text : String) : Bool := JsString.trimChars text.toList ≠ []

/-- The beginning of an error about a schedule. -/
def about (id : String) : String := "schedule '" ++ id ++ "'"

def requiredString (record : List (String × JsValue)) (field id : String) :
    Except String String :=
  match property record field with
  | .string text =>
      if nonBlank text then .ok text
      else .error (about id ++ ": " ++ field ++ " must be a non-empty string")
  | _ => .error (about id ++ ": " ++ field ++ " must be a non-empty string")

def optionalString (record : List (String × JsValue)) (field id : String) :
    Except String (Option String) :=
  match property record field with
  | .undefined => .ok none
  | _ => (requiredString record field id).map some

/-- A positive integer, given as a number or as its text. -/
def positiveInteger (rt : ScheduleRuntime) (value : JsValue) : Option ℕ :=
  let number := match value with
    | .number q => some q
    | .string text => if nonBlank text then rt.numberOf text else none
    | _ => none
  number.bind fun q => if q.den = 1 ∧ 0 < q.num then some q.num.toNat else none

/-- The stem of the name of a schedule file; none if it is inert. -/
def stem (name : String) : Option String :=
  if ".yml".toList <:+ name.toList then some (String.ofList (name.toList.dropLast.dropLast.dropLast.dropLast))
  else none

def missedPolicy : JsValue → Option MissedPolicy
  | .string "skip" => some .skip
  | .string "catchUp" => some .catchUp
  | _ => none

end Cron

namespace Cron

/-- The timeout of a job, if it has one. -/
def commandTimeout (rt : ScheduleRuntime) (id : String) (command : Option String) :
    JsValue → Except String (Option ℕ)
  | .undefined => .ok (command.map fun _ => defaultCommandTimeoutSeconds)
  | value =>
      if command = none then .error (about id ++ ": timeout is only valid with command")
      else
        match positiveInteger rt value with
        | none => .error (about id ++ ": timeout must be a positive finite integer")
        | some timeout => .ok (some timeout)

def bootFlag (id : String) : JsValue → Except String Bool
  | .undefined => .ok false
  | .bool value => .ok value
  | _ => .error (about id ++ ": runAtBoot must be true or false")

/-- The job that a mapping describes. -/
def parseRecord (rt : ScheduleRuntime) (id : String) (record : List (String × JsValue)) :
    Except String CronJob := do
  let schedule ← requiredString record "schedule" id
  let timezone ← Cron.optionalString record "timezone" id
  let missed ← (missedPolicy (property record "missed")).elim
    (.error (about id ++ ": missed must be 'skip' or 'catchUp'")) .ok
  let prompt ← Cron.optionalString record "prompt" id
  let command ← Cron.optionalString record "command" id
  require (prompt.isSome ≠ command.isSome)
    (about id ++ ": exactly one of prompt or command is required")
  let timeout ← commandTimeout rt id command (property record "timeout")
  let runAtBoot ← bootFlag id (property record "runAtBoot")
  let timezone := timezone.getD "UTC"
  require (rt.validTimezone timezone)
    (about id ++ ": timezone '" ++ timezone ++ "' is not a valid IANA timezone")
  let parsed ← (parseCronExpression schedule).mapError fun error => about id ++ ": " ++ error
  return { id, schedule, timezone, missed, prompt, command, timeout, runAtBoot, parsed }

end Cron

/-- Parse the body of a schedule file. -/
def parseScheduleFile (rt : ScheduleRuntime) (id source : String) : Except String CronJob :=
  match rt.parseYaml source with
  | .error error => .error error
  | .ok (.object record) => Cron.parseRecord rt id record
  | .ok _ => .error (Cron.about id ++ " must be a YAML mapping")

/-- Load a file of the directory, unless it is inert. -/
def loadEntry (rt : ScheduleRuntime) (entry : ScheduleEntry) : Except String (Option CronJob) :=
  match Cron.stem entry.name with
  | none => .ok none
  | some id => do
      let source ← entry.content
      return some (← parseScheduleFile rt id source)

/-- Load every schedule of a directory, in the order of the names. -/
def loadSchedules (rt : ScheduleRuntime) (dir : List ScheduleEntry) :
    Except String (List CronJob) := do
  let jobs ← (dir.insertionSort fun a b => Utf16.le a.name b.name).mapM (loadEntry rt)
  return jobs.filterMap id

end OmpBundler.Core
