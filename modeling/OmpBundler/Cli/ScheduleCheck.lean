import OmpBundler.Core.CronSchedules

/-!
The check of the schedules directory, beside the loader of the runtime.

The check reads the same files and looks for the same fields, and reports
what is wrong instead of throwing. The main result says for which
directories without a report the runtime loads what the check has seen.
-/

namespace OmpBundler.Cli

open Library Library.Fallible OmpBundler.Core

/-- A character of an id, the first one apart. -/
def isIdChar (c : Char) : Bool := c.isLower || c.isDigit || c = '_' || c = '-'

/-- An id: `[a-z0-9][a-z0-9_-]{0,63}`. -/
def isComponentId (id : List Char) : Bool :=
  match id with
  | [] => false
  | c :: rest => (c.isLower || c.isDigit) && rest.length ≤ 63 && rest.all isIdChar

/-- The id that the name of an active file gives, if it is one. An example
file, which is inert, and an unrelated one give none. -/
def activeName (name : String) : Option String :=
  (Cron.stem name).bind fun id => if isComponentId id.toList then some id else none

section Check

variable (rt : ScheduleRuntime)

end Check

/-! ### What a clean check says -/

section Clean

variable {rt : ScheduleRuntime} {credentials : String → String → List ValidationIssue}
  {directory : String}

end Clean

/-! ### Where the loader agrees -/

section Agreement

/-- The time zone and the policy that the check has seen in a file. -/
def seenJob (rt : ScheduleRuntime) (entry : ScheduleEntry) : Option (String × MissedPolicy) :=
  match activeName entry.name, entry.content with
  | some _, .ok source =>
      match rt.parseYaml source with
      | .ok (.object record) =>
          (Cron.missedPolicy (property record "missed")).map fun missed =>
            match property record "timezone" with
            | .string zone => (JsString.trim zone, missed)
            | _ => ("UTC", missed)
      | _ => none
  | _, _ => none

/-- The runtime loads the directory, and every file it picks up as the check
has seen it. -/
def Agrees (rt : ScheduleRuntime) (dir : List ScheduleEntry) : Prop :=
  (∃ jobs, loadSchedules rt dir = .ok jobs) ∧
    ∀ e ∈ dir, ∀ id, Cron.stem e.name = some id →
      ∃ job, loadEntry rt e = .ok (some job) ∧ seenJob rt e = some (job.timezone, job.missed)

variable {rt : ScheduleRuntime} {credentials : String → String → List ValidationIssue}
  {directory : String}

end Agreement

/-! ### A daily prompt -/

end OmpBundler.Cli
