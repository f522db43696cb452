import OmpBundler.Core.GroupRegistry

/-!
Calls on the child registry that overlap.

Every call is queued behind the promise of the call before it, and a call
reads the file, decides, prepares a new file and renames it, with other code
running in between. Whatever fails on the way, the file is what the calls
that have succeeded make of it one after the other, in the order in which
they were made, and these calls have the results that they have there.
-/

namespace OmpBundler.Core

open Library

/-! ### One call after the other -/

/-- A whole call on a file, with what the operating system answers. -/
def RegistryOperation.perform (path : String) (operation : RegistryOperation)
    (probe : String → GroupProbe) (file : RegistryFile) :
    Except String (RegistryFile × Option SweepResult) :=
  match readChildRegistry path file with
  | .error error => .error error
  | .ok registry =>
      match operation.decision probe registry with
      | .error error => .error error
      | .ok (none, result) => .ok (file, result)
      | .ok (some next, result) => .ok (.valid next, result)

/-- Calls that are made one after the other: the file that they leave, and
their results. -/
def serially (path : String) (file : RegistryFile) :
    List (RegistryOperation × (String → GroupProbe)) →
      RegistryFile × List (Except String (Option SweepResult))
  | [] => (file, [])
  | (operation, probe) :: rest =>
      match operation.perform path probe file with
      | .error error =>
          let ended := serially path file rest
          (ended.1, .error error :: ended.2)
      | .ok (next, result) =>
          let ended := serially path next rest
          (ended.1, .ok result :: ended.2)

theorem serially_append (path : String) (file : RegistryFile)
    (first second : List (RegistryOperation × (String → GroupProbe))) :
    serially path file (first ++ second) =
      ((serially path (serially path file first).1 second).1,
        (serially path file first).2 ++ (serially path (serially path file first).1 second).2) := by
  induction first generalizing file with
  | nil => rfl
  | cons call rest ih =>
      obtain ⟨operation, probe⟩ := call
      rw [List.cons_append, serially, serially]
      cases operation.perform path probe file with
      | error error =>
          dsimp only
          rw [ih]
          rfl
      | ok ended =>
          dsimp only
          rw [ih]
          rfl

/-- One more call, which succeeds. -/
theorem serially_concat {path : String} {file next : RegistryFile}
    {calls : List (RegistryOperation × (String → GroupProbe))} {operation : RegistryOperation}
    {probe : String → GroupProbe} {result : Option SweepResult}
    (performed : operation.perform path probe (serially path file calls).1 = .ok (next, result)) :
    serially path file (calls ++ [(operation, probe)]) =
      (next, (serially path file calls).2 ++ [.ok result]) := by
  rw [serially_append, serially, performed]
  rfl

/-! ### Calls that overlap -/

/-- How far a call is. -/
inductive QueuedStage where
  /-- The promise before it is pending. -/
  | waiting
  | reading
  /-- The directory is made and the temporary file is written. -/
  | preparing (probe : String → GroupProbe) (next : ChildRegistry) (result : Option SweepResult)
  | replacing (probe : String → GroupProbe) (next : ChildRegistry) (result : Option SweepResult)
  | succeeded (probe : String → GroupProbe) (result : Option SweepResult)
  | failed (error : String)

/-- The promise of the call is settled. -/
def QueuedStage.settled : QueuedStage → Bool
  | succeeded _ _ | failed _ => true
  | _ => false

def QueuedStage.started : QueuedStage → Bool
  | waiting => false
  | _ => true

theorem QueuedStage.started_of_settled {stage : QueuedStage} (settled : stage.settled = true) :
    stage.started = true := by
  cases stage <;> first | rfl | cases settled

structure QueuedCall where
  operation : RegistryOperation
  /-- The call whose promise was in `registryLocks` when this one was made. -/
  previous : Option ℕ
  stage : QueuedStage

/-- A call that has succeeded, with the answers it was given. -/
structure SucceededCall where
  operation : RegistryOperation
  probe : String → GroupProbe
  result : Option SweepResult

def SucceededCall.input (c : SucceededCall) : RegistryOperation × (String → GroupProbe) :=
  (c.operation, c.probe)

def QueuedCall.succeeded? (c : QueuedCall) : Option SucceededCall :=
  match c.stage with
  | .succeeded probe result => some ⟨c.operation, probe, result⟩
  | _ => none

/-- The registry file and the calls on it, in the order they are made. -/
structure RegistryCalls where
  path : String
  file : RegistryFile
  calls : List QueuedCall
  /-- `registryLocks.get(path)`: the last call. -/
  lock : Option ℕ

inductive QueuedAction where
  | call (operation : RegistryOperation)
  /-- The promise before the call has settled, and `fn` runs. -/
  | start (i : ℕ)
  /-- The file has been read, or could not be. -/
  | read (i : ℕ) (io : Except String Unit) (probe : String → GroupProbe)
  | prepare (i : ℕ) (io : Except String Unit)
  | rename (i : ℕ) (io : Except String Unit)

namespace RegistryCalls

variable (s : RegistryCalls)

def initial (path : String) (file : RegistryFile) : RegistryCalls := ⟨path, file, [], none⟩

/-- The calls that have succeeded, in the order they were made. -/
def succeeded : List SucceededCall := s.calls.filterMap QueuedCall.succeeded?

def withRegistryLock (operation : RegistryOperation) : RegistryCalls :=
  { s with
    calls := s.calls ++ [⟨operation, s.lock, .waiting⟩]
    lock := some s.calls.length }

def setStage (i : ℕ) (c : QueuedCall) (stage : QueuedStage) : RegistryCalls :=
  { s with calls := s.calls.set i { c with stage } }

/-- The promise that the call waits for is settled. -/
def free (c : QueuedCall) : Bool :=
  c.previous.all fun j => (s.calls[j]?).any fun before => before.stage.settled

/-- The stage of a call after the file has been read. -/
def decided (c : QueuedCall) (io : Except String Unit) (probe : String → GroupProbe) :
    QueuedStage :=
  match io, readChildRegistry s.path s.file with
  | .error error, _ | .ok _, .error error => .failed error
  | .ok _, .ok registry =>
      match c.operation.decision probe registry with
      | .error error => .failed error
      | .ok (none, result) => .succeeded probe result
      | .ok (some next, result) => .preparing probe next result

/-- What a call does next. -/
def advance (i : ℕ) (c : QueuedCall) (a : QueuedAction) : Option RegistryCalls :=
  match a, c.stage with
  | .start _, .waiting => if s.free c then some (s.setStage i c .reading) else none
  | .read _ io probe, .reading => some (s.setStage i c (s.decided c io probe))
  | .prepare _ (.ok _), .preparing probe next result =>
      some (s.setStage i c (.replacing probe next result))
  | .prepare _ (.error error), .preparing _ _ _ => some (s.setStage i c (.failed error))
  | .rename _ (.ok _), .replacing probe next result =>
      some { s.setStage i c (.succeeded probe result) with file := .valid next }
  | .rename _ (.error error), .replacing _ _ _ => some (s.setStage i c (.failed error))
  | _, _ => none

def step : QueuedAction → Option RegistryCalls
  | .call operation => some (s.withRegistryLock operation)
  | .start i => (s.calls[i]?).bind fun c => s.advance i c (.start i)
  | .read i io probe => (s.calls[i]?).bind fun c => s.advance i c (.read i io probe)
  | .prepare i io => (s.calls[i]?).bind fun c => s.advance i c (.prepare i io)
  | .rename i io => (s.calls[i]?).bind fun c => s.advance i c (.rename i io)

def machine : Transition.Machine RegistryCalls QueuedAction where
  init s := ∃ path file, s = initial path file
  step := step

variable {s}

/-! ### What a step can do -/

/-- A call goes from its stage to another one, and leaves a file. -/
inductive Moved (s : RegistryCalls) (c : QueuedCall) : QueuedStage → RegistryFile → Prop
  | starts (waiting : c.stage = .waiting) (free : s.free c = true) : Moved s c .reading s.file
  | fails (error : String) (started : c.stage.started = true) : Moved s c (.failed error) s.file
  | idle {registry : ChildRegistry} {probe : String → GroupProbe} {result : Option SweepResult}
      (reading : c.stage = .reading) (read : readChildRegistry s.path s.file = .ok registry)
      (decision : c.operation.decision probe registry = .ok (none, result)) :
      Moved s c (.succeeded probe result) s.file
  | decides {registry next : ChildRegistry} {probe : String → GroupProbe}
      {result : Option SweepResult} (reading : c.stage = .reading)
      (read : readChildRegistry s.path s.file = .ok registry)
      (decision : c.operation.decision probe registry = .ok (some next, result)) :
      Moved s c (.preparing probe next result) s.file
  | prepares {next : ChildRegistry} {probe : String → GroupProbe} {result : Option SweepResult}
      (preparing : c.stage = .preparing probe next result) :
      Moved s c (.replacing probe next result) s.file
  | replaces {next : ChildRegistry} {probe : String → GroupProbe} {result : Option SweepResult}
      (replacing : c.stage = .replacing probe next result) :
      Moved s c (.succeeded probe result) (.valid next)

theorem moved_decided {c : QueuedCall} (reading : c.stage = .reading)
    (io : Except String Unit) (probe : String → GroupProbe) :
    Moved s c (s.decided c io probe) s.file := by
  have started : c.stage.started = true := by
    rw [reading]
    rfl
  unfold decided
  cases io with
  | error error => exact .fails error started
  | ok _ =>
  cases read : readChildRegistry s.path s.file with
  | error error => exact .fails error started
  | ok registry =>
  dsimp only
  cases decision : c.operation.decision probe registry with
  | error error => exact .fails error started
  | ok outcome =>
  obtain ⟨next | next, result⟩ := outcome
  · exact .idle reading read decision
  · exact .decides reading read decision

theorem moved_advance {i : ℕ} {c : QueuedCall} {a : QueuedAction} {t : RegistryCalls}
    (taken : s.advance i c a = some t) :
    ∃ stage file, Moved s c stage file ∧ c.stage.settled = false ∧
      t = { s.setStage i c stage with file } := by
  have started {stage : QueuedStage} (here : c.stage = stage) (goes : stage.started = true) :
      c.stage.started = true := here ▸ goes
  unfold advance at taken
  split at taken
  case h_1 waiting =>
    split at taken
    · obtain rfl := Option.some.inj taken
      exact ⟨_, _, .starts waiting ‹_›, by rw [waiting]; rfl, rfl⟩
    · cases taken
  case h_2 io probe reading =>
    obtain rfl := Option.some.inj taken
    exact ⟨_, _, moved_decided reading io probe, by rw [reading]; rfl, rfl⟩
  case h_3 preparing =>
    obtain rfl := Option.some.inj taken
    exact ⟨_, _, .prepares preparing, by rw [preparing]; rfl, rfl⟩
  case h_4 error _ _ _ preparing =>
    obtain rfl := Option.some.inj taken
    exact ⟨_, _, .fails error (started preparing rfl), by rw [preparing]; rfl, rfl⟩
  case h_5 replacing =>
    obtain rfl := Option.some.inj taken
    exact ⟨_, _, .replaces replacing, by rw [replacing]; rfl, rfl⟩
  case h_6 error _ _ _ replacing =>
    obtain rfl := Option.some.inj taken
    exact ⟨_, _, .fails error (started replacing rfl), by rw [replacing]; rfl, rfl⟩
  case h_7 => cases taken

/-- A step makes a call, or moves one that is not settled. -/
theorem step_cases {a : QueuedAction} {t : RegistryCalls} (taken : s.step a = some t) :
    (∃ operation, a = .call operation ∧ t = s.withRegistryLock operation) ∨
      ∃ before c after stage file, s.calls = before ++ c :: after ∧ Moved s c stage file ∧
        c.stage.settled = false ∧
        t = { s with calls := before ++ { c with stage } :: after, file } := by
  have split {i : ℕ} {c : QueuedCall} {stage : QueuedStage} {file : RegistryFile}
      (found : s.calls[i]? = some c) (moved : Moved s c stage file)
      (unsettled : c.stage.settled = false) (result : t = { s.setStage i c stage with file }) :
      ∃ before c after stage file, s.calls = before ++ c :: after ∧ Moved s c stage file ∧
        c.stage.settled = false ∧
        t = { s with calls := before ++ { c with stage } :: after, file } := by
    obtain ⟨short, rfl⟩ := List.getElem?_eq_some_iff.mp found
    refine ⟨s.calls.take i, s.calls[i], s.calls.drop (i + 1), stage, file, ?_, moved,
      unsettled, ?_⟩
    · rw [List.getElem_cons_drop, List.take_append_drop]
    · rw [result, setStage, List.set_eq_take_append_cons_drop, if_pos short]
  cases a with
  | call operation => exact .inl ⟨operation, rfl, (Option.some.inj taken).symm⟩
  | start i | read i io probe | prepare i io | rename i io =>
      obtain ⟨c, found, advanced⟩ := Option.bind_eq_some_iff.mp taken
      obtain ⟨stage, file, moved, unsettled, result⟩ := moved_advance advanced
      exact .inr (split found moved unsettled result)

/-! ### What every run keeps -/

/-- The call before the one with a number. -/
def previousOf : ℕ → Option ℕ
  | 0 => none
  | i + 1 => some i

/-- The calls wait for each other in a row, and the file is the work of those
that have succeeded. -/
structure Orderly (path : String) (file : RegistryFile) (s : RegistryCalls) : Prop where
  same : s.path = path
  lock : s.lock = previousOf s.calls.length
  chained : s.calls.map QueuedCall.previous = (List.range s.calls.length).map previousOf
  ordered : s.calls.Pairwise fun c d => d.stage.started = true → c.stage.settled = true
  serial : serially path file (s.succeeded.map SucceededCall.input) =
    (s.file, s.succeeded.map fun c => .ok c.result)
  /-- What a call is about to write is decided on the file as it still is. -/
  deciding : ∀ c ∈ s.calls, ∀ probe next result,
    c.stage = .preparing probe next result ∨ c.stage = .replacing probe next result →
      ∃ registry, readChildRegistry path s.file = .ok registry ∧
        c.operation.decision probe registry = .ok (some next, result)

variable {path : String} {file : RegistryFile} {before after : List QueuedCall}
  {c : QueuedCall}

theorem orderly_initial (path : String) (file : RegistryFile) :
    Orderly path file (initial path file) where
  same := rfl
  lock := rfl
  chained := rfl
  ordered := .nil
  serial := rfl
  deciding := nofun

theorem Orderly.position (orderly : Orderly path file s) {i : ℕ}
    (found : s.calls[i]? = some c) : c.previous = previousOf i := by
  have here : (s.calls.map QueuedCall.previous)[i]? = _ :=
    congrArg (·[i]?) orderly.chained
  rw [List.getElem?_map, found, List.getElem?_map,
    List.getElem?_range (List.getElem?_eq_some_iff.mp found).1] at here
  exact Option.some.inj here

/-- All calls before one that may start, or has started, are settled. -/
theorem Orderly.settled_before (orderly : Orderly path file s)
    (calls : s.calls = before ++ c :: after)
    (running : s.free c = true ∨ c.stage.started = true) :
    ∀ b ∈ before, b.stage.settled = true := by
  have ordered := orderly.ordered
  rw [calls] at ordered
  obtain ⟨among, _, across⟩ := List.pairwise_append.mp ordered
  rcases running with free | started
  · have position : c.previous = previousOf before.length :=
      orderly.position (by simp [calls])
    rcases List.eq_nil_or_concat' before with rfl | ⟨earlier, last, rfl⟩
    · simp
    rw [RegistryCalls.free, position, List.length_append, List.length_singleton, previousOf,
      Option.all_some, calls, List.append_assoc, List.getElem?_append_right (Nat.le_refl _),
      Nat.sub_self, List.singleton_append, List.getElem?_cons_zero, Option.any_some] at free
    obtain ⟨_, _, joins⟩ := List.pairwise_append.mp among
    intro b mem
    rcases List.mem_append.mp mem with old | new
    · exact joins b old last (List.mem_singleton_self last) (QueuedStage.started_of_settled free)
    · rw [List.mem_singleton.mp new]
      exact free
  · exact fun b mem => across b mem c List.mem_cons_self started

/-- Replacing the stage of a call that is not settled keeps the order. -/
theorem ordered_replace {c' : QueuedCall} (unsettled : c.stage.settled = false)
    (ordered : (before ++ c :: after).Pairwise fun c d =>
      d.stage.started = true → c.stage.settled = true)
    (earlier : ∀ b ∈ before, b.stage.settled = true) :
    (before ++ c' :: after).Pairwise fun c d =>
      d.stage.started = true → c.stage.settled = true := by
  obtain ⟨among, following, _⟩ := List.pairwise_append.mp ordered
  obtain ⟨late, rest⟩ := List.pairwise_cons.mp following
  refine List.pairwise_append.mpr ⟨among, List.pairwise_cons.mpr ⟨?_, rest⟩,
    fun b mem _ _ _ => earlier b mem⟩
  intro d mem started
  have settled := late d mem started
  rw [unsettled] at settled
  cases settled

theorem succeeded_unsettled (unsettled : c.stage.settled = false) : c.succeeded? = none := by
  unfold QueuedCall.succeeded?
  split
  · rename_i stage
    rw [stage] at unsettled
    cases unsettled
  · rfl

/-- The calls after one that is not settled have not started. -/
theorem Orderly.waiting_after (orderly : Orderly path file s)
    (calls : s.calls = before ++ c :: after) (unsettled : c.stage.settled = false) :
    ∀ d ∈ after, d.stage.started = false := by
  have ordered := orderly.ordered
  rw [calls] at ordered
  obtain ⟨_, following, _⟩ := List.pairwise_append.mp ordered
  intro d mem
  cases started : d.stage.started with
  | false => rfl
  | true =>
      have settled := (List.pairwise_cons.mp following).1 d mem started
      rw [unsettled] at settled
      cases settled

theorem unstarted_unsettled {stage : QueuedStage} (waiting : stage.started = false) :
    stage.settled = false := by
  cases stage <;> first | rfl | cases waiting

/-- The calls that have succeeded, when the ones after `c` have not. -/
theorem succeeded_split
    (waiting : ∀ d ∈ after, d.stage.started = false) :
    (before ++ c :: after).filterMap QueuedCall.succeeded? =
      before.filterMap QueuedCall.succeeded? ++ c.succeeded?.toList := by
  have none_after : after.filterMap QueuedCall.succeeded? = [] :=
    List.filterMap_eq_nil_iff.mpr fun d mem =>
      succeeded_unsettled (unstarted_unsettled (waiting d mem))
  rw [List.filterMap_append, List.filterMap_cons]
  cases c.succeeded? <;> simp [none_after]

theorem perform_idle {registry : ChildRegistry} {operation : RegistryOperation}
    {probe : String → GroupProbe} {result : Option SweepResult}
    (read : readChildRegistry path file = .ok registry)
    (decision : operation.decision probe registry = .ok (none, result)) :
    operation.perform path probe file = .ok (file, result) := by
  rw [RegistryOperation.perform, read]
  dsimp only
  rw [decision]

theorem perform_replaces {registry next : ChildRegistry} {operation : RegistryOperation}
    {probe : String → GroupProbe} {result : Option SweepResult}
    (read : readChildRegistry path file = .ok registry)
    (decision : operation.decision probe registry = .ok (some next, result)) :
    operation.perform path probe file = .ok (.valid next, result) := by
  rw [RegistryOperation.perform, read]
  dsimp only
  rw [decision]

theorem Orderly.call (orderly : Orderly path file s) (operation : RegistryOperation) :
    Orderly path file (s.withRegistryLock operation) where
  same := orderly.same
  lock := by
    show some s.calls.length = previousOf (s.calls ++ [_]).length
    rw [List.length_append, List.length_singleton, previousOf]
  chained := by
    show (s.calls ++ [_]).map _ = (List.range (s.calls ++ [_]).length).map previousOf
    rw [List.map_append, orderly.chained, List.length_append, List.length_singleton,
      List.range_succ, List.map_append]
    refine congrArg (_ ++ ·) ?_
    show [s.lock] = [previousOf s.calls.length]
    rw [orderly.lock]
  ordered := by
    refine List.pairwise_append.mpr ⟨orderly.ordered, List.pairwise_singleton _ _, ?_⟩
    intro c _ d mem started
    rw [List.mem_singleton.mp mem] at started
    cases started
  serial := by
    have same : (s.withRegistryLock operation).succeeded = s.succeeded := by
      show (s.calls ++ [_]).filterMap _ = _
      rw [List.filterMap_append]
      exact List.append_nil _
    rw [same]
    exact orderly.serial
  deciding := by
    intro c mem probe next result stage
    rcases List.mem_append.mp mem with old | new
    · exact orderly.deciding c old probe next result stage
    · rw [List.mem_singleton.mp new] at stage
      rcases stage with stage | stage <;> cases stage

/-- What a step of a call does to the calls that have succeeded, and to the
file. -/
theorem Orderly.serial_moved (orderly : Orderly path file s) {stage : QueuedStage}
    {left : RegistryFile} (calls : s.calls = before ++ c :: after)
    (moved : Moved s c stage left) (unsettled : c.stage.settled = false) :
    let t : RegistryCalls := { s with calls := before ++ { c with stage } :: after, file := left }
    serially path file (t.succeeded.map SucceededCall.input) =
      (left, t.succeeded.map fun c => .ok c.result) := by
  intro t
  have waiting := orderly.waiting_after calls unsettled
  have old : s.succeeded = before.filterMap QueuedCall.succeeded? := by
    rw [succeeded, calls, succeeded_split waiting, succeeded_unsettled unsettled,
      Option.toList_none, List.append_nil]
  have new : t.succeeded = s.succeeded ++ ({ c with stage } : QueuedCall).succeeded?.toList := by
    rw [old]
    exact succeeded_split waiting
  -- A call that succeeds is performed on the file as it is.
  have finish {probe : String → GroupProbe} {result : Option SweepResult}
      (here : stage = .succeeded probe result)
      (performed : c.operation.perform path probe s.file = .ok (left, result)) :
      serially path file (t.succeeded.map SucceededCall.input) =
        (left, t.succeeded.map fun c => .ok c.result) := by
    subst here
    rw [new, List.map_append, List.map_append]
    have current : (serially path file (s.succeeded.map SucceededCall.input)).1 = s.file := by
      rw [orderly.serial]
    refine (serially_concat (by rw [current]; exact performed)).trans ?_
    rw [orderly.serial]
    rfl
  have idle (same : left = s.file) (none : ({ c with stage } : QueuedCall).succeeded? = none) :
      serially path file (t.succeeded.map SucceededCall.input) =
        (left, t.succeeded.map fun c => .ok c.result) := by
    rw [new, none, Option.toList_none, List.append_nil, same]
    exact orderly.serial
  cases moved with
  | starts | fails | decides | prepares => exact idle rfl rfl
  | idle _ read decision => exact finish rfl (perform_idle (orderly.same ▸ read) decision)
  | replaces replacing =>
      obtain ⟨registry, read, decision⟩ := orderly.deciding c (by simp [calls]) _ _ _
        (.inr replacing)
      exact finish rfl (perform_replaces read decision)

theorem Orderly.step {t : RegistryCalls} {a : QueuedAction} (orderly : Orderly path file s)
    (taken : s.step a = some t) : Orderly path file t := by
  rcases step_cases taken with
    ⟨operation, rfl, rfl⟩ | ⟨before, c, after, stage, left, calls, moved, unsettled, rfl⟩
  · exact orderly.call operation
  have waiting := orderly.waiting_after calls unsettled
  have earlier : ∀ b ∈ before, b.stage.settled = true := by
    refine orderly.settled_before calls ?_
    cases moved with
    | starts _ free => exact .inl free
    | fails _ started => exact .inr started
    | idle here | decides here | prepares here | replaces here => exact .inr (by rw [here]; rfl)
  refine ⟨orderly.same, ?_, ?_, ?_, orderly.serial_moved calls moved unsettled, ?_⟩
  · rw [orderly.lock, calls, List.length_append, List.length_append, List.length_cons,
      List.length_cons]
  · have chained := orderly.chained
    rw [calls] at chained
    simpa using chained
  · exact ordered_replace unsettled (calls ▸ orderly.ordered) earlier
  · intro d mem probe next result preparing
    rcases List.mem_append.mp mem with old | here
    · have settled := earlier d old
      rcases preparing with stage | stage <;> rw [stage] at settled <;> cases settled
    rcases List.mem_cons.mp here with rfl | late
    · cases moved with
      | decides _ read decision =>
          rcases preparing with same | same <;> cases same
          exact ⟨_, orderly.same ▸ read, decision⟩
      | prepares was =>
          rcases preparing with same | same <;> cases same
          exact orderly.deciding c (by simp [calls]) _ _ _ (.inl was)
      | starts | fails | idle | replaces => rcases preparing with same | same <;> cases same
    · have unstarted := waiting d late
      rcases preparing with stage | stage <;> rw [stage] at unstarted <;> cases unstarted

/-- A call that is not settled, with nothing pending before it, goes on
whatever the operating system answers. -/
theorem Orderly.progress (orderly : Orderly path file s) {i : ℕ}
    (found : s.calls[i]? = some c) (unsettled : c.stage.settled = false)
    (earlier : ∀ j < i, ∀ b, s.calls[j]? = some b → b.stage.settled = true)
    (io : Except String Unit) (probe : String → GroupProbe) :
    ∃ a ∈ [QueuedAction.start i, .read i io probe, .prepare i io, .rename i io],
      (s.step a).isSome := by
  have goes {a : QueuedAction} (here : s.step a = (s.calls[i]?).bind fun c => s.advance i c a)
      (advances : (s.advance i c a).isSome) : (s.step a).isSome := by
    rw [here, found]
    exact advances
  cases stage : c.stage with
  | waiting =>
      refine ⟨.start i, by simp, goes rfl ?_⟩
      have free : s.free c = true := by
        rw [RegistryCalls.free, orderly.position found]
        cases i with
        | zero => rfl
        | succ i =>
            have short : i < s.calls.length :=
              Nat.lt_of_succ_lt (List.getElem?_eq_some_iff.mp found).1
            have before := List.getElem?_eq_getElem short
            rw [previousOf, Option.all_some, before, Option.any_some]
            exact earlier i (Nat.lt_succ_self i) _ before
      simp only [advance, stage, free, if_true, Option.isSome_some]
  | reading => exact ⟨.read i io probe, by simp, goes rfl (by simp [advance, stage])⟩
  | preparing =>
      refine ⟨.prepare i io, by simp, goes rfl ?_⟩
      cases io <;> simp [advance, stage]
  | replacing =>
      refine ⟨.rename i io, by simp, goes rfl ?_⟩
      cases io <;> simp [advance, stage]
  | succeeded | failed =>
      rw [stage] at unsettled
      cases unsettled

theorem orderly_run (run : machine.Run Transition.Always (initial path file) s) :
    Orderly path file s :=
  run.invariant (orderly_initial path file) fun _ _ _ orderly _ taken => orderly.step taken

/-- What a sweep does that is made on its own. -/
theorem sweep_performed {probe : String → GroupProbe} {next : RegistryFile}
    {result : Option SweepResult}
    (performed : RegistryOperation.sweep.perform path probe file = .ok (next, result)) :
    ∃ registry kept swept, readChildRegistry path file = .ok registry ∧ next = .valid kept ∧
      result = some swept ∧ swept.keys.Perm (registry.entries.map Prod.fst) ∧
      ∀ key, kept.get key = if key ∈ swept.denied then registry.get key else none := by
  unfold RegistryOperation.perform at performed
  split at performed
  case h_1 => cases performed
  case h_2 registry read =>
    rw [RegistryOperation.decision] at performed
    cases looped : sweepChildRegistry probe registry with
    | error error =>
        rw [looped] at performed
        cases performed
    | ok outcome =>
        obtain ⟨swept, kept⟩ := outcome
        rw [looped] at performed
        cases performed
        exact ⟨registry, kept, swept, read, rfl, rfl, keys_of_sweepChildRegistry looped,
          get_of_sweepChildRegistry looped⟩

/-- A call of a sequence in which all calls succeed. -/
theorem performed_of_serial {left : RegistryFile} {earlier later : List SucceededCall}
    {call : SucceededCall}
    (serial : serially path file ((earlier ++ call :: later).map SucceededCall.input) =
      (left, (earlier ++ call :: later).map fun c => .ok c.result)) :
    ∃ next, call.operation.perform path call.probe
        (serially path file (earlier.map SucceededCall.input)).1 = .ok (next, call.result) ∧
      (serially path file ((earlier ++ [call]).map SucceededCall.input)).1 = next := by
  induction earlier generalizing file with
  | nil =>
      rw [List.nil_append, List.map_cons, SucceededCall.input, serially] at serial
      rw [List.nil_append, List.map_cons, SucceededCall.input, serially]
      cases performed : call.operation.perform path call.probe file with
      | error error =>
          rw [performed] at serial
          cases (List.cons.inj (congrArg Prod.snd serial)).1
      | ok outcome =>
          rw [performed] at serial
          obtain ⟨next, result⟩ := outcome
          cases (List.cons.inj (congrArg Prod.snd serial)).1
          exact ⟨next, performed, rfl⟩
  | cons first rest ih =>
      rw [List.cons_append, List.map_cons, SucceededCall.input, serially] at serial
      rw [List.cons_append, List.map_cons, List.map_cons, SucceededCall.input, serially, serially]
      cases performed : first.operation.perform path first.probe file with
      | error error =>
          rw [performed] at serial
          cases (List.cons.inj (congrArg Prod.snd serial)).1
      | ok outcome =>
          rw [performed] at serial
          obtain ⟨next, result⟩ := outcome
          have file : (serially path next ((rest ++ call :: later).map SucceededCall.input)).1 =
              left := congrArg Prod.fst serial
          exact ih (Prod.ext file (List.cons.inj (congrArg Prod.snd serial)).2)

/-- However the calls overlap and whichever of them fail: the file and the
results are those of the calls that have succeeded, made one after the other
in their order; a sweep among them has put each key that it has read into one
of its lists and left the denied entries; and a call never waits for one that
has failed. -/
theorem overlapping_calls_are_serial {path : String} {file : RegistryFile} {s : RegistryCalls}
    (run : machine.Run Transition.Always (initial path file) s) :
    serially path file (s.succeeded.map SucceededCall.input) =
        (s.file, s.succeeded.map fun c => .ok c.result) ∧
      (∀ earlier call later, s.succeeded = earlier ++ call :: later →
        call.operation = .sweep →
        let found := (serially path file (earlier.map SucceededCall.input)).1
        let left := (serially path file ((earlier ++ [call]).map SucceededCall.input)).1
        ∃ registry kept swept, readChildRegistry path found = .ok registry ∧
          left = .valid kept ∧ call.result = some swept ∧
          swept.keys.Perm (registry.entries.map Prod.fst) ∧
          ∀ key, kept.get key = if key ∈ swept.denied then registry.get key else none) ∧
      ∀ i c, s.calls[i]? = some c → c.stage.settled = false →
        (∀ j < i, ∀ b, s.calls[j]? = some b → b.stage.settled = true) →
        ∀ io probe, ∃ a ∈ [QueuedAction.start i, .read i io probe, .prepare i io, .rename i io],
          (s.step a).isSome := by
  have orderly := orderly_run run
  refine ⟨orderly.serial, ?_, fun i c found unsettled earlier io probe =>
    orderly.progress found unsettled earlier io probe⟩
  intro earlier call later split sweeps found left
  have serial := orderly.serial
  rw [split] at serial
  obtain ⟨next, performed, same⟩ := performed_of_serial serial
  rw [sweeps] at performed
  obtain ⟨registry, kept, swept, read, valid, result, keys, entries⟩ :=
    sweep_performed performed
  exact ⟨registry, kept, swept, read, same.trans valid, result, keys, entries⟩

def roomGroup : ChildRegistryEntry := ⟨41, 41, 0, none⟩

/-- A registration whose file cannot be prepared, one that succeeds, and a
sweep, all called at once. -/
def threeCalls : List QueuedAction :=
  [.call (.register 0 "hall" roomGroup), .call (.register 1 "room" roomGroup), .call .sweep,
    .start 0, .read 0 (.ok ()) fun _ => .gone, .prepare 0 (.error "ENOSPC"),
    .start 1, .read 1 (.ok ()) fun _ => .gone, .prepare 1 (.ok ()), .rename 1 (.ok ()),
    .start 2, .read 2 (.ok ()) fun _ => .denied, .prepare 2 (.ok ()), .rename 2 (.ok ())]

/-- The run of the three calls. -/
theorem overlapping_calls_are_serial_threeCalls :
    ∃ s, machine.exec Transition.Always (initial "groups.json" .absent) threeCalls = some s ∧
      serially "groups.json" .absent (s.succeeded.map SucceededCall.input) =
        (s.file, [.ok none, .ok (some ⟨[], [], ["room"]⟩)]) :=
  ⟨_, rfl, (overlapping_calls_are_serial
    (@Transition.Machine.Run.of_exec _ _ machine _ _ _ _ threeCalls rfl)).1⟩

end RegistryCalls

end OmpBundler.Core
