import OmpBundler.Library.ShellWords

/-!
Running a bundle in Docker.

`run` publishes two ports. It takes the first ports from the configured ones on that
are free. `build` and `run` hand a program and its arguments to the system, and they
show the command as a line for a POSIX shell.
-/

namespace OmpBundler.Cli

open Library

/-- The number of a TCP port. -/
abbrev Port : Type := {n : ℕ // 1 ≤ n ∧ n ≤ 65535}

structure RunDockerArguments where
  image : List Char
  corePort : Port
  adapterPort : Port
  dataVolume : List Char
  agentVolume : List Char
  envFile : List Char
  bundleRoot : List Char
  containerName : Option (List Char)
  detached : Bool

structure RunSettings where
  image : List Char
  corePort : Port
  adapterPort : Port
  dataVolume : List Char
  agentVolume : List Char
  containerName : List Char
  bundleRoot : List Char

/-! ### Ports -/

/-- The port that is so far behind the preferred one, around the end of the range. -/
def candidate (preferred : Port) (offset : ℕ) : Port :=
  ⟨(preferred.1 - 1 + offset) % 65535 + 1, by omega⟩

/-- The loop of `findAvailablePort` over the offsets that are left, when so many probes
have been made. A probe is answered as the port is at the time. -/
def findFrom (probe : ℕ → Port → Bool) (preferred : Port) (excluded : List Port) :
    List ℕ → ℕ → Option Port × ℕ
  | [], calls => (none, calls)
  | offset :: rest, calls =>
      if excluded.contains (candidate preferred offset) then
        findFrom probe preferred excluded rest calls
      else if probe calls (candidate preferred offset) then
        (some (candidate preferred offset), calls + 1)
      else findFrom probe preferred excluded rest (calls + 1)

/-- `none` when no port is available. -/
def findAvailablePort (probe : ℕ → Port → Bool) (preferred : Port) (excluded : List Port)
    (calls : ℕ) : Option Port × ℕ :=
  findFrom probe preferred excluded (List.range 65535) calls

/-- The ports of the core and of the adapter. -/
def resolveAvailablePorts (probe : ℕ → Port → Bool) (corePort adapterPort : Port) :
    Option (Port × Port) :=
  match findAvailablePort probe adapterPort [] 0 with
  | (none, _) => none
  | (some selectedAdapterPort, calls) =>
      match findAvailablePort probe corePort [selectedAdapterPort] calls with
      | (none, _) => none
      | (some selectedCorePort, _) => some (selectedCorePort, selectedAdapterPort)

def resolveAvailableRunSettings (probe : ℕ → Port → Bool) (settings : RunSettings) :
    Option RunSettings :=
  (resolveAvailablePorts probe settings.corePort settings.adapterPort).map fun ports =>
    { settings with corePort := ports.1, adapterPort := ports.2 }

/-- Every port is behind the preferred one. -/
theorem candidate_surjective (preferred port : Port) :
    ∃ offset < 65535, candidate preferred offset = port := by
  obtain ⟨n, low, high⟩ := preferred
  obtain ⟨m, low', high'⟩ := port
  refine ⟨(m + 65535 - n) % 65535, by omega, Subtype.ext ?_⟩
  simp only [candidate]
  omega

/-- The port was not free when it was probed. -/
def Taken (probe : ℕ → Port → Bool) (port : Port) : Prop := ∃ call, probe call port = false

section Search

variable (probe : ℕ → Port → Bool) (preferred : Port) (excluded : List Port)

/-- The port at this offset is excluded or was not free. -/
def PassedOver (offset : ℕ) : Prop :=
  candidate preferred offset ∈ excluded ∨ Taken probe (candidate preferred offset)

/-- The port is allowed and was free when it was probed, and none from the preferred
one up to it was both. -/
structure Selects (port : Port) : Prop where
  allowed : port ∉ excluded
  free : ∃ call, probe call port = true
  first : ∃ offset < 65535, candidate preferred offset = port ∧
    ∀ earlier < offset, PassedOver probe preferred excluded earlier

/-- What a search among these offsets comes to. -/
inductive Searched (offsets : List ℕ) : Option Port → Prop
  | none (all : ∀ offset ∈ offsets, PassedOver probe preferred excluded offset) :
      Searched offsets none
  | some (before after : List ℕ) (offset : ℕ) (split : offsets = before ++ offset :: after)
      (passed : ∀ earlier ∈ before, PassedOver probe preferred excluded earlier)
      (allowed : candidate preferred offset ∉ excluded)
      (free : ∃ call, probe call (candidate preferred offset) = true) :
      Searched offsets (some (candidate preferred offset))

variable {probe preferred excluded}

theorem Searched.cons {offset : ℕ} {offsets : List ℕ} {found : Option Port}
    (passed : PassedOver probe preferred excluded offset)
    (searched : Searched probe preferred excluded offsets found) :
    Searched probe preferred excluded (offset :: offsets) found := by
  cases searched with
  | none all => exact .none (List.forall_mem_cons.mpr ⟨passed, all⟩)
  | some before after later split earlier allowed free =>
      exact .some (offset :: before) after later (congrArg (offset :: ·) split)
        (List.forall_mem_cons.mpr ⟨passed, earlier⟩) allowed free

/-- The loop goes through the offsets one after the other. -/
theorem searched_findFrom (offsets : List ℕ) (calls : ℕ) :
    Searched probe preferred excluded offsets
      (findFrom probe preferred excluded offsets calls).1 := by
  induction offsets generalizing calls with
  | nil => exact .none (List.forall_mem_nil _)
  | cons offset rest ih =>
      rw [findFrom]
      split_ifs with out answer
      · exact (ih calls).cons (.inl (List.contains_iff_mem.mp out))
      · exact .some [] rest offset rfl (List.forall_mem_nil _) (mt List.contains_iff_mem.mpr out)
          ⟨calls, answer⟩
      · exact (ih (calls + 1)).cons (.inr ⟨calls, Bool.eq_false_iff.mpr answer⟩)

/-- In front of an offset are the smaller ones. -/
theorem mem_before_of_range {n offset : ℕ} {before after : List ℕ}
    (split : List.range n = before ++ offset :: after) :
    offset < n ∧ ∀ earlier < offset, earlier ∈ before := by
  have short : offset < n := by
    rw [← List.mem_range, split]
    exact List.mem_append_right _ List.mem_cons_self
  refine ⟨short, fun earlier less => ?_⟩
  have listed : earlier ∈ before ++ offset :: after := by
    rw [← split, List.mem_range]
    omega
  rcases List.mem_append.mp listed with here | later
  · exact here
  · -- The list is increasing.
    have increasing : (before ++ offset :: after).Pairwise (· < ·) :=
      split ▸ List.pairwise_lt_range
    rcases List.mem_cons.mp later with rfl | behind
    · omega
    · have more := (List.pairwise_cons.mp (List.pairwise_append.mp increasing).2.1).1 _ behind
      omega

/-- A port that is found is the first one. -/
theorem selects_findAvailablePort {calls later : ℕ} {port : Port}
    (found : findAvailablePort probe preferred excluded calls = (some port, later)) :
    Selects probe preferred excluded port := by
  have searched : Searched probe preferred excluded (List.range 65535) (some port) := by
    have all := @searched_findFrom probe preferred excluded (List.range 65535) calls
    rwa [← findAvailablePort, found] at all
  cases searched with
  | some before after offset split passed allowed free =>
      obtain ⟨short, smaller⟩ := mem_before_of_range split
      exact ⟨allowed, free, offset, short, rfl, fun earlier less => passed _ (smaller _ less)⟩

/-- Without a port that is found all are excluded or taken. -/
theorem taken_findAvailablePort {calls later : ℕ}
    (found : findAvailablePort probe preferred excluded calls = (none, later)) (port : Port) :
    port ∈ excluded ∨ Taken probe port := by
  have searched : Searched probe preferred excluded (List.range 65535) none := by
    have all := @searched_findFrom probe preferred excluded (List.range 65535) calls
    rwa [← findAvailablePort, found] at all
  cases searched with
  | none all =>
      obtain ⟨offset, short, rfl⟩ := candidate_surjective preferred port
      exact all offset (List.mem_range.mpr short)

end Search

/-- How the two searches go. -/
theorem resolveAvailablePorts_cases (probe : ℕ → Port → Bool) (corePort adapterPort : Port) :
    (∃ selectedCore selectedAdapter,
      resolveAvailablePorts probe corePort adapterPort = some (selectedCore, selectedAdapter) ∧
      Selects probe adapterPort [] selectedAdapter ∧
      Selects probe corePort [selectedAdapter] selectedCore) ∨
    (∃ selectedAdapter, resolveAvailablePorts probe corePort adapterPort = none ∧
      ∀ port, port ≠ selectedAdapter → Taken probe port) := by
  unfold resolveAvailablePorts
  generalize adapter : findAvailablePort probe adapterPort [] 0 = first
  obtain ⟨first, calls⟩ := first
  cases first with
  | none =>
      refine .inr ⟨adapterPort, rfl, fun port _ => ?_⟩
      exact (taken_findAvailablePort adapter port).resolve_left List.not_mem_nil
  | some selectedAdapter =>
      dsimp only
      generalize core : findAvailablePort probe corePort [selectedAdapter] calls = second
      obtain ⟨second, later⟩ := second
      cases second with
      | none =>
          refine .inr ⟨selectedAdapter, rfl, fun port other => ?_⟩
          exact (taken_findAvailablePort core port).resolve_left
            fun same => other (List.mem_singleton.mp same)
      | some selectedCore =>
          exact .inl ⟨selectedCore, selectedAdapter, rfl, selects_findAvailablePort adapter,
            selects_findAvailablePort core⟩

/-- Whatever the probes answer, the ports that are published were free, each is the
first such port from the configured one on, and they are different; and only when all
ports are taken, but for one that is the adapter's, there are none. -/
theorem selected_ports_are_free (probe : ℕ → Port → Bool) (settings : RunSettings) :
    (∀ selected, resolveAvailableRunSettings probe settings = some selected →
      Selects probe settings.adapterPort [] selected.adapterPort ∧
        Selects probe settings.corePort [selected.adapterPort] selected.corePort ∧
        selected.corePort ≠ selected.adapterPort) ∧
    (resolveAvailableRunSettings probe settings = none →
      ∃ adapterPort, ∀ port, port ≠ adapterPort → Taken probe port) := by
  unfold resolveAvailableRunSettings
  rcases resolveAvailablePorts_cases probe settings.corePort settings.adapterPort with
    ⟨corePort, adapterPort, ports, adapter, core⟩ | ⟨adapterPort, ports, taken⟩
  · rw [ports]
    refine ⟨fun selected done => ?_, fun done => absurd done (Option.some_ne_none _)⟩
    obtain rfl := Option.some.inj done
    exact ⟨adapter, core, fun same => core.allowed (List.mem_singleton.mpr same)⟩
  · rw [ports]
    exact ⟨fun selected done => absurd done.symm (Option.some_ne_none _), fun _ => ⟨adapterPort, taken⟩⟩

/-! ### Commands -/

def bundleRootLabel : List Char := "io.omp-bundler.bundle-root".toList

def buildDockerArgs (tag contextPath : List Char) : List (List Char) :=
  ["build".toList, "-t".toList, tag, contextPath]

def runDockerArgs (options : RunDockerArguments) : List (List Char) :=
  ["run".toList, "--rm".toList] ++
    (if options.detached then ["-d".toList] else []) ++
    (match options.containerName with
      | none => []
      | some name => ["--name".toList, name]) ++
    ["--label".toList, bundleRootLabel ++ '=' :: options.bundleRoot,
      "-p".toList, (toString options.corePort.1).toList ++ ":8787".toList,
      "-p".toList, (toString options.adapterPort.1).toList ++ ":8765".toList,
      "-v".toList, options.dataVolume ++ ":/data".toList,
      "-v".toList, options.agentVolume ++ ":/root/.omp/agent".toList,
      "--env-file".toList, options.envFile, options.image]

/-- `[A-Za-z0-9_@%+=:,.-]` or a slash. -/
def isUnquoted (c : Char) : Bool :=
  c.isAlphanum || ['_', '@', '%', '+', '=', ':', ',', '.', '/', '-'].contains c

def shellQuote (value : List Char) : List Char :=
  if !value.isEmpty && value.all isUnquoted then value
  else '\'' :: (value.flatMap fun c => if c = '\'' then ['\'', '\\', '\'', '\''] else [c]) ++ ['\'']

def formatDockerCommand (executable : List Char) (args : List (List Char)) : List Char :=
  List.intercalate [' '] ((executable :: args).map shellQuote)

/-- What a bundle is run with, and what is shown for it: only a container in the
background gets a name. -/
def dockerArguments (settings : RunSettings) (envFile : List Char) (detached : Bool) :
    RunDockerArguments where
  image := settings.image
  corePort := settings.corePort
  adapterPort := settings.adapterPort
  dataVolume := settings.dataVolume
  agentVolume := settings.agentVolume
  envFile := envFile
  bundleRoot := settings.bundleRoot
  containerName := if detached then some settings.containerName else none
  detached := detached

def runPreviewCommand (settings : RunSettings) (envFile : List Char) (detached : Bool) :
    List Char :=
  formatDockerCommand "docker".toList (runDockerArgs (dockerArguments settings envFile detached))

def buildPreviewCommand (tag contextPath : List Char) : List Char :=
  formatDockerCommand "docker".toList (buildDockerArgs tag contextPath)

/-- No character that stays without quotes means anything to a shell. -/
theorem isOrdinary_of_isUnquoted {c : Char} (unquoted : isUnquoted c = true) :
    ShellWords.isOrdinary c = true := by
  have quoted : (' ' :: '\t' :: '\'' :: '\\' :: ShellWords.specials).all (!isUnquoted ·) = true := by
    decide
  have other : ∀ d ∈ ' ' :: '\t' :: '\'' :: '\\' :: ShellWords.specials, c ≠ d := by
    rintro d mem rfl
    have out := List.all_eq_true.mp quoted c mem
    rw [unquoted] at out
    cases out
  simp only [List.forall_mem_cons] at other
  obtain ⟨space, tab, quote, backslash, special⟩ := other
  have plain : ShellWords.isSpecial c = false := by
    rw [ShellWords.isSpecial, List.contains_eq_mem, decide_eq_false_iff_not]
    exact fun mem => special c mem rfl
  simp [ShellWords.isOrdinary, ShellWords.isBlank, space, tab, quote, backslash, plain]

/-- An argument is read as one word, whatever it is. -/
theorem wordsFrom_shellQuote (value rest : List Char) :
    ShellWords.wordsFrom .between [] (shellQuote value ++ rest) =
      ShellWords.wordsFrom .bare value rest := by
  rw [shellQuote]
  split_ifs with plain
  · rw [Bool.and_eq_true, Bool.not_eq_true', List.isEmpty_eq_false_iff, List.all_eq_true] at plain
    obtain ⟨filled, unquoted⟩ := plain
    exact ShellWords.wordsFrom_between_append filled
      (fun c mem => isOrdinary_of_isUnquoted (unquoted c mem)) rest
  · have read := ShellWords.wordsFrom_quote value rest
    rw [ShellWords.enquoted] at read
    rwa [List.cons_append, List.cons_append, List.append_assoc, List.singleton_append]

example : shellQuote ['i', 't', '\'', 's'] =
    ['\'', 'i', 't', '\'', '\\', '\'', '\'', 's', '\''] := by decide

/-- A shell reads a command that is shown as the program and the arguments that are
run, whatever characters they have. -/
theorem shown_commands_are_run :
    (∀ executable args, ShellWords.words (formatDockerCommand executable args) =
      some (executable :: args)) ∧
    (∀ settings envFile detached, ShellWords.words (runPreviewCommand settings envFile detached) =
      some ("docker".toList :: runDockerArgs (dockerArguments settings envFile detached))) ∧
    ∀ tag contextPath, ShellWords.words (buildPreviewCommand tag contextPath) =
      some ("docker".toList :: buildDockerArgs tag contextPath) := by
  have read (executable : List Char) (args : List (List Char)) :
      ShellWords.words (formatDockerCommand executable args) = some (executable :: args) := by
    have each := ShellWords.words_intercalate wordsFrom_shellQuote executable args
    rwa [List.map_id'] at each
  exact ⟨read, fun _ _ _ => read _ _, fun _ _ => read _ _⟩

end OmpBundler.Cli
