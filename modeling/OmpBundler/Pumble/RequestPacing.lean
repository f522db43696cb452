import Mathlib.Data.Rat.Floor
import Mathlib.Logic.Function.Basic
import Mathlib.Tactic.Linarith
import OmpBundler.Library.Transition

/-!
The pacing of requests to the Pumble API.

All requests of the adapter go through one chain: a request is performed when
the one before it has settled, and each of its fetches waits for its slot. A
fetch that is answered with 429 puts the next slot off, for that request and
for all later ones.

Time is counted in whole milliseconds, as `Date.now` does, and does not go
back. A timer waits at least as long as it is told to, without the fraction
of a millisecond. What `Number` and `Date.parse` make of a `retry-after`
header is part of the header; the other contents of a response, and the
arguments of a request, are left out.
-/

namespace OmpBundler.Pumble

open Library

def requestIntervalMs : ℤ := 100
def maxRateLimitRetries : ℕ := 2
def initialRateLimitBackoffMs : ℚ := 250
def maxRateLimitBackoffMs : ℚ := 10000
def maxRateLimitStreak : ℕ := 31

/-- A `retry-after` header that is not empty: the finite number it is read
as, and the date, if any. -/
structure RetryAfter where
  seconds : Option ℚ
  date : Option ℤ
  deriving DecidableEq, Repr

/-- How a fetch settles. -/
inductive Answer where
  /-- Status 429. -/
  | rateLimited (retryAfter : Option RetryAfter)
  /-- Any other status. -/
  | status (code : ℕ)
  /-- It rejects. -/
  | failed
  deriving DecidableEq, Repr

/-- How a request settles. -/
inductive Outcome where
  /-- As its last fetch. -/
  | answered (answer : Answer)
  /-- Its signal was aborted while it waited for a slot. -/
  | aborted
  deriving DecidableEq, Repr

/-- A fetch that has settled. -/
structure Fetch where
  request : ℕ
  attempt : ℕ
  started : ℤ
  finished : ℤ
  answer : Answer
  deriving DecidableEq, Repr

/-- Where the request that is performed stands. -/
inductive Phase where
  /-- Its timer fires at that time or later. -/
  | waiting (until' : ℤ)
  /-- `waitForRequestSlot` has returned. -/
  | ready
  | fetching (started : ℤ)
  /-- The body of a 429 is cancelled. -/
  | discarding
  deriving DecidableEq, Repr

structure Performing where
  request : ℕ
  attempt : ℕ
  phase : Phase
  deriving DecidableEq, Repr

structure PumbleApi where
  now : ℤ
  nextRequestAt : ℚ
  rateLimitStreak : ℕ
  /-- The number of requests so far. -/
  requested : ℕ
  /-- The requests that wait for their turn. -/
  requestTail : List ℕ
  performing : Option Performing
  outcome : ℕ → Option Outcome
  /-- The fetches that have settled. -/
  log : List Fetch

namespace PumbleApi

/-- No request has been made. -/
def initial (now : ℕ) : PumbleApi := ⟨now, 0, 0, 0, [], none, fun _ => none, []⟩

/-! ### The code -/

/-- A number of seconds counts if it is not negative. -/
def rateLimitBackoffMs (retryAfter : Option RetryAfter) (now : ℤ) (streak : ℕ) : ℚ :=
  match retryAfter.bind fun h => h.seconds.filter (0 ≤ ·), retryAfter.bind (·.date) with
  | some seconds, _ => min (seconds * 1000) maxRateLimitBackoffMs
  | none, some retryAt => min (max 0 ((retryAt : ℚ) - now)) maxRateLimitBackoffMs
  | none, none => min (initialRateLimitBackoffMs * 2 ^ streak) maxRateLimitBackoffMs

/-- Put the request into a phase. -/
def enter (s : PumbleApi) (p : Performing) (phase : Phase) : PumbleApi :=
  { s with performing := some { p with phase } }

/-- `waitForRequestSlot` up to its `await`. -/
def waitForRequestSlot (s : PumbleApi) (request attempt : ℕ) : PumbleApi :=
  let delay := s.nextRequestAt - s.now
  { s with
    performing :=
      some ⟨request, attempt, if delay ≤ 0 then .ready else .waiting (s.now + ⌊delay⌋)⟩ }

/-- The request settles, and the next one may be performed. -/
def settle (s : PumbleApi) (request : ℕ) (outcome : Outcome) : PumbleApi :=
  { s with performing := none, outcome := Function.update s.outcome request (some outcome) }

/-- The fetch has settled; the clock is read a second time `later`
milliseconds after the first. -/
def answer (s : PumbleApi) (p : Performing) (started : ℤ) (a : Answer) (later : ℕ) : PumbleApi :=
  let s := { s with log := s.log ++ [(⟨p.request, p.attempt, started, s.now, a⟩ : Fetch)] }
  match a with
  | .failed => s.settle p.request (.answered a)
  | .status _ => { s with rateLimitStreak := 0 }.settle p.request (.answered a)
  | .rateLimited retryAfter =>
      let backoffMs := rateLimitBackoffMs retryAfter s.now s.rateLimitStreak
      let s :=
        { s with
          now := s.now + later
          rateLimitStreak := min (s.rateLimitStreak + 1) maxRateLimitStreak
          nextRequestAt := max s.nextRequestAt ((s.now + later : ℤ) + backoffMs) }
      if maxRateLimitRetries ≤ p.attempt then s.settle p.request (.answered a)
      else s.enter p .discarding

/-! ### The machine -/

inductive Action where
  /-- `request` is called. -/
  | request
  | tick (ms : ℕ)
  /-- The first request of the chain is performed. -/
  | begin
  /-- The timer fires. -/
  | wake
  /-- The signal of the request that is performed is aborted. -/
  | abort
  /-- `fetch` is called. -/
  | fetch
  | answer (a : Answer) (later : ℕ)
  /-- The body has been cancelled, or that has failed. -/
  | discarded
  deriving DecidableEq, Repr

def step (s : PumbleApi) : Action → Option PumbleApi
  | .request =>
      some { s with requested := s.requested + 1, requestTail := s.requestTail ++ [s.requested] }
  | .tick ms => some { s with now := s.now + ms }
  | .begin =>
      match s.performing, s.requestTail with
      | none, request :: rest => some ({ s with requestTail := rest }.waitForRequestSlot request 0)
      | _, _ => none
  | .wake =>
      s.performing.bind fun p =>
        match p.phase with
        | .waiting until' => if until' ≤ s.now then some (s.enter p .ready) else none
        | _ => none
  | .abort =>
      s.performing.bind fun p =>
        match p.phase with
        | .waiting _ => some (s.settle p.request .aborted)
        | _ => none
  | .fetch =>
      s.performing.bind fun p =>
        match p.phase with
        | .ready =>
            some ({ s with nextRequestAt := (s.now + requestIntervalMs : ℤ) }.enter p
              (.fetching s.now))
        | _ => none
  | .answer a later =>
      s.performing.bind fun p =>
        match p.phase with
        | .fetching started => some (s.answer p started a later)
        | _ => none
  | .discarded =>
      s.performing.bind fun p =>
        match p.phase with
        | .discarding => some (s.waitForRequestSlot p.request (p.attempt + 1))
        | _ => none

/-- The requests of one process. -/
def machine : Transition.Machine PumbleApi Action where
  init s := ∃ now, s = initial now
  step := step

/-! ### Backoffs -/

theorem rateLimitBackoffMs_le (retryAfter : Option RetryAfter) (now : ℤ) (streak : ℕ) :
    rateLimitBackoffMs retryAfter now streak ≤ maxRateLimitBackoffMs := by
  unfold rateLimitBackoffMs
  split <;> exact min_le_right _ _

theorem rateLimitBackoffMs_nonneg (retryAfter : Option RetryAfter) (now : ℤ) (streak : ℕ) :
    0 ≤ rateLimitBackoffMs retryAfter now streak := by
  have cap : 0 ≤ maxRateLimitBackoffMs := by norm_num [maxRateLimitBackoffMs]
  unfold rateLimitBackoffMs
  split
  · case h_1 _ _ seconds found =>
    obtain ⟨header, -, filtered⟩ := Option.bind_eq_some_iff.mp found
    have nonneg : 0 ≤ seconds := by simpa using (Option.filter_eq_some_iff.mp filtered).2
    exact le_min (by linarith) cap
  · exact le_min (le_max_left _ _) cap
  · exact le_min (by norm_num [initialRateLimitBackoffMs]) cap

/-- The streak after these fetches: a fetch that rejects does not end it. -/
def streakOf (log : List Fetch) : ℕ :=
  log.foldl (fun n f =>
    match f.answer with
    | .rateLimited _ => min (n + 1) maxRateLimitStreak
    | .status _ => 0
    | .failed => n) 0

theorem streakOf_append (log : List Fetch) (f : Fetch) :
    streakOf (log ++ [f]) =
      match f.answer with
      | .rateLimited _ => min (streakOf log + 1) maxRateLimitStreak
      | .status _ => 0
      | .failed => streakOf log := by
  rw [streakOf, List.foldl_append]
  rfl

/-! ### Pacing -/

/-- After these fetches the next one may start at that time: not before the
last one has settled, nor before its interval is over, nor before the backoff
is over that it was answered with, if any. -/
def MayStart (log : List Fetch) (t : ℤ) : Prop :=
  ∀ before f, log = before ++ [f] →
    f.finished ≤ t ∧ f.started + requestIntervalMs ≤ t ∧
      ∀ retryAfter, f.answer = .rateLimited retryAfter →
        f.finished + ⌊rateLimitBackoffMs retryAfter f.finished (streakOf before)⌋ ≤ t

/-- Each fetch has started when it might. -/
inductive Paced : List Fetch → Prop
  | nil : Paced []
  | snoc {log : List Fetch} {f : Fetch} (paced : Paced log) (may : MayStart log f.started) :
      Paced (log ++ [f])

theorem mayStart_nil (t : ℤ) : MayStart [] t := fun before f same => by simp at same

theorem mayStart_append {log : List Fetch} {f : Fetch} {t : ℤ} (finished : f.finished ≤ t)
    (interval : f.started + requestIntervalMs ≤ t)
    (backoff : ∀ retryAfter, f.answer = .rateLimited retryAfter →
      f.finished + ⌊rateLimitBackoffMs retryAfter f.finished (streakOf log)⌋ ≤ t) :
    MayStart (log ++ [f]) t := by
  intro before g same
  obtain ⟨rfl, last⟩ := List.append_inj' same rfl
  obtain rfl := List.singleton_inj.mp last
  exact ⟨finished, interval, backoff⟩

/-- What the phase of a request says about the next slot. -/
def Phase.Timed (s : PumbleApi) : Phase → Prop
  | .waiting until' => ⌊s.nextRequestAt⌋ ≤ until' ∧ (until' : ℚ) ≤ s.now + maxRateLimitBackoffMs
  | .ready => ⌊s.nextRequestAt⌋ ≤ s.now
  | .fetching started =>
      started ≤ s.now ∧ MayStart s.log started ∧
        ((started + requestIntervalMs : ℤ) : ℚ) ≤ s.nextRequestAt
  | .discarding => True

/-- The next slot comes late enough, and within the longest backoff. -/
structure Slotted (s : PumbleApi) : Prop where
  paced : Paced s.log
  streak : s.rateLimitStreak = streakOf s.log
  slot : ∀ t, s.now ≤ t → ⌊s.nextRequestAt⌋ ≤ t → MayStart s.log t
  patient : s.nextRequestAt ≤ s.now + maxRateLimitBackoffMs

/-- So does the fetch that is performed. -/
structure Timely (s : PumbleApi) : Prop extends Slotted s where
  timed : ∀ p, s.performing = some p → Phase.Timed s p.phase

variable {s t : PumbleApi}

theorem Slotted.timely (h : s.Slotted)
    (idle : ∀ p, s.performing = some p → p.phase = .discarding) : s.Timely :=
  ⟨h, fun p performing => idle p performing ▸ trivial⟩

theorem timely_initial (now : ℕ) : Timely (initial now) where
  paced := .nil
  streak := rfl
  slot t _ _ := mayStart_nil t
  patient := by
    have cap : 0 ≤ maxRateLimitBackoffMs := by norm_num [maxRateLimitBackoffMs]
    simp only [initial]
    positivity
  timed p performing := by simp [initial] at performing

theorem Slotted.waitForRequestSlot (h : s.Slotted) (request attempt : ℕ) :
    (s.waitForRequestSlot request attempt).Timely := by
  refine ⟨⟨h.paced, h.streak, h.slot, h.patient⟩, fun p performing => ?_⟩
  obtain rfl := Option.some.inj performing
  simp only [PumbleApi.waitForRequestSlot]
  split
  · case isTrue due =>
      have due : s.nextRequestAt ≤ s.now := by linarith
      exact (Int.floor_le_floor due).trans (by simp)
  · have whole : s.now + ⌊s.nextRequestAt - (s.now : ℚ)⌋ = ⌊s.nextRequestAt⌋ := by
      rw [Int.floor_sub_intCast]
      omega
    refine ⟨whole.ge, ?_⟩
    rw [whole]
    exact (Int.floor_le _).trans h.patient

theorem Slotted.settle (h : s.Slotted) (request : ℕ) (outcome : Outcome) :
    (s.settle request outcome).Timely :=
  Slotted.timely ⟨h.paced, h.streak, h.slot, h.patient⟩ fun p performing => by
    simp [PumbleApi.settle] at performing

theorem Timely.tick (h : s.Timely) (ms : ℕ) : Timely { s with now := s.now + ms } := by
  have later : s.now ≤ s.now + ms := by omega
  have patience {q : ℚ} (within : q ≤ s.now + maxRateLimitBackoffMs) :
      q ≤ ((s.now + ms : ℤ) : ℚ) + maxRateLimitBackoffMs := by
    push_cast
    linarith [(Nat.cast_nonneg ms : (0 : ℚ) ≤ ms)]
  refine ⟨⟨h.paced, h.streak, fun t after => h.slot t (later.trans after), patience h.patient⟩,
    fun p performing => ?_⟩
  have timed := h.timed p performing
  cases phase : p.phase with
  | waiting until' =>
      rw [phase] at timed
      exact ⟨timed.1, patience timed.2⟩
  | ready =>
      rw [phase] at timed
      exact timed.trans later
  | fetching started =>
      rw [phase] at timed
      exact ⟨timed.1.trans later, timed.2⟩
  | discarding => trivial

/-- The fetch is entered into the log. -/
theorem Timely.answer (h : s.Timely) {p : Performing} {started : ℤ}
    (performing : s.performing = some p) (phase : p.phase = .fetching started) (a : Answer)
    (later : ℕ) : (s.answer p started a later).Timely := by
  obtain ⟨past, may, interval⟩ : Phase.Timed s (.fetching started) :=
    phase ▸ h.timed p performing
  have paced : Paced (s.log ++ [⟨p.request, p.attempt, started, s.now, a⟩]) := .snoc h.paced may
  have spaced {q : ℚ} (next : s.nextRequestAt ≤ q) : started + requestIntervalMs ≤ ⌊q⌋ :=
    Int.le_floor.mpr (interval.trans next)
  -- a fetch that is not answered with 429 leaves the next slot as it is
  have plain (b : Answer) (other : ∀ retryAfter, b ≠ .rateLimited retryAfter) (t : ℤ)
      (after : s.now ≤ t) (due : ⌊s.nextRequestAt⌋ ≤ t) :
      MayStart (s.log ++ [⟨p.request, p.attempt, started, s.now, b⟩]) t :=
    mayStart_append after ((spaced le_rfl).trans due) fun retryAfter limited =>
      absurd limited (other retryAfter)
  cases a with
  | failed =>
      have slotted : Slotted
          { s with log := s.log ++ [⟨p.request, p.attempt, started, s.now, .failed⟩] } := by
        refine ⟨paced, ?_, plain .failed (by simp), h.patient⟩
        rw [streakOf_append]
        exact h.streak
      exact slotted.settle _ _
  | status code =>
      have slotted : Slotted
          { s with
            log := s.log ++ [⟨p.request, p.attempt, started, s.now, .status code⟩]
            rateLimitStreak := 0 } := by
        refine ⟨paced, ?_, plain (.status code) (by simp), h.patient⟩
        rw [streakOf_append]
      exact slotted.settle _ _
  | rateLimited retryAfter =>
      have cap := rateLimitBackoffMs_le retryAfter s.now s.rateLimitStreak
      have elapsed : (0 : ℚ) ≤ later := Nat.cast_nonneg later
      have slotted : Slotted
          { s with
            log := s.log ++ [⟨p.request, p.attempt, started, s.now, .rateLimited retryAfter⟩]
            now := s.now + later
            rateLimitStreak := min (s.rateLimitStreak + 1) maxRateLimitStreak
            nextRequestAt := max s.nextRequestAt ((s.now + later : ℤ) +
              rateLimitBackoffMs retryAfter s.now s.rateLimitStreak) } := by
        refine ⟨paced, ?_, fun t after due => ?_, ?_⟩
        · rw [streakOf_append, h.streak]
        · have later : s.now ≤ t := (Int.le_add_of_nonneg_right (Int.natCast_nonneg later)).trans after
          refine mayStart_append later ((spaced (le_max_left _ _)).trans due)
            fun other limited => ?_
          obtain rfl := Answer.rateLimited.inj limited
          refine le_trans ?_ due
          rw [← h.streak, ← Int.floor_intCast_add]
          refine Int.floor_le_floor (le_max_of_le_right ?_)
          push_cast
          linarith
        · refine max_le ?_ (by push_cast; linarith)
          push_cast
          linarith [h.patient]
      rw [PumbleApi.answer]
      split_ifs
      · exact slotted.settle _ _
      · refine Slotted.timely ⟨slotted.paced, slotted.streak, slotted.slot, slotted.patient⟩ ?_
        intro q entered
        obtain rfl := Option.some.inj entered
        rfl

/-! ### What a step does -/

/-- The steps of the machine. -/
inductive Step (s : PumbleApi) : PumbleApi → Prop
  | request :
      Step s { s with requested := s.requested + 1, requestTail := s.requestTail ++ [s.requested] }
  | tick (ms : ℕ) : Step s { s with now := s.now + ms }
  | begin {request : ℕ} {rest : List ℕ} (idle : s.performing = none)
      (first : s.requestTail = request :: rest) :
      Step s ({ s with requestTail := rest }.waitForRequestSlot request 0)
  | wake {p : Performing} {until' : ℤ} (performing : s.performing = some p)
      (phase : p.phase = .waiting until') (due : until' ≤ s.now) : Step s (s.enter p .ready)
  | abort {p : Performing} {until' : ℤ} (performing : s.performing = some p)
      (phase : p.phase = .waiting until') : Step s (s.settle p.request .aborted)
  | fetch {p : Performing} (performing : s.performing = some p) (phase : p.phase = .ready) :
      Step s ({ s with nextRequestAt := (s.now + requestIntervalMs : ℤ) }.enter p
        (.fetching s.now))
  | answer {p : Performing} {started : ℤ} (performing : s.performing = some p)
      (phase : p.phase = .fetching started) (a : Answer) (later : ℕ) :
      Step s (s.answer p started a later)
  | discarded {p : Performing} (performing : s.performing = some p)
      (phase : p.phase = .discarding) :
      Step s (s.waitForRequestSlot p.request (p.attempt + 1))

theorem step_cases {a : Action} (taken : s.step a = some t) : Step s t := by
  cases a with
  | request => exact Option.some.inj taken ▸ .request
  | tick ms => exact Option.some.inj taken ▸ .tick ms
  | begin =>
      simp only [step] at taken
      split at taken
      · case h_1 request rest idle first => exact Option.some.inj taken ▸ .begin idle first
      · simp at taken
  | wake =>
      obtain ⟨p, performing, taken⟩ := Option.bind_eq_some_iff.mp taken
      split at taken
      · case h_1 until' phase =>
          obtain ⟨due, taken⟩ := Option.ite_none_right_eq_some.mp taken
          exact Option.some.inj taken ▸ .wake performing phase due
      · simp at taken
  | abort =>
      obtain ⟨p, performing, taken⟩ := Option.bind_eq_some_iff.mp taken
      split at taken
      · case h_1 until' phase => exact Option.some.inj taken ▸ .abort performing phase
      · simp at taken
  | fetch =>
      obtain ⟨p, performing, taken⟩ := Option.bind_eq_some_iff.mp taken
      split at taken
      · case h_1 phase => exact Option.some.inj taken ▸ .fetch performing phase
      · simp at taken
  | answer a later =>
      obtain ⟨p, performing, taken⟩ := Option.bind_eq_some_iff.mp taken
      split at taken
      · case h_1 started phase => exact Option.some.inj taken ▸ .answer performing phase a later
      · simp at taken
  | discarded =>
      obtain ⟨p, performing, taken⟩ := Option.bind_eq_some_iff.mp taken
      split at taken
      · case h_1 phase => exact Option.some.inj taken ▸ .discarded performing phase
      · simp at taken

theorem Timely.step (h : s.Timely) (step : Step s t) : t.Timely := by
  cases step with
  | request => exact ⟨⟨h.paced, h.streak, h.slot, h.patient⟩, h.timed⟩
  | tick ms => exact h.tick ms
  | @begin request rest idle first =>
      have slotted : Slotted { s with requestTail := rest } := ⟨h.paced, h.streak, h.slot, h.patient⟩
      exact slotted.waitForRequestSlot request 0
  | wake performing phase due =>
      refine ⟨⟨h.paced, h.streak, h.slot, h.patient⟩, fun q entered => ?_⟩
      obtain rfl := Option.some.inj entered
      have timed := h.timed _ performing
      rw [phase] at timed
      exact timed.1.trans due
  | abort performing phase => exact h.toSlotted.settle _ _
  | fetch performing phase =>
      have ready : ⌊s.nextRequestAt⌋ ≤ s.now := by
        have timed := h.timed _ performing
        rwa [phase] at timed
      have cap : ((requestIntervalMs : ℤ) : ℚ) ≤ maxRateLimitBackoffMs := by
        norm_num [requestIntervalMs, maxRateLimitBackoffMs]
      refine ⟨⟨h.paced, h.streak, fun t after _ => h.slot t after (ready.trans after), ?_⟩,
        fun q entered => ?_⟩
      · simp only [enter]
        push_cast
        linarith
      · obtain rfl := Option.some.inj entered
        exact ⟨le_rfl, h.slot s.now le_rfl ready, le_rfl⟩
  | answer performing phase a later => exact h.answer performing phase a later
  | discarded performing phase => exact h.toSlotted.waitForRequestSlot _ _

/-- Every fetch that has settled has started in its slot, and so has the one
that has not; a request waits for its slot no longer than the longest
backoff. -/
structure KeepsPace (s : PumbleApi) : Prop where
  paced : Paced s.log
  current : ∀ p started, s.performing = some p → p.phase = .fetching started →
    started ≤ s.now ∧ MayStart s.log started
  patient : ∀ p until', s.performing = some p → p.phase = .waiting until' →
    (until' : ℚ) ≤ s.now + maxRateLimitBackoffMs

/-- In every run, whatever is requested, aborted and answered and when, the
fetches of all requests do not overlap, are an interval apart, and none is
made before the backoff of an earlier 429 is over. -/
theorem requests_keep_pace (now : ℕ) (as : List Action) :
    machine.Throughout KeepsPace (initial now) as := by
  refine Transition.Machine.throughout_of_invariant (timely_initial now) (fun s h => ?_)
    (fun _ _ _ h taken => h.step (step_cases taken)) as
  refine ⟨h.paced, fun p started performing phase => ?_, fun p until' performing phase => ?_⟩
  · have timed := h.timed p performing
    rw [phase] at timed
    exact ⟨timed.1, timed.2.1⟩
  · have timed := h.timed p performing
    rw [phase] at timed
    exact timed.2

/-! ### Order -/

/-- The number of requests whose turn has come. -/
def begun (s : PumbleApi) : ℕ := s.requested - s.requestTail.length

/-- The fetches of a request. -/
def fetchesOf (log : List Fetch) (request : ℕ) : List Fetch :=
  log.filter (·.request = request)

theorem mem_fetchesOf {log : List Fetch} {f : Fetch} {request : ℕ} :
    f ∈ fetchesOf log request ↔ f ∈ log ∧ f.request = request := by
  simp [fetchesOf]

theorem fetchesOf_append (log : List Fetch) (f : Fetch) (request : ℕ) :
    fetchesOf (log ++ [f]) request =
      fetchesOf log request ++ if f.request = request then [f] else [] := by
  rw [fetchesOf, List.filter_append]
  by_cases same : f.request = request <;> simp [same, fetchesOf]

/-- How many fetches the request that is performed has behind it. -/
def fetched (p : Performing) : ℕ :=
  if p.phase = .discarding then p.attempt + 1 else p.attempt

/-- What is known of the request that is performed: its fetches have all been
answered with 429, and it may make another one. -/
structure Retries (p : Performing) (log : List Fetch) : Prop where
  fetches : (fetchesOf log p.request).length = fetched p
  bound : fetched p ≤ maxRateLimitRetries
  limited : ∀ f ∈ fetchesOf log p.request, ∃ retryAfter, f.answer = .rateLimited retryAfter

/-- The fetches of a request are numbered from 0, and all but the last one
have been answered with 429. -/
structure Numbered (log : List Fetch) (request : ℕ) : Prop where
  attempts : (fetchesOf log request).map (·.attempt) = List.range (fetchesOf log request).length
  bound : (fetchesOf log request).length ≤ maxRateLimitRetries + 1
  retried : ∀ f ∈ (fetchesOf log request).dropLast, ∃ retryAfter, f.answer = .rateLimited retryAfter

/-- The request has settled as its last fetch, which was answered with 429
only if there was no retry left. -/
structure Settled (log : List Fetch) (request : ℕ) (a : Answer) : Prop where
  last : ∃ f, (fetchesOf log request).getLast? = some f ∧ f.answer = a
  exhausted : ∀ retryAfter, a = .rateLimited retryAfter →
    (fetchesOf log request).length = maxRateLimitRetries + 1

/-- Requests are served in the order in which they are made. -/
structure Ordered (s : PumbleApi) : Prop where
  tail : s.requestTail = List.range' s.begun s.requestTail.length
  bounded : s.requestTail.length ≤ s.requested
  performed : ∀ p, s.performing = some p → p.request + 1 = s.begun
  /-- Those whose turn has come have settled, all but the one that is
  performed. -/
  settled : ∀ i, (s.outcome i).isSome ↔
    i < s.begun ∧ ∀ p, s.performing = some p → p.request ≠ i
  known : ∀ f ∈ s.log, f.request < s.begun
  sorted : (s.log.map (·.request)).Pairwise (· ≤ ·)
  numbered : ∀ r, Numbered s.log r
  outcomes : ∀ i a, s.outcome i = some (.answered a) → Settled s.log i a

/-- And the one that is performed retries while it may. -/
structure Serves (s : PumbleApi) : Prop extends Ordered s where
  retries : ∀ p, s.performing = some p → Retries p s.log

/-- A request that is performed has not settled. -/
theorem Ordered.unsettled (h : s.Ordered) {p : Performing} (performing : s.performing = some p) :
    s.outcome p.request = none := by
  by_contra found
  have settled := (h.settled p.request).mp (Option.isSome_iff_ne_none.mpr found)
  exact settled.2 p performing rfl

/-- The request goes to another phase, or to its next attempt. -/
theorem Ordered.enter (h : s.Ordered) {p q : Performing} (performing : s.performing = some p)
    (same : q.request = p.request) (retries : Retries q s.log) :
    Serves { s with performing := some q } := by
  refine ⟨⟨h.tail, h.bounded, fun q' entered => ?_, fun i => ?_, h.known, h.sorted, h.numbered,
    h.outcomes⟩, fun q' entered => ?_⟩
  · obtain rfl := Option.some.inj entered
    rw [same]
    exact h.performed p performing
  · rw [h.settled i]
    refine and_congr_right fun _ => ⟨fun other q' entered => ?_, fun other p' performing' => ?_⟩
    · obtain rfl := Option.some.inj entered
      exact same ▸ other p performing
    · obtain rfl := Option.some.inj (performing.symm.trans performing')
      exact same ▸ other q rfl
  · obtain rfl := Option.some.inj entered
    exact retries

/-- The request that is performed settles. -/
theorem Ordered.settle (h : s.Ordered) {p : Performing} (performing : s.performing = some p)
    (outcome : Outcome) (answered : ∀ a, outcome = .answered a → Settled s.log p.request a) :
    (s.settle p.request outcome).Serves := by
  refine ⟨⟨h.tail, h.bounded, fun q entered => ?_, fun i => ?_, h.known, h.sorted, h.numbered,
    fun i a found => ?_⟩, fun q entered => by simp [PumbleApi.settle] at entered⟩
  · simp [PumbleApi.settle] at entered
  · have before := h.settled i
    have turn : p.request < s.begun := Nat.lt_of_succ_le (h.performed p performing).le
    show (Function.update s.outcome p.request (some outcome) i).isSome = true ↔
      i < s.begun ∧ ∀ q, (none : Option Performing) = some q → q.request ≠ i
    by_cases here : i = p.request
    · subst here
      simpa using turn
    · have other : ∀ p', s.performing = some p' → p'.request ≠ i := by
        intro p' performing'
        obtain rfl := Option.some.inj (performing.symm.trans performing')
        exact Ne.symm here
      rw [Function.update_of_ne here, before]
      simpa using fun _ => other
  · by_cases here : i = p.request
    · subst here
      simp only [PumbleApi.settle, Function.update_self] at found
      exact answered a (Option.some.inj found)
    · simp only [PumbleApi.settle, Function.update_of_ne here] at found
      exact h.outcomes i a found

/-- What the log looks like to a request that has made no fetch of late. -/
theorem fetchesOf_append_of_ne {log : List Fetch} {f : Fetch} {request : ℕ}
    (other : request ≠ f.request) : fetchesOf (log ++ [f]) request = fetchesOf log request := by
  rw [fetchesOf_append, if_neg (Ne.symm other), List.append_nil]

theorem Numbered.append {log : List Fetch} {f : Fetch} {request : ℕ} (h : Numbered log request)
    (next : request = f.request → (fetchesOf log request).length = f.attempt ∧
      f.attempt ≤ maxRateLimitRetries ∧
      ∀ g ∈ fetchesOf log request, ∃ retryAfter, g.answer = .rateLimited retryAfter) :
    Numbered (log ++ [f]) request := by
  by_cases here : request = f.request
  · obtain ⟨count, bound, limited⟩ := next here
    have all : fetchesOf (log ++ [f]) request = fetchesOf log request ++ [f] := by
      rw [fetchesOf_append, if_pos here.symm]
    refine ⟨?_, ?_, ?_⟩
    · rw [all, List.map_append, h.attempts, List.length_append, List.length_singleton,
        List.range_succ, count]
      rfl
    · rw [all, List.length_append, count]
      exact Nat.succ_le_succ bound
    · rw [all, List.dropLast_concat]
      exact limited
  · have same : fetchesOf (log ++ [f]) request = fetchesOf log request :=
      fetchesOf_append_of_ne here
    exact ⟨same ▸ h.attempts, same ▸ h.bound, same ▸ h.retried⟩

/-- The fetch of the request that is performed settles. -/
theorem Serves.log (h : s.Serves) {p : Performing} (performing : s.performing = some p)
    (fetching : fetched p = p.attempt) (f : Fetch) (request : f.request = p.request)
    (attempt : f.attempt = p.attempt) :
    (∀ g ∈ s.log ++ [f], g.request < s.begun) ∧
      ((s.log ++ [f]).map (·.request)).Pairwise (· ≤ ·) ∧ (∀ r, Numbered (s.log ++ [f]) r) ∧
      ∀ i a, s.outcome i = some (.answered a) → Settled (s.log ++ [f]) i a := by
  have retries := h.retries p performing
  have turn : p.request + 1 = s.begun := h.performed p performing
  refine ⟨fun g mem => ?_, ?_, fun r => (h.numbered r).append fun here => ?_, fun i a found => ?_⟩
  · rcases List.mem_append.mp mem with old | new
    · exact h.known g old
    · obtain rfl := List.mem_singleton.mp new
      omega
  · rw [List.map_append]
    refine List.pairwise_append.mpr ⟨h.sorted, List.pairwise_singleton _ _, ?_⟩
    intro r old r' new
    obtain ⟨g, mem, rfl⟩ := List.mem_map.mp old
    obtain rfl : r' = f.request := by simpa using new
    have := h.known g mem
    omega
  · subst here
    rw [request, attempt, ← fetching]
    exact ⟨retries.fetches, retries.bound, retries.limited⟩
  · have other : i ≠ f.request := by
      intro same
      have unsettled := h.unsettled performing
      rw [← request, ← same, found] at unsettled
      cases unsettled
    have same : fetchesOf (s.log ++ [f]) i = fetchesOf s.log i := fetchesOf_append_of_ne other
    obtain ⟨last, exhausted⟩ := h.outcomes i a found
    exact ⟨same ▸ last, same ▸ exhausted⟩

theorem Serves.answer (h : s.Serves) {p : Performing} {started : ℤ}
    (performing : s.performing = some p) (phase : p.phase = .fetching started) (a : Answer)
    (later : ℕ) : (s.answer p started a later).Serves := by
  have fetching : fetched p = p.attempt := by simp [fetched, phase]
  have retries := h.retries p performing
  obtain ⟨known, sorted, numbered, outcomes⟩ := h.log performing fetching
    ⟨p.request, p.attempt, started, s.now, a⟩ rfl rfl
  have all : fetchesOf (s.log ++ [⟨p.request, p.attempt, started, s.now, a⟩]) p.request =
      fetchesOf s.log p.request ++ [⟨p.request, p.attempt, started, s.now, a⟩] := by
    rw [fetchesOf_append, if_pos rfl]
  have count : (fetchesOf (s.log ++ [⟨p.request, p.attempt, started, s.now, a⟩]) p.request).length =
      p.attempt + 1 := by
    rw [all, List.length_append, retries.fetches, fetching, List.length_singleton]
  have settled (last : (∃ retryAfter, a = .rateLimited retryAfter) → p.attempt = maxRateLimitRetries) :
      Settled (s.log ++ [⟨p.request, p.attempt, started, s.now, a⟩]) p.request a := by
    refine ⟨⟨_, by rw [all, List.getLast?_concat], rfl⟩, fun retryAfter limited => ?_⟩
    rw [count, last ⟨retryAfter, limited⟩]
  -- the state after the fetch, whatever becomes of the slot
  have ordered (now : ℤ) (nextRequestAt : ℚ) (rateLimitStreak : ℕ) : Ordered
      { s with
        log := s.log ++ [⟨p.request, p.attempt, started, s.now, a⟩]
        now, nextRequestAt, rateLimitStreak } :=
    ⟨h.tail, h.bounded, h.performed, h.settled, known, sorted, numbered, outcomes⟩
  cases a with
  | failed =>
      exact (ordered s.now s.nextRequestAt s.rateLimitStreak).settle performing _ fun a same =>
        Outcome.answered.inj same ▸ settled (by simp)
  | status code =>
      exact (ordered s.now s.nextRequestAt 0).settle performing _ fun a same =>
        Outcome.answered.inj same ▸ settled (by simp)
  | rateLimited retryAfter =>
      have bound : p.attempt ≤ maxRateLimitRetries := fetching ▸ retries.bound
      rw [PumbleApi.answer]
      split_ifs with last
      · exact (ordered _ _ _).settle performing _ fun a same =>
          Outcome.answered.inj same ▸ settled fun _ => le_antisymm bound last
      · refine (ordered _ _ _).enter performing rfl ⟨count, Nat.lt_of_not_le last, fun f mem => ?_⟩
        rcases List.mem_append.mp (all ▸ mem) with old | new
        · exact retries.limited f old
        · exact ⟨retryAfter, List.mem_singleton.mp new ▸ rfl⟩

/-- The request waits for its slot, or has it. -/
theorem waitForRequestSlot_performing (s : PumbleApi) (request attempt : ℕ) :
    ∃ phase, phase ≠ .discarding ∧
      s.waitForRequestSlot request attempt =
        { s with performing := some ⟨request, attempt, phase⟩ } := by
  refine ⟨_, ?_, rfl⟩
  split <;> simp

/-- The first request of the chain is performed. -/
theorem Serves.begin (h : s.Serves) {request : ℕ} {rest : List ℕ} (idle : s.performing = none)
    (first : s.requestTail = request :: rest) :
    ({ s with requestTail := rest }.waitForRequestSlot request 0).Serves := by
  obtain ⟨phase, going, same⟩ := waitForRequestSlot_performing { s with requestTail := rest } request 0
  have tail := h.tail
  have bounded := h.bounded
  rw [first, List.length_cons] at tail bounded
  rw [List.range'_succ] at tail
  obtain ⟨here, tail⟩ := List.cons.inj tail
  have next : PumbleApi.begun
      { s with requestTail := rest, performing := some ⟨request, 0, phase⟩ } = s.begun + 1 := by
    simp only [begun, first, List.length_cons]
    omega
  have none : fetchesOf s.log request = [] := by
    refine List.eq_nil_iff_forall_not_mem.mpr fun f mem => ?_
    obtain ⟨mem, own⟩ := mem_fetchesOf.mp mem
    have := h.known f mem
    omega
  rw [same]
  refine ⟨⟨?_, ?_, fun p performing => ?_, fun i => ?_, fun f mem => ?_, h.sorted, h.numbered,
    h.outcomes⟩, fun p performing => ?_⟩
  · rw [next]
    exact tail
  · simp only
    omega
  · obtain rfl := Option.some.inj performing
    rw [next, here]
  · have before := h.settled i
    simp only [idle, reduceCtorEq, false_imp_iff, implies_true, and_true] at before
    rw [next, before]
    simp only [Option.some.injEq, forall_eq']
    omega
  · rw [next]
    exact (h.known f mem).trans (Nat.lt_succ_self _)
  · obtain rfl := Option.some.inj performing
    have fetches : fetched ⟨request, 0, phase⟩ = 0 := if_neg going
    exact ⟨by rw [fetches, none, List.length_nil], by rw [fetches]; exact Nat.zero_le _,
      by simp [none]⟩

theorem Serves.step (h : s.Serves) (step : Step s t) : t.Serves := by
  cases step with
  | request =>
      have length : s.requestTail.length ≤ s.requested := h.bounded
      have same : PumbleApi.begun
          { s with
            requested := s.requested + 1
            requestTail := s.requestTail ++ [s.requested] } = s.begun := by
        simp only [begun, List.length_append, List.length_singleton]
        omega
      refine ⟨⟨?_, ?_, ?_, ?_, ?_, h.sorted, h.numbered, h.outcomes⟩, h.retries⟩
      · rw [same]
        simp only [List.length_append, List.length_singleton, List.range'_concat]
        rw [← h.tail, begun]
        congr
        omega
      · simp only [List.length_append, List.length_singleton]
        omega
      · rw [same]
        exact h.performed
      · rw [same]
        exact h.settled
      · rw [same]
        exact h.known
  | tick ms =>
      exact ⟨⟨h.tail, h.bounded, h.performed, h.settled, h.known, h.sorted, h.numbered,
        h.outcomes⟩, h.retries⟩
  | begin idle first => exact h.begin idle first
  | wake performing phase due =>
      have retries := h.retries _ performing
      refine h.toOrdered.enter performing rfl ⟨?_, ?_, retries.limited⟩
      · simpa [fetched, phase] using retries.fetches
      · simpa [fetched, phase] using retries.bound
  | abort performing phase => exact h.toOrdered.settle performing _ (by simp)
  | fetch performing phase =>
      have retries := h.retries _ performing
      have ordered : Ordered { s with nextRequestAt := (s.now + requestIntervalMs : ℤ) } :=
        ⟨h.tail, h.bounded, h.performed, h.settled, h.known, h.sorted, h.numbered, h.outcomes⟩
      refine ordered.enter performing rfl ⟨?_, ?_, retries.limited⟩
      · simpa [fetched, phase] using retries.fetches
      · simpa [fetched, phase] using retries.bound
  | answer performing phase a later => exact h.answer performing phase a later
  | @discarded p performing phase =>
      have retries := h.retries _ performing
      have done : fetched p = p.attempt + 1 := by simp [fetched, phase]
      obtain ⟨phase', going, same⟩ := waitForRequestSlot_performing s p.request (p.attempt + 1)
      have fetches : fetched ⟨p.request, p.attempt + 1, phase'⟩ = fetched p := by
        rw [done]
        exact if_neg going
      rw [same]
      exact h.toOrdered.enter performing rfl
        ⟨retries.fetches.trans fetches.symm, fetches ▸ retries.bound, retries.limited⟩

end PumbleApi

end OmpBundler.Pumble
