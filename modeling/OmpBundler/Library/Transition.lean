import Mathlib.Logic.Basic
import Mathlib.Tactic.Common

/-!
Labelled transition systems whose step is a function.

A `Machine` is a set of initial states and a partial step function: an
action that the state does not admit gives `none`. A program with several
activities that interleave is modelled by one action for each piece of
code that runs without interruption, and every order in which the pieces
can run is a list of actions.

Two ways to speak about a run are kept side by side. `Run` is the
inductive one, for proofs: it carries a condition on each step, so that
"every run whose steps all meet `C`" is a quantifier over `Run C`. `exec`
is the executable one, for concrete runs; `Run.of_exec` turns an
evaluation into a derivation.
-/

namespace Library.Transition

/-- A transition system with a partial step function. -/
structure Machine (σ α : Type*) where
  /-- The states a run may start in. -/
  init : σ → Prop
  /-- What an action does; `none` when the state does not admit it. -/
  step : σ → α → Option σ

/-- The condition that every step meets. -/
def Always {σ α : Type*} : σ → α → Prop := fun _ _ => True

instance {σ α : Type*} (s : σ) (a : α) : Decidable (Always s a) :=
  inferInstanceAs (Decidable True)

namespace Machine

variable {σ α : Type*} {M : Machine σ α} {C D : σ → α → Prop}

/-- `M.Run C s t`: some run leads from `s` to `t`, and each of its steps
meets `C` in the state before the step. -/
inductive Run (M : Machine σ α) (C : σ → α → Prop) : σ → σ → Prop
  | refl (s : σ) : Run M C s s
  | step {s t u : σ} (a : α) :
      Run M C s t → C t a → M.step t a = some u → Run M C s u

/-- A state that a run from an initial state reaches, each step of which
meets `C`. -/
def Reachable (M : Machine σ α) (C : σ → α → Prop) (s : σ) : Prop :=
  ∃ s₀, M.init s₀ ∧ M.Run C s₀ s

/-! ### Invariants -/

/-- What each step preserves, a run preserves. -/
theorem Run.invariant {I : σ → Prop} {s t : σ} (run : M.Run C s t) (start : I s)
    (preserved : ∀ s a t, I s → C s a → M.step s a = some t → I t) : I t := by
  induction run with
  | refl => exact start
  | step a _ condition taken ih => exact preserved _ a _ ih condition taken

/-- What holds at the start and is preserved by each step holds in every
reachable state. -/
theorem Reachable.invariant {I : σ → Prop} {s : σ} (reach : M.Reachable C s)
    (start : ∀ s, M.init s → I s)
    (preserved : ∀ s a t, I s → C s a → M.step s a = some t → I t) : I s := by
  obtain ⟨s₀, initial, run⟩ := reach
  exact run.invariant (start s₀ initial) preserved

theorem Run.trans {s t u : σ} (first : M.Run C s t) (second : M.Run C t u) :
    M.Run C s u := by
  induction second with
  | refl => exact first
  | step a _ condition taken ih => exact .step a ih condition taken

/-- A run may forget part of what its steps meet. -/
theorem Run.mono {s t : σ} (weaker : ∀ s a, C s a → D s a) (run : M.Run C s t) :
    M.Run D s t := by
  induction run with
  | refl => exact .refl _
  | step a _ condition taken ih => exact .step a ih (weaker _ _ condition) taken

theorem Reachable.mono {s : σ} (weaker : ∀ s a, C s a → D s a)
    (reach : M.Reachable C s) : M.Reachable D s := by
  obtain ⟨s₀, initial, run⟩ := reach
  exact ⟨s₀, initial, run.mono weaker⟩

theorem Reachable.always {s : σ} (reach : M.Reachable C s) : M.Reachable Always s :=
  reach.mono fun _ _ _ => trivial

theorem Reachable.of_init {s : σ} (initial : M.init s) : M.Reachable C s :=
  ⟨s, initial, .refl s⟩

theorem Reachable.run {s t : σ} (reach : M.Reachable C s) (run : M.Run C s t) :
    M.Reachable C t := by
  obtain ⟨s₀, initial, before⟩ := reach
  exact ⟨s₀, initial, before.trans run⟩

theorem Reachable.step {s t : σ} (reach : M.Reachable C s) (a : α) (condition : C s a)
    (taken : M.step s a = some t) : M.Reachable C t :=
  reach.run (.step a (.refl s) condition taken)

/-! ### Runs given by their actions -/

/-- The state a list of actions leads to, or `none` as soon as an action
is not admitted or does not meet `C`. -/
def exec (M : Machine σ α) (C : σ → α → Prop) [∀ s a, Decidable (C s a)] :
    σ → List α → Option σ
  | s, [] => some s
  | s, a :: as => if C s a then (M.step s a).bind fun t => exec M C t as else none

theorem Run.of_exec [∀ s a, Decidable (C s a)] {s t : σ} {as : List α}
    (run : M.exec C s as = some t) : M.Run C s t := by
  induction as generalizing s with
  | nil =>
      simp only [exec, Option.some.injEq] at run
      subst run
      exact .refl s
  | cons a as ih =>
      simp only [exec] at run
      split at run
      case isFalse => exact absurd run (by simp)
      case isTrue condition =>
        obtain ⟨u, taken, rest⟩ := Option.bind_eq_some_iff.mp run
        exact (Run.step a (.refl s) condition taken).trans (ih rest)

theorem Reachable.of_exec [∀ s a, Decidable (C s a)] {s₀ s : σ} {as : List α}
    (initial : M.init s₀) (run : M.exec C s₀ as = some s) : M.Reachable C s :=
  ⟨s₀, initial, .of_exec run⟩

/-- `P` holds in every state that the list of actions visits, the first
and the last included. -/
def Throughout (M : Machine σ α) (P : σ → Prop) : σ → List α → Prop
  | s, [] => P s
  | s, a :: as => P s ∧ ∀ t, M.step s a = some t → Throughout M P t as

/-- What holds throughout holds at the end. -/
theorem Throughout.last {P : σ → Prop} {s t : σ} {as : List α} (through : M.Throughout P s as)
    (run : M.exec Always s as = some t) : P t := by
  induction as generalizing s with
  | nil =>
      simp only [exec, Option.some.injEq] at run
      exact run ▸ through
  | cons a as ih =>
      simp only [exec, Always] at run
      obtain ⟨u, taken, rest⟩ := Option.bind_eq_some_iff.mp run
      exact ih (through.2 u taken) rest

/-- What an invariant gives holds throughout. -/
theorem throughout_of_invariant {I P : σ → Prop} {s : σ} (start : I s) (holds : ∀ s, I s → P s)
    (preserved : ∀ s a t, I s → M.step s a = some t → I t) (as : List α) :
    M.Throughout P s as := by
  induction as generalizing s with
  | nil => exact holds s start
  | cons a as ih => exact ⟨holds s start, fun t taken => ih (preserved s a t start taken)⟩

/-- Each step that the list of actions takes meets `C`. -/
def EachStep (M : Machine σ α) (C : σ → α → Prop) : σ → List α → Prop
  | _, [] => True
  | s, a :: as => ∀ t, M.step s a = some t → C s a ∧ EachStep M C t as

/-- When a step keeps `P` exactly if it meets `C`, the runs throughout
which `P` holds are those whose steps all meet `C`. The invariant `I` is
what the equivalence for one step may rely on. -/
theorem throughout_iff_eachStep {I P : σ → Prop} {s : σ} {as : List α}
    (invariant : I s) (start : P s)
    (preserved : ∀ s a t, I s → M.step s a = some t → I t)
    (one : ∀ s a t, I s → P s → M.step s a = some t → (P t ↔ C s a)) :
    M.Throughout P s as ↔ M.EachStep C s as := by
  induction as generalizing s with
  | nil => exact ⟨fun _ => trivial, fun _ => start⟩
  | cons a as ih =>
      constructor
      · rintro ⟨_, visited⟩ t taken
        have later : P t := by
          cases as with
          | nil => exact visited t taken
          | cons b bs => exact (visited t taken).1
        exact ⟨(one s a t invariant start taken).mp later,
          (ih (preserved s a t invariant taken) later).mp (visited t taken)⟩
      · intro each
        refine ⟨start, fun t taken => ?_⟩
        obtain ⟨condition, rest⟩ := each t taken
        have later : P t := (one s a t invariant start taken).mpr condition
        exact (ih (preserved s a t invariant taken) later).mpr rest

/-- The same where `I` is kept by the steps that meet `C` only: it gives
`P`, and a step after which `P` holds met `C`. -/
theorem throughout_iff_eachStep_of_kept {I P : σ → Prop} {s : σ} {as : List α} (start : I s)
    (holds : ∀ s, I s → P s)
    (kept : ∀ s a t, I s → C s a → M.step s a = some t → I t)
    (needed : ∀ s a t, I s → M.step s a = some t → P t → C s a) :
    M.Throughout P s as ↔ M.EachStep C s as := by
  induction as generalizing s with
  | nil => exact ⟨fun _ => trivial, fun _ => holds s start⟩
  | cons a as ih =>
      constructor
      · rintro ⟨_, visited⟩ t taken
        have later : P t := by
          cases as with
          | nil => exact visited t taken
          | cons b bs => exact (visited t taken).1
        have met := needed s a t start taken later
        exact ⟨met, (ih (kept s a t start met taken)).mp (visited t taken)⟩
      · intro each
        refine ⟨holds s start, fun t taken => ?_⟩
        obtain ⟨met, rest⟩ := each t taken
        exact (ih (kept s a t start met taken)).mpr rest

/-- Two conditions that agree as long as the first one is met. -/
theorem eachStep_iff {I : σ → Prop} {s : σ} {as : List α} (start : I s)
    (preserved : ∀ s a t, I s → C s a → M.step s a = some t → I t)
    (same : ∀ s a, I s → (C s a ↔ D s a)) : M.EachStep C s as ↔ M.EachStep D s as := by
  induction as generalizing s with
  | nil => exact Iff.rfl
  | cons a as ih =>
      refine forall_congr' fun t => forall_congr' fun taken => ?_
      rw [same s a start]
      refine and_congr_right fun met => ?_
      exact ih (preserved s a t start ((same s a start).mpr met) taken)

end Machine

end Library.Transition
