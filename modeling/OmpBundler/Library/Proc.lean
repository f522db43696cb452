import Mathlib.Logic.Basic
import Mathlib.Tactic.Common

/-!
Programs that call an unreliable environment.

A `Proc` runs over a state and a script, which lists the answers that the
environment will give. Each call of the environment takes the next answer;
when the script has run out, the process dies at that call. So a quantifier
over scripts is one over every pattern of failures, and over every point at
which the process may be killed. Besides dying, a run may return a value or
throw an error that an enclosing `tryCatch` catches; what it has done to the
state by then stays done.

`Triple` is the program logic: a precondition, and one postcondition for
each of the three ways a run can end. Each construct has one rule.
`Keeps J` is the case in which all of them are `J`, for the many programs
that only have to respect an invariant.
-/

namespace Library

/-- How a run ends. -/
inductive Exit (ε α : Type) where
  | returned (value : α)
  | threw (error : ε)
  | died
  deriving DecidableEq, Repr

/-- A program over states `σ` and answers `ρ` that may throw an `ε`. -/
def Proc (σ ρ ε α : Type) : Type := σ → List ρ → Exit ε α × σ × List ρ

namespace Proc

variable {σ ρ ε α β : Type}

/-- Continue with `f` if the run returned. -/
def andThen (run : Exit ε α × σ × List ρ) (f : α → Proc σ ρ ε β) :
    Exit ε β × σ × List ρ :=
  match run with
  | (.returned a, s, script) => f a s script
  | (.threw e, s, script) => (.threw e, s, script)
  | (.died, s, script) => (.died, s, script)

instance : Monad (Proc σ ρ ε) where
  pure a := fun s script => (.returned a, s, script)
  bind p f := fun s script => andThen (p s script) f

/-- Call the environment. -/
def call : Proc σ ρ ε ρ
  | s, [] => (.died, s, [])
  | s, answer :: script => (.returned answer, s, script)

/-- Read the state. -/
def get : Proc σ ρ ε σ := fun s script => (.returned s, s, script)

/-- Change the state. -/
def modify (f : σ → σ) : Proc σ ρ ε Unit := fun s script => (.returned (), f s, script)

/-- Throw an error. -/
def throw (e : ε) : Proc σ ρ ε α := fun s script => (.threw e, s, script)

/-- Run `handler` on the error that `p` throws. -/
def tryCatch (p : Proc σ ρ ε α) (handler : ε → Proc σ ρ ε α) : Proc σ ρ ε α :=
  fun s script =>
    match p s script with
    | (.threw e, t, rest) => handler e t rest
    | ended => ended

/-- Run `cleanup` after `p`, whether it returns or throws, and end as `p`
did unless the cleanup does not return. -/
def tryFinally (p : Proc σ ρ ε α) (cleanup : Proc σ ρ ε Unit) : Proc σ ρ ε α :=
  fun s script =>
    match p s script with
    | (.returned a, t, rest) => andThen (cleanup t rest) fun _ => pure a
    | (.threw e, t, rest) => andThen (cleanup t rest) fun _ => throw e
    | (.died, t, rest) => (.died, t, rest)

/-- Run `body` on each element in turn. -/
def forEach : List α → (α → Proc σ ρ ε Unit) → Proc σ ρ ε Unit
  | [], _ => pure ()
  | a :: as, body => body a >>= fun _ => forEach as body

/-- Run a program over a part of the state. -/
def focus {τ : Type} (view : τ → σ) (put : τ → σ → τ) (p : Proc σ ρ ε α) : Proc τ ρ ε α :=
  fun t script =>
    match p (view t) script with
    | (exit, s, rest) => (exit, put t s, rest)

/-! ### Triples -/

/-- What holds at the end of a run, by the way it ended. -/
def Ends (post : α → σ → Prop) (err : ε → σ → Prop) (dead : σ → Prop) :
    Exit ε α × σ × List ρ → Prop
  | (.returned a, s, _) => post a s
  | (.threw e, s, _) => err e s
  | (.died, s, _) => dead s

/-- From a state that meets `pre`, and under every script, a run of `p`
returns in a state that meets `post`, throws in one that meets `err`, or
dies in one that meets `dead`. -/
def Triple (pre : σ → Prop) (p : Proc σ ρ ε α) (post : α → σ → Prop) (err : ε → σ → Prop)
    (dead : σ → Prop) : Prop :=
  ∀ s script, pre s → Ends post err dead (p s script)

/-- `p` keeps the invariant, however it ends. -/
def Keeps (J : σ → Prop) (p : Proc σ ρ ε α) : Prop := Triple J p (fun _ => J) (fun _ => J) J

variable {pre pre' dead dead' J : σ → Prop} {post post' : α → σ → Prop}
  {err err' : ε → σ → Prop} {p : Proc σ ρ ε α}

theorem Triple.weaken (h : Triple pre' p post' err' dead') (before : ∀ s, pre s → pre' s)
    (after : ∀ a s, post' a s → post a s) (thrown : ∀ e s, err' e s → err e s)
    (killed : ∀ s, dead' s → dead s) : Triple pre p post err dead := by
  intro s script start
  have ended := h s script (before s start)
  generalize p s script = run at ended ⊢
  obtain ⟨exit, t, rest⟩ := run
  cases exit with
  | returned a => exact after a t ended
  | threw e => exact thrown e t ended
  | died => exact killed t ended

/-- The rule of consequence for a run that returns. -/
theorem Triple.adapt (h : Triple pre' p post' err dead) (before : ∀ s, pre s → pre' s)
    (after : ∀ a s, post' a s → post a s) : Triple pre p post err dead :=
  h.weaken before after (fun _ _ h => h) fun _ h => h

theorem Triple.pure (a : α) (start : ∀ s, pre s → post a s) :
    Triple pre (Pure.pure a : Proc σ ρ ε α) post err dead :=
  fun s _ h => start s h

theorem Triple.bind {q : α → Proc σ ρ ε β} {M : α → σ → Prop} {post : β → σ → Prop}
    (first : Triple pre p M err dead) (second : ∀ a, Triple (M a) (q a) post err dead) :
    Triple pre (p >>= q) post err dead := by
  intro s script start
  have ended := first s script start
  show Ends post err dead (andThen (p s script) q)
  generalize p s script = run at ended ⊢
  obtain ⟨exit, t, rest⟩ := run
  cases exit with
  | returned a => exact second a t rest ended
  | threw e => exact ended
  | died => exact ended

theorem Triple.call {post : ρ → σ → Prop} (killed : ∀ s, pre s → dead s)
    (answered : ∀ r s, pre s → post r s) :
    Triple pre (call : Proc σ ρ ε ρ) post err dead := by
  intro s script start
  cases script with
  | nil => exact killed s start
  | cons answer rest => exact answered answer s start

theorem Triple.get {post : σ → σ → Prop} (start : ∀ s, pre s → post s s) :
    Triple pre (get : Proc σ ρ ε σ) post err dead :=
  fun s _ h => start s h

theorem Triple.modify {f : σ → σ} {post : Unit → σ → Prop}
    (start : ∀ s, pre s → post () (f s)) :
    Triple pre (modify f : Proc σ ρ ε Unit) post err dead :=
  fun s _ h => start s h

theorem Triple.throw {e : ε} (start : ∀ s, pre s → err e s) :
    Triple pre (throw e : Proc σ ρ ε α) post err dead :=
  fun s _ h => start s h

theorem Triple.tryCatch {handler : ε → Proc σ ρ ε α} {M : ε → σ → Prop}
    (body : Triple pre p post M dead) (caught : ∀ e, Triple (M e) (handler e) post err dead) :
    Triple pre (tryCatch p handler) post err dead := by
  intro s script start
  have ended := body s script start
  show Ends post err dead (match p s script with
    | (.threw e, t, rest) => handler e t rest
    | other => other)
  generalize p s script = run at ended ⊢
  obtain ⟨exit, t, rest⟩ := run
  cases exit with
  | returned a => exact ended
  | threw e => exact caught e t rest ended
  | died => exact ended

/-- The cleanup has to do with both outcomes of the body: it runs after the
body has returned `a`, and after the body has thrown. -/
theorem Triple.tryFinally {cleanup : Proc σ ρ ε Unit} {M : α → σ → Prop}
    {T : ε → σ → Prop} (body : Triple pre p M T dead)
    (returned : ∀ a, Triple (M a) cleanup (fun _ => post a) err dead)
    (threw : ∀ e, Triple (T e) cleanup (fun _ => err e) err dead) :
    Triple pre (tryFinally p cleanup) post err dead := by
  intro s script start
  have ended := body s script start
  show Ends post err dead (match p s script with
    | (.returned a, t, rest) => andThen (cleanup t rest) fun _ => Pure.pure a
    | (.threw e, t, rest) => andThen (cleanup t rest) fun _ => Proc.throw e
    | (.died, t, rest) => (.died, t, rest))
  generalize p s script = run at ended ⊢
  obtain ⟨exit, t, rest⟩ := run
  cases exit with
  | died => exact ended
  | returned a =>
      have cleaned := returned a t rest ended
      show Ends post err dead (andThen (cleanup t rest) fun _ => Pure.pure a)
      generalize cleanup t rest = run at cleaned ⊢
      obtain ⟨exit', u, rest'⟩ := run
      cases exit' <;> exact cleaned
  | threw e =>
      have cleaned := threw e t rest ended
      show Ends post err dead (andThen (cleanup t rest) fun _ => Proc.throw e)
      generalize cleanup t rest = run at cleaned ⊢
      obtain ⟨exit', u, rest'⟩ := run
      cases exit' <;> exact cleaned

theorem Triple.ite {c : Prop} [Decidable c] {q : Proc σ ρ ε α}
    (yes : c → Triple pre p post err dead) (no : ¬ c → Triple pre q post err dead) :
    Triple pre (if c then p else q) post err dead := by
  by_cases h : c
  · rw [if_pos h]
    exact yes h
  · rw [if_neg h]
    exact no h

/-- A loop: the invariant speaks of the elements that have been done. -/
theorem Triple.forEach {I : List α → σ → Prop} {as : List α} {body : α → Proc σ ρ ε Unit}
    (each : ∀ done a rest, as = done ++ a :: rest →
      Triple (I done) (body a) (fun _ => I (done ++ [a])) err dead) :
    Triple (I []) (forEach as body) (fun _ => I as) err dead := by
  suffices from_here : ∀ rest done, as = done ++ rest →
      Triple (I done) (Proc.forEach rest body) (fun _ => I as) err dead from
    from_here as [] rfl
  intro rest
  induction rest with
  | nil =>
      intro done split
      rw [List.append_nil] at split
      subst split
      exact Triple.pure () fun _ h => h
  | cons a rest ih =>
      intro done split
      apply Triple.bind (each done a rest split)
      intro _
      apply ih
      rw [split, List.append_assoc, List.singleton_append]

/-- A program over a part of the state: the rest of the state is as it was. -/
theorem Triple.focus {τ : Type} {view : τ → σ} {put : τ → σ → τ} {pre : τ → Prop}
    {post : α → τ → Prop} {err : ε → τ → Prop} {dead : τ → Prop}
    (h : ∀ t, pre t → Triple (fun s => s = view t) p (fun a s => post a (put t s))
      (fun e s => err e (put t s)) fun s => dead (put t s)) :
    Triple pre (focus view put p) post err dead := by
  intro t script start
  have ended := h t start (view t) script rfl
  show Ends post err dead (match p (view t) script with
    | (exit, s, rest) => (exit, put t s, rest))
  generalize p (view t) script = run at ended ⊢
  obtain ⟨exit, s, rest⟩ := run
  cases exit <;> exact ended

/-- What is known of the state when a program starts may be used to prove
its triple. -/
theorem Triple.of_pre (h : ∀ s, pre s → Triple (fun t => t = s) p post err dead) :
    Triple pre p post err dead :=
  fun s script start => h s start s script rfl

/-! ### Invariants -/

theorem Keeps.bind {q : α → Proc σ ρ ε β} (first : Keeps J p) (second : ∀ a, Keeps J (q a)) :
    Keeps J (p >>= q) :=
  Triple.bind first second

theorem Keeps.pure (a : α) : Keeps J (Pure.pure a : Proc σ ρ ε α) :=
  Triple.pure a fun _ h => h

theorem Keeps.call : Keeps J (call : Proc σ ρ ε ρ) :=
  Triple.call (fun _ h => h) fun _ _ h => h

theorem Keeps.get : Keeps J (get : Proc σ ρ ε σ) :=
  Triple.get fun _ h => h

theorem Keeps.modify {f : σ → σ} (kept : ∀ s, J s → J (f s)) :
    Keeps J (modify f : Proc σ ρ ε Unit) :=
  Triple.modify kept

theorem Keeps.throw (e : ε) : Keeps J (throw e : Proc σ ρ ε α) :=
  Triple.throw fun _ h => h

theorem Keeps.tryCatch {handler : ε → Proc σ ρ ε α} (body : Keeps J p)
    (caught : ∀ e, Keeps J (handler e)) : Keeps J (tryCatch p handler) :=
  Triple.tryCatch body caught

theorem Keeps.ite {c : Prop} [Decidable c] {q : Proc σ ρ ε α} (yes : c → Keeps J p)
    (no : ¬ c → Keeps J q) : Keeps J (if c then p else q) :=
  Triple.ite yes no

theorem Keeps.forEach {as : List α} {body : α → Proc σ ρ ε Unit}
    (each : ∀ a ∈ as, Keeps J (body a)) : Keeps J (forEach as body) := by
  induction as with
  | nil => exact Keeps.pure ()
  | cons a as ih =>
      exact (each a (List.mem_cons_self ..)).bind fun _ =>
        ih fun b mem => each b (List.mem_cons_of_mem a mem)

end Proc

end Library
