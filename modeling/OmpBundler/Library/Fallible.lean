import Mathlib.Data.List.Basic

/-!
Computations that may fail with a message.

Each lemma says when a step of such a computation succeeds, so that a chain
of them is taken apart, or put together, by rewriting.
-/

namespace Library.Fallible

variable {ε α β : Type}

/-- Continue if the condition holds. -/
def require (p : Prop) [Decidable p] (message : String) : Except String Unit :=
  if p then .ok () else .error message

theorem require_eq_ok {p : Prop} [Decidable p] {message : String} {u : Unit} :
    require p message = .ok u ↔ p := by
  unfold require
  by_cases holds : p <;> simp [holds]

theorem require_bind {p : Prop} [Decidable p] {message : String}
    {next : Unit → Except String α} {a : α} :
    (require p message >>= next) = .ok a ↔ p ∧ next () = .ok a := by
  unfold require
  by_cases holds : p
  · simp [holds, bind, Except.bind]
  · simp [holds, bind, Except.bind]

theorem elim_bind {o : Option α} {message : String} {next : α → Except String β} {b : β} :
    (o.elim (.error message) .ok >>= next) = .ok b ↔ ∃ a, o = some a ∧ next a = .ok b := by
  cases o <;> simp [bind, Except.bind]

theorem bind_eq_ok {x : Except ε α} {next : α → Except ε β} {b : β} :
    (x >>= next) = .ok b ↔ ∃ a, x = .ok a ∧ next a = .ok b := by
  cases x <;> simp [bind, Except.bind]

theorem map_eq_ok {x : Except ε α} {f : α → β} {b : β} :
    x.map f = .ok b ↔ ∃ a, x = .ok a ∧ f a = b := by
  cases x <;> simp [Except.map]

/-- The computation does not fail with this message. -/
def Avoids (message : String) (x : Except String α) : Prop := x ≠ .error message

theorem avoids_ok {message : String} (a : α) : Avoids message (.ok a : Except String α) := nofun

theorem avoids_error {message other : String} (ne : other ≠ message) :
    Avoids message (.error other : Except String α) :=
  fun same => ne (Except.error.inj same)

theorem avoids_require {message other : String} {p : Prop} [Decidable p] (ne : other ≠ message) :
    Avoids message (require p other) := by
  unfold require
  split
  · exact avoids_ok ()
  · exact avoids_error ne

theorem avoids_elim {message other : String} (o : Option α) (ne : other ≠ message) :
    Avoids message (o.elim (.error other) .ok) := by
  cases o with
  | none => exact avoids_error ne
  | some a => exact avoids_ok a

theorem avoids_bind {message : String} {x : Except String α} {next : α → Except String β}
    (first : Avoids message x) (then_ : ∀ a, Avoids message (next a)) :
    Avoids message (x >>= next) := by
  cases x with
  | error other => exact avoids_error fun same => first (same ▸ rfl)
  | ok a => exact then_ a

/-- Every element of the list succeeds, and the results are `bs`. -/
theorem mapM_eq_ok {f : α → Except ε β} {l : List α} {bs : List β} :
    l.mapM f = .ok bs ↔ List.Forall₂ (fun a b => f a = .ok b) l bs := by
  induction l generalizing bs with
  | nil =>
      cases bs with
      | nil => simp [pure, Except.pure]
      | cons b bs =>
          simp only [List.mapM_nil, pure, Except.pure, Except.ok.injEq, reduceCtorEq, false_iff]
          exact nofun
  | cons a l ih =>
      rw [List.mapM_cons, bind_eq_ok]
      simp only [bind_eq_ok, pure, Except.pure, Except.ok.injEq]
      constructor
      · rintro ⟨b, first, rest, others, rfl⟩
        exact .cons first (ih.mp others)
      · rintro (_ | ⟨first, others⟩)
        exact ⟨_, first, _, ih.mpr others, rfl⟩

/-- All elements succeed. -/
theorem exists_mapM_eq_ok {f : α → Except ε β} {l : List α} :
    (∃ bs, l.mapM f = .ok bs) ↔ ∀ a ∈ l, ∃ b, f a = .ok b := by
  simp only [mapM_eq_ok]
  induction l with
  | nil => exact ⟨fun _ => by simp, fun _ => ⟨[], .nil⟩⟩
  | cons a l ih =>
      rw [List.forall_mem_cons, ← ih]
      constructor
      · rintro ⟨_, _ | ⟨first, others⟩⟩
        exact ⟨⟨_, first⟩, _, others⟩
      · rintro ⟨⟨b, first⟩, bs, others⟩
        exact ⟨b :: bs, .cons first others⟩

end Library.Fallible
