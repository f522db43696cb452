import Mathlib.Data.Int.Notation
import Mathlib.Tactic.Common

/-!
Searches that take the first place where something is found.

`P k u` says that the place `k` yields `u`. A search over several parts one
after the other takes the first place of the whole, if the parts are in the
order of their places.
-/

namespace Library.Search

variable {β ι : Type} {P Q : ℤ → β → Prop} {a b : Option β}

/-- The result is what the first place yields, or none if no place yields
anything. -/
def IsFirst (P : ℤ → β → Prop) : Option β → Prop
  | none => ∀ k u, ¬ P k u
  | some u => ∃ k, P k u ∧ ∀ k' u', P k' u' → k ≤ k'

theorem IsFirst.congr (first : IsFirst P a) (same : ∀ k u, P k u ↔ Q k u) : IsFirst Q a := by
  have eq : P = Q := funext fun k => funext fun u => propext (same k u)
  rwa [← eq]

/-- A single place. -/
theorem IsFirst.single (place : ℤ) (o : Option β) :
    IsFirst (fun k u => k = place ∧ o = some u) o := by
  cases o with
  | none => exact fun _ _ found => nomatch found.2
  | some u => exact ⟨place, ⟨rfl, rfl⟩, fun _ _ found => Int.le_of_eq found.1.symm⟩

/-- One search, and another one behind it if it finds nothing. -/
theorem IsFirst.or (first : IsFirst P a) (second : IsFirst Q b)
    (ordered : ∀ k u k' u', P k u → Q k' u' → k ≤ k') :
    IsFirst (fun k u => P k u ∨ Q k u) (a.or b) := by
  cases a with
  | none =>
    rw [Option.none_or]
    refine second.congr fun k u => ⟨.inr, fun found => found.resolve_left (first k u)⟩
  | some u =>
    obtain ⟨k, found, least⟩ := first
    refine ⟨k, .inl found, fun k' u' other => ?_⟩
    rcases other with before | behind
    · exact least k' u' before
    · exact ordered k u k' u' found behind

/-- A search through a list of parts. -/
theorem IsFirst.findSome? {l : List ι} {f : ι → Option β} {P : ι → ℤ → β → Prop}
    (each : ∀ x ∈ l, IsFirst (P x) (f x))
    (ordered : l.Pairwise fun x y => ∀ k u k' u', P x k u → P y k' u' → k ≤ k') :
    IsFirst (fun k u => ∃ x ∈ l, P x k u) (l.findSome? f) := by
  induction l with
  | nil => exact fun k u ⟨_, mem, _⟩ => List.not_mem_nil mem
  | cons x l ih =>
    rw [List.pairwise_cons] at ordered
    rw [List.forall_mem_cons] at each
    have whole := each.1.or (ih each.2 ordered.2) fun k u k' u' found ⟨y, mem, behind⟩ =>
      ordered.1 y mem k u k' u' found behind
    have same : (x :: l).findSome? f = (f x).or (l.findSome? f) := by
      rw [List.findSome?_cons]
      cases f x <;> rfl
    rw [same]
    exact whole.congr fun k u => by simp only [List.mem_cons, exists_eq_or_imp]

end Library.Search
