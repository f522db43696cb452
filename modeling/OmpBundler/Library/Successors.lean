import Mathlib.Data.Finset.Sort
import Mathlib.Data.Int.ConditionallyCompleteOrder
import Mathlib.Data.Int.Interval
import Mathlib.Order.ConditionallyCompleteLattice.Basic
import Mathlib.Tactic.Common

/-!
The elements of a set of integers, one after another.

`IsNext P a b` says that `b` is the least element of `P` above `a`, and
`Successive P a l` that `l` lists the elements of `P` above `a` from the
least one on, without a gap. Such a list is an initial segment of what
comes after `a`. `between P a b` is the set of the elements above `a` and
not above `b`; stepping from one element to the next takes them out of it
in their order.
-/

namespace Library.Successors

variable {P : ℤ → Prop} {a b : ℤ} {l l' : List ℤ}

/-- `b` is the least element of `P` above `a`. -/
def IsNext (P : ℤ → Prop) (a b : ℤ) : Prop := a < b ∧ P b ∧ ∀ m, P m → a < m → b ≤ m

/-- The list is an increasing list of elements of `P` above `a` that
contains every one up to its last. -/
def InitialSegment (P : ℤ → Prop) (a : ℤ) (l : List ℤ) : Prop :=
  l.Pairwise (· < ·) ∧ (∀ m ∈ l, P m ∧ a < m) ∧
    ∀ m, P m → a < m → (∃ f ∈ l, m ≤ f) → m ∈ l

/-- Each element of the list is the next one. -/
def Successive (P : ℤ → Prop) : ℤ → List ℤ → Prop
  | _, [] => True
  | a, b :: l => IsNext P a b ∧ Successive P b l

theorem Successive.append (first : Successive P a l) (second : Successive P (l.getLastD a) l') :
    Successive P a (l ++ l') := by
  induction l generalizing a with
  | nil => exact second
  | cons b l ih =>
      refine ⟨first.1, ih first.2 ?_⟩
      rwa [List.getLastD_cons] at second

theorem Successive.mem (successive : Successive P a l) : ∀ m ∈ l, P m ∧ a < m := by
  induction l generalizing a with
  | nil => simp
  | cons b l ih =>
      obtain ⟨⟨above, element, _⟩, rest⟩ := successive
      rw [List.forall_mem_cons]
      refine ⟨⟨element, above⟩, fun m mem => ?_⟩
      obtain ⟨element, later⟩ := ih rest m mem
      exact ⟨element, by omega⟩

theorem Successive.initialSegment (successive : Successive P a l) : InitialSegment P a l := by
  refine ⟨?_, successive.mem, ?_⟩
  · induction l generalizing a with
    | nil => exact .nil
    | cons b l ih =>
        exact List.pairwise_cons.mpr ⟨fun m mem => (successive.2.mem m mem).2, ih successive.2⟩
  · induction l generalizing a with
    | nil => simp
    | cons b l ih =>
        obtain ⟨⟨above, element, least⟩, rest⟩ := successive
        rintro m matching after ⟨f, mem, upTo⟩
        rcases Int.lt_or_eq_of_le (least m matching after) with later | rfl
        · refine List.mem_cons_of_mem _ (ih rest m matching later ?_)
          rcases List.mem_cons.mp mem with rfl | mem
          · omega
          · exact ⟨f, mem, upTo⟩
        · exact List.mem_cons_self

section Between

open scoped Classical in
/-- The elements above `a` up to `b`. -/
noncomputable def between (P : ℤ → Prop) (a b : ℤ) : Finset ℤ := (Finset.Ioc a b).filter P

@[simp]
theorem mem_between {m : ℤ} : m ∈ between P a b ↔ (a < m ∧ m ≤ b) ∧ P m := by
  simp [between]

variable {c : ℤ}

theorem between_of_lt (next : IsNext P a c) (beyond : b < c) : between P a b = ∅ := by
  ext m
  refine ⟨fun mem => ?_, fun mem => absurd mem (Finset.notMem_empty m)⟩
  obtain ⟨⟨above, upTo⟩, element⟩ := mem_between.mp mem
  have := next.2.2 m element above
  omega

theorem between_of_le (next : IsNext P a c) (upTo : c ≤ b) :
    between P a b = insert c (between P c b) := by
  ext m
  rw [Finset.mem_insert, mem_between, mem_between]
  constructor
  · rintro ⟨⟨above, le⟩, element⟩
    rcases Int.lt_or_eq_of_le (next.2.2 m element above) with later | rfl
    · exact .inr ⟨⟨later, le⟩, element⟩
    · exact .inl rfl
  · rintro (rfl | ⟨⟨later, le⟩, element⟩)
    · exact ⟨⟨next.1, upTo⟩, next.2.1⟩
    · have := next.1
      exact ⟨⟨by omega, le⟩, element⟩

/-- The next element comes first. -/
theorem sort_between (next : IsNext P a c) (upTo : c ≤ b) :
    (between P a b).sort = c :: (between P c b).sort := by
  rw [between_of_le next upTo, Finset.sort_insert]
  · exact fun m mem => (mem_between.mp mem).1.1.le
  · exact fun mem => lt_irrefl c (mem_between.mp mem).1.1

end Between

end Library.Successors
