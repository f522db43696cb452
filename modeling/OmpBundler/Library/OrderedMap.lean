import Mathlib.Data.List.Basic
import Mathlib.Data.List.Nodup

/-!
Maps that remember the order of insertion.

The keys of an `OrderedMap` are pairwise different, which is a field of
the structure, and its entries are listed in the order in which their
keys were first inserted. Setting a key that is present keeps its place;
deleting it and setting it again moves it to the end (`touch`).

A map is used through `get`, `set`, `delete` and `size`: the lemmas below
say how the last is changed by the two updates, and how the first reads
through them.
-/

namespace Library

/-- A finite map whose entries are kept in insertion order. -/
structure OrderedMap (κ ν : Type*) where
  /-- The entries, oldest key first. -/
  entries : List (κ × ν)
  /-- No key occurs twice. -/
  nodup : (entries.map Prod.fst).Nodup

namespace OrderedMap

variable {κ ν : Type*} [DecidableEq κ]

/-! ### Association lists -/

/-- The value at the first entry with key `k`. -/
def lookup (k : κ) : List (κ × ν) → Option ν
  | [] => none
  | (j, v) :: rest => if j = k then some v else lookup k rest

/-- Replace the value of the entry with key `k`, or append such an entry. -/
def assign (k : κ) (v : ν) : List (κ × ν) → List (κ × ν)
  | [] => [(k, v)]
  | (j, w) :: rest => if j = k then (k, v) :: rest else (j, w) :: assign k v rest

/-- Drop the entry with key `k`. -/
def remove (k : κ) : List (κ × ν) → List (κ × ν)
  | [] => []
  | (j, w) :: rest => if j = k then rest else (j, w) :: remove k rest

example (k : κ) (v : ν) : lookup k (assign k v (remove k [])) = some v := by
  simp [remove, assign, lookup]

theorem lookup_eq_none {k : κ} {l : List (κ × ν)} :
    lookup k l = none ↔ k ∉ l.map Prod.fst := by
  induction l with
  | nil => simp [lookup]
  | cons e rest ih =>
      by_cases h : e.1 = k
      · simp [lookup, h]
      · simp [lookup, h, ih, Ne.symm h]

theorem mem_of_lookup {k : κ} {v : ν} {l : List (κ × ν)} (h : lookup k l = some v) :
    (k, v) ∈ l := by
  induction l with
  | nil => simp [lookup] at h
  | cons e rest ih =>
      by_cases same : e.1 = k
      · simp only [lookup, same, if_true, Option.some.injEq] at h
        simp [← same, ← h]
      · simp only [lookup, same, if_false] at h
        exact List.mem_cons_of_mem _ (ih h)

theorem lookup_of_mem {k : κ} {v : ν} {l : List (κ × ν)}
    (distinct : (l.map Prod.fst).Nodup) (h : (k, v) ∈ l) : lookup k l = some v := by
  induction l with
  | nil => simp at h
  | cons e rest ih =>
      simp only [List.map_cons, List.nodup_cons] at distinct
      rcases List.mem_cons.mp h with rfl | later
      · simp [lookup]
      · have other : e.1 ≠ k := fun h =>
          distinct.1 (h ▸ List.mem_map_of_mem later)
        simp [lookup, other, ih distinct.2 later]

theorem lookup_assign (k j : κ) (v : ν) (l : List (κ × ν)) :
    lookup j (assign k v l) = if k = j then some v else lookup j l := by
  induction l with
  | nil => simp [assign, lookup]
  | cons e rest ih =>
      by_cases here : e.1 = k
      · by_cases same : k = j <;> simp [assign, lookup, here, same]
      · by_cases same : e.1 = j
        · have other : k ≠ j := fun h => here (same.trans h.symm)
          simp [assign, lookup, same, Ne.symm other, other]
        · simp [assign, lookup, here, same, ih]

theorem mem_keys_assign {k j : κ} {v : ν} {l : List (κ × ν)} :
    j ∈ (assign k v l).map Prod.fst ↔ j = k ∨ j ∈ l.map Prod.fst := by
  have h := lookup_assign k j v l
  rw [← not_iff_not, ← lookup_eq_none, h, not_or, ← lookup_eq_none]
  by_cases same : k = j
  · simp [same]
  · simp [same, Ne.symm same]

theorem nodup_assign {k : κ} {v : ν} {l : List (κ × ν)}
    (distinct : (l.map Prod.fst).Nodup) : ((assign k v l).map Prod.fst).Nodup := by
  induction l with
  | nil => simp [assign]
  | cons e rest ih =>
      simp only [List.map_cons, List.nodup_cons] at distinct
      by_cases here : e.1 = k
      · simp only [assign, here, if_true, List.map_cons, List.nodup_cons]
        exact ⟨here ▸ distinct.1, distinct.2⟩
      · simp only [assign, here, if_false, List.map_cons, List.nodup_cons]
        refine ⟨fun h => ?_, ih distinct.2⟩
        rcases mem_keys_assign.mp h with rfl | old
        · exact here rfl
        · exact distinct.1 old

theorem length_assign (k : κ) (v : ν) (l : List (κ × ν)) :
    (assign k v l).length = l.length + if (lookup k l).isSome then 0 else 1 := by
  induction l with
  | nil => simp [assign, lookup]
  | cons e rest ih =>
      by_cases here : e.1 = k
      · simp [assign, lookup, here]
      · simp only [assign, here, if_false, List.length_cons, ih, lookup]
        omega

theorem mem_assign {k : κ} {v : ν} {l : List (κ × ν)} {e : κ × ν} (mem : e ∈ assign k v l) :
    e = (k, v) ∨ e ∈ l := by
  induction l with
  | nil => exact .inl (List.mem_singleton.mp mem)
  | cons f rest ih =>
      obtain ⟨j, w⟩ := f
      rw [assign] at mem
      split_ifs at mem with here
      · exact (List.mem_cons.mp mem).imp_right (List.mem_cons_of_mem _)
      · rcases List.mem_cons.mp mem with same | later
        · exact .inr (same ▸ List.mem_cons_self)
        · exact (ih later).imp_right (List.mem_cons_of_mem _)

theorem remove_sublist (k : κ) (l : List (κ × ν)) : (remove k l).Sublist l := by
  induction l with
  | nil => exact .slnil
  | cons e rest ih =>
      by_cases here : e.1 = k
      · simp [remove, here]
      · simpa [remove, here] using ih

theorem nodup_remove {k : κ} {l : List (κ × ν)} (distinct : (l.map Prod.fst).Nodup) :
    ((remove k l).map Prod.fst).Nodup :=
  distinct.sublist ((remove_sublist k l).map Prod.fst)

theorem lookup_remove {k j : κ} {l : List (κ × ν)} (distinct : (l.map Prod.fst).Nodup) :
    lookup j (remove k l) = if k = j then none else lookup j l := by
  induction l with
  | nil => simp [remove, lookup]
  | cons e rest ih =>
      simp only [List.map_cons, List.nodup_cons] at distinct
      by_cases here : e.1 = k
      · by_cases same : k = j
        · simpa [remove, here, same, lookup_eq_none, ← here] using distinct.1
        · simp [remove, lookup, here, same]
      · by_cases same : e.1 = j
        · have other : k ≠ j := fun h => here (same.trans h.symm)
          simp [remove, lookup, same, Ne.symm other, other]
        · simp [remove, lookup, here, same, ih distinct.2]

theorem length_remove (k : κ) (l : List (κ × ν)) :
    (remove k l).length + (if (lookup k l).isSome then 1 else 0) = l.length := by
  induction l with
  | nil => simp [remove, lookup]
  | cons e rest ih =>
      by_cases here : e.1 = k
      · simp [remove, lookup, here]
      · simp only [remove, here, if_false, List.length_cons, lookup]
        omega

/-! ### The map -/

/-- The map without entries. -/
def empty : OrderedMap κ ν := ⟨[], by simp⟩

instance : Inhabited (OrderedMap κ ν) := ⟨empty⟩

/-- The value at `k`. -/
def get (m : OrderedMap κ ν) (k : κ) : Option ν := lookup k m.entries

/-- Give `k` the value `v`; a new key goes to the end. -/
def set (m : OrderedMap κ ν) (k : κ) (v : ν) : OrderedMap κ ν :=
  ⟨assign k v m.entries, nodup_assign m.nodup⟩

/-- Take the key `k` out. -/
def delete (m : OrderedMap κ ν) (k : κ) : OrderedMap κ ν :=
  ⟨remove k m.entries, nodup_remove m.nodup⟩

/-- The number of keys. -/
def size (m : OrderedMap κ ν) : ℕ := m.entries.length

/-- The values, oldest key first. -/
def values (m : OrderedMap κ ν) : List ν := m.entries.map Prod.snd

/-- Move `k`, when present, to the end. -/
def touch (m : OrderedMap κ ν) (k : κ) : OrderedMap κ ν :=
  match m.get k with
  | none => m
  | some v => (m.delete k).set k v

@[simp] theorem get_empty (k : κ) : (empty : OrderedMap κ ν).get k = none := rfl

omit [DecidableEq κ] in
@[simp] theorem size_empty : (empty : OrderedMap κ ν).size = 0 := rfl

@[simp] theorem get_set (m : OrderedMap κ ν) (k j : κ) (v : ν) :
    (m.set k v).get j = if k = j then some v else m.get j :=
  lookup_assign k j v m.entries

@[simp] theorem get_delete (m : OrderedMap κ ν) (k j : κ) :
    (m.delete k).get j = if k = j then none else m.get j :=
  lookup_remove m.nodup

theorem size_set (m : OrderedMap κ ν) (k : κ) (v : ν) :
    (m.set k v).size = m.size + if (m.get k).isSome then 0 else 1 :=
  length_assign k v m.entries

theorem size_delete (m : OrderedMap κ ν) (k : κ) :
    (m.delete k).size + (if (m.get k).isSome then 1 else 0) = m.size :=
  length_remove k m.entries

@[simp] theorem get_touch (m : OrderedMap κ ν) (k j : κ) :
    (m.touch k).get j = m.get j := by
  unfold touch
  cases present : m.get k with
  | none => rfl
  | some v =>
      by_cases same : k = j
      · simp [same, ← present]
      · simp [same]

@[simp] theorem size_touch (m : OrderedMap κ ν) (k : κ) : (m.touch k).size = m.size := by
  unfold touch
  cases present : m.get k with
  | none => rfl
  | some v =>
      have deleted := size_delete m k
      simp only [present, Option.isSome_some, if_true] at deleted
      simpa [size_set] using deleted

/-- Change the values, by their keys. -/
def mapValues (m : OrderedMap κ ν) (f : κ → ν → ν) : OrderedMap κ ν where
  entries := m.entries.map fun e => (e.1, f e.1 e.2)
  nodup := by simpa [List.map_map, Function.comp_def] using m.nodup

@[simp] theorem get_mapValues (m : OrderedMap κ ν) (f : κ → ν → ν) (k : κ) :
    (m.mapValues f).get k = (m.get k).map (f k) := by
  have mapped (l : List (κ × ν)) :
      lookup k (l.map fun e => (e.1, f e.1 e.2)) = (lookup k l).map (f k) := by
    induction l with
    | nil => rfl
    | cons e rest ih =>
        obtain ⟨j, v⟩ := e
        by_cases here : j = k
        · subst here
          simp [lookup]
        · simp [lookup, here, ih]
  exact mapped m.entries

/-- Keep the entries that meet a condition. -/
def filter (m : OrderedMap κ ν) (p : κ → ν → Bool) : OrderedMap κ ν where
  entries := m.entries.filter fun e => p e.1 e.2
  nodup := m.nodup.sublist (List.filter_sublist.map Prod.fst)

omit [DecidableEq κ] in
theorem size_filter_le (m : OrderedMap κ ν) (p : κ → ν → Bool) : (m.filter p).size ≤ m.size :=
  List.length_filter_le _ _

theorem mem_entries (m : OrderedMap κ ν) {k : κ} {v : ν} :
    (k, v) ∈ m.entries ↔ m.get k = some v :=
  ⟨lookup_of_mem m.nodup, mem_of_lookup⟩

theorem get_filter (m : OrderedMap κ ν) (p : κ → ν → Bool) {k : κ} {v : ν} :
    (m.filter p).get k = some v ↔ m.get k = some v ∧ p k v = true := by
  rw [← mem_entries, ← mem_entries]
  exact List.mem_filter

theorem mem_values (m : OrderedMap κ ν) {v : ν} : v ∈ m.values ↔ ∃ k, m.get k = some v := by
  constructor
  · intro mem
    obtain ⟨⟨k, _⟩, listed, rfl⟩ := List.mem_map.mp mem
    exact ⟨k, m.mem_entries.mp listed⟩
  · rintro ⟨k, there⟩
    exact List.mem_map.mpr ⟨(k, v), m.mem_entries.mpr there, rfl⟩

/-- A map with different values under different keys lists no value twice. -/
theorem nodup_values (m : OrderedMap κ ν)
    (injective : ∀ j k v, m.get j = some v → m.get k = some v → j = k) : m.values.Nodup := by
  refine List.Nodup.map_on ?_ (List.Nodup.of_map _ m.nodup)
  rintro ⟨j, v⟩ first ⟨k, w⟩ second same
  obtain rfl : v = w := same
  exact Prod.ext (injective j k v (m.mem_entries.mp first) (m.mem_entries.mp second)) rfl

end OrderedMap

end Library
