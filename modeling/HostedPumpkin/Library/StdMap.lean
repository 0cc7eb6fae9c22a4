import Mathlib.Algebra.Order.BigOperators.Group.Finset
import Mathlib.Data.Finmap
import Mathlib.Tactic

/-!
The operations of a C++ `std::map` on finite maps. `std::map::insert` leaves an
existing key alone, which is where it differs from an assignment through
`operator[]`; an update through an iterator or a reference is `modify`.
Everything is stated through `lookup`, so maps are compared key by key.
-/

namespace HostedPumpkin

/-- A finite map with keys `K` and values `V`. -/
abbrev StdMap (K V : Type*) := Finmap (fun _ : K => V)

namespace StdMap

variable {K V : Type*} [DecidableEq K]

/-- Assign a value to a key, whether or not it is there. -/
def set (m : StdMap K V) (k : K) (v : V) : StdMap K V := Finmap.insert k v m

/-- `std::map::insert`: an entry for a key that is not there yet. -/
def insertNew (m : StdMap K V) (k : K) (v : V) : StdMap K V :=
  if k ∈ m then m else m.set k v

/-- Write through a reference to the value stored at a key, if there is one. -/
def modify (m : StdMap K V) (k : K) (f : V → V) : StdMap K V :=
  match m.lookup k with
  | some v => m.set k (f v)
  | none => m

/-- `std::map::erase` by key. -/
def remove (m : StdMap K V) (k : K) : StdMap K V := Finmap.erase k m

/-- The keys that a map sends to one value. -/
def fiber [DecidableEq V] (m : StdMap K V) (v : V) : Finset K :=
  m.keys.filter (fun k => m.lookup k = some v)

theorem lookup_set (m : StdMap K V) (k k' : K) (v : V) :
    (m.set k v).lookup k' = if k' = k then some v else m.lookup k' := by
  by_cases h : k' = k
  · subst h
    simp [set]
  · simp [set, h, Finmap.lookup_insert_of_ne m h]

theorem lookup_remove (m : StdMap K V) (k k' : K) :
    (m.remove k).lookup k' = if k' = k then none else m.lookup k' := by
  by_cases h : k' = k
  · subst h
    simp [remove]
  · simp [remove, h, Finmap.lookup_erase_ne h]

theorem remove_of_none {m : StdMap K V} {k : K} (h : m.lookup k = none) : m.remove k = m := by
  apply Finmap.ext_lookup
  intro k'
  rw [lookup_remove]
  split
  next heq =>
    subst heq
    exact h.symm
  next => rfl

theorem lookup_set_eq_some {m : StdMap K V} {k k' : K} {v w : V} :
    (m.set k v).lookup k' = some w ↔ k' = k ∧ w = v ∨ k' ≠ k ∧ m.lookup k' = some w := by
  rw [lookup_set]
  split
  next h => simp [h, eq_comm]
  next h => simp [h]

theorem lookup_remove_eq_some {m : StdMap K V} {k k' : K} {w : V} :
    (m.remove k).lookup k' = some w ↔ k' ≠ k ∧ m.lookup k' = some w := by
  rw [lookup_remove]
  split
  next h => simp [h]
  next h => simp [h]

/-- Entries with another value than the removed one stay. -/
theorem lookup_remove_of_value_ne {m : StdMap K V} {k k' : K} {v w : V}
    (hk : m.lookup k = some v) (hk' : m.lookup k' = some w) (hne : w ≠ v) :
    (m.remove k).lookup k' = some w := by
  refine lookup_remove_eq_some.mpr ⟨?_, hk'⟩
  rintro rfl
  exact hne (Option.some.inj (hk'.symm.trans hk))

theorem lookup_insertNew (m : StdMap K V) (k k' : K) (v : V) :
    (m.insertNew k v).lookup k' =
      if k' = k ∧ m.lookup k = none then some v else m.lookup k' := by
  by_cases hk : k ∈ m
  · have hsome : m.lookup k ≠ none := fun h => Finmap.lookup_eq_none.mp h hk
    simp [insertNew, hk, hsome]
  · have hnone : m.lookup k = none := Finmap.lookup_eq_none.mpr hk
    simp [insertNew, hk, hnone, lookup_set]

theorem lookup_insertNew_of_none {m : StdMap K V} {k : K} (h : m.lookup k = none)
    (k' : K) (v : V) :
    (m.insertNew k v).lookup k' = if k' = k then some v else m.lookup k' := by
  simp [lookup_insertNew, h]

/-- `insert` keeps what is stored. -/
theorem lookup_insertNew_of_some {m : StdMap K V} {k' : K} {v' : V} (h : m.lookup k' = some v')
    (k : K) (v : V) : (m.insertNew k v).lookup k' = some v' := by
  rw [lookup_insertNew, if_neg, h]
  rintro ⟨rfl, hnone⟩
  rw [h] at hnone
  cases hnone

/-- What is there after an `insert`: what was there before, or else the new value. -/
theorem lookup_insertNew_getD (m : StdMap K V) (k k' : K) (v : V) :
    (m.insertNew k v).lookup k' =
      if k' = k then some ((m.lookup k').getD v) else m.lookup k' := by
  rw [lookup_insertNew]
  by_cases hk : k' = k
  · subst hk
    cases h : m.lookup k' <;> simp
  · simp [hk]

theorem lookup_insertNew_or (m : StdMap K V) (k k' : K) (v : V) :
    (m.insertNew k v).lookup k' =
      if k = k' then (m.lookup k').or (some v) else m.lookup k' := by
  rw [lookup_insertNew_getD]
  by_cases hk : k' = k
  · subst hk
    cases m.lookup k' <;> simp
  · rw [if_neg hk, if_neg (Ne.symm hk)]

theorem lookup_modify (m : StdMap K V) (k k' : K) (f : V → V) :
    (m.modify k f).lookup k' =
      if k' = k then (m.lookup k).map f else m.lookup k' := by
  cases hk : m.lookup k with
  | none =>
      by_cases h : k' = k
      · subst h
        simp [modify, hk]
      · simp [modify, hk, h]
  | some v => simp [modify, hk, lookup_set]

/-- An update through a reference neither adds nor removes a key. -/
theorem lookup_modify_eq_none {m : StdMap K V} {k k' : K} {f : V → V} :
    (m.modify k f).lookup k' = none ↔ m.lookup k' = none := by
  rw [lookup_modify]
  split
  next h =>
    subst h
    simp
  next => rfl

/-- Two updates through one reference. -/
theorem modify_modify (m : StdMap K V) (k : K) (f g : V → V) :
    (m.modify k f).modify k g = m.modify k (fun v => g (f v)) := by
  apply Finmap.ext_lookup
  intro k'
  simp only [lookup_modify, if_true]
  split
  next => cases m.lookup k <;> rfl
  next => rfl

theorem modify_of_none {m : StdMap K V} {k : K} (h : m.lookup k = none) (f : V → V) :
    m.modify k f = m := by
  simp only [modify, h]

/-- An update depends on the stored value only. -/
theorem modify_congr {m : StdMap K V} {k : K} {v : V} (h : m.lookup k = some v)
    {f g : V → V} (hfg : f v = g v) : m.modify k f = m.modify k g := by
  simp only [modify, h, hfg]

/-! Sums over the stored values. -/

section Totals

variable {M : Type*} [AddCommGroup M]

/-- The weight of what is stored at a key, which is zero if there is nothing. -/
def weightAt (m : StdMap K V) (w : V → M) (k : K) : M := (m.lookup k).elim 0 w

/-- The sum of a weight over all stored values. -/
def total (m : StdMap K V) (w : V → M) : M := ∑ k ∈ m.keys, m.weightAt w k

theorem weightAt_of_notMem {m : StdMap K V} {k : K} (h : k ∉ m.keys) (w : V → M) :
    m.weightAt w k = 0 := by
  have hnone : m.lookup k = none :=
    Finmap.lookup_eq_none.mpr (fun hk => h (Finmap.mem_keys.mpr hk))
  simp [weightAt, hnone]

@[simp] theorem total_empty (w : V → M) : total (∅ : StdMap K V) w = 0 := by
  simp [total]

/-- A total may be taken over any larger set of keys. -/
theorem total_eq_sum {m : StdMap K V} {s : Finset K} (h : m.keys ⊆ s) (w : V → M) :
    m.total w = ∑ k ∈ s, m.weightAt w k := by
  refine Finset.sum_subset h ?_
  intro k _ hk
  exact weightAt_of_notMem hk w

theorem total_eq_zero {m : StdMap K V} {w : V → M}
    (h : ∀ k v, m.lookup k = some v → w v = 0) : m.total w = 0 := by
  refine Finset.sum_eq_zero ?_
  intro k _
  rw [weightAt]
  cases hk : m.lookup k with
  | none => rfl
  | some v => exact h k v hk

/-- Totals of two maps that weigh the same key by key. -/
theorem total_congr {V' : Type*} {m : StdMap K V} {m' : StdMap K V'} {w : V → M} {w' : V' → M}
    (h : ∀ k, m.weightAt w k = m'.weightAt w' k) : m.total w = m'.total w' := by
  rw [total_eq_sum (s := m.keys ∪ m'.keys) Finset.subset_union_left,
    total_eq_sum (s := m.keys ∪ m'.keys) Finset.subset_union_right]
  exact Finset.sum_congr rfl (fun k _ => h k)

/-- What a change at one key does to a total. -/
theorem total_change {m m' : StdMap K V} {k : K}
    (h : ∀ k', k' ≠ k → m'.lookup k' = m.lookup k') (w : V → M) :
    m'.total w = m.total w - m.weightAt w k + m'.weightAt w k := by
  let s := insert k (m.keys ∪ m'.keys)
  have hrest : ∑ k' ∈ s.erase k, m'.weightAt w k' = ∑ k' ∈ s.erase k, m.weightAt w k' := by
    refine Finset.sum_congr rfl ?_
    intro k' hk'
    simp only [weightAt, h k' (Finset.ne_of_mem_erase hk')]
  rw [total_eq_sum (s := s) (by grind) w, total_eq_sum (s := s) (by grind) w,
    ← Finset.sum_erase_add s _ (Finset.mem_insert_self k _), hrest,
    ← Finset.sum_erase_add s (m.weightAt w) (Finset.mem_insert_self k _)]
  abel

theorem total_set (m : StdMap K V) (k : K) (v : V) (w : V → M) :
    (m.set k v).total w = m.total w - m.weightAt w k + w v := by
  rw [total_change (m := m) (k := k)]
  · simp [weightAt, lookup_set]
  · intro k' hk
    rw [lookup_set, if_neg hk]

theorem total_remove (m : StdMap K V) (k : K) (w : V → M) :
    (m.remove k).total w = m.total w - m.weightAt w k := by
  rw [total_change (m := m) (k := k)]
  · simp [weightAt, lookup_remove]
  · intro k' hk
    rw [lookup_remove, if_neg hk]

theorem total_insertNew_of_none {m : StdMap K V} {k : K} (h : m.lookup k = none) (v : V)
    (w : V → M) : (m.insertNew k v).total w = m.total w + w v := by
  rw [total_change (m := m) (k := k)]
  · simp [weightAt, lookup_insertNew_of_none h, h]
  · intro k' hk
    rw [lookup_insertNew_of_none h, if_neg hk]

section Ordered

variable [PartialOrder M] [IsOrderedAddMonoid M]

theorem total_nonneg {m : StdMap K V} {w : V → M}
    (h : ∀ k v, m.lookup k = some v → 0 ≤ w v) : 0 ≤ m.total w := by
  refine Finset.sum_nonneg ?_
  intro k _
  rw [weightAt]
  cases hk : m.lookup k with
  | none => exact le_refl 0
  | some v => exact h k v hk

theorem total_le_total_add {V₁ V₂ : Type*} {m : StdMap K V} {m₁ : StdMap K V₁}
    {m₂ : StdMap K V₂} {w : V → M} {w₁ : V₁ → M} {w₂ : V₂ → M}
    (h : ∀ k, m.weightAt w k ≤ m₁.weightAt w₁ k + m₂.weightAt w₂ k) :
    m.total w ≤ m₁.total w₁ + m₂.total w₂ := by
  let s := m.keys ∪ (m₁.keys ∪ m₂.keys)
  rw [total_eq_sum (s := s) (by grind) w, total_eq_sum (s := s) (by grind) w₁,
    total_eq_sum (s := s) (by grind) w₂, ← Finset.sum_add_distrib]
  exact Finset.sum_le_sum (fun k _ => h k)

end Ordered

end Totals

/-- Every stored value satisfies a predicate. -/
def AllValues (m : StdMap K V) (p : V → Prop) : Prop := ∀ k ∈ m.keys, ∀ v ∈ m.lookup k, p v

instance {m : StdMap K V} {p : V → Prop} [DecidablePred p] : Decidable (m.AllValues p) := by
  unfold AllValues
  infer_instance

theorem allValues_iff {m : StdMap K V} {p : V → Prop} :
    m.AllValues p ↔ ∀ k v, m.lookup k = some v → p v := by
  constructor
  · intro h k v hk
    exact h k (Finmap.mem_keys.mpr (Finmap.mem_of_lookup_eq_some hk)) v hk
  · intro h k _ v hk
    exact h k v hk

/-- Maps that differ at one key at most, and there agree on whether what is stored
satisfies a predicate, agree on whether any stored value does. -/
theorem exists_lookup_congr {m m' : StdMap K V} {k : K} {p : K → V → Prop}
    (hothers : ∀ k', k' ≠ k → m'.lookup k' = m.lookup k')
    (hsame : (∃ v, m'.lookup k = some v ∧ p k v) ↔ ∃ v, m.lookup k = some v ∧ p k v) :
    (∃ k' v, m'.lookup k' = some v ∧ p k' v) ↔ ∃ k' v, m.lookup k' = some v ∧ p k' v := by
  refine exists_congr ?_
  intro k'
  by_cases hk : k' = k
  · subst hk
    exact hsame
  · rw [hothers k' hk]

variable [DecidableEq V]

@[simp] theorem mem_fiber {m : StdMap K V} {k : K} {v : V} :
    k ∈ m.fiber v ↔ m.lookup k = some v := by
  simp only [fiber, Finset.mem_filter, Finmap.mem_keys, and_iff_right_iff_imp]
  exact Finmap.mem_of_lookup_eq_some

/-- Storing `v` at `k` adds `k` to the fiber of `v` and removes it from every
other one. -/
theorem fiber_set (m : StdMap K V) (k : K) (v v' : V) :
    (m.set k v).fiber v' =
      if v' = v then insert k (m.fiber v') else (m.fiber v').erase k := by
  ext k'
  by_cases hk : k' = k <;> by_cases hv : v' = v <;>
    simp [lookup_set, hk, hv, Ne.symm]

theorem fiber_remove (m : StdMap K V) (k : K) (v : V) :
    (m.remove k).fiber v = (m.fiber v).erase k := by
  ext k'
  by_cases hk : k' = k <;> simp [lookup_remove, hk]

theorem fiber_insertNew (m : StdMap K V) (k : K) (v v' : V) :
    (m.insertNew k v).fiber v' =
      if v' = v ∧ m.lookup k = none then insert k (m.fiber v') else m.fiber v' := by
  ext k'
  rw [mem_fiber, lookup_insertNew]
  by_cases hk : k' = k
  · subst hk
    cases h : m.lookup k' with
    | none =>
        by_cases hv : v' = v
        · simp [hv]
        · simp [h, hv, Ne.symm hv]
    | some w => simp [h]
  · by_cases hv : v' = v ∧ m.lookup k = none <;> simp [hk, hv]

theorem fiber_insertNew_of_none {m : StdMap K V} {k : K} (h : m.lookup k = none)
    (v v' : V) :
    (m.insertNew k v).fiber v' =
      if v' = v then insert k (m.fiber v') else m.fiber v' := by
  simp [fiber_insertNew, h]

end StdMap

end HostedPumpkin
