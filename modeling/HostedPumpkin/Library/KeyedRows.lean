import Mathlib.Data.List.Nodup

/-!
A table as a list of rows, each with its key, whose rows are looked up, changed and
removed by their key. What a key finds after each operation is said for every key, so a
table refines the function from keys to what they find.
-/

namespace HostedPumpkin.KeyedRows

variable {κ β : Type*}

/-- Remove the rows of some keys. -/
def remove (rows : List (κ × β)) (doomed : κ → Bool) : List (κ × β) :=
  rows.filter fun row => !doomed row.1

theorem nodup_remove {rows : List (κ × β)} (distinct : (rows.map Prod.fst).Nodup)
    (doomed : κ → Bool) : ((remove rows doomed).map Prod.fst).Nodup :=
  distinct.sublist ((List.filter_sublist).map Prod.fst)

theorem nodup_concat {rows : List (κ × β)} {key : κ} (distinct : (rows.map Prod.fst).Nodup)
    (fresh : key ∉ rows.map Prod.fst) (b : β) :
    ((rows ++ [(key, b)]).map Prod.fst).Nodup := by
  rw [List.map_append, List.map_cons, List.map_nil, ← List.concat_eq_append]
  exact distinct.concat fresh

variable [DecidableEq κ]

/-- Change what stands behind a key. -/
def change (rows : List (κ × β)) (key : κ) (f : β → β) : List (κ × β) :=
  rows.map fun row => if row.1 = key then (row.1, f row.2) else row

theorem lookup_concat {rows : List (κ × β)} {key : κ} (fresh : key ∉ rows.map Prod.fst)
    (b : β) (other : κ) :
    (rows ++ [(key, b)]).lookup other =
      if other = key then some b else rows.lookup other := by
  rw [List.lookup_append, List.lookup_cons, List.lookup_nil]
  by_cases same : other = key
  · have absent : rows.lookup other = none := by
      rw [List.lookup_eq_none_iff]
      intro row member
      rw [same, bne_iff_ne]
      rintro rfl
      exact fresh (List.mem_map_of_mem member)
    rw [absent, if_pos same]
    simp [same]
  · have differs : (other == key) = false := beq_eq_false_iff_ne.mpr same
    simp [differs, same]

theorem lookup_change (rows : List (κ × β)) (key : κ) (f : β → β) (other : κ) :
    (change rows key f).lookup other =
      if other = key then (rows.lookup key).map f else rows.lookup other := by
  induction rows with
  | nil => simp [change]
  | cons row rows ih =>
      obtain ⟨k, b⟩ := row
      rw [change, List.map_cons]
      rw [change] at ih
      by_cases here : k = key
      · rw [if_pos here, List.lookup_cons, List.lookup_cons, List.lookup_cons, ih, here]
        by_cases same : other = key
        · simp [same]
        · have differs : (other == key) = false := beq_eq_false_iff_ne.mpr same
          simp [same, differs]
      · rw [if_neg here, List.lookup_cons, List.lookup_cons, List.lookup_cons, ih]
        by_cases same : other = key
        · have differs : (key == k) = false := beq_eq_false_iff_ne.mpr (Ne.symm here)
          simp [same, differs]
        · simp [same]

theorem lookup_remove (rows : List (κ × β)) (doomed : κ → Bool) (key : κ) :
    (remove rows doomed).lookup key = if doomed key then none else rows.lookup key := by
  induction rows with
  | nil => simp [remove]
  | cons row rows ih =>
      obtain ⟨k, b⟩ := row
      rw [remove, List.filter_cons]
      rw [remove] at ih
      by_cases gone : doomed k = true
      · rw [if_neg (by simp [gone]), ih, List.lookup_cons]
        by_cases same : key = k
        · simp [same, gone]
        · have differs : (key == k) = false := beq_eq_false_iff_ne.mpr same
          simp [differs]
      · rw [if_pos (by simp [gone]), List.lookup_cons, List.lookup_cons, ih]
        by_cases same : key = k
        · simp [same, gone]
        · have differs : (key == k) = false := beq_eq_false_iff_ne.mpr same
          simp [differs]

theorem keys_change (rows : List (κ × β)) (key : κ) (f : β → β) :
    (change rows key f).map Prod.fst = rows.map Prod.fst := by
  rw [change, List.map_map]
  apply List.map_congr_left
  intro row member
  simp only [Function.comp_apply]
  split <;> rfl

/-- With distinct keys a key finds its own row. -/
theorem mem_iff_lookup {rows : List (κ × β)} (distinct : (rows.map Prod.fst).Nodup) {key : κ}
    {b : β} : (key, b) ∈ rows ↔ rows.lookup key = some b := by
  induction rows with
  | nil => simp
  | cons row rows ih =>
      obtain ⟨k, a⟩ := row
      obtain ⟨absent, others⟩ := List.nodup_cons.mp distinct
      rw [List.mem_cons, List.lookup_cons, ih others]
      by_cases same : key = k
      · subst same
        have unfound : rows.lookup key ≠ some b := by
          intro found
          exact absent (List.mem_map.mpr ⟨(key, b), (ih others).mpr found, rfl⟩)
        simp [unfound, eq_comm]
      · have differs : (key == k) = false := beq_eq_false_iff_ne.mpr same
        simp [same, differs]

end HostedPumpkin.KeyedRows
