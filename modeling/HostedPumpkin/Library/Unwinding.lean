import HostedPumpkin.Library.Runs

/-!
Two runs of one system: all the actions, and what is left of them when some are
deleted. Which actions go depends on the state the full run is in. A relation
between the states of both runs that deleted actions and common actions preserve
holds at their ends.
-/

namespace HostedPumpkin.Runs

variable {σ α ε : Type*} (step : σ → α → Except ε σ) (deleted : σ → α → Prop)
  [∀ s a, Decidable (deleted s a)]

/-- What is left of the actions of a run when some are deleted on the way. -/
def without : σ → List α → List α
  | _, [] => []
  | s, a :: rest =>
      match step s a with
      | .ok next => if deleted s a then without next rest else a :: without next rest
      | .error _ => []

/-- One action of both runs: the second skips what is deleted. -/
def beside (p : σ × σ) (a : α) : Except ε (σ × σ) :=
  match step p.1 a with
  | .error e => .error e
  | .ok next =>
      if deleted p.1 a then .ok (next, p.2)
      else
        match step p.2 a with
        | .error e => .error e
        | .ok next' => .ok (next, next')

variable {step deleted}

theorem beside_of_deleted {s s' next : σ} {a : α} (h : step s a = .ok next)
    (hgone : deleted s a) : beside step deleted (s, s') a = .ok (next, s') := by
  simp only [beside, h, if_pos hgone]

theorem beside_of_kept {s s' next next' : σ} {a : α} (h : step s a = .ok next)
    (hkept : ¬ deleted s a) (h' : step s' a = .ok next') :
    beside step deleted (s, s') a = .ok (next, next') := by
  simp only [beside, h, if_neg hkept, h']

/-- The first action of a run that returns: it is deleted and the second run
stays where it is, or both runs take it. -/
theorem run_without_cons {s s' t t' : σ} {a : α} {rest : List α}
    (hrun : run step s (a :: rest) = .ok t)
    (hwithout : run step s' (without step deleted s (a :: rest)) = .ok t') :
    ∃ next, step s a = .ok next ∧ run step next rest = .ok t ∧
      ((deleted s a ∧ run step s' (without step deleted next rest) = .ok t') ∨
        ∃ next', ¬ deleted s a ∧ step s' a = .ok next' ∧
          run step next' (without step deleted next rest) = .ok t') := by
  obtain ⟨next, hstep, hrest⟩ := run_cons_iff.mp hrun
  simp only [without, hstep] at hwithout
  refine ⟨next, hstep, hrest, ?_⟩
  by_cases hgone : deleted s a
  · rw [if_pos hgone] at hwithout
    exact Or.inl ⟨hgone, hwithout⟩
  · rw [if_neg hgone] at hwithout
    obtain ⟨next', hstep', hrest'⟩ := run_cons_iff.mp hwithout
    exact Or.inr ⟨next', hgone, hstep', hrest'⟩

/-- Unwinding: what deleted actions and common actions preserve, where they meet
their conditions, relates the ends of both runs. The induction is on the actions
of the full run. -/
theorem unwinding {R : σ → σ → Prop} {assume : σ → α → Prop} {cond : σ × σ → α → Prop}
    (hdeleted : ∀ s s' a next, R s s' → assume s a → cond (s, s') a → deleted s a →
      step s a = .ok next → R next s')
    (hkept : ∀ s s' a next next', R s s' → assume s a → cond (s, s') a → ¬ deleted s a →
      step s a = .ok next → step s' a = .ok next' → R next next')
    {s s' t t' : σ} {actions : List α} (hs : R s s') (hassume : Meets step assume s actions)
    (hcond : Meets (beside step deleted) cond (s, s') actions)
    (hrun : run step s actions = .ok t)
    (hwithout : run step s' (without step deleted s actions) = .ok t') : R t t' := by
  induction actions generalizing s s' with
  | nil =>
      cases hrun
      cases hwithout
      exact hs
  | cons a rest ih =>
      obtain ⟨next, hstep, hrest, hcases⟩ := run_without_cons hrun hwithout
      have hassumed := hassume.2 next hstep
      rcases hcases with ⟨hgone, hrest'⟩ | ⟨next', hstays, hstep', hrest'⟩
      · have hnext := hdeleted s s' a next hs hassume.1 hcond.1 hgone hstep
        exact ih hnext hassumed (hcond.2 _ (beside_of_deleted hstep hgone)) hrest hrest'
      · have hnext := hkept s s' a next next' hs hassume.1 hcond.1 hstays hstep hstep'
        exact ih hnext hassumed (hcond.2 _ (beside_of_kept hstep hstays hstep')) hrest hrest'

end HostedPumpkin.Runs
