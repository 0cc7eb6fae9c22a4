import Mathlib.Tactic

/-!
Runs of a partial step function over a list of actions. A step either yields
the next state or an error: an action that is not enabled, or a fault of the
program. `Always` is a property of every state a run passes through and `Meets`
is a condition every step of a run meets in the state it is taken from. The two
are related by one step lemma and one induction, so a development states what a
single step preserves and gets the run for free.
-/

namespace HostedPumpkin.Runs

variable {σ α ε : Type*}

/-- Take the actions in order and stop at the first error. -/
def run (step : σ → α → Except ε σ) : σ → List α → Except ε σ
  | s, [] => .ok s
  | s, a :: rest =>
      match step s a with
      | .ok next => run step next rest
      | .error e => .error e

/-- `P` holds in the first state and in every state reached from it. -/
def Always (step : σ → α → Except ε σ) (P : σ → Prop) : σ → List α → Prop
  | s, [] => P s
  | s, a :: rest => P s ∧ ∀ next, step s a = .ok next → Always step P next rest

/-- Every step of the run is taken from a state in which `cond` allows it. -/
def Meets (step : σ → α → Except ε σ) (cond : σ → α → Prop) : σ → List α → Prop
  | _, [] => True
  | s, a :: rest => cond s a ∧ ∀ next, step s a = .ok next → Meets step cond next rest

variable {step : σ → α → Except ε σ}

/-- A condition that can be evaluated can be evaluated along a run. -/
instance decidableMeets {cond : σ → α → Prop} [∀ s a, Decidable (cond s a)] :
    (s : σ) → (actions : List α) → Decidable (Meets step cond s actions)
  | _, [] => isTrue trivial
  | s, a :: rest =>
      match h : step s a with
      | .ok next =>
          have : Decidable (Meets step cond next rest) := decidableMeets next rest
          decidable_of_iff (cond s a ∧ Meets step cond next rest) (by simp [Meets, h])
      | .error _ => decidable_of_iff (cond s a) (by simp [Meets, h])

@[simp] theorem run_nil (s : σ) : run step s [] = .ok s := rfl

theorem run_cons_ok {s next : σ} {a : α} (h : step s a = .ok next) (rest : List α) :
    run step s (a :: rest) = run step next rest := by
  simp only [run, h]

theorem run_cons_error {s : σ} {a : α} {e : ε} (h : step s a = .error e)
    (rest : List α) : run step s (a :: rest) = .error e := by
  simp only [run, h]

/-- The first step of a run that ends well, and the rest of it. -/
theorem run_cons_iff {s t : σ} {a : α} {rest : List α} :
    run step s (a :: rest) = .ok t ↔
      ∃ next, step s a = .ok next ∧ run step next rest = .ok t := by
  cases h : step s a with
  | ok next => simp [run_cons_ok h]
  | error e => simp [run_cons_error h]

theorem run_append_ok {s t : σ} {first : List α} (h : run step s first = .ok t)
    (rest : List α) : run step s (first ++ rest) = run step t rest := by
  induction first generalizing s with
  | nil =>
      cases h
      rfl
  | cons a first ih =>
      obtain ⟨next, hnext, hfirst⟩ := run_cons_iff.mp h
      rw [List.cons_append, run_cons_ok hnext, ih hfirst]

/-- A run in two parts. -/
theorem run_append_iff {s t : σ} {first rest : List α} :
    run step s (first ++ rest) = .ok t ↔
      ∃ middle, run step s first = .ok middle ∧ run step middle rest = .ok t := by
  induction first generalizing s with
  | nil => simp
  | cons a first ih =>
      rw [List.cons_append, run_cons_iff]
      constructor
      · rintro ⟨next, hnext, hrun⟩
        obtain ⟨middle, hfirst, hrest⟩ := ih.mp hrun
        exact ⟨middle, run_cons_iff.mpr ⟨next, hnext, hfirst⟩, hrest⟩
      · rintro ⟨middle, hfirst, hrest⟩
        obtain ⟨next, hnext, hfirst⟩ := run_cons_iff.mp hfirst
        exact ⟨next, hnext, ih.mpr ⟨middle, hfirst, hrest⟩⟩

theorem Always.head {P : σ → Prop} {s : σ} {actions : List α}
    (h : Always step P s actions) : P s := by
  cases actions with
  | nil => exact h
  | cons a rest => exact h.1

theorem Always.last {P : σ → Prop} {s t : σ} {actions : List α}
    (h : Always step P s actions) (hrun : run step s actions = .ok t) : P t := by
  induction actions generalizing s with
  | nil =>
      cases hrun
      exact h
  | cons a rest ih =>
      obtain ⟨next, hnext, hrest⟩ := run_cons_iff.mp hrun
      exact ih (h.2 next hnext) hrest

theorem Always.imp {P Q : σ → Prop} {s : σ} {actions : List α}
    (h : Always step P s actions) (himp : ∀ s, P s → Q s) :
    Always step Q s actions := by
  induction actions generalizing s with
  | nil => exact himp s h
  | cons a rest ih =>
      exact ⟨himp s h.1, fun next hnext => ih (h.2 next hnext)⟩

theorem Always.and {P Q : σ → Prop} {s : σ} {actions : List α} (h : Always step P s actions)
    (h' : Always step Q s actions) : Always step (fun s => P s ∧ Q s) s actions := by
  induction actions generalizing s with
  | nil => exact ⟨h, h'⟩
  | cons a rest ih =>
      exact ⟨⟨h.1, h'.1⟩, fun next hnext => ih (h.2 next hnext) (h'.2 next hnext)⟩

/-- What holds of every state is met by every step. -/
theorem Always.meets {P : σ → Prop} {s : σ} {actions : List α} (h : Always step P s actions) :
    Meets step (fun s _ => P s) s actions := by
  induction actions generalizing s with
  | nil => trivial
  | cons a rest ih => exact ⟨h.1, fun next hnext => ih (h.2 next hnext)⟩

/-- What every step preserves holds throughout every run. -/
theorem always_of_step {Inv : σ → Prop} {s : σ}
    (hstep : ∀ s a next, Inv s → step s a = .ok next → Inv next) (hs : Inv s)
    (actions : List α) : Always step Inv s actions := by
  induction actions generalizing s with
  | nil => exact hs
  | cons a rest ih => exact ⟨hs, fun next hnext => ih (hstep s a next hs hnext)⟩

theorem meets_of_forall {cond : σ → α → Prop} (h : ∀ s a, cond s a) {s : σ}
    {actions : List α} : Meets step cond s actions := by
  induction actions generalizing s with
  | nil => trivial
  | cons a rest ih =>
      refine ⟨h s a, ?_⟩
      intro next _
      exact ih

/-- A condition on the actions alone. -/
theorem meets_of_mem {cond : α → Prop} {actions : List α} (h : ∀ a ∈ actions, cond a) {s : σ} :
    Meets step (fun _ a => cond a) s actions := by
  induction actions generalizing s with
  | nil => trivial
  | cons a rest ih =>
      refine ⟨h a List.mem_cons_self, ?_⟩
      intro next _
      exact ih (fun b hb => h b (List.mem_cons_of_mem a hb))

/-- A run whose steps meet two conditions meets them together. -/
theorem Meets.and {cond cond' : σ → α → Prop} {s : σ} {actions : List α}
    (h : Meets step cond s actions) (h' : Meets step cond' s actions) :
    Meets step (fun s a => cond s a ∧ cond' s a) s actions := by
  induction actions generalizing s with
  | nil => trivial
  | cons a rest ih =>
      refine ⟨⟨h.1, h'.1⟩, ?_⟩
      intro next hnext
      exact ih (h.2 next hnext) (h'.2 next hnext)

/-- Conditions that agree in every state are met by the same runs. -/
theorem meets_congr {cond cond' : σ → α → Prop} (h : ∀ s a, cond s a ↔ cond' s a) {s : σ}
    {actions : List α} : Meets step cond s actions ↔ Meets step cond' s actions := by
  induction actions generalizing s with
  | nil => exact Iff.rfl
  | cons a rest ih =>
      apply and_congr (h s a)
      exact forall_congr' (fun next => imp_congr Iff.rfl ih)

/-- The condition on a step in the middle of a run. -/
theorem Meets.of_append {cond : σ → α → Prop} {s t : σ} {before rest : List α} {a : α}
    (h : Meets step cond s (before ++ a :: rest)) (hrun : run step s before = .ok t) :
    cond t a := by
  induction before generalizing s with
  | nil =>
      cases hrun
      exact h.1
  | cons b before ih =>
      obtain ⟨next, hnext, hbefore⟩ := run_cons_iff.mp hrun
      exact ih (h.2 next hnext) hbefore

/-- An error that no allowed step can raise is raised by no run of such steps. -/
theorem Meets.run_ne_error {cond : σ → α → Prop} {s : σ} {actions : List α} {e : ε}
    (h : Meets step cond s actions) (hsafe : ∀ s a, cond s a → step s a ≠ .error e) :
    run step s actions ≠ .error e := by
  induction actions generalizing s with
  | nil => simp
  | cons a rest ih =>
      cases hstep : step s a with
      | ok next =>
          rw [run_cons_ok hstep]
          exact ih (h.2 next hstep)
      | error e' =>
          rw [run_cons_error hstep]
          intro heq
          cases heq
          exact hsafe s a h.1 hstep

/-- The run ends well, in a state with the property. -/
def Reaches (step : σ → α → Except ε σ) (P : σ → Prop) : σ → List α → Prop
  | s, [] => P s
  | s, a :: rest => ∃ next, step s a = .ok next ∧ Reaches step P next rest

instance decidableReaches {P : σ → Prop} [DecidablePred P] :
    (s : σ) → (actions : List α) → Decidable (Reaches step P s actions)
  | s, [] => inferInstanceAs (Decidable (P s))
  | s, a :: rest =>
      match h : step s a with
      | .ok next =>
          have : Decidable (Reaches step P next rest) := decidableReaches next rest
          decidable_of_iff (Reaches step P next rest) (by simp [Reaches, h])
      | .error _ => isFalse (by simp [Reaches, h])

theorem reaches_iff {P : σ → Prop} {s : σ} {actions : List α} :
    Reaches step P s actions ↔ ∃ t, run step s actions = .ok t ∧ P t := by
  induction actions generalizing s with
  | nil => simp [Reaches]
  | cons a rest ih =>
      constructor
      · rintro ⟨next, hnext, hrest⟩
        obtain ⟨t, hrun, ht⟩ := ih.mp hrest
        exact ⟨t, run_cons_iff.mpr ⟨next, hnext, hrun⟩, ht⟩
      · rintro ⟨t, hrun, ht⟩
        obtain ⟨next, hnext, hrest⟩ := run_cons_iff.mp hrun
        exact ⟨next, hnext, ih.mpr ⟨t, hrest, ht⟩⟩

/-- A run reaches one state only. -/
theorem Reaches.and {P Q : σ → Prop} {s : σ} {actions : List α}
    (h : Reaches step P s actions) (h' : Reaches step Q s actions) :
    Reaches step (fun t => P t ∧ Q t) s actions := by
  obtain ⟨t, hrun, hP⟩ := reaches_iff.mp h
  obtain ⟨t', hrun', hQ⟩ := reaches_iff.mp h'
  have hsame : t' = t := Except.ok.inj (hrun'.symm.trans hrun)
  subst hsame
  exact reaches_iff.mpr ⟨t', hrun, hP, hQ⟩

/-- What one allowed step preserves, a run of allowed steps preserves. -/
theorem always_of_meets {cond : σ → α → Prop} {Inv : σ → Prop} {s : σ}
    {actions : List α}
    (hstep : ∀ s a next, Inv s → cond s a → step s a = .ok next → Inv next)
    (hs : Inv s) (hmeets : Meets step cond s actions) :
    Always step Inv s actions := by
  induction actions generalizing s with
  | nil => exact hs
  | cons a rest ih =>
      refine ⟨hs, ?_⟩
      intro next hnext
      exact ih (hstep s a next hs hmeets.1 hnext) (hmeets.2 next hnext)

theorem invariant_of_meets {cond : σ → α → Prop} {Inv : σ → Prop} {s t : σ}
    {actions : List α}
    (hstep : ∀ s a next, Inv s → cond s a → step s a = .ok next → Inv next)
    (hs : Inv s) (hmeets : Meets step cond s actions)
    (hrun : run step s actions = .ok t) : Inv t :=
  (always_of_meets hstep hs hmeets).last hrun

/-- If the condition is exactly what one step needs, then the runs that keep the
invariant throughout are exactly the runs that meet the condition, among the runs
whose steps all meet an assumption. -/
theorem always_iff_meets_of_meets {assume cond : σ → α → Prop} {Inv : σ → Prop} {s : σ}
    {actions : List α}
    (hexact : ∀ s a, Inv s → assume s a →
      (cond s a ↔ ∀ next, step s a = .ok next → Inv next))
    (hs : Inv s) (hassume : Meets step assume s actions) :
    Always step Inv s actions ↔ Meets step cond s actions := by
  constructor
  · intro h
    induction actions generalizing s with
    | nil => trivial
    | cons a rest ih =>
        refine ⟨(hexact s a hs hassume.1).mpr ?_, ?_⟩
        · intro next hnext
          exact (h.2 next hnext).head
        · intro next hnext
          exact ih (h.2 next hnext).head (hassume.2 next hnext) (h.2 next hnext)
  · intro h
    refine always_of_meets ?_ hs (hassume.and h)
    intro s a next hs' hboth hnext
    exact (hexact s a hs' hboth.1).mp hboth.2 next hnext

/-- The same where nothing is assumed of the steps. -/
theorem always_iff_meets {cond : σ → α → Prop} {Inv : σ → Prop} {s : σ}
    {actions : List α}
    (hexact : ∀ s a, Inv s → (cond s a ↔ ∀ next, step s a = .ok next → Inv next))
    (hs : Inv s) :
    Always step Inv s actions ↔ Meets step cond s actions := by
  have hassume : Meets step (fun _ _ => True) s actions := meets_of_forall (fun _ _ => trivial)
  exact always_iff_meets_of_meets (fun s a hs _ => hexact s a hs) hs hassume

/-- An error that no step can raise under the invariant is raised by no run. -/
theorem Always.run_ne_error {Inv : σ → Prop} {s : σ} {actions : List α} {e : ε}
    (h : Always step Inv s actions) (hsafe : ∀ s a, Inv s → step s a ≠ .error e) :
    run step s actions ≠ .error e :=
  h.meets.run_ne_error hsafe

/-- The exact conditions for an invariant, where the invariant also excludes an error. -/
theorem always_and_run_ne_error_iff {cond : σ → α → Prop} {Inv : σ → Prop} {s : σ}
    {actions : List α} {e : ε}
    (hexact : ∀ s a, Inv s → (cond s a ↔ ∀ next, step s a = .ok next → Inv next))
    (hs : Inv s) (hsafe : ∀ s a, Inv s → step s a ≠ .error e) :
    (Always step Inv s actions ∧ run step s actions ≠ .error e) ↔ Meets step cond s actions := by
  have hiff : Always step Inv s actions ↔ Meets step cond s actions :=
    always_iff_meets hexact hs
  constructor
  · rintro ⟨halways, -⟩
    exact hiff.mp halways
  · intro hmeets
    have halways := hiff.mpr hmeets
    exact ⟨halways, halways.run_ne_error hsafe⟩

/-- A run keeps the invariant and never raises the error, if and only if its
steps meet the condition that is exactly what one step needs for both. -/
theorem always_safe_iff_meets {assume cond : σ → α → Prop} {Inv : σ → Prop} {e : ε} {s : σ}
    {actions : List α}
    (hexact : ∀ s a, Inv s → assume s a →
      (cond s a ↔ step s a ≠ .error e ∧ ∀ next, step s a = .ok next → Inv next))
    (hs : Inv s) (hassume : Meets step assume s actions) :
    (Always step Inv s actions ∧ run step s actions ≠ .error e) ↔
      Meets step cond s actions := by
  induction actions generalizing s with
  | nil => simp [Always, Meets, hs]
  | cons a rest ih =>
      constructor
      · rintro ⟨halways, hsafe⟩
        refine ⟨(hexact s a hs hassume.1).mpr ⟨?_, ?_⟩, ?_⟩
        · intro herror
          rw [run_cons_error herror] at hsafe
          exact hsafe rfl
        · intro next hnext
          exact (halways.2 next hnext).head
        · intro next hnext
          rw [run_cons_ok hnext] at hsafe
          have hrest := halways.2 next hnext
          exact (ih hrest.head (hassume.2 next hnext)).mp ⟨hrest, hsafe⟩
      · rintro ⟨hcond, hmeets⟩
        obtain ⟨hsafe, hkeeps⟩ := (hexact s a hs hassume.1).mp hcond
        cases hstep : step s a with
        | ok next =>
            have hnext := hkeeps next hstep
            obtain ⟨halways, hrun⟩ :=
              (ih hnext (hassume.2 next hstep)).mpr (hmeets next hstep)
            refine ⟨⟨hs, ?_⟩, ?_⟩
            · intro next' hnext'
              rw [hstep] at hnext'
              cases hnext'
              exact halways
            · rw [run_cons_ok hstep]
              exact hrun
        | error e' =>
            refine ⟨⟨hs, ?_⟩, ?_⟩
            · intro next hnext
              rw [hstep] at hnext
              cases hnext
            · rw [run_cons_error hstep]
              intro heq
              cases heq
              exact hsafe hstep

/-- What a step leaves out of the state, a run leaves out of it. -/
theorem run_map {τ : Type*} {step' : τ → α → Except ε τ} {f : σ → τ}
    (h : ∀ s a, (step s a).map f = step' (f s) a) (s : σ) (actions : List α) :
    (run step s actions).map f = run step' (f s) actions := by
  induction actions generalizing s with
  | nil => rfl
  | cons a rest ih =>
      have hfirst := h s a
      cases hstep : step s a with
      | ok next =>
          rw [hstep] at hfirst
          rw [run_cons_ok hstep, run_cons_ok hfirst.symm, ih]
      | error e =>
          rw [hstep] at hfirst
          rw [run_cons_error hstep, run_cons_error hfirst.symm]
          rfl

/-- A state together with the actions that led to it, oldest first. It lets a
condition on a step speak about everything that happened before. -/
structure Traced (σ α : Type*) where
  state : σ
  history : List α

/-- The same step, recording the action it took. -/
def traced (step : σ → α → Except ε σ) (s : Traced σ α) (a : α) :
    Except ε (Traced σ α) :=
  match step s.state a with
  | .ok next => .ok ⟨next, s.history ++ [a]⟩
  | .error e => .error e

theorem traced_ok_iff {s next : Traced σ α} {a : α} :
    traced step s a = .ok next ↔
      step s.state a = .ok next.state ∧ next.history = s.history ++ [a] := by
  cases h : step s.state a with
  | ok t =>
      simp only [traced, h, Except.ok.injEq]
      constructor
      · rintro rfl
        exact ⟨rfl, rfl⟩
      · rintro ⟨rfl, hhistory⟩
        rw [← hhistory]
  | error e => simp [traced, h]

/-- Recording the history changes no run. -/
theorem run_traced {s t : σ} {history actions : List α}
    (h : run step s actions = .ok t) :
    run (traced step) ⟨s, history⟩ actions = .ok ⟨t, history ++ actions⟩ := by
  induction actions generalizing s history with
  | nil =>
      cases h
      simp
  | cons a rest ih =>
      obtain ⟨next, hnext, hrest⟩ := run_cons_iff.mp h
      have hfirst : traced step ⟨s, history⟩ a = .ok ⟨next, history ++ [a]⟩ :=
        traced_ok_iff.mpr ⟨hnext, rfl⟩
      rw [run_cons_ok hfirst, ih hrest, List.append_assoc, List.singleton_append]

end HostedPumpkin.Runs
