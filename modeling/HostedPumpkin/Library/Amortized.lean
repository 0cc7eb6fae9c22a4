import HostedPumpkin.Library.Runs

/-!
The potential method for runs. A state holds credit; an action brings some of it and takes
what it costs. A whole run then costs no more than its first state held and its actions
brought, however the actions are ordered.
-/

namespace HostedPumpkin.Runs

variable {σ α ε : Type*} {step : σ → α → Except ε σ}

/-- What the actions of a list come to. -/
def total (weight : α → Nat) (actions : List α) : Nat := (actions.map weight).sum

@[simp] theorem total_nil (weight : α → Nat) : total weight [] = 0 := rfl

@[simp] theorem total_cons (weight : α → Nat) (a : α) (rest : List α) :
    total weight (a :: rest) = weight a + total weight rest := List.sum_cons

theorem total_mul (k : Nat) (weight : α → Nat) (actions : List α) :
    total (fun a => k * weight a) actions = k * total weight actions := by
  induction actions with
  | nil => rfl
  | cons a rest ih => rw [total_cons, total_cons, ih, Nat.mul_add]

/-- If every step takes its cost out of the credit and what the action brings, so does the run. -/
theorem run_cost_le {Inv : σ → Prop} {credit : σ → Nat} {cost gain : α → Nat}
    (hstep : ∀ s a next, Inv s → step s a = .ok next →
      Inv next ∧ credit next + cost a ≤ credit s + gain a)
    {s t : σ} (hs : Inv s) {actions : List α} (hrun : run step s actions = .ok t) :
    credit t + total cost actions ≤ credit s + total gain actions := by
  induction actions generalizing s with
  | nil =>
      cases hrun
      simp
  | cons a rest ih =>
      obtain ⟨next, hnext, hrest⟩ := run_cons_iff.mp hrun
      obtain ⟨hinv, hpaid⟩ := hstep s a next hs hnext
      have hlater := ih hinv hrest
      rw [total_cons, total_cons]
      omega

end HostedPumpkin.Runs
