import Mathlib.Tactic

/-!
Deterministic machines that run until they have a result. One machine follows another
along a relation of their states if every step of the one is matched by at least one
step of the other. Then they end on the same states, with related results: a machine
that never ends is followed by one that never ends, because no step is matched by none.
-/

namespace HostedPumpkin.Machine

variable {σ τ ρ ρ' : Type*}

/-- So many steps, or fewer if the machine has its result. -/
def advance (step : σ → σ ⊕ ρ) : Nat → σ → σ ⊕ ρ
  | 0, s => .inl s
  | n + 1, s =>
      match step s with
      | .inl next => advance step n next
      | .inr result => .inr result

def Finishes (step : σ → σ ⊕ ρ) (s : σ) (result : ρ) : Prop :=
  ∃ n, advance step n s = .inr result

section Advance

variable {step : σ → σ ⊕ ρ}

theorem advance_succ_inl {s next : σ} (h : step s = .inl next) (n : Nat) :
    advance step (n + 1) s = advance step n next := by
  simp only [advance, h]

theorem advance_succ_inr {s : σ} {result : ρ} (h : step s = .inr result) (n : Nat) :
    advance step (n + 1) s = .inr result := by
  simp only [advance, h]

theorem advance_add_inl {s next : σ} {m : Nat} (h : advance step m s = .inl next) (n : Nat) :
    advance step (m + n) s = advance step n next := by
  induction m generalizing s with
  | zero =>
      cases h
      rw [Nat.zero_add]
  | succ m ih =>
      cases hstep : step s with
      | inl middle =>
          rw [advance_succ_inl hstep] at h
          rw [Nat.succ_add, advance_succ_inl hstep, ih h]
      | inr result =>
          rw [advance_succ_inr hstep] at h
          cases h

theorem advance_add_inr {s : σ} {result : ρ} {m : Nat} (h : advance step m s = .inr result)
    (n : Nat) : advance step (m + n) s = .inr result := by
  induction m generalizing s with
  | zero => cases h
  | succ m ih =>
      cases hstep : step s with
      | inl middle =>
          rw [advance_succ_inl hstep] at h
          rw [Nat.succ_add, advance_succ_inl hstep, ih h]
      | inr ended =>
          rw [advance_succ_inr hstep] at h
          rw [Nat.succ_add, advance_succ_inr hstep, h]

/-- A machine has at most one result. -/
theorem Finishes.unique {s : σ} {first second : ρ} (h : Finishes step s first)
    (h' : Finishes step s second) : first = second := by
  obtain ⟨m, hm⟩ := h
  obtain ⟨n, hn⟩ := h'
  have hleft := advance_add_inr hm n
  have hright := advance_add_inr hn m
  rw [Nat.add_comm, hright] at hleft
  exact (Sum.inr.inj hleft).symm

/-- What the machine finishes with after some steps, it finishes with. -/
theorem Finishes.of_advance {s next : σ} {result : ρ} {m : Nat}
    (h : advance step m s = .inl next) (hnext : Finishes step next result) :
    Finishes step s result := by
  obtain ⟨n, hn⟩ := hnext
  exact ⟨m + n, by rw [advance_add_inl h, hn]⟩

end Advance

/-- Every step of the first machine is matched by at least one of the second. -/
structure Follows (step : σ → σ ⊕ ρ) (step' : τ → τ ⊕ ρ') (R : σ → τ → Prop)
    (Q : ρ → ρ' → Prop) : Prop where
  goesOn : ∀ s t next, R s t → step s = .inl next →
    ∃ n t', advance step' (n + 1) t = .inl t' ∧ R next t'
  ends : ∀ s t result, R s t → step s = .inr result →
    ∃ n result', advance step' (n + 1) t = .inr result' ∧ Q result result'

namespace Follows

variable {step : σ → σ ⊕ ρ} {step' : τ → τ ⊕ ρ'} {R : σ → τ → Prop} {Q : ρ → ρ' → Prop}

theorem forward (h : Follows step step' R Q) {s : σ} {t : τ} {result : ρ} (hst : R s t)
    (hfinishes : Finishes step s result) : ∃ result', Finishes step' t result' ∧
      Q result result' := by
  obtain ⟨n, hn⟩ := hfinishes
  induction n generalizing s t with
  | zero => cases hn
  | succ n ih =>
      cases hstep : step s with
      | inl next =>
          rw [advance_succ_inl hstep] at hn
          obtain ⟨m, t', hm, hnext⟩ := h.goesOn s t next hst hstep
          obtain ⟨result', hfinishes, hresult⟩ := ih hnext hn
          exact ⟨result', hfinishes.of_advance hm, hresult⟩
      | inr ended =>
          rw [advance_succ_inr hstep] at hn
          cases hn
          obtain ⟨m, result', hm, hresult⟩ := h.ends s t result hst hstep
          exact ⟨result', ⟨m + 1, hm⟩, hresult⟩

/-- The steps of the second machine that match one step of the first are taken off its
run, which gets shorter. -/
theorem backward (h : Follows step step' R Q) {s : σ} {t : τ} {result' : ρ'} (hst : R s t)
    (hfinishes : Finishes step' t result') : ∃ result, Finishes step s result ∧
      Q result result' := by
  obtain ⟨n, hn⟩ := hfinishes
  induction n using Nat.strongRecOn generalizing s t with
  | ind n ih =>
      cases hstep : step s with
      | inl next =>
          obtain ⟨m, t', hm, hnext⟩ := h.goesOn s t next hst hstep
          have hshorter : m + 1 < n := by
            by_contra hless
            have hlate := advance_add_inr hn (m + 1 - n)
            rw [show n + (m + 1 - n) = m + 1 by omega, hm] at hlate
            cases hlate
          have hrest : advance step' (n - (m + 1)) t' = .inr result' := by
            rw [← advance_add_inl hm, show m + 1 + (n - (m + 1)) = n by omega, hn]
          obtain ⟨result, hfinishes, hresult⟩ := ih (n - (m + 1)) (by omega) hnext hrest
          exact ⟨result, hfinishes.of_advance (m := 1) (advance_succ_inl hstep 0), hresult⟩
      | inr ended =>
          obtain ⟨m, ended', hm, hended⟩ := h.ends s t ended hst hstep
          have hsame : result' = ended' := Finishes.unique ⟨n, hn⟩ ⟨m + 1, hm⟩
          subst hsame
          exact ⟨ended, ⟨1, advance_succ_inr hstep 0⟩, hended⟩

/-- Results that correspond to each other one to one. -/
theorem finishes_iff {f : ρ → ρ'} (hf : Function.Injective f)
    (h : Follows step step' R (fun result result' => result' = f result)) {s : σ} {t : τ}
    (hst : R s t) (result : ρ) : Finishes step' t (f result) ↔ Finishes step s result := by
  constructor
  · intro hfinishes
    obtain ⟨found, hfound, heq⟩ := h.backward hst hfinishes
    rw [hf heq]
    exact hfound
  · intro hfinishes
    obtain ⟨found, hfound, rfl⟩ := h.forward hst hfinishes
    exact hfound

end Follows

end HostedPumpkin.Machine
