import Mathlib.Tactic

/-!
A stock from which units are taken in two steps: who wants a unit promises to
take it and takes it later. The stock keeps a floor if every promise is backed
by a unit above the floor that nobody else was promised.
-/

namespace HostedPumpkin.Reservation

structure Stock where
  units : Nat
  promised : Nat

/-- A promise is made only if it is backed. -/
inductive Step (floor : Nat) : Stock → Stock → Prop where
  | add (s : Stock) : Step floor s ⟨s.units + 1, s.promised⟩
  | promise (s : Stock) (hbacked : 0 < floor → floor + s.promised < s.units) :
      Step floor s ⟨s.units, s.promised + 1⟩
  | take (s : Stock) : Step floor ⟨s.units + 1, s.promised + 1⟩ s

/-- All that was promised can be taken. -/
def Stock.Covered (floor : Nat) (s : Stock) : Prop :=
  0 < floor → 0 < s.promised → floor + s.promised ≤ s.units

theorem Stock.Covered.step {floor : Nat} {s next : Stock} (h : s.Covered floor)
    (hstep : Step floor s next) : next.Covered floor := by
  intro hfloor hpromised
  cases hstep with
  | add =>
      have hunits := h hfloor hpromised
      exact Nat.le_succ_of_le hunits
  | promise _ hbacked =>
      have hunits := hbacked hfloor
      simp only
      omega
  | take =>
      have hunits := h hfloor (Nat.succ_pos _)
      simp only at hunits
      omega

/-- The floor is kept once it is reached. -/
theorem Stock.Covered.floor_le {floor : Nat} {s next : Stock} (h : s.Covered floor)
    (hstep : Step floor s next) (hfloor : floor ≤ s.units) : floor ≤ next.units := by
  cases hstep with
  | add => exact Nat.le_succ_of_le hfloor
  | promise => exact hfloor
  | take =>
      by_contra hbelow
      have hpos : 0 < floor := Nat.pos_of_ne_zero (by omega)
      have hunits := h hpos (Nat.succ_pos _)
      simp only at hunits
      omega

/-- If something promised is not covered, the promised units are enough to get
below the floor. -/
theorem Stock.promised_of_not_covered {floor : Nat} {s : Stock} (h : ¬ s.Covered floor)
    (hfloor : floor ≤ s.units) : 0 < floor ∧ s.units - floor < s.promised := by
  unfold Stock.Covered at h
  push Not at h
  obtain ⟨hpos, hpromised, hunits⟩ := h
  omega

end HostedPumpkin.Reservation
