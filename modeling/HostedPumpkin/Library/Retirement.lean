import Mathlib.Algebra.Group.Basic
import Mathlib.Tactic

/-!
A group that counts its members in one shared counter. Who wants to leave
decrements the counter first: if members are left it goes, and if it reads zero
it takes the decrement back and stays. Between the two operations of the second
case others may join, leave or read zero themselves.

The counter lives in any additive group with a one, so it may wrap around.
-/

namespace HostedPumpkin.Retirement

inductive Phase where
  | outside
  | member
  | undecided
  | left
deriving DecidableEq

/-- Who takes part, in the order of arrival, and the counter. -/
structure Group (R : Type*) where
  counter : R
  phases : List Phase

section

variable {R : Type*} [AddGroup R] [One R]

/-- Every operation on the counter is a step of its own. -/
inductive Step : Group R → Group R → Prop where
  | arrive (g : Group R) : Step g ⟨g.counter, g.phases ++ [.outside]⟩
  | join {g : Group R} {i : Nat} (hi : g.phases[i]? = some .outside) :
      Step g ⟨g.counter + 1, g.phases.set i .member⟩
  | leave {g : Group R} {i : Nat} (hi : g.phases[i]? = some .member)
      (hothers : g.counter - 1 ≠ 0) : Step g ⟨g.counter - 1, g.phases.set i .left⟩
  | readZero {g : Group R} {i : Nat} (hi : g.phases[i]? = some .member)
      (hzero : g.counter - 1 = 0) : Step g ⟨g.counter - 1, g.phases.set i .undecided⟩
  | rollBack {g : Group R} {i : Nat} (hi : g.phases[i]? = some .undecided) :
      Step g ⟨g.counter + 1, g.phases.set i .member⟩

end

namespace Group

variable {R : Type*}

theorem length_of_getElem? {g : Group R} {i : Nat} {phase : Phase}
    (hi : g.phases[i]? = some phase) : i < g.phases.length :=
  (List.getElem?_eq_some_iff.mp hi).1

/-- The members after a change of one phase. -/
theorem count_member_set {g : Group R} {i : Nat} {phase : Phase}
    (hi : g.phases[i]? = some phase) (new : Phase) :
    (g.phases.set i new).count .member + (if phase = .member then 1 else 0) =
      g.phases.count .member + if new = .member then 1 else 0 := by
  obtain ⟨hlt, hget⟩ := List.getElem?_eq_some_iff.mp hi
  have hmem : phase = .member → 0 < g.phases.count .member := by
    rintro rfl
    exact List.count_pos_iff.mpr (List.mem_of_getElem? hi)
  rw [List.count_set hlt, hget]
  by_cases hphase : phase = .member
  · have hpos := hmem hphase
    simp only [hphase, beq_self_eq_true, if_true, beq_iff_eq]
    omega
  · simp [hphase]

variable [AddGroup R] [One R]

/-- The counter counts the members. -/
def Counts (g : Group R) : Prop := g.counter = g.phases.count .member • (1 : R)

/-- If somebody joined, somebody has not left. -/
def Stays (g : Group R) : Prop :=
  (∃ phase ∈ g.phases, phase ≠ .outside) →
    ∃ phase ∈ g.phases, phase ≠ .outside ∧ phase ≠ .left

theorem Counts.step {g next : Group R} (h : g.Counts) (hstep : Step g next) : next.Counts := by
  cases hstep with
  | arrive => simpa [Counts, List.count_append] using h
  | join hi =>
      have hcount := count_member_set hi .member
      simp only [reduceCtorEq, if_false, if_true, Nat.add_zero] at hcount
      rw [Counts, hcount, succ_nsmul, ← h]
  | rollBack hi =>
      have hcount := count_member_set hi .member
      simp only [reduceCtorEq, if_false, if_true, Nat.add_zero] at hcount
      rw [Counts, hcount, succ_nsmul, ← h]
  | leave hi hothers =>
      have hcount := count_member_set hi .left
      simp only [reduceCtorEq, if_false, if_true, Nat.add_zero] at hcount
      rw [Counts, h, ← hcount, succ_nsmul, add_sub_cancel_right]
  | readZero hi hzero =>
      have hcount := count_member_set hi .undecided
      simp only [reduceCtorEq, if_false, if_true, Nat.add_zero] at hcount
      rw [Counts, h, ← hcount, succ_nsmul, add_sub_cancel_right]

/-- Whoever takes the last step is still there, unless it left; and then the
counter it read shows another member. -/
theorem Stays.step {g next : Group R} (h : g.Stays) (hcounts : g.Counts)
    (hstep : Step g next) : next.Stays := by
  have hnext := hcounts.step hstep
  intro hjoined
  cases hstep with
  | arrive =>
      obtain ⟨phase, hphase, hne⟩ := hjoined
      rcases List.mem_append.mp hphase with hold | hnew
      · obtain ⟨stayer, hstayer, hstays⟩ := h ⟨phase, hold, hne⟩
        exact ⟨stayer, List.mem_append_left _ hstayer, hstays⟩
      · exact absurd (List.mem_singleton.mp hnew) hne
  | join hi =>
      exact ⟨.member, List.mem_set (length_of_getElem? hi) .member, by decide⟩
  | rollBack hi =>
      exact ⟨.member, List.mem_set (length_of_getElem? hi) .member, by decide⟩
  | readZero hi hzero =>
      exact ⟨.undecided, List.mem_set (length_of_getElem? hi) .undecided, by decide⟩
  | leave hi hothers =>
      refine ⟨.member, ?_, by decide⟩
      rw [← List.count_pos_iff]
      apply Nat.pos_of_ne_zero
      intro hnone
      apply hothers
      rw [Counts, hnone, zero_nsmul] at hnext
      exact hnext

end Group

end HostedPumpkin.Retirement
