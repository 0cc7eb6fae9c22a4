import Mathlib.Logic.Function.Basic

/-!
Slots with contents, and holders of slots. At most one holder serves a slot, and
a slot that is served has contents its holder accepts. The four ways a step can
change who serves what (nobody new, a slot given up, a free slot taken, a slot
passed on) keep this, so a development shows which of them a step is.
-/

namespace HostedPumpkin

variable {H R V : Type*}

/-- `serves h r` says that `h` holds the slot `r`, `accepts h r v` that `h` can work
with the contents `v` in it. -/
structure Ownership (serves : H → R → Prop) (accepts : H → R → V → Prop)
    (contents : R → Option V) : Prop where
  exclusive : ∀ h h' r, serves h r → serves h' r → h = h'
  filled : ∀ h r, serves h r → ∃ v, contents r = some v ∧ accepts h r v

namespace Ownership

variable {serves serves' : H → R → Prop} {accepts accepts' : H → R → V → Prop}
variable {contents contents' : R → Option V}

/-- Nobody serves an empty slot. -/
theorem not_serves_of_empty (own : Ownership serves accepts contents) {r : R}
    (hempty : contents r = none) (h : H) : ¬ serves h r := by
  intro hserves
  obtain ⟨v, hv, -⟩ := own.filled h r hserves
  rw [hempty] at hv
  cases hv

/-- What a step leaves that changes neither the contents of the slots still served
nor what their holders accept. -/
theorem filled_of_kept (own : Ownership serves accepts contents) {h : H} {r : R}
    (hserves : serves h r) (hcontents : contents' r = contents r)
    (haccepts : ∀ v, contents r = some v → accepts h r v → accepts' h r v) :
    ∃ v, contents' r = some v ∧ accepts' h r v := by
  obtain ⟨v, hv, hold⟩ := own.filled h r hserves
  exact ⟨v, hcontents.trans hv, haccepts v hv hold⟩

/-- Nobody takes a slot. -/
theorem keep (own : Ownership serves accepts contents)
    (hserves : ∀ h r, serves' h r → serves h r)
    (hcontents : ∀ h r, serves' h r → contents' r = contents r)
    (haccepts : ∀ h r v, serves' h r → contents r = some v → accepts h r v →
      accepts' h r v) : Ownership serves' accepts' contents' := by
  constructor
  · intro h h' r hh hh'
    exact own.exclusive h h' r (hserves h r hh) (hserves h' r hh')
  · intro h r hh
    exact own.filled_of_kept (hserves h r hh) (hcontents h r hh) (fun v => haccepts h r v hh)

/-- A holder gives up its slot and leaves it empty. -/
theorem release [DecidableEq R] (own : Ownership serves accepts contents) {x : H} {r : R}
    (hx : serves x r) (hserves : ∀ h q, serves' h q → serves h q ∧ h ≠ x)
    (hcontents : contents' = Function.update contents r none)
    (haccepts : ∀ h q v, serves' h q → accepts h q v → accepts' h q v) :
    Ownership serves' accepts' contents' := by
  refine own.keep (fun h q hh => (hserves h q hh).1) ?_ (fun h q v hh _ => haccepts h q v hh)
  intro h q hh
  obtain ⟨hold, hne⟩ := hserves h q hh
  have hq : q ≠ r := by
    intro heq
    subst heq
    exact hne (own.exclusive h x q hold hx)
  rw [hcontents, Function.update_of_ne hq]

/-- A slot that nobody serves gets a holder and contents for it. -/
theorem acquire (own : Ownership serves accepts contents) {x : H} {r : R}
    (hfree : ∀ h, ¬ serves h r)
    (hserves : ∀ h q, serves' h q → serves h q ∨ (h = x ∧ q = r))
    (hnew : ∃ v, contents' r = some v ∧ accepts' x r v)
    (hcontents : ∀ h q, serves h q → contents' q = contents q)
    (haccepts : ∀ h q v, serves h q → serves' h q → accepts h q v → accepts' h q v) :
    Ownership serves' accepts' contents' := by
  constructor
  · intro h h' q hh hh'
    obtain hold | ⟨rfl, rfl⟩ := hserves h q hh
    · obtain hold' | ⟨rfl, rfl⟩ := hserves h' q hh'
      · exact own.exclusive h h' q hold hold'
      · exact absurd hold (hfree h)
    · obtain hold' | ⟨rfl, -⟩ := hserves h' q hh'
      · exact absurd hold' (hfree h')
      · rfl
  · intro h q hh
    obtain hold | ⟨rfl, rfl⟩ := hserves h q hh
    · exact own.filled_of_kept hold (hcontents h q hold)
        (fun v _ => haccepts h q v hold hh)
    · exact hnew

/-- A holder passes its slot on to another one. -/
theorem transfer (own : Ownership serves accepts contents) {x y : H} {r : R}
    (hx : serves x r)
    (hserves : ∀ h q, serves' h q → (serves h q ∧ h ≠ x) ∨ (h = y ∧ q = r))
    (hpassed : ∀ v, accepts x r v → accepts' y r v)
    (hcontents : contents' = contents)
    (haccepts : ∀ h q v, serves h q → h ≠ x → serves' h q → ¬ (h = y ∧ q = r) →
      accepts h q v → accepts' h q v) :
    Ownership serves' accepts' contents' := by
  subst hcontents
  constructor
  · intro h h' q hh hh'
    obtain ⟨hold, hne⟩ | ⟨rfl, rfl⟩ := hserves h q hh
    · obtain ⟨hold', -⟩ | ⟨rfl, rfl⟩ := hserves h' q hh'
      · exact own.exclusive h h' q hold hold'
      · exact absurd (own.exclusive h x q hold hx) hne
    · obtain ⟨hold', hne'⟩ | ⟨rfl, -⟩ := hserves h' q hh'
      · exact absurd (own.exclusive h' x q hold' hx) hne'
      · rfl
  · intro h q hh
    by_cases hyr : h = y ∧ q = r
    · obtain ⟨rfl, rfl⟩ := hyr
      obtain ⟨v, hv, hold⟩ := own.filled x q hx
      exact ⟨v, hv, hpassed v hold⟩
    · obtain ⟨hold, hne⟩ | heq := hserves h q hh
      · exact own.filled_of_kept hold rfl (fun v _ => haccepts h q v hold hne hh hyr)
      · exact absurd heq hyr

end Ownership

end HostedPumpkin
