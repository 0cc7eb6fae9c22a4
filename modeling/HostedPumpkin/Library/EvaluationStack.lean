import Mathlib.Tactic

/-!
Straight-line code of a stack machine. An instruction is a partial function on the
stack, and most have an effect: they take so many values off the top and put some
others on. Code in which single instructions are replaced by lists that act like them
acts like the code it was made from, at every instruction of it.
-/

namespace HostedPumpkin

/-- So many values off the top, and these on, the top first. -/
structure StackEffect (τ : Type*) where
  pops : Nat
  pushes : List τ

namespace StackEffect

variable {τ : Type*}

def apply (effect : StackEffect τ) (stack : List τ) : Option (List τ) :=
  if effect.pops ≤ stack.length then some (effect.pushes ++ stack.drop effect.pops) else none

def push (value : τ) : StackEffect τ := ⟨0, [value]⟩

/-- A value that is pushed for the next instruction is taken off by it. -/
theorem apply_push (value : τ) {effect : StackEffect τ} (hpops : 0 < effect.pops)
    (stack : List τ) :
    ((push value).apply stack).bind effect.apply =
      (⟨effect.pops - 1, effect.pushes⟩ : StackEffect τ).apply stack := by
  obtain ⟨rest, hrest⟩ : ∃ rest, effect.pops = rest + 1 := Nat.exists_eq_succ_of_ne_zero (by omega)
  simp only [push, apply, Nat.zero_le, if_true, List.drop_zero, List.cons_append, List.nil_append,
    Option.bind_some, List.length_cons, hrest, List.drop_succ_cons, Nat.add_sub_cancel,
    Nat.add_le_add_iff_right]

/-- What an effect does to every stack determines it. -/
theorem eq_of_apply_eq [Nonempty τ] {a b : StackEffect τ}
    (h : ∀ stack, a.apply stack = b.apply stack) : a = b := by
  obtain ⟨value⟩ := ‹Nonempty τ›
  have hle : ∀ {a b : StackEffect τ}, (∀ stack, a.apply stack = b.apply stack) →
      b.pops ≤ a.pops := by
    intro a b hsame
    by_contra hless
    have hstack := hsame (List.replicate a.pops value)
    rw [apply, apply, List.length_replicate, if_pos (Nat.le_refl _), if_neg hless] at hstack
    cases hstack
  have hpops : a.pops = b.pops := Nat.le_antisymm (hle (fun stack => (h stack).symm)) (hle h)
  have hpushes := h (List.replicate b.pops value)
  rw [apply, apply, hpops, List.length_replicate, if_pos (Nat.le_refl _),
    if_pos (Nat.le_refl _)] at hpushes
  have hsame := List.append_cancel_right (Option.some.inj hpushes)
  cases a
  cases b
  simp only [StackEffect.mk.injEq]
  exact ⟨hpops, hsame⟩

end StackEffect

section Code

variable {ι σ : Type*} (step : ι → σ → Option σ)

/-- A run of straight-line code. -/
def runCode : List ι → σ → Option σ
  | [], state => some state
  | i :: rest, state => (step i state).bind (runCode rest)

variable {step}

theorem runCode_append (first second : List ι) (state : σ) :
    runCode step (first ++ second) state =
      (runCode step first state).bind (runCode step second) := by
  induction first generalizing state with
  | nil => rfl
  | cons i rest ih =>
      rw [List.cons_append, runCode, runCode, Option.bind_assoc]
      congr 1
      funext next
      exact ih next

theorem runCode_singleton (i : ι) (state : σ) : runCode step [i] state = step i state :=
  Option.bind_fun_some (step i state)

/-- Lists that act like the instructions they replace act like them in a whole run. -/
theorem runCode_flatMap {expand : ι → List ι} {code : List ι}
    (h : ∀ i ∈ code, ∀ state, runCode step (expand i) state = step i state) (state : σ) :
    runCode step (code.flatMap expand) state = runCode step code state := by
  induction code generalizing state with
  | nil => rfl
  | cons i rest ih =>
      rw [List.flatMap_cons, runCode_append, h i List.mem_cons_self, runCode]
      congr 1
      funext next
      exact ih (fun other hother => h other (List.mem_cons_of_mem i hother)) next

end Code

end HostedPumpkin
