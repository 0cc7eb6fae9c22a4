import Mathlib.Data.List.TakeWhile
import Mathlib.Tactic

/-!
Strings that end at a terminator, in buffers that go on behind it. The character
type and the terminator are arbitrary. A buffer that holds no terminator stands for
one that has it right behind its last character.
-/

namespace HostedPumpkin.CString

variable {α : Type*} {nul : α}

/-- What is read from the start of the buffer. -/
def text [DecidableEq α] (nul : α) (buffer : List α) : List α := buffer.takeWhile (fun c => c ≠ nul)

/-- Write a string with its terminator over the start of a buffer. -/
def store (nul : α) (s buffer : List α) : List α := s ++ nul :: buffer.drop (s.length + 1)

theorem nul_mem_store (s buffer : List α) : nul ∈ store nul s buffer := by
  simp [store]

/-- A string that fits leaves the size of the buffer alone. -/
theorem length_store {s buffer : List α} (h : s.length < buffer.length) :
    (store nul s buffer).length = buffer.length := by
  simp only [store, List.length_append, List.length_cons, List.length_drop]
  omega

variable [DecidableEq α]

@[simp] theorem text_nil : text nul [] = [] := rfl

theorem text_cons_of_ne {c : α} (h : c ≠ nul) (rest : List α) :
    text nul (c :: rest) = c :: text nul rest := by
  simp [text, h]

theorem text_cons_nul (rest : List α) : text nul (nul :: rest) = [] := by
  simp [text]

theorem nul_notMem_text (buffer : List α) : nul ∉ text nul buffer := by
  intro h
  simpa using List.mem_takeWhile_imp h

/-- What is stored is read again up to its own first terminator. -/
theorem text_append_nul (s rest : List α) : text nul (s ++ nul :: rest) = text nul s := by
  induction s with
  | nil => simp [text]
  | cons c s ih =>
      by_cases hc : c = nul
      · subst hc
        rw [List.cons_append, text_cons_nul, text_cons_nul]
      · rw [List.cons_append, text_cons_of_ne hc, text_cons_of_ne hc, ih]

theorem text_eq_self_iff {s : List α} : text nul s = s ↔ nul ∉ s := by
  constructor
  · intro h
    rw [← h]
    exact nul_notMem_text s
  · intro h
    apply List.takeWhile_eq_self_iff.mpr
    intro c hc
    have hne : c ≠ nul := fun heq => h (heq ▸ hc)
    simpa using hne

theorem text_store_eq_iff {s buffer : List α} : text nul (store nul s buffer) = s ↔ nul ∉ s := by
  rw [store, text_append_nul, text_eq_self_iff]

/-- A buffer with a terminator holds a string shorter than itself. -/
theorem length_text_lt {buffer : List α} (h : nul ∈ buffer) :
    (text nul buffer).length < buffer.length := by
  induction buffer with
  | nil => cases h
  | cons c rest ih =>
      by_cases hc : c = nul
      · subst hc
        rw [text_cons_nul]
        exact Nat.succ_pos _
      · have hrest : nul ∈ rest := by
          rcases List.mem_cons.mp h with heq | hrest
          · exact absurd heq.symm hc
          · exact hrest
        rw [text_cons_of_ne hc]
        exact Nat.succ_lt_succ (ih hrest)

end HostedPumpkin.CString
