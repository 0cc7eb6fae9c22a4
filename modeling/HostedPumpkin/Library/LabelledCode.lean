import Mathlib.Tactic

/-!
Code as a list of instructions with labels. A place in the code is the list of what is
still to be executed, so that going on is taking the tail and a jump is a search for a
label from the start. A region of the code is bounded by two labels.

Each instruction may be replaced by a list of instructions of its own. A jump to a label
then leads to the replacement of the instruction it led to, and an instruction of a
replacement is in a region if the instruction it stands for was.
-/

namespace HostedPumpkin.LabelledCode

variable {α κ : Type*} [DecidableEq κ]

section Code

variable (label : α → κ)

/-- The code from a label on. -/
def codeFrom (target : κ) : List α → Option (List α)
  | [] => none
  | a :: rest => if label a = target then some (a :: rest) else codeFrom target rest

/-- There is an instruction with the label among these. -/
def labelled (target : κ) (code : List α) : Bool := code.any (fun a => decide (label a = target))

/-- The label is at or after the first label and before the second, if there is one. -/
def inRegion (code : List α) (start : Option κ) (stop : Option κ) (target : κ) : Bool :=
  (start.bind (fun first => codeFrom label first code)).any (labelled label target) &&
    !(stop.bind (fun last => codeFrom label last code)).any (labelled label target)

variable {label}

theorem codeFrom_suffix {target : κ} {code rest : List α}
    (h : codeFrom label target code = some rest) : rest <:+ code := by
  induction code with
  | nil => cases h
  | cons a code ih =>
      rw [codeFrom] at h
      split at h
      next =>
        cases h
        exact List.suffix_refl _
      next => exact (ih h).trans (List.suffix_cons a code)

theorem labelled_iff {target : κ} {code : List α} :
    labelled label target code = true ↔ ∃ a ∈ code, label a = target := by
  simp [labelled]

end Code

section Replacement

variable {β : Type*} {label : α → κ} {label' : β → κ} {expand : α → List β}

/-- The target of a jump begins its replacement and no other replacement has its label. -/
structure Entered (label : α → κ) (label' : β → κ) (expand : α → List β) (code : List α)
    (target : κ) : Prop where
  begins : ∀ a ∈ code, label a = target → ∃ b rest, expand a = b :: rest ∧ label' b = target
  others : ∀ a ∈ code, label a ≠ target → ∀ b ∈ expand a, label' b ≠ target

theorem codeFrom_append {target : κ} {front : List β} (hfront : ∀ b ∈ front, label' b ≠ target)
    (back : List β) : codeFrom label' target (front ++ back) = codeFrom label' target back := by
  induction front with
  | nil => rfl
  | cons b front ih =>
      rw [List.cons_append, codeFrom, if_neg (hfront b List.mem_cons_self)]
      exact ih (fun c hc => hfront c (List.mem_cons_of_mem b hc))

/-- A jump after the replacement leads to what the jump led to. -/
theorem codeFrom_flatMap {code : List α} {target : κ}
    (h : Entered label label' expand code target) :
    codeFrom label' target (code.flatMap expand) =
      (codeFrom label target code).map (fun rest => rest.flatMap expand) := by
  induction code with
  | nil => rfl
  | cons a code ih =>
      rw [List.flatMap_cons, codeFrom]
      by_cases ha : label a = target
      · obtain ⟨b, rest, hexpand, hb⟩ := h.begins a List.mem_cons_self ha
        rw [if_pos ha, hexpand, List.cons_append, codeFrom, if_pos hb, Option.map_some,
          List.flatMap_cons, hexpand, List.cons_append]
      · rw [if_neg ha, codeFrom_append (h.others a List.mem_cons_self ha)]
        apply ih
        refine ⟨?_, ?_⟩
        · intro c hc
          exact h.begins c (List.mem_cons_of_mem a hc)
        · intro c hc
          exact h.others c (List.mem_cons_of_mem a hc)

/-- An instruction of a replacement is found where the replaced instruction was. -/
theorem labelled_flatMap {code rest : List α} {a : α} {b : β} (hrest : rest <:+ code)
    (ha : a ∈ code) (hb : b ∈ expand a) (hdistinct : (code.map label).Nodup)
    (hown : ∀ c ∈ code, ∀ d ∈ expand c, label' d = label' b → c = a) :
    labelled label' (label' b) (rest.flatMap expand) = labelled label (label a) rest := by
  rw [Bool.eq_iff_iff, labelled_iff, labelled_iff]
  constructor
  · rintro ⟨d, hd, hlabel⟩
    obtain ⟨c, hc, hin⟩ := List.mem_flatMap.mp hd
    have hsame := hown c (hrest.subset hc) d hin hlabel
    exact ⟨c, hc, congrArg label hsame⟩
  · rintro ⟨c, hc, hlabel⟩
    have hsame : c = a :=
      List.inj_on_of_nodup_map hdistinct (hrest.subset hc) ha hlabel
    subst hsame
    exact ⟨b, List.mem_flatMap.mpr ⟨c, hc, hb⟩, rfl⟩

/-- The regions of the code are kept. -/
theorem inRegion_flatMap {code : List α} {start stop : Option κ} {a : α} {b : β}
    (hstart : ∀ first ∈ start, Entered label label' expand code first)
    (hstop : ∀ last ∈ stop, Entered label label' expand code last)
    (ha : a ∈ code) (hb : b ∈ expand a) (hdistinct : (code.map label).Nodup)
    (hown : ∀ c ∈ code, ∀ d ∈ expand c, label' d = label' b → c = a) :
    inRegion label' (code.flatMap expand) start stop (label' b) =
      inRegion label code start stop (label a) := by
  have hbound : ∀ bound : Option κ, (∀ x ∈ bound, Entered label label' expand code x) →
      (bound.bind (fun x => codeFrom label' x (code.flatMap expand))).any
          (labelled label' (label' b)) =
        (bound.bind (fun x => codeFrom label x code)).any (labelled label (label a)) := by
    intro bound hentered
    cases bound with
    | none => rfl
    | some x =>
        rw [Option.bind_some, Option.bind_some, codeFrom_flatMap (hentered x rfl)]
        cases hfrom : codeFrom label x code with
        | none => rfl
        | some rest =>
            rw [Option.map_some, Option.any_some, Option.any_some]
            exact labelled_flatMap (codeFrom_suffix hfrom) ha hb hdistinct hown
  rw [inRegion, inRegion, hbound start hstart, hbound stop hstop]

end Replacement

end HostedPumpkin.LabelledCode
