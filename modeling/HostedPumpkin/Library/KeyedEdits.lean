import Mathlib.Tactic

/-!
Edits of a list whose elements have an identity: insert next to an element,
remove it, replace it. An edit fails if the element is not there. A pass that
first collects elements and then edits the list at each of them, one after the
other, is compared with a single walk that emits what each element becomes.
-/

namespace HostedPumpkin.KeyedEdits

variable {α κ : Type*} [DecidableEq κ] (key : α → κ)

def insertAfter (target : κ) (x : α) : List α → Option (List α)
  | [] => none
  | a :: rest =>
      if key a = target then some (a :: x :: rest)
      else (insertAfter target x rest).map (a :: ·)

def insertBefore (target : κ) (x : α) : List α → Option (List α)
  | [] => none
  | a :: rest =>
      if key a = target then some (x :: a :: rest)
      else (insertBefore target x rest).map (a :: ·)

def remove (target : κ) : List α → Option (List α)
  | [] => none
  | a :: rest => if key a = target then some rest else (remove target rest).map (a :: ·)

/-- Insert the new element after the target and remove the target. -/
def replace (target : κ) (x : α) (l : List α) : Option (List α) :=
  (insertAfter key target x l).bind (remove key target)

variable {key}

theorem insertAfter_append {front back : List α} {a : α} (x : α)
    (hfront : ∀ b ∈ front, key b ≠ key a) :
    insertAfter key (key a) x (front ++ a :: back) = some (front ++ a :: x :: back) := by
  induction front with
  | nil => simp [insertAfter]
  | cons b front ih =>
      have hb : key b ≠ key a := hfront b List.mem_cons_self
      have hrest := ih (fun c hc => hfront c (List.mem_cons_of_mem b hc))
      simp [insertAfter, hb, hrest]

theorem insertBefore_append {front back : List α} {a : α} (x : α)
    (hfront : ∀ b ∈ front, key b ≠ key a) :
    insertBefore key (key a) x (front ++ a :: back) = some (front ++ x :: a :: back) := by
  induction front with
  | nil => simp [insertBefore]
  | cons b front ih =>
      have hb : key b ≠ key a := hfront b List.mem_cons_self
      have hrest := ih (fun c hc => hfront c (List.mem_cons_of_mem b hc))
      simp [insertBefore, hb, hrest]

theorem remove_append {front back : List α} {a : α} (hfront : ∀ b ∈ front, key b ≠ key a) :
    remove key (key a) (front ++ a :: back) = some (front ++ back) := by
  induction front with
  | nil => simp [remove]
  | cons b front ih =>
      have hb : key b ≠ key a := hfront b List.mem_cons_self
      have hrest := ih (fun c hc => hfront c (List.mem_cons_of_mem b hc))
      simp [remove, hb, hrest]

theorem replace_append {front back : List α} {a : α} (x : α)
    (hfront : ∀ b ∈ front, key b ≠ key a) :
    replace key (key a) x (front ++ a :: back) = some (front ++ x :: back) := by
  rw [replace, insertAfter_append x hfront]
  exact remove_append hfront

section Expansion

variable {β : Type*} (key) (found : α → Option β) (first second : α → β → α)

/-- The elements a pass has to edit, each with what was found for it. -/
def collect (l : List α) : List (α × β) :=
  l.filterMap (fun a => (found a).map (fun b => (a, b)))

/-- One edit of the pass: the element becomes `second`, with `first` before it. -/
def expandAt (l : List α) (x : α × β) : Option (List α) :=
  (replace key (key x.1) (second x.1 x.2) l).bind
    (insertBefore key (key (second x.1 x.2)) (first x.1 x.2))

/-- What an element becomes. -/
def expand (a : α) : List α :=
  match found a with
  | some b => [first a b, second a b]
  | none => [a]

variable {found first second}

omit [DecidableEq κ] in
theorem expand_some {a : α} {b : β} (h : found a = some b) :
    expand found first second a = [first a b, second a b] := by
  simp only [expand, h]

omit [DecidableEq κ] in
theorem expand_none {a : α} (h : found a = none) : expand found first second a = [a] := by
  simp only [expand, h]

variable (first second)

/-- The elements of the list are told apart by their keys, and the keys of the
new elements are new. -/
structure Fresh (l : List α) : Prop where
  nodup : (l.map key).Nodup
  first_new : ∀ a ∈ l, ∀ x, ∀ b ∈ l, key (first a x) ≠ key b
  second_new : ∀ a ∈ l, ∀ x, ∀ b ∈ l, key (second a x) ≠ key b
  second_first : ∀ a ∈ l, ∀ x, ∀ b ∈ l, ∀ y, key (second a x) ≠ key (first b y)
  second_inj : ∀ a ∈ l, ∀ x, ∀ b ∈ l, ∀ y, key (second a x) = key (second b y) → key a = key b

variable {key first second}

omit [DecidableEq κ] in
theorem Fresh.tail {a : α} {l : List α} (h : Fresh key first second (a :: l)) :
    Fresh key first second l := by
  have hmem : ∀ b ∈ l, b ∈ a :: l := fun b hb => List.mem_cons_of_mem a hb
  refine ⟨(List.nodup_cons.mp h.nodup).2, ?_, ?_, ?_, ?_⟩ <;> intro b hb x c hc
  · exact h.first_new b (hmem b hb) x c (hmem c hc)
  · exact h.second_new b (hmem b hb) x c (hmem c hc)
  · exact h.second_first b (hmem b hb) x c (hmem c hc)
  · exact h.second_inj b (hmem b hb) x c (hmem c hc)

omit [DecidableEq κ] in
theorem Fresh.head_ne {a b : α} {l : List α} (h : Fresh key first second (a :: l))
    (hb : b ∈ l) : key b ≠ key a := by
  intro heq
  apply (List.nodup_cons.mp h.nodup).1
  rw [← heq]
  exact List.mem_map_of_mem hb

/-- The pass over the collected elements and the single walk agree. The list
that was edited already holds no key the rest of the pass looks for. -/
theorem foldlM_expandAt {done rest : List α} (hfresh : Fresh key first second rest)
    (hdone : ∀ b ∈ done, ∀ a ∈ rest, key b ≠ key a ∧ ∀ x, key b ≠ key (second a x)) :
    (collect found rest).foldlM (expandAt key first second) (done ++ rest) =
      some (done ++ rest.flatMap (expand found first second)) := by
  induction rest generalizing done with
  | nil => simp [collect]
  | cons a rest ih =>
      have ha : a ∈ a :: rest := List.mem_cons_self
      have hrest : ∀ b, b ∈ rest → b ∈ a :: rest := fun b hb => List.mem_cons_of_mem a hb
      cases hfound : found a with
      | none =>
          have hcollect : collect found (a :: rest) = collect found rest := by
            simp [collect, hfound]
          rw [hcollect, List.flatMap_cons, expand_none hfound]
          have hstep := @ih (done ++ [a]) hfresh.tail (by
            intro b hb c hc
            rcases List.mem_append.mp hb with hb | hb
            · exact hdone b hb c (hrest c hc)
            · rw [List.mem_singleton.mp hb]
              exact ⟨(hfresh.head_ne hc).symm,
                fun x => (hfresh.second_new c (hrest c hc) x a ha).symm⟩)
          simpa using hstep
      | some x =>
          have hcollect : collect found (a :: rest) = (a, x) :: collect found rest := by
            simp [collect, hfound]
          have hedit : expandAt key first second (done ++ a :: rest) (a, x) =
              some (done ++ [first a x, second a x] ++ rest) := by
            rw [expandAt, replace_append (second a x) (fun b hb => (hdone b hb a ha).1)]
            simpa using insertBefore_append (first a x) (fun b hb => (hdone b hb a ha).2 x)
          rw [hcollect, List.foldlM_cons, hedit, List.flatMap_cons, expand_some hfound]
          have hstep := @ih (done ++ [first a x, second a x]) hfresh.tail (by
            intro b hb c hc
            simp only [List.mem_append, List.mem_cons, List.not_mem_nil, or_false] at hb
            rcases hb with hb | rfl | rfl
            · exact hdone b hb c (hrest c hc)
            · exact ⟨hfresh.first_new a ha x c (hrest c hc),
                fun y => (hfresh.second_first c (hrest c hc) y a ha x).symm⟩
            · refine ⟨hfresh.second_new a ha x c (hrest c hc), ?_⟩
              intro y heq
              exact hfresh.head_ne hc
                (hfresh.second_inj a ha x c (hrest c hc) y heq).symm)
          simpa using hstep

/-- A pass over a list with fresh keys is a single walk. -/
theorem pass_eq_flatMap {l : List α} (hfresh : Fresh key first second l) :
    (collect found l).foldlM (expandAt key first second) l =
      some (l.flatMap (expand found first second)) := by
  have hdone : ∀ b ∈ ([] : List α), ∀ a ∈ l, key b ≠ key a ∧ ∀ x, key b ≠ key (second a x) := by
    intro b hb
    cases hb
  simpa using foldlM_expandAt hfresh hdone

end Expansion

end HostedPumpkin.KeyedEdits
