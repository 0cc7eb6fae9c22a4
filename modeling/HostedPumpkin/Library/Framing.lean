import Mathlib.Tactic

/-!
Messages on a stream, each ended by a terminator that no message contains. A
reader takes the stream in pieces of any length. What it has read of the first
message and what is still on the stream determine the messages to come, and a
piece with no terminator before its last element leaves the reader within the
first message or exactly behind it.
-/

namespace HostedPumpkin.Framing

variable {α : Type*}

def frame (terminator : α) (messages : List (List α)) : List α :=
  messages.flatMap (fun message => message ++ [terminator])

@[simp] theorem frame_nil (terminator : α) : frame terminator [] = [] := rfl

@[simp] theorem frame_cons (terminator : α) (message : List α) (rest : List (List α)) :
    frame terminator (message :: rest) = message ++ terminator :: frame terminator rest := by
  simp [frame]

theorem frame_append_singleton (terminator : α) (messages : List (List α)) (message : List α) :
    frame terminator (messages ++ [message]) =
      frame terminator messages ++ (message ++ [terminator]) := by
  simp [frame]

/-- The first terminator of a list splits it in one way only. -/
theorem split_unique {terminator : α} {front rest front' rest' : List α}
    (hfront : terminator ∉ front) (hfront' : terminator ∉ front')
    (h : front ++ terminator :: rest = front' ++ terminator :: rest') :
    front = front' ∧ rest = rest' := by
  induction front generalizing front' with
  | nil =>
      cases front' with
      | nil => simpa using h
      | cons a others =>
          rw [List.nil_append, List.cons_append, List.cons.injEq] at h
          exact absurd (h.1 ▸ List.mem_cons_self) hfront'
  | cons a others ih =>
      cases front' with
      | nil =>
          rw [List.nil_append, List.cons_append, List.cons.injEq] at h
          exact absurd (h.1 ▸ List.mem_cons_self) hfront
      | cons b others' =>
          rw [List.cons_append, List.cons_append, List.cons.injEq] at h
          rw [List.mem_cons, not_or] at hfront hfront'
          obtain ⟨hothers, hrest⟩ := ih hfront.2 hfront'.2 h.2
          exact ⟨by rw [h.1, hothers], hrest⟩

/-- `read` has been taken of the first of `messages`, `rest` is on the stream. -/
structure Reading (terminator : α) (read rest : List α) (messages : List (List α)) : Prop where
  content : read ++ rest = frame terminator messages
  read_free : terminator ∉ read
  messages_free : ∀ message ∈ messages, terminator ∉ message

namespace Reading

variable {terminator : α} {read front rest message : List α} {messages : List (List α)}

theorem nil (terminator : α) : Reading terminator [] [] [] :=
  ⟨rfl, by simp, by simp⟩

/-- A reader that no message is left for has taken everything. -/
theorem eq_nil (h : Reading terminator read rest []) : read = [] ∧ rest = [] :=
  List.append_eq_nil_iff.mp h.content

theorem write (h : Reading terminator read rest messages) (hmessage : terminator ∉ message) :
    Reading terminator read (rest ++ (message ++ [terminator])) (messages ++ [message]) := by
  refine ⟨?_, h.read_free, ?_⟩
  · rw [frame_append_singleton, ← h.content, List.append_assoc]
  · intro other hother
    rcases List.mem_append.mp hother with hother | hother
    · exact h.messages_free other hother
    · rwa [List.mem_singleton.mp hother]

/-- A piece within the first message. -/
theorem advance (h : Reading terminator read (front ++ rest) messages)
    (hfront : terminator ∉ front) : Reading terminator (read ++ front) rest messages := by
  refine ⟨?_, ?_, h.messages_free⟩
  · rw [List.append_assoc, h.content]
  · simp [h.read_free, hfront]

/-- A piece up to the terminator of the first message. -/
theorem complete (h : Reading terminator read (front ++ terminator :: rest) messages)
    (hfront : terminator ∉ front) :
    ∃ more, messages = (read ++ front) :: more ∧ Reading terminator [] rest more := by
  have hread : terminator ∉ read ++ front := by
    simp [h.read_free, hfront]
  cases messages with
  | nil =>
      have hnil := h.eq_nil.2
      simp at hnil
  | cons first more =>
      have hcontent := h.content
      rw [frame_cons, ← List.append_assoc] at hcontent
      obtain ⟨hfirst, hmore⟩ :=
        split_unique hread (h.messages_free first List.mem_cons_self) hcontent
      refine ⟨more, by rw [hfirst], hmore, by simp, ?_⟩
      intro message hmessage
      exact h.messages_free message (List.mem_cons_of_mem _ hmessage)

end Reading

end HostedPumpkin.Framing
