import HostedPumpkin.Data.SocketExtensions
import HostedPumpkin.Library.Framing

/-!
Several strings on one socket. Each is written with its terminator, and a
receiver that gets no bytes beyond a terminator reads them one by one.
-/

namespace HostedPumpkin

open Utf16 Framing

/-- A chunk of whole characters, with no terminator except at its end. -/
def WithinMessage (chunk : List UInt8) : Prop :=
  Aligned chunk ∧ 0 ∉ (ofBytes chunk).dropLast

instance (chunk : List UInt8) : Decidable (WithinMessage chunk) :=
  inferInstanceAs (Decidable (_ ∧ _))

/-- The bytes on a socket carry the strings `messages`, of whose first one the
receiver has `read` already. -/
structure MessageStream (read : List CodeUnit) (bytes : List UInt8)
    (messages : List (List CodeUnit)) : Prop where
  even : bytes.length % 2 = 0
  reading : Reading 0 read (ofBytes bytes) messages

namespace MessageStream

variable {read : List CodeUnit} {bytes : List UInt8} {messages : List (List CodeUnit)}

theorem nil : MessageStream [] [] [] :=
  ⟨rfl, Reading.nil 0⟩

theorem eq_nil (h : MessageStream read bytes []) : read = [] ∧ bytes = [] := by
  obtain ⟨hread, hunits⟩ := h.reading.eq_nil
  refine ⟨hread, ?_⟩
  rw [← toBytes_ofBytes h.even, hunits]
  rfl

theorem send {message : List CodeUnit} (h : MessageStream read bytes messages)
    (hmessage : WellFormed message) (hzero : 0 ∉ message) :
    MessageStream read (bytes ++ sendAsync message true) (messages ++ [message]) := by
  have hterminated : WellFormed (message ++ [0]) := hmessage.append_scalar (by decide)
  have hsent : sendAsync message true = toBytes (message ++ [0]) := by
    rw [sendAsync, if_pos rfl, encode_of_wellFormed hterminated]
  have hunits : ofBytes (toBytes (message ++ [0])) = message ++ [0] := by
    simpa [ofBytes] using ofBytes_toBytes_append (message ++ [0]) []
  rw [hsent]
  refine ⟨?_, ?_⟩
  · have heven := h.even
    rw [List.length_append, length_toBytes]
    omega
  · rw [ofBytes_append h.even, hunits]
    exact h.reading.write hzero

/-- One chunk takes the receiver forward within the first string, or completes
its task with that string. -/
theorem receive {status : SocketStatus} {count : Nat}
    (h : MessageStream status.sb bytes messages) (hcount : bytes.take count ≠ [])
    (hchunk : WithinMessage (bytes.take count)) :
    (∃ next, receiveCallback status (.data (bytes.take count)) = .inl next ∧
        MessageStream next.sb (bytes.drop count) messages) ∨
      ∃ message more, messages = message :: more ∧
        receiveCallback status (.data (bytes.take count)) = .inr (.result message) ∧
        MessageStream [] (bytes.drop count) more := by
  obtain ⟨haligned, hzero⟩ := hchunk
  have hunits : ofBytes bytes = ofBytes (bytes.take count) ++ ofBytes (bytes.drop count) := by
    rw [← ofBytes_append haligned.1, List.take_append_drop]
  have heven : (bytes.drop count).length % 2 = 0 := by
    have hlength := congrArg List.length (List.take_append_drop count bytes)
    have hbytes := h.even
    have hfront := haligned.1
    rw [List.length_append] at hlength
    omega
  have hreading := h.reading
  rw [hunits] at hreading
  rw [receiveCallback_data hcount, decode_of_aligned haligned]
  by_cases hfinished : isFinished (bytes.take count) (bytes.take count).length = true
  · right
    obtain ⟨front, hfront⟩ := (isFinished_iff_of_even haligned.1).mp hfinished
    rw [hfront, List.dropLast_concat] at hzero
    rw [hfront, List.append_assoc, List.singleton_append] at hreading
    obtain ⟨more, hmessages, hmore⟩ := hreading.complete hzero
    rw [if_pos hfinished, hfront, List.dropLast_concat]
    exact ⟨status.sb ++ front, more, hmessages, rfl, heven, hmore⟩
  · left
    have hfree : 0 ∉ ofBytes (bytes.take count) := by
      intro hmem
      have hne := List.ne_nil_of_mem hmem
      rw [← List.dropLast_append_getLast hne, List.mem_append, List.mem_singleton] at hmem
      rcases hmem with hmem | hlast
      · exact hzero hmem
      · refine hfinished ((isFinished_iff_of_even haligned.1).mpr
          ⟨(ofBytes (bytes.take count)).dropLast, ?_⟩)
        rw [hlast, List.dropLast_append_getLast hne]
    rw [if_neg hfinished]
    exact ⟨_, rfl, heven, hreading.advance hfree⟩

end MessageStream

end HostedPumpkin
