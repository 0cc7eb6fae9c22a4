import HostedPumpkin.Library.Utf16

/-!
Strings over a socket: `SendAsync(s, true)` writes the UTF-16 code units of `s`
and a zero unit, `ReceiveAsync` reads up to a terminator. The reader decodes each
chunk it receives on its own and looks for the terminator in the last two bytes
of that chunk, so what it returns depends on where the chunks end.
-/

namespace HostedPumpkin

open Utf16

/-- What a pending receive completes with. `EndReceive` returns the number of
bytes it put into the buffer, none at all when the peer has closed. -/
inductive Received where
  | data (bytes : List UInt8)
  | failed (message : String)
deriving DecidableEq, Repr

/-- How the task of `ReceiveAsync` ends. -/
inductive TaskCompletion where
  | result (s : List CodeUnit)
  | exception (message : String)
deriving DecidableEq, Repr

structure SocketStatus where
  buffer : List UInt8
  sb : List CodeUnit

namespace SocketStatus

def bufferSize : Nat := 1024

def initial : SocketStatus where
  buffer := List.replicate bufferSize 0
  sb := []

end SocketStatus

/-- The bytes `SendAsync(string, bool)` hands to the socket. -/
def sendAsync (s : List CodeUnit) (terminateString : Bool) : List UInt8 :=
  if terminateString then encode (s ++ [0]) else encode s

/-- A C-style terminator at the end of the bytes just read. -/
def isFinished (buffer : List UInt8) (len : Nat) : Bool :=
  len ≥ 2 && buffer[len - 2]? == some 0 && buffer[len - 1]? == some 0

/-- `ReceiveCallback`: complete the task or begin another receive. -/
def receiveCallback (status : SocketStatus) : Received → SocketStatus ⊕ TaskCompletion
  | .failed message => .inr (.exception message)
  | .data bytes =>
      let read := bytes.length
      let buffer := bytes ++ status.buffer.drop read
      if read ≤ 0 then .inr (.result status.sb)
      else
        let s := decode (buffer.take read)
        if isFinished buffer read then
          .inr (.result (status.sb ++ s.take (s.length - 1)))
        else .inl { buffer, sb := status.sb ++ s }

/-- The callbacks of one `ReceiveAsync`: how the task ends, if it does, and the
receives that are left over. -/
def receiveLoop (status : SocketStatus) :
    List Received → Option (TaskCompletion × List Received)
  | [] => none
  | received :: rest =>
      match receiveCallback status received with
      | .inr completion => some (completion, rest)
      | .inl next => receiveLoop next rest

def receiveAsync (received : List Received) : Option (TaskCompletion × List Received) :=
  receiveLoop SocketStatus.initial received

/-! The terminator test, on the bytes of the chunk alone. -/

theorem isFinished_append (bytes old : List UInt8) :
    isFinished (bytes ++ old) bytes.length = isFinished bytes bytes.length := by
  by_cases h : 2 ≤ bytes.length
  · have hfirst : bytes.length - 2 < bytes.length := by omega
    have hsecond : bytes.length - 1 < bytes.length := by omega
    simp only [isFinished, List.getElem?_append_left hfirst, List.getElem?_append_left hsecond]
  · simp [isFinished, h]

theorem isFinished_iff {bytes : List UInt8} :
    isFinished bytes bytes.length = true ↔ ∃ front, bytes = front ++ [0, 0] := by
  constructor
  · intro h
    simp only [isFinished, Bool.and_eq_true, decide_eq_true_eq, beq_iff_eq] at h
    obtain ⟨⟨hlength, hfirst⟩, hsecond⟩ := h
    refine ⟨bytes.take (bytes.length - 2), ?_⟩
    have hdrop : bytes.drop (bytes.length - 2) = [0, 0] := by
      apply List.ext_getElem?
      intro i
      rw [List.getElem?_drop]
      obtain rfl | rfl | hi : i = 0 ∨ i = 1 ∨ 2 ≤ i := by omega
      · simpa using hfirst
      · rw [show bytes.length - 2 + 1 = bytes.length - 1 by omega, hsecond]
        rfl
      · rw [List.getElem?_eq_none (by omega), List.getElem?_eq_none hi]
    rw [← hdrop, List.take_append_drop]
  · rintro ⟨front, rfl⟩
    simp [isFinished]

/-- One chunk that arrives. -/
theorem receiveCallback_data {status : SocketStatus} {bytes : List UInt8}
    (hbytes : bytes ≠ []) :
    receiveCallback status (.data bytes) =
      if isFinished bytes bytes.length then .inr (.result (status.sb ++ (decode bytes).dropLast))
      else .inl ⟨bytes ++ status.buffer.drop bytes.length, status.sb ++ decode bytes⟩ := by
  have hread : ¬ bytes.length ≤ 0 := by
    simpa using hbytes
  have htake : (bytes ++ status.buffer.drop bytes.length).take bytes.length = bytes :=
    List.take_left
  simp only [receiveCallback, if_neg hread, htake, isFinished_append, List.dropLast_eq_take]

/-- On a chunk of whole code units the test sees the last one of them. -/
theorem isFinished_iff_of_even {bytes : List UInt8} (h : bytes.length % 2 = 0) :
    isFinished bytes bytes.length = true ↔ ∃ units, ofBytes bytes = units ++ [0] := by
  rw [isFinished_iff]
  constructor
  · rintro ⟨front, rfl⟩
    have hfront : front.length % 2 = 0 := by
      simp only [List.length_append, List.length_cons, List.length_nil] at h
      omega
    have hzero : ofBytes [0, 0] = [0] := by decide
    exact ⟨ofBytes front, by rw [ofBytes_append hfront, hzero]⟩
  · rintro ⟨units, hunits⟩
    refine ⟨toBytes units, ?_⟩
    rw [← toBytes_ofBytes h, hunits, toBytes_append]
    rfl

/-- What the task returns once all chunks are used up: everything decoded, less
one unit, and that unit is the terminator if the chunks are even. -/
theorem receiveLoop_result {chunks : List (List UInt8)} {status : SocketStatus}
    {s : List CodeUnit} (hchunks : ∀ chunk ∈ chunks, chunk ≠ [])
    (h : receiveLoop status (chunks.map .data) = some (.result s, [])) :
    s.length + 1 = status.sb.length + (chunks.flatMap decode).length ∧
      ((∀ chunk ∈ chunks, chunk.length % 2 = 0) →
        s ++ [0] = status.sb ++ chunks.flatMap decode) := by
  induction chunks generalizing status with
  | nil => cases h
  | cons chunk rest ih =>
      rw [List.map_cons, receiveLoop,
        receiveCallback_data (hchunks chunk List.mem_cons_self)] at h
      by_cases hfinished : isFinished chunk chunk.length = true
      · simp only [if_pos hfinished, Option.some.injEq, Prod.mk.injEq,
          TaskCompletion.result.injEq, List.map_eq_nil_iff] at h
        obtain ⟨rfl, rfl⟩ := h
        refine ⟨?_, ?_⟩
        · have hpos := List.length_pos_iff.mpr (hchunks chunk List.mem_cons_self)
          simp only [List.flatMap_cons, List.flatMap_nil, List.append_nil, List.length_append,
            List.length_dropLast, length_decode]
          omega
        · intro heven
          have hchunk := heven chunk List.mem_cons_self
          obtain ⟨units, hunits⟩ := (isFinished_iff_of_even hchunk).mp hfinished
          have hdecode : decode chunk = replaceInvalid units ++ [0] := by
            rw [decode_of_even hchunk, hunits, replaceInvalid_append_scalar (by decide)]
          simp [hdecode]
      · rw [if_neg hfinished] at h
        obtain ⟨hlength, hresult⟩ :=
          ih (fun other hother => hchunks other (List.mem_cons_of_mem _ hother)) h
        refine ⟨?_, ?_⟩
        · simp only [List.length_append] at hlength
          simp only [List.flatMap_cons, List.length_append]
          omega
        · intro heven
          rw [hresult (fun other hother => heven other (List.mem_cons_of_mem _ hother))]
          simp

/-- Aligned chunks of a terminated string that has no other zero unit. -/
theorem receiveLoop_of_aligned {chunks : List (List UInt8)} {status : SocketStatus}
    {s : List CodeUnit} (hzero : 0 ∉ s) (hchunks : ∀ chunk ∈ chunks, chunk ≠ [])
    (haligned : ∀ chunk ∈ chunks, Aligned chunk)
    (hsent : chunks.flatMap ofBytes = s ++ [0]) :
    receiveLoop status (chunks.map .data) = some (.result (status.sb ++ s), []) := by
  induction chunks generalizing status s with
  | nil => simp at hsent
  | cons chunk rest ih =>
      have hchunk := haligned chunk List.mem_cons_self
      have hne := hchunks chunk List.mem_cons_self
      have hrest : ∀ other ∈ rest, other ≠ [] :=
        fun other hother => hchunks other (List.mem_cons_of_mem _ hother)
      rw [List.map_cons, receiveLoop, receiveCallback_data hne, decode_of_aligned hchunk]
      rw [List.flatMap_cons] at hsent
      cases rest with
      | nil =>
          -- the last chunk carries the terminator
          rw [List.flatMap_nil, List.append_nil] at hsent
          have hfinished : isFinished chunk chunk.length = true :=
            (isFinished_iff_of_even hchunk.1).mpr ⟨s, hsent⟩
          simp [if_pos hfinished, hsent]
      | cons following rest =>
          -- an earlier chunk holds units of `s` only, so it does not finish
          have hmore : (following :: rest).flatMap ofBytes ≠ [] := by
            intro hnil
            have hlength := congrArg List.length hnil
            have heven := (haligned following (by simp)).1
            have hpos := List.length_pos_iff.mpr (hrest following List.mem_cons_self)
            simp only [List.flatMap_cons, List.length_append, length_ofBytes,
              List.length_nil] at hlength
            omega
          have hsplit := List.dropLast_append_getLast hmore
          rw [← hsplit, ← List.append_assoc] at hsent
          obtain ⟨hs, hlast⟩ := List.append_inj' hsent rfl
          rw [hlast] at hsplit
          have hunfinished : ¬ isFinished chunk chunk.length = true := by
            intro hfinished
            obtain ⟨units, hunits⟩ := (isFinished_iff_of_even hchunk.1).mp hfinished
            exact hzero (by simp [← hs, hunits])
          rw [if_neg hunfinished]
          have hnext : receiveLoop ⟨chunk ++ status.buffer.drop chunk.length,
              status.sb ++ ofBytes chunk⟩ ((following :: rest).map .data) = _ := ih
            (fun h => hzero (by rw [← hs]; exact List.mem_append_right _ h)) hrest
            (fun other hother => haligned other (List.mem_cons_of_mem _ hother)) hsplit.symm
          rw [← hs, ← List.append_assoc]
          exact hnext

/-- `ReceiveAsync` returns the string that was sent, after exactly the last of
its bytes, if and only if every chunk starts and ends between two characters. -/
theorem receiveAsync_returns_iff {s : List CodeUnit} {chunks : List (List UInt8)}
    (hs : WellFormed s) (hzero : 0 ∉ s)
    (hchunks : ∀ chunk ∈ chunks, chunk ≠ [] ∧ chunk.length ≤ SocketStatus.bufferSize)
    (hsent : chunks.flatten = sendAsync s true) :
    receiveAsync (chunks.map .data) = some (.result s, []) ↔
      ∀ chunk ∈ chunks, Aligned chunk := by
  have hterminated : WellFormed (s ++ [0]) := hs.append_scalar (by decide)
  rw [sendAsync, if_pos rfl, encode_of_wellFormed hterminated] at hsent
  have hne : ∀ chunk ∈ chunks, chunk ≠ [] := fun chunk h => (hchunks chunk h).1
  constructor
  · intro h
    obtain ⟨hlength, hresult⟩ := receiveLoop_result hne h
    have heven : ∀ chunk ∈ chunks, chunk.length % 2 = 0 := by
      refine even_of_length_flatMap_decode ?_
      rw [hsent, length_toBytes, List.length_append]
      simp only [SocketStatus.initial, List.length_nil] at hlength
      simp only [List.length_cons, List.length_nil]
      omega
    exact (flatMap_decode_eq_iff hsent).mp (hresult heven).symm
  · intro haligned
    have hunits : chunks.flatMap ofBytes = s ++ [0] := by
      rw [flatMap_ofBytes (fun chunk h => (haligned chunk h).1), hsent]
      simpa [ofBytes] using ofBytes_toBytes_append (s ++ [0]) []
    exact receiveLoop_of_aligned hzero hne haligned hunits

/-- A letter and an emoji in three aligned chunks. -/
theorem receiveAsync_returns_aligned :
    receiveAsync ([[0x41, 0x00], [0x3D, 0xD8, 0x00, 0xDE], [0x00, 0x00]].map .data) =
      some (.result [0x41, 0xD83D, 0xDE00], []) :=
  (receiveAsync_returns_iff (by decide) (by decide) (by decide) (by decide)).mpr (by decide)

/-- The first byte of a letter arrives alone. -/
theorem odd_chunk_breaks_round_trip :
    ¬ ∀ (s : List CodeUnit) (chunks : List (List UInt8)), WellFormed s → 0 ∉ s →
      (∀ chunk ∈ chunks, chunk ≠ [] ∧ chunk.length ≤ SocketStatus.bufferSize) →
      chunks.flatten = sendAsync s true →
      receiveAsync (chunks.map .data) = some (.result s, []) := by
  intro hall
  have hreturns := hall [0x41] [[0x41], [0x00], [0x00, 0x00]] (by decide) (by decide)
    (by decide) (by decide)
  exact absurd hreturns (by decide)

end HostedPumpkin
