import HostedPumpkin.Library.FileHandle
import HostedPumpkin.Host.Context

/-!
`SHFileStream`, an `IStream` over an open file: `Seek` and `SetSize`. Positions and
sizes come as 64-bit integers and go to `SetFilePointer` in halves. Whether
`SetEndOfFile` fails is a parameter.
-/

namespace HostedPumpkin

/-- The failures of the stream: `E_INVALIDARG`, and `HRESULT_FROM_WIN32`. -/
inductive StreamFault where
  | invalidArgument
  | win32 (error : DWORD)
deriving DecidableEq, Repr

namespace LargeInteger

def lowPart (x : Int64) : Nat := (x.toInt % 2 ^ 32).toNat

def highPart (x : Int64) : Int := x.toInt / 2 ^ 32

end LargeInteger

namespace ULargeInteger

def lowPart (x : UInt64) : Nat := x.toNat % 2 ^ 32

def highPart (x : UInt64) : Nat := x.toNat / 2 ^ 32

/-- Both halves assigned; the high one comes as a `LONG`. -/
def ofHalves (low : Nat) (high : Int) : UInt64 :=
  UInt64.ofNat ((high % 2 ^ 32).toNat * 2 ^ 32 + low)

end ULargeInteger

structure SHFileStream where
  m_hFile : FileHandle
deriving DecidableEq

namespace SHFileStream

open FileHandle

/-- `STREAM_SEEK_SET`, `STREAM_SEEK_CUR` and `STREAM_SEEK_END`. -/
def moveMethod (dwOrigin : DWORD) : Option MoveMethod :=
  if dwOrigin = 0 then some .fileBegin
  else if dwOrigin = 1 then some .fileCurrent
  else if dwOrigin = 2 then some .fileEnd
  else none

/-- `Seek`; the number returned is what `plibNewPosition` gets. -/
def seek (dlibMove : Int64) (dwOrigin : DWORD) (s : SHFileStream) :
    SHFileStream × Except StreamFault UInt64 :=
  match moveMethod dwOrigin with
  | none => (s, .error .invalidArgument)
  | some dwMoveMethod =>
      -- a null pointer if there is no high half to pass
      let lpDistanceToMoveHigh : Option Int :=
        if LargeInteger.highPart dlibMove > 0 then some (LargeInteger.highPart dlibMove) else none
      let (m_hFile, result, moved) :=
        s.m_hFile.setFilePointer (LargeInteger.lowPart dlibMove) lpDistanceToMoveHigh dwMoveMethod
      if moveFailed result m_hFile then (⟨m_hFile⟩, .error (.win32 m_hFile.lastError))
      else (⟨m_hFile⟩, .ok (ULargeInteger.ofHalves result (moved.getD 0)))

/-- `SetSize`; `endOfFileError` is the error `SetEndOfFile` fails with, if it does. -/
def setSize (libNewSize : UInt64) (endOfFileError : Option DWORD) (s : SHFileStream) :
    SHFileStream × Except StreamFault Unit :=
  let (m_hFile, currentPositionLow, currentPositionHigh) :=
    s.m_hFile.setFilePointer 0 (some 0) .fileCurrent
  if moveFailed currentPositionLow m_hFile then (⟨m_hFile⟩, .error (.win32 m_hFile.lastError))
  else
    let (m_hFile, positionLow, _) :=
      m_hFile.setFilePointer (ULargeInteger.lowPart libNewSize)
        (some (signedHalf (ULargeInteger.highPart libNewSize))) .fileCurrent
    if moveFailed positionLow m_hFile then (⟨m_hFile⟩, .error (.win32 m_hFile.lastError))
    else
      let (m_hFile, hr) : FileHandle × Except StreamFault Unit :=
        match endOfFileError with
        | none => (m_hFile.setEndOfFile, .ok ())
        | some error => (m_hFile.failWith error, .error (.win32 error))
      -- the pointer is put back, and nobody looks whether that worked
      let (m_hFile, _, _) :=
        m_hFile.setFilePointer currentPositionLow currentPositionHigh .fileCurrent
      (⟨m_hFile⟩, hr)

/-- The position the move leads to, if the move can be made. -/
theorem seek_of_reportable {dlibMove : Int64} {dwOrigin : DWORD} {dwMoveMethod : MoveMethod}
    {s : SHFileStream} {lpDistanceToMoveHigh : Option Int} {position : Nat}
    (hmethod : moveMethod dwOrigin = some dwMoveMethod)
    (hhigh : lpDistanceToMoveHigh = if LargeInteger.highPart dlibMove > 0 then
      some (LargeInteger.highPart dlibMove) else none)
    (hposition : s.m_hFile.target (LargeInteger.lowPart dlibMove) lpDistanceToMoveHigh
      dwMoveMethod = position)
    (hlt : position < 2 ^ 63) (hsmall : lpDistanceToMoveHigh = none → position < 2 ^ 32) :
    s.seek dlibMove dwOrigin = (⟨s.m_hFile.moveTo position hlt⟩, .ok (UInt64.ofNat position)) := by
  simp only [seek, hmethod, ← hhigh, setFilePointer_ok hposition hlt hsmall, moveFailed_moveTo,
    Bool.false_eq_true, if_false, Prod.mk.injEq, true_and, Except.ok.injEq,
    ULargeInteger.ofHalves]
  congr 1
  cases hsome : lpDistanceToMoveHigh with
  | none =>
      have hposition := hsmall hsome
      simp only [Option.map_none, Option.getD_none]
      omega
  | some high =>
      simp only [Option.map_some, Option.getD_some]
      omega

/-- A move that cannot be made leaves the pointer where it was. -/
theorem seek_of_not_reportable {dlibMove : Int64} {dwOrigin : DWORD}
    {dwMoveMethod : MoveMethod} {s : SHFileStream} {lpDistanceToMoveHigh : Option Int}
    (hmethod : moveMethod dwOrigin = some dwMoveMethod)
    (hhigh : lpDistanceToMoveHigh = if LargeInteger.highPart dlibMove > 0 then
      some (LargeInteger.highPart dlibMove) else none)
    (hreport : ¬ Reportable lpDistanceToMoveHigh (s.m_hFile.target (LargeInteger.lowPart dlibMove)
      lpDistanceToMoveHigh dwMoveMethod)) :
    ∃ error, s.seek dlibMove dwOrigin =
      (⟨s.m_hFile.failWith error⟩, .error (.win32 error)) := by
  obtain ⟨error, herror, hfailed⟩ := setFilePointer_failed hreport
  refine ⟨error, ?_⟩
  simp only [seek, hmethod, ← hhigh, hfailed, moveFailed_failWith _ herror, if_true]
  rfl

/-- The move succeeds, the pointer is at the position and that is what is reported. -/
def SeeksTo (dlibMove : Int64) (dwOrigin : DWORD) (position : Nat) (s : SHFileStream) : Prop :=
  ∃ next, s.seek dlibMove dwOrigin = (next, .ok (UInt64.ofNat position)) ∧
    next.m_hFile.pointer = position ∧ next.m_hFile.content = s.m_hFile.content

/-- A seek arrives at a position if the distance passed leads there. -/
theorem seeksTo_iff_target {dlibMove : Int64} {dwOrigin : DWORD} {dwMoveMethod : MoveMethod}
    {s : SHFileStream} {lpDistanceToMoveHigh : Option Int} {position : Nat}
    (hmethod : moveMethod dwOrigin = some dwMoveMethod)
    (hhigh : lpDistanceToMoveHigh = if LargeInteger.highPart dlibMove > 0 then
      some (LargeInteger.highPart dlibMove) else none) :
    s.SeeksTo dlibMove dwOrigin position ↔
      s.m_hFile.target (LargeInteger.lowPart dlibMove) lpDistanceToMoveHigh dwMoveMethod =
          position ∧ position < 2 ^ 63 ∧ (lpDistanceToMoveHigh = none → position < 2 ^ 32) := by
  constructor
  · rintro ⟨next, hseek, hpointer, -⟩
    by_cases hreport : Reportable lpDistanceToMoveHigh (s.m_hFile.target
        (LargeInteger.lowPart dlibMove) lpDistanceToMoveHigh dwMoveMethod)
    · obtain ⟨reached, hreached⟩ := Int.eq_ofNat_of_zero_le hreport.1
      rw [hreached, Reportable, Int.toNat_natCast] at hreport
      rw [seek_of_reportable hmethod hhigh hreached hreport.2.1 hreport.2.2] at hseek
      have hnext := (Prod.mk.inj hseek).1
      subst hnext
      have hsame : reached = position := hpointer
      subst hsame
      exact ⟨hreached, hreport.2⟩
    · obtain ⟨error, herror⟩ := seek_of_not_reportable hmethod hhigh hreport
      rw [herror] at hseek
      cases (Prod.mk.inj hseek).2
  · rintro ⟨hposition, hlt, hsmall⟩
    exact ⟨_, seek_of_reportable hmethod hhigh hposition hlt hsmall, rfl, rfl⟩

/-- Without the high half a move between `-2 ^ 31` and `2 ^ 31` is passed. -/
theorem signedHalf_lowPart_iff (dlibMove : Int64) :
    signedHalf (LargeInteger.lowPart dlibMove) = dlibMove.toInt ↔
      -2 ^ 31 ≤ dlibMove.toInt ∧ dlibMove.toInt < 2 ^ 31 := by
  have hlow : LargeInteger.lowPart dlibMove = (dlibMove.toInt % 2 ^ 32).toNat := rfl
  rw [signedHalf]
  split <;> omega

/-- Seeking works for the moves of at least `2 ^ 32`, and for those that fit in a
signed 32-bit number if the new position fits in 32 bits. -/
theorem seek_iff {dlibMove : Int64} {dwOrigin : DWORD} {dwMoveMethod : MoveMethod}
    {s : SHFileStream} {position : Nat} (hmethod : moveMethod dwOrigin = some dwMoveMethod)
    (hposition : s.m_hFile.origin dwMoveMethod + dlibMove.toInt = position)
    (hvalid : position < 2 ^ 63) :
    s.SeeksTo dlibMove dwOrigin position ↔
      2 ^ 32 ≤ dlibMove.toInt ∨
        (-2 ^ 31 ≤ dlibMove.toInt ∧ dlibMove.toInt < 2 ^ 31 ∧ position < 2 ^ 32) := by
  rw [seeksTo_iff_target hmethod rfl]
  by_cases hhigh : LargeInteger.highPart dlibMove > 0
  · have hlarge : 2 ^ 32 ≤ dlibMove.toInt := by
      simp only [LargeInteger.highPart] at hhigh
      omega
    have hdistance : distance (LargeInteger.lowPart dlibMove)
        (some (LargeInteger.highPart dlibMove)) = dlibMove.toInt := by
      simp only [distance, LargeInteger.lowPart, LargeInteger.highPart]
      omega
    simp only [if_pos hhigh, target, hdistance, hposition, hlarge, true_or, iff_true, true_and]
    exact ⟨hvalid, nofun⟩
  · have hsmall : ¬ 2 ^ 32 ≤ dlibMove.toInt := by
      simp only [LargeInteger.highPart] at hhigh
      omega
    have hreach : s.m_hFile.target (LargeInteger.lowPart dlibMove) none dwMoveMethod = position ↔
        signedHalf (LargeInteger.lowPart dlibMove) = dlibMove.toInt := by
      simp only [target, distance]
      omega
    rw [if_neg hhigh, hreach, signedHalf_lowPart_iff]
    simp only [forall_const, hsmall, hvalid, false_or, true_and, and_assoc]

/-- Back to the start of a small file from its end. -/
theorem seek_iff_back :
    let s : SHFileStream := ⟨⟨[1, 2, 3], 3, 0, by decide, by decide⟩⟩
    s.SeeksTo (-3) 1 0 := by
  intro s
  have hposition : s.m_hFile.origin .fileCurrent + (-3 : Int64).toInt = (0 : Nat) := by decide
  exact (seek_iff rfl hposition (by decide)).mpr (Or.inr (by decide))

/-- A move by `2 ^ 31` from the start of a file is passed as `-2 ^ 31`. -/
theorem seek_two_gigabytes :
    ¬ ∀ (s : SHFileStream) (dlibMove : Int64) (dwOrigin : DWORD) (dwMoveMethod : MoveMethod)
      (position : Nat), moveMethod dwOrigin = some dwMoveMethod →
      s.m_hFile.origin dwMoveMethod + dlibMove.toInt = position → position < 2 ^ 63 →
      s.SeeksTo dlibMove dwOrigin position := by
  intro hall
  let s : SHFileStream := ⟨⟨[1, 2, 3], 0, 0, by decide, by decide⟩⟩
  obtain ⟨next, hseek, -⟩ := hall s (2 ^ 31) 0 .fileBegin (2 ^ 31) rfl (by decide) (by decide)
  have hresult := congrArg Prod.snd hseek
  have hfault : (s.seek (2 ^ 31) 0).2 = .error (.win32 errorNegativeSeek) := by decide
  rw [hfault] at hresult
  cases hresult

/-- A new size as the signed distance it is passed as. -/
def signedSize (libNewSize : UInt64) : Int :=
  if libNewSize.toNat < 2 ^ 63 then libNewSize.toNat else libNewSize.toNat - 2 ^ 64

theorem distance_newSize (libNewSize : UInt64) :
    distance (ULargeInteger.lowPart libNewSize)
      (some (signedHalf (ULargeInteger.highPart libNewSize))) = signedSize libNewSize := by
  have hlow : ULargeInteger.lowPart libNewSize = libNewSize.toNat % 2 ^ 32 := rfl
  have hhigh : ULargeInteger.highPart libNewSize = libNewSize.toNat / 2 ^ 32 := rfl
  have hlt := libNewSize.toNat_lt
  simp only [distance, signedHalf, signedSize]
  split <;> split <;> omega

/-- The first call asks for the position; it changes the last error at most. -/
theorem setFilePointer_query (h : FileHandle) :
    ∃ queried : FileHandle, h.setFilePointer 0 (some 0) .fileCurrent =
        (queried, h.pointer % 2 ^ 32, some ((h.pointer / 2 ^ 32 : Nat) : Int)) ∧
      moveFailed (h.pointer % 2 ^ 32) queried = false ∧ queried.pointer = h.pointer := by
  have hrange := h.inRange
  have hposition : h.target 0 (some 0) .fileCurrent = h.pointer := by
    simp [target, origin, distance]
  exact ⟨_, setFilePointer_ok hposition hrange nofun, moveFailed_moveTo h h.pointer hrange, rfl⟩

/-- Putting the pointer back moves it on by the old position, if it can. -/
theorem setFilePointer_putBack {h : FileHandle} {current : Nat} (hcurrent : h.pointer = current)
    (old : Nat) :
    ∃ next, (h.setFilePointer (old % 2 ^ 32) (some ((old / 2 ^ 32 : Nat) : Int))
        .fileCurrent).1 = next ∧
      next.content = h.content ∧
      next.pointer = if current + old < 2 ^ 63 then current + old else current := by
  have hposition : h.target (old % 2 ^ 32) (some ((old / 2 ^ 32 : Nat) : Int)) .fileCurrent =
      (current + old : Nat) := by
    simp only [target, origin, distance, hcurrent]
    omega
  split
  next hlt =>
    rw [setFilePointer_ok hposition hlt nofun]
    exact ⟨_, rfl, rfl, rfl⟩
  next hge =>
    have hreport : ¬ Reportable (some ((old / 2 ^ 32 : Nat) : Int)) (h.target (old % 2 ^ 32)
        (some ((old / 2 ^ 32 : Nat) : Int)) .fileCurrent) := by
      rw [hposition]
      intro hreport
      exact hge hreport.2.1
    obtain ⟨error, -, hfailed⟩ := setFilePointer_failed hreport
    rw [hfailed]
    exact ⟨_, rfl, rfl, hcurrent⟩

/-- The new size is no distance that can be moved: `SetSize` fails and nothing moves. -/
theorem setSize_of_not_movable {libNewSize : UInt64} {s : SHFileStream}
    (hposition : ¬ (0 ≤ s.m_hFile.pointer + signedSize libNewSize ∧
      s.m_hFile.pointer + signedSize libNewSize < 2 ^ 63))
    (endOfFileError : Option DWORD) :
    ∃ next error, s.setSize libNewSize endOfFileError = (next, .error (.win32 error)) ∧
      next.m_hFile.pointer = s.m_hFile.pointer := by
  obtain ⟨queried, hquery, hask, hpointer⟩ := setFilePointer_query s.m_hFile
  have hreport : ¬ Reportable (some (signedHalf (ULargeInteger.highPart libNewSize)))
      (queried.target (ULargeInteger.lowPart libNewSize)
        (some (signedHalf (ULargeInteger.highPart libNewSize))) .fileCurrent) := by
    rw [target, distance_newSize, origin, hpointer]
    intro hreport
    have hlt := hreport.2.1
    exact hposition ⟨hreport.1, by omega⟩
  obtain ⟨error, herror, hfailed⟩ := setFilePointer_failed hreport
  refine ⟨⟨queried.failWith error⟩, error, ?_, hpointer⟩
  simp only [setSize, hquery, hask, Bool.false_eq_true, if_false, hfailed,
    moveFailed_failWith _ herror, if_true]
  rfl

/-- What `SetSize` leaves after a move by the new size: the file ends there, and the
pointer goes on by the old position. -/
theorem setSize_of_movable {libNewSize : UInt64} {s : SHFileStream} {position : Nat}
    (hposition : s.m_hFile.pointer + signedSize libNewSize = position)
    (hlt : position < 2 ^ 63) (endOfFileError : Option DWORD) :
    ∃ next hr, s.setSize libNewSize endOfFileError = (next, hr) ∧
      (hr = .ok () ↔ endOfFileError = none) ∧
      (endOfFileError = none → next.m_hFile.content.length = position) ∧
      next.m_hFile.pointer =
        if position + s.m_hFile.pointer < 2 ^ 63 then position + s.m_hFile.pointer
        else position := by
  obtain ⟨queried, hquery, hask, hpointer⟩ := setFilePointer_query s.m_hFile
  have htarget : queried.target (ULargeInteger.lowPart libNewSize)
      (some (signedHalf (ULargeInteger.highPart libNewSize))) .fileCurrent = position := by
    rw [target, distance_newSize, origin, hpointer]
    exact hposition
  have hmoved := setFilePointer_ok htarget hlt (by simp)
  have hfound := moveFailed_moveTo queried position hlt
  cases endOfFileError with
  | none =>
      obtain ⟨next, hback, hcontent, hpointer⟩ := setFilePointer_putBack
        (h := (queried.moveTo position hlt).setEndOfFile) rfl s.m_hFile.pointer
      refine ⟨⟨next⟩, .ok (), ?_, by simp, ?_, hpointer⟩
      · simp only [setSize, hquery, hask, hmoved, hfound, Bool.false_eq_true, if_false, hback]
      · intro _
        rw [hcontent, length_setEndOfFile, pointer_moveTo]
  | some error =>
      obtain ⟨next, hback, -, hpointer⟩ := setFilePointer_putBack
        (h := (queried.moveTo position hlt).failWith error) rfl s.m_hFile.pointer
      refine ⟨⟨next⟩, .error (.win32 error), ?_, by simp, by simp, hpointer⟩
      simp only [setSize, hquery, hask, hmoved, hfound, Bool.false_eq_true, if_false, hback]

/-- After a success the file has the new size and the pointer is where it was, where
it also is if `SetEndOfFile` fails. -/
structure SetsSizeOnly (libNewSize : UInt64) (endOfFileError : Option DWORD)
    (s : SHFileStream) : Prop where
  succeeded : (s.setSize libNewSize endOfFileError).2 = .ok () →
    (s.setSize libNewSize endOfFileError).1.m_hFile.content.length = libNewSize.toNat ∧
      (s.setSize libNewSize endOfFileError).1.m_hFile.pointer = s.m_hFile.pointer
  failed : endOfFileError ≠ none →
    (s.setSize libNewSize endOfFileError).1.m_hFile.pointer = s.m_hFile.pointer

/-- `SetSize` does what it should if it cannot move by the new size at all, if it
sets an empty size with the pointer at the start, and, when `SetEndOfFile` fails, if
one of its two moves comes to nothing. -/
theorem setSize_iff (libNewSize : UInt64) (endOfFileError : Option DWORD) (s : SHFileStream) :
    s.SetsSizeOnly libNewSize endOfFileError ↔
      ¬ (0 ≤ s.m_hFile.pointer + signedSize libNewSize ∧
          s.m_hFile.pointer + signedSize libNewSize < 2 ^ 63) ∨
        (endOfFileError = none ∧ s.m_hFile.pointer = 0 ∧ libNewSize = 0) ∨
        (endOfFileError ≠ none ∧ (s.m_hFile.pointer + signedSize libNewSize = 0 ∨
          libNewSize = 0 ∧ 2 ^ 62 ≤ s.m_hFile.pointer)) := by
  by_cases hmovable : 0 ≤ s.m_hFile.pointer + signedSize libNewSize ∧
      s.m_hFile.pointer + signedSize libNewSize < 2 ^ 63
  · obtain ⟨position, hposition⟩ := Int.eq_ofNat_of_zero_le hmovable.1
    obtain ⟨next, hr, hsize, hok, hlength, hpointer⟩ :=
      setSize_of_movable hposition (by omega) endOfFileError
    have hzero : libNewSize = 0 ↔ libNewSize.toNat = 0 := by
      rw [← UInt64.toNat_inj]
      rfl
    have hrange := s.m_hFile.inRange
    have hlt := libNewSize.toNat_lt
    have hsigned : (s.m_hFile.pointer : Int) + signedSize libNewSize = 0 ↔ position = 0 := by
      omega
    simp only [hmovable, and_self, not_true, false_or, hzero, hsigned]
    rw [signedSize] at hposition
    constructor
    · rintro ⟨hsucceeded, hfailed⟩
      rw [hsize] at hsucceeded hfailed
      by_cases hend : endOfFileError = none
      · obtain ⟨hnewLength, hkept⟩ := hsucceeded (hok.mpr hend)
        rw [hlength hend] at hnewLength
        rw [hpointer] at hkept
        left
        refine ⟨hend, ?_⟩
        split at hkept <;> split at hposition <;> omega
      · have hkept := hfailed hend
        rw [hpointer] at hkept
        right
        refine ⟨hend, ?_⟩
        split at hkept <;> split at hposition <;> omega
    · intro hcondition
      refine ⟨?_, ?_⟩
      · intro hsucceeded
        rw [hsize] at hsucceeded ⊢
        have hend := hok.mp hsucceeded
        obtain ⟨-, hstart, hempty⟩ | ⟨hfail, -⟩ := hcondition
        · rw [hlength hend, hpointer]
          split <;> split at hposition <;> omega
        · exact absurd hend hfail
      · intro hfail
        rw [hsize]
        obtain ⟨hend, -⟩ | ⟨-, hkept⟩ := hcondition
        · exact absurd hend hfail
        · rw [hpointer]
          split <;> split at hposition <;> omega
  · obtain ⟨next, error, hsize, hpointer⟩ := setSize_of_not_movable hmovable endOfFileError
    simp only [hmovable, not_false_eq_true, true_or, iff_true]
    refine ⟨?_, ?_⟩
    · rw [hsize]
      nofun
    · intro _
      rw [hsize]
      exact hpointer

/-- A size of 2 set with the pointer at 1 ends the file at 3 and leaves the pointer
at 4. -/
theorem setSize_moves_on :
    ¬ ∀ (libNewSize : UInt64) (endOfFileError : Option DWORD) (s : SHFileStream),
      s.SetsSizeOnly libNewSize endOfFileError := by
  intro hall
  let s : SHFileStream := ⟨⟨[1, 2, 3, 4], 1, 0, by decide, by decide⟩⟩
  have hsize : (s.setSize 2 none).2 = .ok () := by decide
  have hpointer := ((hall 2 none s).succeeded hsize).2
  have hmoved : (s.setSize 2 none).1.m_hFile.pointer = 4 := by decide
  rw [hmoved] at hpointer
  cases hpointer

end SHFileStream

end HostedPumpkin
