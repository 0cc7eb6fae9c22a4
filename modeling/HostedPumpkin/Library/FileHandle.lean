import Mathlib.Tactic

/-!
A file with a pointer, as the Windows file functions see it. Positions are 64-bit
numbers that go through `SetFilePointer` in two halves: the distance is the low
half alone, read as a signed 32-bit number, if no high half is passed, and both
halves as a signed 64-bit number otherwise. Without a high half a position that
needs one cannot be reported, and the call fails.

The last error of the thread is kept with the file, since the low half of a
position can be the number that otherwise says that the call failed.
-/

namespace HostedPumpkin

/-- `INVALID_SET_FILE_POINTER`. -/
def invalidSetFilePointer : Nat := 0xFFFFFFFF

/-- `NO_ERROR`. -/
def noError : UInt32 := 0

/-- `ERROR_INVALID_PARAMETER`. -/
def errorInvalidParameter : UInt32 := 87

/-- `ERROR_NEGATIVE_SEEK`. -/
def errorNegativeSeek : UInt32 := 131

/-- A 32-bit number read as signed. -/
def signedHalf (half : Nat) : Int := if half < 2 ^ 31 then half else half - 2 ^ 32

inductive MoveMethod where
  | fileBegin
  | fileCurrent
  | fileEnd
deriving DecidableEq, Repr

structure FileHandle where
  content : List UInt8
  pointer : Nat
  lastError : UInt32
  inRange : pointer < 2 ^ 63
  fits : content.length < 2 ^ 63
deriving DecidableEq

namespace FileHandle

def origin (h : FileHandle) : MoveMethod → Nat
  | .fileBegin => 0
  | .fileCurrent => h.pointer
  | .fileEnd => h.content.length

/-- The distance that the halves stand for. -/
def distance (low : Nat) : Option Int → Int
  | none => signedHalf low
  | some high => high * 2 ^ 32 + low

def target (low : Nat) (high : Option Int) (method : MoveMethod) (h : FileHandle) : Int :=
  h.origin method + distance low high

/-- A position the pointer can take and the call can report. -/
def Reportable (high : Option Int) (position : Int) : Prop :=
  0 ≤ position ∧ position.toNat < 2 ^ 63 ∧ (high = none → position.toNat < 2 ^ 32)

instance (high : Option Int) (position : Int) : Decidable (Reportable high position) :=
  inferInstanceAs (Decidable (_ ∧ _ ∧ (_ → _)))

def failWith (error : UInt32) (h : FileHandle) : FileHandle := { h with lastError := error }

/-- The last error tells a position whose low half is `INVALID_SET_FILE_POINTER`
from a failure. -/
def moveTo (position : Nat) (hposition : position < 2 ^ 63) (h : FileHandle) : FileHandle :=
  { h with
    pointer := position
    lastError := if position % 2 ^ 32 = invalidSetFilePointer then noError else h.lastError
    inRange := hposition }

@[simp]
theorem pointer_moveTo (h : FileHandle) (position : Nat) (hposition : position < 2 ^ 63) :
    (h.moveTo position hposition).pointer = position := rfl

/-- `SetFilePointer`: the handle afterwards, the low half of the new position and
the high half if one was passed. -/
def setFilePointer (low : Nat) (high : Option Int) (method : MoveMethod) (h : FileHandle) :
    FileHandle × Nat × Option Int :=
  let position := h.target low high method
  if hposition : Reportable high position then
    (h.moveTo position.toNat hposition.2.1, position.toNat % 2 ^ 32,
      high.map (fun _ => ((position.toNat / 2 ^ 32 : Nat) : Int)))
  else if 0 ≤ position ∧ position.toNat < 2 ^ 63 then
    (h.failWith errorInvalidParameter, invalidSetFilePointer, high)
  else (h.failWith errorNegativeSeek, invalidSetFilePointer, high)

/-- `result == INVALID_SET_FILE_POINTER && GetLastError() != NO_ERROR`. -/
def moveFailed (result : Nat) (h : FileHandle) : Bool :=
  result == invalidSetFilePointer && h.lastError != noError

theorem setFilePointer_ok {low : Nat} {high : Option Int} {method : MoveMethod} {h : FileHandle}
    {position : Nat} (hposition : h.target low high method = position)
    (hlt : position < 2 ^ 63) (hlow : high = none → position < 2 ^ 32) :
    h.setFilePointer low high method =
      (h.moveTo position hlt, position % 2 ^ 32,
        high.map (fun _ => ((position / 2 ^ 32 : Nat) : Int))) := by
  have hreport : Reportable high position := ⟨Int.natCast_nonneg position, hlt, hlow⟩
  simp only [setFilePointer, hposition, hreport, dite_true, Int.toNat_natCast]

/-- A move that succeeds is not taken for a failure. -/
theorem moveFailed_moveTo (h : FileHandle) (position : Nat) (hposition : position < 2 ^ 63) :
    moveFailed (position % 2 ^ 32) (h.moveTo position hposition) = false := by
  simp only [moveFailed, moveTo]
  split
  next => exact Bool.and_false _
  next hvalid => rw [beq_false_of_ne hvalid, Bool.false_and]

/-- A move that cannot be reported fails, and the pointer stays. -/
theorem setFilePointer_failed {low : Nat} {high : Option Int} {method : MoveMethod}
    {h : FileHandle} (hreport : ¬ Reportable high (h.target low high method)) :
    ∃ error, error ≠ noError ∧
      h.setFilePointer low high method = (h.failWith error, invalidSetFilePointer, high) := by
  simp only [setFilePointer, hreport, dite_false]
  split
  next => exact ⟨errorInvalidParameter, by decide, rfl⟩
  next => exact ⟨errorNegativeSeek, by decide, rfl⟩

theorem moveFailed_failWith (h : FileHandle) {error : UInt32} (herror : error ≠ noError) :
    moveFailed invalidSetFilePointer (h.failWith error) = true := by
  simp [moveFailed, failWith, herror]

/-- The bytes from the pointer on. -/
def rest (h : FileHandle) : List UInt8 := h.content.drop h.pointer

/-- What `ReadFile` puts into a buffer of this size. -/
def read (count : Nat) (h : FileHandle) : List UInt8 := h.rest.take count

/-- The handle after `ReadFile`. -/
def afterRead (count : Nat) (h : FileHandle) : FileHandle where
  content := h.content
  pointer := h.pointer + (h.read count).length
  lastError := h.lastError
  inRange := by
    have hrange := h.inRange
    have hfits := h.fits
    simp only [read, rest, List.length_take, List.length_drop]
    omega
  fits := h.fits

/-- `SetEndOfFile`, when it succeeds. -/
def setEndOfFile (h : FileHandle) : FileHandle where
  content := h.content.take h.pointer ++ List.replicate (h.pointer - h.content.length) 0
  pointer := h.pointer
  lastError := h.lastError
  inRange := h.inRange
  fits := by
    have hrange := h.inRange
    simp only [List.length_append, List.length_take, List.length_replicate]
    omega

@[simp]
theorem length_setEndOfFile (h : FileHandle) : h.setEndOfFile.content.length = h.pointer := by
  simp only [setEndOfFile, List.length_append, List.length_take, List.length_replicate]
  omega

theorem length_read (count : Nat) (h : FileHandle) :
    (h.read count).length = min count h.rest.length :=
  List.length_take

theorem rest_afterRead (count : Nat) (h : FileHandle) :
    (h.afterRead count).rest = h.rest.drop (h.read count).length := by
  simp only [rest, afterRead, List.drop_drop]

/-- Reading twice is reading once. -/
theorem read_add (first second : Nat) (h : FileHandle) :
    h.read (first + second) = h.read first ++ (h.afterRead first).read second := by
  have hlength := length_read first h
  simp only [read, rest_afterRead] at hlength ⊢
  rw [List.take_add, hlength]
  congr 2
  by_cases hshort : first ≤ h.rest.length
  · rw [min_eq_left hshort]
  · have hempty : h.rest.drop first = [] := List.drop_eq_nil_iff.mpr (by omega)
    rw [min_eq_right (by omega), hempty, List.drop_length]

theorem afterRead_add (first second : Nat) (h : FileHandle) :
    h.afterRead (first + second) = (h.afterRead first).afterRead second := by
  simp only [afterRead, FileHandle.mk.injEq, true_and, and_true]
  rw [read_add, List.length_append, Nat.add_assoc]
  rfl

theorem afterRead_zero (h : FileHandle) : h.afterRead 0 = h := rfl

/-- Past the end of the file it does not matter how much is asked for. -/
theorem read_of_length_le {count : Nat} {h : FileHandle} (hcount : h.rest.length ≤ count) :
    h.read count = h.rest :=
  List.take_of_length_le hcount

theorem pointer_afterRead (count : Nat) (h : FileHandle) :
    (h.afterRead count).pointer = h.pointer + min count h.rest.length := by
  rw [← length_read]
  rfl

theorem length_rest_afterRead (count : Nat) (h : FileHandle) :
    (h.afterRead count).rest.length = h.rest.length - count := by
  rw [rest_afterRead, List.length_drop, length_read]
  omega

end FileHandle

end HostedPumpkin
