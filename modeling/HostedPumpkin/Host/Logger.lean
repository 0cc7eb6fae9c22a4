import Mathlib.Data.UInt
import HostedPumpkin.Library.CString
import HostedPumpkin.Library.Runs

/-!
The `Logger`. A message is formatted into a static line buffer or, if it does not
fit, into a buffer from the heap; what is printed is the line buffer in both
cases. The narrow and the wide overload have a line buffer each. Whether `malloc`
finds memory is an answer of the system.

What the format and its arguments produce is given with the call. The time in
front of a line is left out.
-/

namespace HostedPumpkin

open Runs

/-- `LINE_BUFFER_SIZE`. -/
def lineBufferSize : Nat := 320

/-- `INT_MAX`. -/
def intMax : Int := 2147483647

inductive LogLevel where
  | info
  | debug
  | error
  | critical
deriving DecidableEq, Repr

def LogLevel.value : LogLevel → Int
  | .info => 0
  | .debug => 1
  | .error => 2
  | .critical => 3

/-- `levels` and `wlevels`. -/
def LogLevel.name : LogLevel → String
  | .info => "Info"
  | .debug => "Debug"
  | .error => "Error"
  | .critical => "Critical"

/-- A static buffer: it starts with zeros, and what is written to it ends with one. -/
structure LineBuffer (α : Type) (nul : α) where
  content : List α
  size : content.length = lineBufferSize
  terminated : nul ∈ content
deriving DecidableEq

/-- What ends a call other than a return: the invalid parameter handler of the C
runtime, and a sum that is no `int`. -/
inductive LogFault where
  | invalidParameter
  | overflow
deriving DecidableEq, Repr

/-- A line on `stderr`, without its time. -/
structure LogLine (α : Type) where
  level : String
  message : List α
deriving DecidableEq

namespace LineBuffer

variable {α : Type} [DecidableEq α] {nul : α}

def initial (nul : α) : LineBuffer α nul where
  content := List.replicate lineBufferSize nul
  size := List.length_replicate
  terminated := List.mem_replicate.mpr ⟨by decide, rfl⟩

/-- `_vscprintf`, which counts what the format would print. -/
def vscprintf (message : List α) : Int :=
  if (message.length : Int) ≤ intMax then message.length else -1

/-- Where the message goes. The heap buffer is released before the call returns. -/
inductive Target where
  | lineBuffer
  | heap
  | null

/-- The choice of the buffer for a length that includes the terminator. -/
def target (len : Int) (allocated : Bool) : Target :=
  if len > lineBufferSize then (if allocated then .heap else .null) else .lineBuffer

/-- `vsprintf_s` into the line buffer, of which it uses `len` characters. -/
def vsprintf_s (lineBuffer : LineBuffer α nul) (len : Int) (message : List α) :
    Except LogFault (LineBuffer α nul) :=
  if h : (message.length : Int) < len ∧ len ≤ lineBufferSize then
    have hlength : message.length < lineBuffer.content.length := by
      rw [lineBuffer.size]
      omega
    .ok {
      content := CString.store nul message lineBuffer.content
      size := (CString.length_store hlength).trans lineBuffer.size
      terminated := CString.nul_mem_store message lineBuffer.content }
  else .error .invalidParameter

/-- The body of both overloads of `Log` behind the test of the level. -/
def log (lineBuffer : LineBuffer α nul) (level : LogLevel) (allocated : Bool)
    (message : List α) : Except LogFault (LineBuffer α nul × LogLine α) :=
  let len := vscprintf message + 1
  if len > intMax then .error .overflow
  else
    match target len allocated with
    | .null => .error .invalidParameter
    | .heap => .ok (lineBuffer, ⟨level.name, CString.text nul lineBuffer.content⟩)
    | .lineBuffer =>
        (lineBuffer.vsprintf_s len message).map (fun written =>
          (written, ⟨level.name, CString.text nul written.content⟩))

end LineBuffer

structure Logger where
  currentLevel : LogLevel
  narrow : LineBuffer UInt8 0
  wide : LineBuffer UInt16 0
deriving DecidableEq

/-- A call of `Log` with what its format produces; `allocated` is what `malloc`
answers if it is asked. -/
inductive LogCall where
  | narrow (level : LogLevel) (allocated : Bool) (message : List UInt8)
  | wide (level : LogLevel) (allocated : Bool) (message : List UInt16)
deriving DecidableEq

namespace Logger

def initial : Logger := ⟨.debug, LineBuffer.initial 0, LineBuffer.initial 0⟩

/-- `Log` on `char`. -/
def logNarrow (s : Logger) (level : LogLevel) (allocated : Bool) (message : List UInt8) :
    Except LogFault (Logger × Option (LogLine UInt8)) :=
  if s.currentLevel.value > level.value then .ok (s, none)
  else (s.narrow.log level allocated message).map (fun result =>
    ({ s with narrow := result.1 }, some result.2))

/-- `Log` on `wchar_t`. -/
def logWide (s : Logger) (level : LogLevel) (allocated : Bool) (message : List UInt16) :
    Except LogFault (Logger × Option (LogLine UInt16)) :=
  if s.currentLevel.value > level.value then .ok (s, none)
  else (s.wide.log level allocated message).map (fun result =>
    ({ s with wide := result.1 }, some result.2))

def step (s : Logger) : LogCall → Except LogFault Logger
  | .narrow level allocated message => (s.logNarrow level allocated message).map Prod.fst
  | .wide level allocated message => (s.logWide level allocated message).map Prod.fst

/-- The level is enabled. -/
def Enabled (s : Logger) (level : LogLevel) : Prop := s.currentLevel.value ≤ level.value

instance (s : Logger) (level : LogLevel) : Decidable (s.Enabled level) :=
  inferInstanceAs (Decidable (_ ≤ _))

/-- If the level is enabled, the line that is written holds exactly the message. -/
def WritesMessage (s : Logger) : LogCall → Prop
  | .narrow level allocated message => s.Enabled level →
      ∃ next, s.logNarrow level allocated message = .ok (next, some ⟨level.name, message⟩)
  | .wide level allocated message => s.Enabled level →
      ∃ next, s.logWide level allocated message = .ok (next, some ⟨level.name, message⟩)

/-- A message that is written fits the line buffer and holds no terminator. -/
def FitsLine (s : Logger) : LogCall → Prop
  | .narrow level _ message => s.Enabled level → message.length < lineBufferSize ∧ 0 ∉ message
  | .wide level _ message => s.Enabled level → message.length < lineBufferSize ∧ 0 ∉ message

end Logger

namespace LineBuffer

variable {α : Type} [DecidableEq α] {nul : α}

/-- What the line buffer holds is always shorter than the line buffer. -/
theorem length_text (lineBuffer : LineBuffer α nul) :
    (CString.text nul lineBuffer.content).length < lineBufferSize := by
  have hlt := CString.length_text_lt lineBuffer.terminated
  rw [lineBuffer.size] at hlt
  exact hlt

/-- What is printed is the line buffer, whatever the buffer of the message. -/
theorem log_message {lineBuffer next : LineBuffer α nul} {level : LogLevel} {allocated : Bool}
    {message : List α} {line : LogLine α}
    (h : lineBuffer.log level allocated message = .ok (next, line)) :
    line.message = CString.text nul next.content := by
  simp only [log] at h
  split at h
  next => cases h
  next =>
    split at h
    next => cases h
    next =>
      cases h
      rfl
    next =>
      cases hwrite : lineBuffer.vsprintf_s (vscprintf message + 1) message with
      | error fault =>
          rw [hwrite] at h
          cases h
      | ok written =>
          rw [hwrite] at h
          cases h
          rfl

/-- A message that does not fit is formatted on the heap, and the line buffer is
printed as it was. -/
theorem log_long (lineBuffer : LineBuffer α nul) (level : LogLevel) {message : List α}
    (hlong : lineBufferSize ≤ message.length) (hint : (message.length : Int) < intMax) :
    lineBuffer.log level true message =
      .ok (lineBuffer, ⟨level.name, CString.text nul lineBuffer.content⟩) := by
  have hcount : vscprintf message = message.length := if_pos (le_of_lt hint)
  have hfits : ¬ vscprintf message + 1 > intMax := by omega
  have htarget : target (vscprintf message + 1) true = .heap := by
    unfold target
    rw [if_pos (by omega), if_pos rfl]
  simp only [log, if_neg hfits, htarget]

theorem log_short (lineBuffer : LineBuffer α nul) (level : LogLevel) (allocated : Bool)
    {message : List α} (hshort : message.length < lineBufferSize) :
    ∃ written : LineBuffer α nul,
      written.content = CString.store nul message lineBuffer.content ∧
      lineBuffer.log level allocated message =
        .ok (written, ⟨level.name, CString.text nul written.content⟩) := by
  unfold lineBufferSize at hshort
  have hcount : vscprintf message = message.length := by
    unfold vscprintf intMax
    rw [if_pos (by omega)]
  have hfits : ¬ vscprintf message + 1 > intMax := by
    unfold intMax
    omega
  have htarget : target (vscprintf message + 1) allocated = .lineBuffer := by
    unfold target lineBufferSize
    rw [if_neg (by omega)]
  have hroom : (message.length : Int) < vscprintf message + 1 ∧
      vscprintf message + 1 ≤ lineBufferSize := by
    unfold lineBufferSize
    omega
  simp only [log, if_neg hfits, htarget, vsprintf_s, dif_pos hroom]
  exact ⟨_, rfl, rfl⟩

/-- The line holds the message if and only if the message fits. -/
theorem log_writes_iff (lineBuffer : LineBuffer α nul) (level : LogLevel) (allocated : Bool)
    (message : List α) :
    (∃ next, lineBuffer.log level allocated message = .ok (next, ⟨level.name, message⟩)) ↔
      message.length < lineBufferSize ∧ nul ∉ message := by
  constructor
  · rintro ⟨next, h⟩
    have hmessage : message = CString.text nul next.content := log_message h
    have hshort : message.length < lineBufferSize := by
      rw [hmessage]
      exact next.length_text
    refine ⟨hshort, ?_⟩
    rw [hmessage]
    exact CString.nul_notMem_text next.content
  · rintro ⟨hshort, hnul⟩
    obtain ⟨written, hcontent, hlog⟩ := lineBuffer.log_short level allocated hshort
    rw [hcontent, CString.text_store_eq_iff.mpr hnul] at hlog
    exact ⟨written, hlog⟩

theorem text_initial : CString.text nul (initial nul).content = [] := by
  have hcontent : (initial nul).content = nul :: List.replicate 319 nul := rfl
  rw [hcontent, CString.text_cons_nul]

end LineBuffer

namespace Logger

/-- The overloads differ in their line buffer only. -/
theorem map_log_iff {α : Type} [DecidableEq α] {nul : α} (lineBuffer : LineBuffer α nul)
    (store : LineBuffer α nul → Logger) (level : LogLevel) (allocated : Bool)
    (message : List α) :
    (∃ next, (lineBuffer.log level allocated message).map (fun result =>
        (store result.1, some result.2)) = .ok (next, some ⟨level.name, message⟩)) ↔
      ∃ next, lineBuffer.log level allocated message = .ok (next, ⟨level.name, message⟩) := by
  cases h : lineBuffer.log level allocated message with
  | error fault => simp [Except.map]
  | ok result =>
      obtain ⟨written, line⟩ := result
      simp [Except.map]

theorem writesMessage_iff (s : Logger) (call : LogCall) :
    s.WritesMessage call ↔ s.FitsLine call := by
  cases call with
  | narrow level allocated message =>
      simp only [WritesMessage, FitsLine, logNarrow]
      apply forall_congr'
      intro henabled
      rw [if_neg (not_lt.mpr henabled), ← s.narrow.log_writes_iff level allocated message]
      exact map_log_iff s.narrow (fun narrow => { s with narrow }) level allocated message
  | wide level allocated message =>
      simp only [WritesMessage, FitsLine, logWide]
      apply forall_congr'
      intro henabled
      rw [if_neg (not_lt.mpr henabled), ← s.wide.log_writes_iff level allocated message]
      exact map_log_iff s.wide (fun wide => { s with wide }) level allocated message

/-- Whatever was logged before, a run writes every message of an enabled level exactly
if and only if each of them fits the line buffer. -/
theorem log_writes_message_iff (s : Logger) (calls : List LogCall) :
    Meets step WritesMessage s calls ↔ Meets step FitsLine s calls :=
  meets_congr writesMessage_iff

/-- A message of 320 characters is logged first: the line is empty. Logged after a
short message it repeats that one. -/
theorem long_message_lost :
    let long : List UInt8 := List.replicate 320 65
    initial.logNarrow .error true long = .ok (initial, some ⟨"Error", []⟩) ∧
      (∃ s, initial.step (.narrow .debug true [72, 105]) = .ok s ∧
        s.logNarrow .error true long = .ok (s, some ⟨"Error", [72, 105]⟩)) ∧
      ¬ ∀ (s : Logger) (calls : List LogCall), Meets step WritesMessage s calls := by
  intro long
  have hlength : long.length = 320 := List.length_replicate
  have hlong : ∀ s : Logger, s.Enabled .error → s.logNarrow .error true long =
      .ok (s, some ⟨"Error", CString.text 0 s.narrow.content⟩) := by
    intro s henabled
    have hsize : lineBufferSize ≤ long.length := le_of_eq hlength.symm
    have hint : (long.length : Int) < intMax := by
      rw [hlength]
      decide
    rw [logNarrow, if_neg (not_lt.mpr henabled), s.narrow.log_long .error hsize hint]
    rfl
  have henabled : initial.Enabled .error := by decide
  have hempty : CString.text 0 initial.narrow.content = [] := LineBuffer.text_initial
  refine ⟨?_, ?_, ?_⟩
  · rw [hlong initial henabled, hempty]
  · have hshort : List.length [(72 : UInt8), 105] < lineBufferSize := by decide
    obtain ⟨written, hcontent, hlog⟩ := initial.narrow.log_short .debug true hshort
    have hstep : initial.step (.narrow .debug true [72, 105]) =
        .ok { initial with narrow := written } := by
      rw [step, logNarrow, if_neg (by decide), hlog]
      rfl
    refine ⟨_, hstep, ?_⟩
    rw [hlong { initial with narrow := written } henabled, hcontent,
      CString.text_store_eq_iff.mpr (by decide)]
  · intro hall
    obtain ⟨next, hcall⟩ := (hall initial [.narrow .error true long]).1 henabled
    rw [hlong initial henabled, hempty] at hcall
    simp only [Except.ok.injEq, Prod.mk.injEq, Option.some.injEq, LogLine.mk.injEq] at hcall
    rw [← hcall.2.2] at hlength
    cases hlength

end Logger

end HostedPumpkin
