import HostedPumpkin.Library.Runs
import HostedPumpkin.Host.Context

/-!
The events of `SHSyncManager`. `SHManualEvent` wraps a manual-reset event and
`SHAutoEvent` an auto-reset event. `CreateRWLockReaderEvent` promises a manual
event to its caller and returns an `SHAutoEvent`. Its caller reaches the object
through the slots of `IHostManualEvent`, and behind `Wait` both interfaces go on
differently: `SHAutoEvent` has a `Set`, then its destructor, and no `Reset`. What
calls of `Set` and of `Reset` reach there is up to the layout of the two interfaces
and is a parameter each; it may be the destructor.

The reader event is compared with a manual event that gets the same calls from
the same threads.
-/

namespace HostedPumpkin

open Runs

/-- An event object of the system with the threads that wait for it, in the order
they came. A signalled event keeps nobody waiting. -/
structure KernelEvent (bManualReset : Bool) where
  signaled : Bool
  waiting : List DWORD
  idle : signaled = true → waiting = []
deriving DecidableEq

namespace KernelEvent

variable {bManualReset : Bool}

def createEvent (bManualReset bInitialState : Bool) : KernelEvent bManualReset :=
  ⟨bInitialState, [], fun _ => rfl⟩

/-- `SetEvent`. A manual-reset event releases every waiting thread and stays
signalled; an auto-reset event releases one of them, the one the system chooses,
and stays signalled only if nobody waits. -/
def setEvent (chosen : DWORD) (e : KernelEvent bManualReset) : KernelEvent bManualReset :=
  if bManualReset then ⟨true, [], fun _ => rfl⟩
  else if h : e.waiting = [] then ⟨true, e.waiting, fun _ => h⟩
  else ⟨e.signaled, e.waiting.erase chosen, fun hsignaled => absurd (e.idle hsignaled) h⟩

/-- `ResetEvent`. -/
def resetEvent (e : KernelEvent bManualReset) : KernelEvent bManualReset :=
  ⟨false, e.waiting, nofun⟩

/-- The start of a wait: it succeeds at once if the event is signalled, and takes
the signal of an auto-reset event. -/
def waitForSingleObject (thread : DWORD) (e : KernelEvent bManualReset) :
    KernelEvent bManualReset :=
  if e.signaled then
    if bManualReset then e else ⟨false, e.waiting, nofun⟩
  else ⟨false, e.waiting ++ [thread], nofun⟩

/-- A waiting thread returns without the event, because its time is up or it was
alerted. -/
def giveUp (thread : DWORD) (e : KernelEvent bManualReset) : KernelEvent bManualReset where
  signaled := e.signaled
  waiting := e.waiting.erase thread
  idle := by
    intro hsignaled
    rw [e.idle hsignaled]
    rfl

end KernelEvent

/-- The event stays behind for the threads that wait for it when the destructor
closes the handle. -/
structure SHAutoEvent where
  m_hEvent : KernelEvent false
  isOpen : Bool
deriving DecidableEq

structure SHManualEvent where
  m_hEvent : KernelEvent true
deriving DecidableEq

namespace SHAutoEvent

def new (bInitialState : Bool) : SHAutoEvent :=
  ⟨KernelEvent.createEvent false bInitialState, true⟩

/-- `~SHAutoEvent`. -/
def destroy (e : SHAutoEvent) : SHAutoEvent := { e with isOpen := false }

/-- `SetEvent` fails once the handle is closed. -/
def set (chosen : DWORD) (e : SHAutoEvent) : SHAutoEvent :=
  if e.isOpen then { e with m_hEvent := e.m_hEvent.setEvent chosen } else e

/-- `HostContext::HostWait`, on an open handle. -/
def wait (thread : DWORD) (e : SHAutoEvent) : SHAutoEvent :=
  { e with m_hEvent := e.m_hEvent.waitForSingleObject thread }

/-- Time is up, or an alert. -/
def giveUp (thread : DWORD) (e : SHAutoEvent) : SHAutoEvent :=
  { e with m_hEvent := e.m_hEvent.giveUp thread }

end SHAutoEvent

namespace SHManualEvent

def new (bInitialState : Bool) : SHManualEvent := ⟨KernelEvent.createEvent true bInitialState⟩

def set (chosen : DWORD) (e : SHManualEvent) : SHManualEvent := ⟨e.m_hEvent.setEvent chosen⟩

def reset (e : SHManualEvent) : SHManualEvent := ⟨e.m_hEvent.resetEvent⟩

def wait (thread : DWORD) (e : SHManualEvent) : SHManualEvent :=
  ⟨e.m_hEvent.waitForSingleObject thread⟩

end SHManualEvent

namespace SHSyncManager

def createManualEvent (bInitialState : Bool) : SHManualEvent := SHManualEvent.new bInitialState

/-- The object behind the `IHostManualEvent` pointer. -/
def createRWLockReaderEvent (bInitialState : Bool) : SHAutoEvent := SHAutoEvent.new bInitialState

end SHSyncManager

/-- What threads do with an event. A thread that waits does nothing else until it
is released or gives up. -/
inductive EventAction where
  | set (chosen : DWORD)
  | reset
  | wait (thread : DWORD)
  | giveUp (thread : DWORD)
deriving DecidableEq

inductive EventFault where
  | disabled
deriving DecidableEq, Repr

/-- The reader event and a manual event that gets the same calls, with the threads
whose wait for the reader event has failed. -/
structure ReaderEvents where
  reader : SHAutoEvent
  manual : SHManualEvent
  failed : List DWORD
deriving DecidableEq

namespace SHManualEvent

/-- The calls on a manual event by itself. -/
def step (e : SHManualEvent) : EventAction → Except EventFault SHManualEvent
  | .set chosen => .ok (e.set chosen)
  | .reset => .ok e.reset
  | .wait thread =>
      if thread ∈ e.m_hEvent.waiting then .error .disabled else .ok (e.wait thread)
  | .giveUp thread =>
      if thread ∈ e.m_hEvent.waiting then .ok ⟨e.m_hEvent.giveUp thread⟩
      else .error .disabled

/-- Once set, the event keeps nobody waiting until it is reset. -/
theorem set_releases_all (chosen : DWORD) (e : SHManualEvent) (actions : List EventAction)
    (hreset : .reset ∉ actions) :
    Always step (fun e => e.m_hEvent.signaled = true ∧ e.m_hEvent.waiting = []) (e.set chosen)
      actions := by
  have hactions : ∀ action ∈ actions, action ≠ .reset := by
    rintro action haction rfl
    exact hreset haction
  refine always_of_meets ?_ ⟨rfl, rfl⟩ (meets_of_mem hactions)
  rintro e' action next ⟨hsignaled, hwaiting⟩ haction hstep
  cases action with
  | set chosen' =>
      cases hstep
      exact ⟨rfl, rfl⟩
  | reset => exact absurd rfl haction
  | wait thread =>
      simp only [step, hwaiting, List.not_mem_nil, if_false, wait,
        KernelEvent.waitForSingleObject, hsignaled, if_true] at hstep
      cases hstep
      exact ⟨hsignaled, hwaiting⟩
  | giveUp thread =>
      simp only [step, hwaiting, List.not_mem_nil, if_false] at hstep
      cases hstep

end SHManualEvent

namespace ReaderEvents

def initial (bInitialState : Bool) : ReaderEvents where
  reader := SHSyncManager.createRWLockReaderEvent bInitialState
  manual := SHSyncManager.createManualEvent bInitialState
  failed := []

section Slots

-- what calls of `Set` and of `Reset` through the `IHostManualEvent` pointer do to the
-- reader event, where `Set` is given the thread the system would release
variable (viaSet : DWORD → SHAutoEvent → SHAutoEvent) (viaReset : SHAutoEvent → SHAutoEvent)

/-- Both events get the call. The system releases a thread that waits. -/
def step (s : ReaderEvents) : EventAction → Except EventFault ReaderEvents
  | .set chosen =>
      if s.reader.m_hEvent.waiting = [] ∨ chosen ∈ s.reader.m_hEvent.waiting then
        .ok { s with reader := viaSet chosen s.reader, manual := s.manual.set chosen }
      else .error .disabled
  | .reset => .ok { s with reader := viaReset s.reader, manual := s.manual.reset }
  | .wait thread =>
      if thread ∈ s.reader.m_hEvent.waiting then .error .disabled
      else if s.reader.isOpen then
        .ok { s with reader := s.reader.wait thread, manual := s.manual.wait thread }
      -- the handle is closed and the wait fails at once
      else .ok { s with manual := s.manual.wait thread, failed := s.failed ++ [thread] }
  | .giveUp thread =>
      if thread ∈ s.reader.m_hEvent.waiting then
        .ok { s with
          reader := s.reader.giveUp thread
          manual := ⟨s.manual.m_hEvent.giveUp thread⟩ }
      else .error .disabled

/-- The same threads are waiting and no wait has failed, so every other wait has
returned from both alike. -/
def Alike (s : ReaderEvents) : Prop :=
  s.reader.m_hEvent.waiting = s.manual.m_hEvent.waiting ∧ s.failed = []

instance (s : ReaderEvents) : Decidable s.Alike :=
  inferInstanceAs (Decidable (_ ∧ _))

/-- What `Set` reaches keeps no thread waiting, what `Reset` reaches changes nothing
about the waiting threads, and a wait finds the handle open and the signal that a
manual event would have. -/
def OneReader (s : ReaderEvents) : EventAction → Prop
  | .set chosen =>
      s.reader.m_hEvent.waiting = [] ∨ chosen ∈ s.reader.m_hEvent.waiting →
        (viaSet chosen s.reader).m_hEvent.waiting = []
  | .reset => (viaReset s.reader).m_hEvent.waiting = s.reader.m_hEvent.waiting
  | .wait thread =>
      thread ∉ s.reader.m_hEvent.waiting →
        s.reader.isOpen = true ∧ s.reader.m_hEvent.signaled = s.manual.m_hEvent.signaled
  | .giveUp _ => True

/-- Where `Set` reaches `SHAutoEvent::Set`, at most one thread may be waiting. -/
theorem oneReader_set_auto {s : ReaderEvents} {chosen : DWORD} (hopen : s.reader.isOpen = true) :
    s.OneReader SHAutoEvent.set viaReset (.set chosen) ↔
      (chosen ∈ s.reader.m_hEvent.waiting → s.reader.m_hEvent.waiting = [chosen]) := by
  simp only [OneReader, SHAutoEvent.set, hopen, if_true]
  cases hwaiting : s.reader.m_hEvent.waiting with
  | nil => simp [KernelEvent.setEvent, hwaiting]
  | cons first rest =>
      by_cases hin : chosen ∈ first :: rest
      · simp [KernelEvent.setEvent, hwaiting, hin]
      · simp [hin]

/-- Where `Set` reaches the destructor, nobody may be waiting. -/
theorem oneReader_set_destroy {s : ReaderEvents} {chosen : DWORD} :
    s.OneReader (fun _ => SHAutoEvent.destroy) viaReset (.set chosen) ↔
      chosen ∉ s.reader.m_hEvent.waiting := by
  simp only [OneReader, SHAutoEvent.destroy]
  cases s.reader.m_hEvent.waiting with
  | nil => simp
  | cons first rest => simp

variable {viaSet viaReset}

/-- Nobody waits for the manual event any more. -/
theorem alike_set_iff {s : ReaderEvents} (chosen : DWORD) (halike : s.Alike) :
    s.OneReader viaSet viaReset (.set chosen) ↔
      ∀ next, s.step viaSet viaReset (.set chosen) = .ok next → next.Alike := by
  simp only [OneReader, step]
  by_cases henabled : s.reader.m_hEvent.waiting = [] ∨ chosen ∈ s.reader.m_hEvent.waiting
  · simp [henabled, Alike, SHManualEvent.set, KernelEvent.setEvent, halike.2]
  · simp [henabled]

/-- A wait that succeeds on one event only waits for the other one, or fails. -/
theorem alike_wait_iff {s : ReaderEvents} (thread : DWORD) (halike : s.Alike) :
    s.OneReader viaSet viaReset (.wait thread) ↔
      ∀ next, s.step viaSet viaReset (.wait thread) = .ok next → next.Alike := by
  have hmanual : s.manual.m_hEvent.waiting = s.reader.m_hEvent.waiting := halike.1.symm
  by_cases hin : thread ∈ s.reader.m_hEvent.waiting
  · simp [OneReader, step, hin]
  · cases hopen : s.reader.isOpen with
    | false => simp [OneReader, step, hin, hopen, Alike]
    | true =>
        cases hreader : s.reader.m_hEvent.signaled <;>
          cases hsignal : s.manual.m_hEvent.signaled <;>
            simp [OneReader, step, hin, hopen, Alike, SHAutoEvent.wait, SHManualEvent.wait,
              KernelEvent.waitForSingleObject, hreader, hsignal, hmanual, halike.2]

/-- A step keeps the two events alike exactly under the condition. -/
theorem alike_step_iff {s : ReaderEvents} (action : EventAction) (halike : s.Alike) :
    s.OneReader viaSet viaReset action ↔
      ∀ next, s.step viaSet viaReset action = .ok next → next.Alike := by
  cases action with
  | set chosen => exact alike_set_iff chosen halike
  | reset =>
      have hmanual : s.manual.m_hEvent.waiting = s.reader.m_hEvent.waiting := halike.1.symm
      simp [OneReader, step, Alike, SHManualEvent.reset, KernelEvent.resetEvent, hmanual,
        halike.2]
  | wait thread => exact alike_wait_iff thread halike
  | giveUp thread =>
      simp only [OneReader, step, true_iff]
      intro next hnext
      split at hnext
      next =>
        cases hnext
        exact ⟨congrArg (fun waiting => waiting.erase thread) halike.1, halike.2⟩
      next => cases hnext

/-- While the two are alike, the manual event of the pair is a manual event with
those calls. -/
theorem step_manual {s next : ReaderEvents} {action : EventAction} (halike : s.Alike)
    (hstep : s.step viaSet viaReset action = .ok next) :
    s.manual.step action = .ok next.manual := by
  have hmanual : s.manual.m_hEvent.waiting = s.reader.m_hEvent.waiting := halike.1.symm
  cases action with
  | set chosen =>
      simp only [step] at hstep
      split at hstep
      next =>
        cases hstep
        rfl
      next => cases hstep
  | reset =>
      cases hstep
      rfl
  | wait thread =>
      simp only [step] at hstep
      simp only [SHManualEvent.step, hmanual]
      split at hstep
      next => cases hstep
      next hin =>
        rw [if_neg hin]
        split at hstep <;>
        · cases hstep
          rfl
  | giveUp thread =>
      simp only [step] at hstep
      simp only [SHManualEvent.step, hmanual]
      split at hstep
      next hin =>
        cases hstep
        rw [if_pos hin]
      next => cases hstep

/-- The manual event of a pair that stays alike runs like a manual event. -/
theorem run_manual {s t : ReaderEvents} {actions : List EventAction}
    (halike : Always (step viaSet viaReset) Alike s actions)
    (hrun : run (step viaSet viaReset) s actions = .ok t) :
    run SHManualEvent.step s.manual actions = .ok t.manual := by
  induction actions generalizing s with
  | nil =>
      cases hrun
      rfl
  | cons action rest ih =>
      obtain ⟨next, hnext, hrest⟩ := run_cons_iff.mp hrun
      rw [run_cons_ok (step_manual halike.1 hnext)]
      exact ih (halike.2 next hnext) hrest

/-- In a run that stays alike, nobody waits for the reader event after a `Set` and
before the next `Reset`. -/
theorem waiting_nil_after_set {s t : ReaderEvents} {before after : List EventAction}
    {chosen : DWORD}
    (halike : Always (step viaSet viaReset) Alike s (before ++ .set chosen :: after))
    (hreset : .reset ∉ after)
    (hrun : run (step viaSet viaReset) s (before ++ .set chosen :: after) = .ok t) :
    t.reader.m_hEvent.waiting = [] := by
  have hmanual := run_manual halike hrun
  obtain ⟨middle, hbefore, hrest⟩ := run_append_iff.mp hmanual
  obtain ⟨_, hset, hafter⟩ := run_cons_iff.mp hrest
  cases hset
  rw [(halike.last hrun).1]
  exact ((middle.set_releases_all chosen after hreset).last hafter).2

end Slots

/-- One signal of the reader event is not enough for two waits. -/
theorem not_alike_two_waits {viaSet : DWORD → SHAutoEvent → SHAutoEvent}
    {viaReset : SHAutoEvent → SHAutoEvent} {s : ReaderEvents} {first second : DWORD}
    (hmanual : s.manual.m_hEvent.signaled = true) :
    ¬ Always (step viaSet viaReset) Alike s [.wait first, .wait second] := by
  intro halways
  have halike := halways.head
  have hwaiting : s.reader.m_hEvent.waiting = [] := by
    rw [halike.1, s.manual.m_hEvent.idle hmanual]
  obtain ⟨hfirst, hrest⟩ :=
    (always_iff_meets (fun _ action halike => alike_step_iff action halike) halike).mp halways
  obtain ⟨hopen, hsignal⟩ := hfirst (by simp [hwaiting])
  have hreader : s.reader.wait first = ⟨⟨false, [], nofun⟩, s.reader.isOpen⟩ := by
    simp [SHAutoEvent.wait, KernelEvent.waitForSingleObject, hsignal.trans hmanual, hwaiting]
  have hkeeps : s.manual.wait first = s.manual := by
    simp [SHManualEvent.wait, KernelEvent.waitForSingleObject, hmanual]
  have hstep : step viaSet viaReset s (.wait first) =
      .ok ⟨⟨⟨false, [], nofun⟩, s.reader.isOpen⟩, s.manual, s.failed⟩ := by
    simp [step, hwaiting, hopen, hreader, hkeeps]
  -- the first wait took the signal, of the auto-reset event only
  obtain ⟨hsecond, -⟩ := hrest _ hstep
  obtain ⟨-, hsignal⟩ := hsecond List.not_mem_nil
  rw [hmanual] at hsignal
  cases hsignal

end ReaderEvents

end HostedPumpkin
