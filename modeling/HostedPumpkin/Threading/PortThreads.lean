import Mathlib.Data.UInt
import HostedPumpkin.Library.Retirement
import HostedPumpkin.Library.Runs
import HostedPumpkin.Host.Context

/-!
The threads of one completion port, in `CompletionPortThreadFunc`. The threads
of the port share a counter; the counters of the manager are shared with the
threads of all ports, whose operations on them are arbitrary here. Every
`Interlocked` operation is a step of its own.
-/

namespace HostedPumpkin

open Runs

/-- `ERROR_ABANDONED_WAIT_0`. -/
def errorAbandonedWait0 : DWORD := 735

/-- What `GetQueuedCompletionStatus` returns, with the last error. -/
structure CompletionStatus where
  success : Bool
  dwError : DWORD
deriving DecidableEq

/-- The port was closed. -/
def CompletionStatus.Abandoned (status : CompletionStatus) : Prop :=
  status.success = false ∧ status.dwError = errorAbandonedWait0

instance (status : CompletionStatus) : Decidable status.Abandoned :=
  inferInstanceAs (Decidable (_ ∧ _))

/-- What a thread does next. -/
inductive PortThread where
  | countThread
  | countOnPort
  | countBusy
  | notBusy
  | waiting
  | busyAgain (status : CompletionStatus)
  | complete (status : CompletionStatus)
  | askPending
  | retire
  | rollBack
  | leave
  | leaveBusy
  | ended
deriving DecidableEq

/-- The thread counted itself on the port. -/
def PortThread.Entered : PortThread → Prop
  | .countThread | .countOnPort => False
  | _ => True

/-- `stayInPool` is false. -/
def PortThread.Leaves : PortThread → Prop
  | .leave | .leaveBusy | .ended => True
  | _ => False

/-- The counters of the manager, the counter of the port and the threads that
were created for it. -/
structure PortPool where
  numThreads : DWORD
  numBusyThreads : DWORD
  minThreads : DWORD
  threadsPerPort : DWORD
  threads : List PortThread
deriving DecidableEq

inductive PortPoolFault where
  | disabled
deriving DecidableEq, Repr

/-- `thread` is the next operation of a thread of its own; the system answers in
`getQueuedCompletionStatus` and `getThreadIOPendingFlag`. -/
inductive PortPoolAction where
  | createCompletionPortThread (created : Bool)
  | thread (i : Nat)
  | getQueuedCompletionStatus (i : Nat) (status : CompletionStatus)
  | getThreadIOPendingFlag (i : Nat) (ioPending : Bool)
  | otherPorts (numThreads numBusyThreads : DWORD)
  | setMinThreads (dwMinIOCompletionThreads : DWORD)
deriving DecidableEq

namespace PortPool

/-- A port that `CreateIoCompletionPort` just entered in the table. -/
def initial (minThreads : DWORD) : PortPool := ⟨0, 0, minThreads, 0, []⟩

/-- The thread goes on to another point. -/
def goTo (s : PortPool) (i : Nat) (pc : PortThread) : PortPool :=
  { s with threads := s.threads.set i pc }

/-- The next operation of a thread in `CompletionPortThreadFunc`. -/
def threadStep (s : PortPool) (i : Nat) : PortThread → Except PortPoolFault PortPool
  | .countThread => .ok ({ s with numThreads := s.numThreads + 1 }.goTo i .countOnPort)
  | .countOnPort => .ok ({ s with threadsPerPort := s.threadsPerPort + 1 }.goTo i .countBusy)
  | .countBusy => .ok ({ s with numBusyThreads := s.numBusyThreads + 1 }.goTo i .notBusy)
  | .notBusy => .ok ({ s with numBusyThreads := s.numBusyThreads - 1 }.goTo i .waiting)
  | .busyAgain status =>
      .ok ({ s with numBusyThreads := s.numBusyThreads + 1 }.goTo i (.complete status))
  | .complete status =>
      -- `OnComplete` changes nothing here
      .ok (s.goTo i (if status.Abandoned then .leave else .askPending))
  | .retire =>
      let threadsPerPort := s.threadsPerPort - 1
      .ok ({ s with threadsPerPort }.goTo i (if threadsPerPort > 0 then .leave else .rollBack))
  | .rollBack => .ok ({ s with threadsPerPort := s.threadsPerPort + 1 }.goTo i .notBusy)
  | .leave => .ok ({ s with numThreads := s.numThreads - 1 }.goTo i .leaveBusy)
  | .leaveBusy => .ok ({ s with numBusyThreads := s.numBusyThreads - 1 }.goTo i .ended)
  | .waiting | .askPending | .ended => .error .disabled

def step (s : PortPool) : PortPoolAction → Except PortPoolFault PortPool
  | .createCompletionPortThread created =>
      .ok (if created then { s with threads := s.threads ++ [.countThread] } else s)
  | .thread i =>
      match s.threads[i]? with
      | none => .error .disabled
      | some pc => s.threadStep i pc
  | .getQueuedCompletionStatus i status =>
      if s.threads[i]? = some .waiting then .ok (s.goTo i (.busyAgain status))
      else .error .disabled
  | .getThreadIOPendingFlag i ioPending =>
      if s.threads[i]? = some .askPending then
        .ok (s.goTo i (if !ioPending && s.numThreads > s.minThreads then .retire else .notBusy))
      else .error .disabled
  | .otherPorts numThreads numBusyThreads => .ok { s with numThreads, numBusyThreads }
  | .setMinThreads dwMinIOCompletionThreads =>
      .ok { s with minThreads := dwMinIOCompletionThreads }

/-- Once a thread has entered the pool, some thread that entered it does not
leave. -/
def Served (s : PortPool) : Prop :=
  (∃ pc ∈ s.threads, pc.Entered) → ∃ pc ∈ s.threads, pc.Entered ∧ ¬ pc.Leaves

end PortPool

/-- How far a thread is with leaving: it goes if the counter of the port shows
another thread, and rolls back if it reads zero. -/
def PortThread.phase : PortThread → Retirement.Phase
  | .countThread | .countOnPort => .outside
  | .rollBack => .undecided
  | .leave | .leaveBusy | .ended => .left
  | _ => .member

theorem PortThread.phase_eq_outside {pc : PortThread} : pc.phase = .outside ↔ ¬ pc.Entered := by
  cases pc <;> simp [phase, Entered]

theorem PortThread.phase_eq_left {pc : PortThread} : pc.phase = .left ↔ pc.Leaves := by
  cases pc <;> simp [phase, Leaves]

/-- The port was open when the thread was last answered. -/
def PortThread.SawOpen : PortThread → Prop
  | .busyAgain status | .complete status => ¬ status.Abandoned
  | _ => True

/-- The system does not answer that the port was closed. -/
def PortPoolAction.KeepsOpen : PortPoolAction → Prop
  | .getQueuedCompletionStatus _ status => ¬ status.Abandoned
  | _ => True

instance (action : PortPoolAction) : Decidable action.KeepsOpen := by
  cases action <;> unfold PortPoolAction.KeepsOpen <;> infer_instance

namespace PortPool

/-- The threads of the port as a group that counts itself. -/
def group (s : PortPool) : Retirement.Group DWORD :=
  ⟨s.threadsPerPort, s.threads.map PortThread.phase⟩

theorem getElem?_group {s : PortPool} {i : Nat} {pc : PortThread}
    (hi : s.threads[i]? = some pc) : s.group.phases[i]? = some pc.phase := by
  simp [group, hi]

theorem group_goTo (s : PortPool) (i : Nat) (pc : PortThread) :
    (s.goTo i pc).group = ⟨s.threadsPerPort, s.group.phases.set i pc.phase⟩ := by
  simp [group, goTo, List.map_set]

/-- A step inside one phase. -/
theorem group_goTo_same {s : PortPool} {i : Nat} {old pc : PortThread}
    (hi : s.threads[i]? = some old) (hphase : pc.phase = old.phase) :
    (s.goTo i pc).group = s.group := by
  have hget := getElem?_group hi
  rw [group_goTo, hphase]
  rw [List.getElem?_eq_some_iff] at hget
  obtain ⟨hlt, hget⟩ := hget
  rw [← hget, List.set_getElem_self]
  rfl

theorem threadStep_group {s next : PortPool} {i : Nat} {pc : PortThread}
    (hi : s.threads[i]? = some pc) (hopen : pc.SawOpen) (hstep : s.threadStep i pc = .ok next) :
    next.group = s.group ∨ Retirement.Step s.group next.group := by
  have hphase := getElem?_group hi
  cases pc with
  | countThread | countBusy | notBusy | busyAgain | leave | leaveBusy =>
      cases hstep
      left
      exact group_goTo_same (s := { s with numThreads := _, numBusyThreads := _ }) hi rfl
  | countOnPort =>
      cases hstep
      right
      rw [group_goTo]
      exact .join hphase
  | complete status =>
      cases hstep
      left
      rw [if_neg hopen]
      exact group_goTo_same hi rfl
  | retire =>
      cases hstep
      right
      rw [group_goTo]
      by_cases hzero : s.threadsPerPort - 1 = 0
      · have hstay : ¬ s.threadsPerPort - 1 > 0 := by simp [hzero]
        rw [if_neg hstay]
        exact .readZero hphase hzero
      · have hgo : s.threadsPerPort - 1 > 0 := UInt32.pos_iff_ne_zero.mpr hzero
        rw [if_pos hgo]
        exact .leave hphase hzero
  | rollBack =>
      cases hstep
      right
      rw [group_goTo]
      exact .rollBack hphase
  | waiting | askPending | ended => cases hstep

/-- While the port is open, a step of the pool is a step of the group or none. -/
theorem step_group {s next : PortPool} {action : PortPoolAction}
    (hopen : ∀ pc ∈ s.threads, pc.SawOpen) (hstep : s.step action = .ok next) :
    next.group = s.group ∨ Retirement.Step s.group next.group := by
  cases action with
  | createCompletionPortThread created =>
      cases hstep
      cases created with
      | false => exact Or.inl rfl
      | true =>
          right
          have hgroup : (PortPool.group { s with threads := s.threads ++ [.countThread] }) =
              ⟨s.group.counter, s.group.phases ++ [.outside]⟩ := by
            simp [group, PortThread.phase]
          simp only [if_true, hgroup]
          exact .arrive s.group
  | thread i =>
      simp only [step] at hstep
      split at hstep
      next => cases hstep
      next pc hi => exact threadStep_group hi (hopen pc (List.mem_of_getElem? hi)) hstep
  | getQueuedCompletionStatus i status =>
      simp only [step] at hstep
      split at hstep
      next hi =>
        cases hstep
        exact Or.inl (group_goTo_same hi rfl)
      next => cases hstep
  | getThreadIOPendingFlag i ioPending =>
      simp only [step] at hstep
      split at hstep
      next hi =>
        cases hstep
        left
        apply group_goTo_same hi
        split <;> rfl
      next => cases hstep
  | otherPorts | setMinThreads =>
      cases hstep
      exact Or.inl rfl

theorem sawOpen_goTo {s : PortPool} {i : Nat} {pc : PortThread}
    (hopen : ∀ old ∈ s.threads, old.SawOpen) (hpc : pc.SawOpen) :
    ∀ old ∈ (s.goTo i pc).threads, old.SawOpen := by
  intro old hold
  rcases List.mem_or_eq_of_mem_set hold with hin | rfl
  · exact hopen old hin
  · exact hpc

/-- No thread learns that the port was closed. -/
theorem sawOpen_step {s next : PortPool} {action : PortPoolAction}
    (hopen : ∀ pc ∈ s.threads, pc.SawOpen) (haction : action.KeepsOpen)
    (hstep : s.step action = .ok next) : ∀ pc ∈ next.threads, pc.SawOpen := by
  cases action with
  | createCompletionPortThread created =>
      cases hstep
      cases created with
      | false => exact hopen
      | true =>
          intro pc hpc
          rcases List.mem_append.mp hpc with hold | hnew
          · exact hopen pc hold
          · rw [List.mem_singleton.mp hnew]
            trivial
  | thread i =>
      simp only [step] at hstep
      split at hstep
      next => cases hstep
      next pc hi =>
        have hpc := hopen pc (List.mem_of_getElem? hi)
        cases pc with
        | busyAgain status =>
            cases hstep
            exact sawOpen_goTo hopen hpc
        | complete status =>
            cases hstep
            apply sawOpen_goTo hopen
            split <;> trivial
        | retire =>
            cases hstep
            apply sawOpen_goTo hopen
            split <;> trivial
        | waiting | askPending | ended => cases hstep
        | countThread | countOnPort | countBusy | notBusy | rollBack | leave | leaveBusy =>
            cases hstep
            exact sawOpen_goTo hopen trivial
  | getQueuedCompletionStatus i status =>
      simp only [step] at hstep
      split at hstep
      next =>
        cases hstep
        exact sawOpen_goTo hopen haction
      next => cases hstep
  | getThreadIOPendingFlag i ioPending =>
      simp only [step] at hstep
      split at hstep
      next =>
        cases hstep
        apply sawOpen_goTo hopen
        split <;> trivial
      next => cases hstep
  | otherPorts | setMinThreads =>
      cases hstep
      exact hopen

/-- The counter of the port counts the threads that neither leave nor roll back,
and somebody stays. -/
structure Counted (s : PortPool) : Prop where
  counts : s.group.Counts
  stays : s.group.Stays
  sawOpen : ∀ pc ∈ s.threads, pc.SawOpen

theorem Counted.step {s next : PortPool} {action : PortPoolAction} (h : s.Counted)
    (haction : action.KeepsOpen) (hstep : s.step action = .ok next) : next.Counted := by
  have hopen := sawOpen_step h.sawOpen haction hstep
  rcases step_group h.sawOpen hstep with hsame | hgroup
  · refine ⟨?_, ?_, hopen⟩
    · rw [hsame]
      exact h.counts
    · rw [hsame]
      exact h.stays
  · exact ⟨h.counts.step hgroup, h.stays.step h.counts hgroup, hopen⟩

theorem counted_initial (minThreads : DWORD) : (initial minThreads).Counted := by
  refine ⟨(zero_nsmul (1 : DWORD)).symm, ?_, nofun⟩
  rintro ⟨phase, hphase, -⟩
  cases hphase

/-- A group in which somebody stays is a port that is served. -/
theorem Counted.served {s : PortPool} (h : s.Counted) : s.Served := by
  rintro ⟨pc, hpc, hentered⟩
  have hjoined : ∃ phase ∈ s.group.phases, phase ≠ .outside := by
    refine ⟨pc.phase, List.mem_map_of_mem hpc, ?_⟩
    intro houtside
    exact PortThread.phase_eq_outside.mp houtside hentered
  obtain ⟨phase, hphase, hjoined, hstays⟩ := h.stays hjoined
  obtain ⟨stayer, hstayer, rfl⟩ := List.mem_map.mp hphase
  refine ⟨stayer, hstayer, ?_, ?_⟩
  · by_contra hout
    exact hjoined (PortThread.phase_eq_outside.mpr hout)
  · intro hleaves
    exact hstays (PortThread.phase_eq_left.mpr hleaves)

/-- In every run in which the port is not closed, from the moment a thread entered
the pool there is a thread of the port that does not leave. -/
theorem port_never_abandoned (minThreads : DWORD) (actions : List PortPoolAction)
    (hopen : ∀ action ∈ actions, action.KeepsOpen) :
    Always step Served (initial minThreads) actions := by
  have hcounted : Always step Counted (initial minThreads) actions :=
    always_of_meets (fun s action next h haction => h.step haction)
      (counted_initial minThreads) (meets_of_mem hopen)
  exact hcounted.imp (fun s h => h.served)

/-- Two threads retire at the same time: one leaves, the other one rolls back. -/
theorem port_never_abandoned_two :
    let enter (i : Nat) : List PortPoolAction :=
      [.thread i, .thread i, .thread i, .thread i, .getQueuedCompletionStatus i ⟨false, 258⟩,
        .thread i, .thread i, .getThreadIOPendingFlag i false]
    Always step Served (initial 0)
      (.createCompletionPortThread true :: .createCompletionPortThread true ::
        (enter 0 ++ enter 1 ++ [.thread 0, .thread 1, .thread 1])) := by
  intro enter
  exact port_never_abandoned 0 _ (by decide)

end PortPool

end HostedPumpkin
