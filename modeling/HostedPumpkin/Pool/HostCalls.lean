import HostedPumpkin.Host.ThreadCounts
import HostedPumpkin.Pool.Steps

/-!
The pool and the host side by side. A step of the pool is at most one call of
the `HostContext`, so what holds in every run of host calls holds of the host in
every run of the pool.
-/

namespace HostedPumpkin

namespace Worker

/-- `ResetContextFor` is the one statement of a worker that changes the host. -/
theorem step_host {p p' : DomainPool} {w w' : Worker} {input : WorkerInput}
    (h : w.step p input = .ok (p', w')) :
    (input = .next ∧ w.pc = .resetCounters ∧
      p' = p.resetCountersForAppDomain (p.heap w.myPoolDomain).domainId) ∨
    (p'.host = p.host ∧ ¬ (input = .next ∧ w.pc = .resetCounters)) := by
  cases input with
  | next =>
      simp only [step] at h
      cases hpc : w.pc with
      | resetCounters =>
          simp only [next, hpc] at h
          cases h
          exact Or.inl ⟨rfl, rfl, rfl⟩
      | recycle caller stage =>
          simp only [next, hpc] at h
          obtain ⟨⟨_, _, _, _, _, _, rfl⟩, -⟩ := recycleStep_ok h
          exact Or.inr ⟨rfl, by simp⟩
      | _ =>
          simp only [next, hpc] at h
          repeat' split at h
          all_goals cases h
          all_goals exact Or.inr ⟨rfl, by simp⟩
  | sandbox appDomain | finished outcome =>
      simp only [step] at h
      split at h
      all_goals cases h
      exact Or.inr ⟨rfl, by simp⟩
  | throws message | aborted message =>
      cases step_thrown ⟨message, by simp⟩ h with
      | inner | outer | dies => exact Or.inr ⟨rfl, by simp⟩

end Worker

namespace PoolSystem

/-- The call of the host a step of the pool makes. -/
def hostCall (s : PoolSystem) : PoolAction → Option HostOp
  | .worker thread .next =>
      match s.workers thread with
      | some w =>
          if w.pc = .resetCounters then
            some (.rawResetCountersForAppDomain (s.pool.heap w.myPoolDomain).domainId.toUInt32)
          else none
      | none => none
  | .watchdog .next => if s.watchdog.pc = .getMessage then some .rawGetLastMessage else none
  | .host op => some op
  | _ => none

/-- What a step did to the host. -/
def HostStep (s : PoolSystem) (a : PoolAction) (s' : PoolSystem) : Prop :=
  match s.hostCall a with
  | some op => s.pool.host.step op = .ok s'.pool.host
  | none => s'.pool.host = s.pool.host

variable {s s' : PoolSystem}

theorem hostStep_of_none {a : PoolAction} (hcall : s.hostCall a = none)
    (h : s'.pool.host = s.pool.host) : HostStep s a s' := by
  simp only [HostStep, hcall]
  exact h

theorem hostStep_of_some {a : PoolAction} {op : HostOp} (hcall : s.hostCall a = some op)
    (h : s.pool.host.step op = .ok s'.pool.host) : HostStep s a s' := by
  simp only [HostStep, hcall]
  exact h

theorem HostStep.cases {a : PoolAction} (h : HostStep s a s') :
    (s.hostCall a = none ∧ s'.pool.host = s.pool.host) ∨
      ∃ op, s.hostCall a = some op ∧ s.pool.host.step op = .ok s'.pool.host := by
  unfold HostStep at h
  split at h
  next op hcall => exact Or.inr ⟨op, hcall, h⟩
  next hcall => exact Or.inl ⟨hcall, h⟩

theorem submitterNext_host {call : Nat} {submitter : Submitter}
    (h : s.submitterNext call submitter = .ok s') : s'.pool.host = s.pool.host := by
  obtain ⟨_, _, _, _, _, hpool⟩ := submitterNext_pool h
  rw [hpool]

theorem hostCall_watchdog (hpc : s.watchdog.pc ≠ .getMessage) :
    s.hostCall (.watchdog .next) = none := if_neg hpc

theorem watchdogNext_hostStep (h : s.watchdogNext = .ok s') :
    HostStep s (.watchdog .next) s' := by
  cases hpc : s.watchdog.pc with
  | getMessage =>
      have hcall : s.hostCall (.watchdog .next) = some .rawGetLastMessage := if_pos hpc
      obtain ⟨host, hostEvent, hread, hnext⟩ := watchdogNext_getMessage hpc h
      have hhost : s'.pool.host = host := by
        obtain ⟨-, rfl⟩ | ⟨event, -, rfl⟩ := hnext
        all_goals rfl
      apply hostStep_of_some hcall
      rw [hhost, HostContext.step, hread]
      rfl
  | abortExausted poolDomain =>
      obtain ⟨thread, w, -, rfl⟩ := watchdogNext_abortExausted hpc h
      exact hostStep_of_none (hostCall_watchdog (by simp [hpc])) rfl
  | abortTimeout index poolDomain =>
      obtain ⟨thread, w, -, -, rfl⟩ := watchdogNext_abortTimeout hpc h
      exact hostStep_of_none (hostCall_watchdog (by simp [hpc])) rfl
  | creating index ensuring stage =>
      obtain ⟨next, left, pc, hnext, rfl, -⟩ := watchdogNext_creating hpc h
      obtain ⟨_, hpool⟩ := createStep_pool hnext
      have hhost : next.pool.host = s.pool.host := by rw [hpool]
      exact hostStep_of_none (hostCall_watchdog (by simp [hpc])) hhost
  | _ =>
      apply hostStep_of_none (hostCall_watchdog (by simp [hpc]))
      simp only [watchdogNext, hpc] at h
      repeat' split at h
      all_goals cases h
      all_goals rfl

theorem step_hostStep {a : PoolAction} (h : s.step a = .ok s') : HostStep s a s' := by
  obtain ⟨t, w, p, w', hw, hmove, rfl⟩ | hother := step_ok h
  · obtain ⟨input, rfl, hstep⟩ | ⟨rfl, hdies⟩ | ⟨rfl, hsettles⟩ := hmove
    · obtain ⟨rfl, hpc, rfl⟩ | ⟨hhost, hidle⟩ := Worker.step_host hstep
      · have hcall : s.hostCall (.worker t .next) = some (.rawResetCountersForAppDomain
            (s.pool.heap w.myPoolDomain).domainId.toUInt32) := by
          simp only [hostCall, hw, hpc, if_true]
        exact hostStep_of_some hcall rfl
      · apply hostStep_of_none _ hhost
        cases input with
        | next =>
            have hpc : w.pc ≠ .resetCounters := fun hpc => hidle ⟨rfl, hpc⟩
            simp only [hostCall, hw, hpc, if_false]
        | sandbox | finished | throws | aborted => rfl
    · obtain ⟨-, rfl, -⟩ := Worker.dieRudely_ok hdies
      exact hostStep_of_none rfl rfl
    · obtain ⟨-, rfl, -⟩ := Worker.settle_ok hsettles
      exact hostStep_of_none rfl rfl
  · cases hother with
    | watchdog _ hnext => exact watchdogNext_hostStep hnext
    | submitter call submitter _ _ hnext =>
        exact hostStep_of_none rfl (submitterNext_host hnext)
    | host op host _ hhost => exact hostStep_of_some rfl hhost
    | interrupted | submit | foreignAbort | tick => exact hostStep_of_none rfl rfl

end PoolSystem

end HostedPumpkin
