import HostedPumpkin.Pool.Steps

/-!
`numberOfThreadsInPool`. A worker adds itself when it starts and is taken out by
`RecycleDomain`, which it reaches from its loop and from the catch block around it.
It leaves its loop in other ways too, and after `RecycleDomain` in the loop it goes
on. The pool is put together with what each thread has added to the counter, and
the counter is right as long as no worker leaves its loop with 1 or stays with 0.
-/

namespace HostedPumpkin

open Runs

/-- The worker is in the loop in which it takes snippets. -/
def WorkerPc.inLoop : WorkerPc → Bool
  | .unstarted | .incrementThreads | .createSandbox | .setDomainId
  | .recycle .outerCatch _ | .ended => false
  | .loopHead | .resetAborting | .resetCounters | .take | .taken | .incrementUsages
  | .recordStart | .writeStart | .running | .readEnd | .clearStart | .catchAbort _
  | .catchException _ | .getThreadCount | .getMemoryUsage | .decide | .deliver
  | .recycleCheck | .collect | .recycle .loop _ => true

namespace Worker

/-- Between the increment and the start of the loop, or between the end of the loop,
as an exception or the test at its head ends it, and the decrement. -/
def updating (w : Worker) : Bool :=
  match w.pc with
  | .createSandbox | .setDomainId => true
  | .recycle _ .clearSlot | .recycle _ .unloadDomain => true
  | .recycle .outerCatch .checkZombies | .recycle .outerCatch .decrementThreads => true
  | .loopHead => w.slotCleared
  | _ => false

/-- What a step of the worker adds to `numberOfThreadsInPool`. -/
def countChange (w : Worker) : WorkerInput → Int
  | .next =>
      match w.pc with
      | .incrementThreads => 1
      | .recycle _ .decrementThreads => -1
      | _ => 0
  | .sandbox _ | .finished _ | .throws _ | .aborted _ => 0

/-- `RecycleDomain` escalates to `Exit`. -/
def escalates (p : DomainPool) : Bool := maxZombies > 0 && p.getNumberOfZombies > maxZombies

/-- The next statement keeps the count: a worker whose loop ends at its head has
been taken out before, one that goes on has not, `Take` does not end the loop, and
the catch block takes out the worker unless that has been done. -/
def KeepsCount (p : DomainPool) (w : Worker) (balance : Int) : Prop :=
  match w.pc with
  | .loopHead => balance = 0 ↔ p.isCompleted = true
  | .take => p.isCompleted = false
  | .recycle .outerCatch .checkZombies => balance = 0 ↔ escalates p = true
  | _ => True

instance (p : DomainPool) (w : Worker) (balance : Int) : Decidable (w.KeepsCount p balance) := by
  unfold KeepsCount
  split <;> infer_instance

end Worker

namespace PoolSystem

/-- No worker is between an update of the counter and the end of its loop that the
update stands for. -/
def Settled (s : PoolSystem) : Prop :=
  ∀ t < s.threads, ∀ w ∈ s.workers t, w.updating = false

instance (s : PoolSystem) : Decidable s.Settled :=
  inferInstanceAs (Decidable (∀ t < s.threads, ∀ w ∈ s.workers t, w.updating = false))

/-- The threads that can still take snippets. -/
def takers (s : PoolSystem) : Finset ThreadId :=
  (Finset.range s.threads).filter (fun t => (s.workers t).any (fun w => w.pc.inLoop))

/-- The counter is never negative. When the workers have settled it is the number of
those that can take snippets, and the two tests find a shortage when there is one. -/
structure CountExact (s : PoolSystem) : Prop where
  nonneg : 0 ≤ s.pool.numberOfThreadsInPool
  exact : s.Settled → s.pool.numberOfThreadsInPool = (s.takers.card : Int)
  submitTest : s.Settled → ∀ call submitter, s.submitters call = some submitter →
    submitter.pc = .readCount →
      (s.submitterNext call submitter =
          .ok (s.setSubmitter call { submitter with pc := .fillSlots }) ↔
        s.takers.card < s.pool.numberOfDomainsInPool)
  watchdogTest : s.Settled → s.watchdog.pc = .ensureOne →
    (s.watchdogNext = .ok (s.setWatchdog .ensureSlot) ↔ s.takers = ∅)

end PoolSystem

/-- The pool with what each thread has added to the counter, less what it has taken
out. -/
structure CountSystem where
  system : PoolSystem
  balance : ThreadId → Int

namespace CountSystem

def balanceAfter (s : CountSystem) : PoolAction → ThreadId → Int
  | .worker thread input =>
      match s.system.workers thread with
      | some w => Function.update s.balance thread (s.balance thread + w.countChange input)
      | none => s.balance
  | _ => s.balance

def step (s : CountSystem) (a : PoolAction) : Except PoolFault CountSystem :=
  match s.system.step a with
  | .ok system => .ok ⟨system, s.balanceAfter a⟩
  | .error fault => .error fault

def initial (numberOfDomainsInPool : Nat) : CountSystem :=
  ⟨PoolSystem.initial numberOfDomainsInPool, fun _ => 0⟩

/-- The condition on a step: a statement keeps the count, and no worker that counts
is killed without running its code. -/
def KeepsCount (s : CountSystem) : PoolAction → Prop
  | .worker thread .next =>
      ∀ w ∈ s.system.workers thread, w.KeepsCount s.system.pool (s.balance thread)
  | .rudeAbort thread => s.balance thread = 0
  | _ => True

instance (s : CountSystem) : (a : PoolAction) → Decidable (s.KeepsCount a)
  | .worker thread .next =>
      inferInstanceAs (Decidable (∀ w ∈ s.system.workers thread,
        w.KeepsCount s.system.pool (s.balance thread)))
  | .rudeAbort thread => inferInstanceAs (Decidable (s.balance thread = 0))
  | .watchdog _ | .worker _ (.throws _) | .worker _ (.aborted _) | .worker _ (.sandbox _)
  | .worker _ (.finished _) | .submit _ | .submitter _ | .foreignAbort _ | .settle _ | .host _
  | .tick _ => isTrue trivial

end CountSystem

/-! What a step of a worker adds to the counter, and that no other step touches it. -/

namespace Worker

variable {p p' : DomainPool} {w w' : Worker}

theorem next_count (h : w.next p = .ok (p', w')) :
    p'.numberOfThreadsInPool = p.numberOfThreadsInPool + w.countChange .next := by
  cases hpc : w.pc with
  | recycle caller stage =>
      simp only [next, hpc] at h
      simp only [countChange, hpc]
      cases stage with
      | decrementThreads =>
          cases h
          rfl
      | checkZombies | joinWatchdog | clearSlot =>
          simp only [recycleStep] at h
          split at h
          all_goals cases h
          all_goals exact (Int.add_zero _).symm
      | _ =>
          cases h
          exact (Int.add_zero _).symm
  | incrementThreads =>
      simp only [next, hpc] at h
      cases h
      simp only [countChange, hpc]
  | _ =>
      simp only [next, hpc] at h
      simp only [countChange, hpc]
      repeat' split at h
      all_goals cases h
      all_goals exact (Int.add_zero _).symm

theorem step_count {input : WorkerInput} (h : w.step p input = .ok (p', w')) :
    p'.numberOfThreadsInPool = p.numberOfThreadsInPool + w.countChange input := by
  cases input with
  | next => exact next_count h
  | sandbox | finished =>
      simp only [step] at h
      split at h
      all_goals cases h
      exact (Int.add_zero _).symm
  | throws message | aborted message =>
      cases step_thrown ⟨message, by simp⟩ h with
      | inner | outer | dies => exact (Int.add_zero _).symm

end Worker

namespace PoolSystem

variable {s s' : PoolSystem}

theorem watchdogNext_count (h : s.watchdogNext = .ok s') :
    s'.pool.numberOfThreadsInPool = s.pool.numberOfThreadsInPool := by
  obtain ⟨_, _, _, _, _, _, hpool⟩ := watchdogNext_pool h
  rw [hpool]

theorem submitterNext_count {call : Nat} {submitter : Submitter}
    (h : s.submitterNext call submitter = .ok s') :
    s'.pool.numberOfThreadsInPool = s.pool.numberOfThreadsInPool := by
  obtain ⟨_, _, _, _, _, hpool⟩ := submitterNext_pool h
  rw [hpool]

theorem OtherStep.count {a : PoolAction} (h : OtherStep s a s') :
    s'.pool.numberOfThreadsInPool = s.pool.numberOfThreadsInPool := by
  cases h with
  | watchdog _ hnext => exact watchdogNext_count hnext
  | submitter call submitter _ hsubmitter hnext => exact submitterNext_count hnext
  | interrupted | submit | foreignAbort | host | tick => rfl

end PoolSystem

/-! What a worker has added to the counter, by where it is. -/

namespace Worker

variable {p p' : DomainPool} {w w' : Worker} {balance : Int}

/-- A worker counts from its increment until `RecycleDomain` takes it out. -/
def Balanced (w : Worker) (balance : Int) : Prop :=
  match w.pc with
  | .unstarted | .incrementThreads => balance = 0 ∧ w.slotCleared = false
  | .loopHead => balance = if w.slotCleared then 0 else 1
  | .recycle .loop .clearSlot => balance = 0
  | .recycle .loop .unloadDomain => balance = 0 ∧ w.slotCleared = true
  | .recycle .outerCatch .checkZombies => balance = 0 ∨ balance = 1
  | .recycle .outerCatch .decrementThreads => balance = 1
  | .recycle .outerCatch _ | .ended => balance = 0
  | _ => balance = 1 ∧ w.slotCleared = false

theorem Balanced.range (h : w.Balanced balance) : balance = 0 ∨ balance = 1 := by
  unfold Balanced at h
  split at h
  all_goals grind

theorem recycleStep_balanced {caller : RecycleCaller} {stage : RecycleStage}
    (hpc : w.pc = .recycle caller stage) (hw : w.Balanced balance)
    (hkeeps : w.KeepsCount p balance) (h : w.recycleStep p caller stage = .ok (p', w')) :
    w'.Balanced (balance + w.countChange .next) := by
  cases stage with
  | checkZombies =>
      simp only [recycleStep] at h
      cases caller
      · split at h
        all_goals cases h
        all_goals simpa [Balanced, countChange, hpc] using hw
      · simp only [KeepsCount, hpc, escalates] at hkeeps
        simp only [Balanced, hpc] at hw
        split at h
        next hescalates =>
          cases h
          simpa [Balanced, countChange, hpc] using hkeeps.mpr hescalates
        next hstays =>
          cases h
          have hne : balance ≠ 0 := fun hzero => hstays (hkeeps.mp hzero)
          simpa [Balanced, countChange, hpc, hne] using hw
  | clearSlot =>
      simp only [recycleStep] at h
      split at h
      all_goals cases h
      cases caller
      all_goals simpa [Balanced, countChange, hpc] using hw
  | joinWatchdog =>
      simp only [recycleStep] at h
      split at h
      all_goals cases h
      cases caller
      · simp only [Balanced, hpc] at hw
        simp [Balanced, countChange, hpc, afterRecycle, hw]
      · simpa [Balanced, countChange, hpc, afterRecycle] using hw
  | unloadDomain =>
      cases h
      cases caller
      · simp only [Balanced, hpc] at hw
        simp [Balanced, countChange, hpc, afterRecycle, hw]
      · simpa [Balanced, countChange, hpc, afterRecycle] using hw
  | decrementThreads =>
      cases h
      cases caller
      · simp only [Balanced, hpc] at hw
        simp [Balanced, countChange, hpc, hw]
      · simp only [Balanced, hpc] at hw
        simp [Balanced, countChange, hpc, hw]
  | setExiting | completeAdding | interruptWatchdog =>
      cases h
      cases caller
      all_goals simpa [Balanced, countChange, hpc] using hw

theorem enterOuterCatch_balanced (hw : w.Balanced balance) : w.enterOuterCatch.Balanced balance :=
  hw.range

theorem next_balanced (hw : w.Balanced balance) (hkeeps : w.KeepsCount p balance)
    (h : w.next p = .ok (p', w')) : w'.Balanced (balance + w.countChange .next) := by
  cases hpc : w.pc with
  | recycle caller stage =>
      simp only [next, hpc] at h
      exact recycleStep_balanced hpc hw hkeeps h
  | loopHead =>
      simp only [Balanced, hpc] at hw
      simp only [KeepsCount, hpc] at hkeeps
      simp only [next, hpc] at h
      split at h
      next hcompleted =>
        cases h
        simpa [Balanced, countChange, hpc] using hkeeps.mpr hcompleted
      next hmore =>
        cases h
        have hne : balance ≠ 0 := fun hzero => hmore (hkeeps.mp hzero)
        have hheld : w.slotCleared = false := by
          by_contra hcleared
          rw [Bool.not_eq_false] at hcleared
          rw [hcleared, if_pos rfl] at hw
          exact hne hw
        simp [Balanced, countChange, hpc, hw, hheld]
  | take =>
      simp only [Balanced, hpc] at hw
      simp only [KeepsCount, hpc] at hkeeps
      simp only [next, hpc] at h
      split at h
      next snippet rest hqueue =>
        cases h
        simp [Balanced, countChange, hpc, hw]
      next hempty =>
        split at h
        next hadding => simp [DomainPool.isCompleted, hempty, hadding] at hkeeps
        next => cases h
  | incrementThreads =>
      simp only [Balanced, hpc] at hw
      simp only [next, hpc] at h
      cases h
      simp [Balanced, countChange, hpc, hw]
  | deliver =>
      simp only [next, hpc] at h
      have hrange := enterOuterCatch_balanced hw
      simp only [Balanced, hpc] at hw
      simp only [countChange, hpc, Int.add_zero]
      repeat' split at h
      all_goals cases h
      · simpa [Balanced] using hw
      · exact hrange
      · simpa [Balanced] using hw
  | setDomainId | collect =>
      simp only [Balanced, hpc] at hw
      simp only [next, hpc] at h
      cases h
      simp [Balanced, countChange, hpc, hw]
  | unstarted | createSandbox | running | ended =>
      simp only [next, hpc] at h
      cases h
  | _ =>
      simp only [Balanced, hpc] at hw
      simp only [next, hpc, leaveTry] at h
      repeat' split at h
      all_goals cases h
      all_goals simpa [Balanced, countChange, hpc] using hw

theorem thrown_balanced (hw : w.Balanced balance) (h : Thrown p w p' w') :
    w'.Balanced balance := by
  cases h with
  | inner pc hregion hpc =>
      have hone : balance = 1 ∧ w.slotCleared = false := by
        unfold Balanced at hw
        obtain hpc | hpc | hpc | hpc | hpc | hpc := WorkerPc.innerTry_cases hregion
        all_goals simpa [hpc] using hw
      obtain ⟨message, rfl | rfl⟩ := hpc
      all_goals exact hone
  | outer hregion => exact enterOuterCatch_balanced hw
  | dies hregion =>
      have hpc : w.pc = .incrementThreads := by
        cases hpc : w.pc with
        | incrementThreads => rfl
        | recycle caller stage =>
            rw [hpc] at hregion
            cases caller <;> cases hregion
        | _ =>
            rw [hpc] at hregion
            cases hregion
      simp only [Balanced, hpc] at hw
      exact hw.1

theorem step_balanced {input : WorkerInput} (hw : w.Balanced balance)
    (hkeeps : input = .next → w.KeepsCount p balance) (h : w.step p input = .ok (p', w')) :
    w'.Balanced (balance + w.countChange input) := by
  cases input with
  | next => exact next_balanced hw (hkeeps rfl) h
  | sandbox | finished =>
      simp only [step] at h
      split at h
      next hpc =>
        cases h
        simp only [Balanced, hpc] at hw
        simpa [Balanced, countChange] using hw
      next => cases h
  | throws message | aborted message =>
      have hthrown : w'.Balanced balance := thrown_balanced hw (step_thrown ⟨message, by simp⟩ h)
      simpa [countChange] using hthrown

theorem passive_balanced {timeout : Prop} (hw : w.Balanced balance) (h : Passive timeout w w') :
    w'.Balanced balance := by
  obtain ⟨request, rfl⟩ | ⟨hpc, rfl⟩ := h.eq_cases
  · exact hw
  · simp only [Balanced, hpc] at hw
    exact hw

/-- Outside the updates, the workers in their loop count 1 and the others 0. -/
theorem Balanced.eq_of_settled (hw : w.Balanced balance) (hsettled : w.updating = false) :
    balance = if w.pc.inLoop then 1 else 0 := by
  unfold Balanced at hw
  unfold updating at hsettled
  cases hpc : w.pc with
  | recycle caller stage =>
      rw [hpc] at hw hsettled
      cases caller <;> cases stage <;> simp_all [WorkerPc.inLoop]
  | _ => simp_all [WorkerPc.inLoop]

end Worker

namespace CountSystem

/-- The counter is the sum of what the threads have added to it. -/
structure CountInvariant (s : CountSystem) : Prop where
  numbered : PoolSystem.Numbered s.system
  fresh : ∀ t, s.system.workers t = none → s.balance t = 0
  total : s.system.pool.numberOfThreadsInPool = ∑ t ∈ Finset.range s.system.threads, s.balance t
  balanced : ∀ t w, s.system.workers t = some w → w.Balanced (s.balance t)

variable {s s' : CountSystem} {a : PoolAction}

theorem step_ok (h : s.step a = .ok s') :
    s.system.step a = .ok s'.system ∧ s'.balance = s.balanceAfter a := by
  simp only [step] at h
  split at h
  next system hsystem =>
    cases h
    exact ⟨hsystem, rfl⟩
  next => cases h

theorem sum_update_add {n t : Nat} (ht : t < n) (f : Nat → Int) (d : Int) :
    ∑ u ∈ Finset.range n, Function.update f t (f t + d) u = ∑ u ∈ Finset.range n, f u + d := by
  rw [Finset.sum_update_of_mem (Finset.mem_range.mpr ht),
    Finset.sum_eq_add_sum_sdiff_singleton_of_mem (Finset.mem_range.mpr ht) f]
  omega

theorem countInvariant_of_moves (hs : CountInvariant s) (hkeeps : s.KeepsCount a)
    (hbalance : s'.balance = s.balanceAfter a) (hnumbered : PoolSystem.Numbered s'.system)
    (h : PoolSystem.WorkerMoves s.system a s'.system) : CountInvariant s' := by
  obtain ⟨t, w, p, w', hw, hmove, hsystem⟩ := h
  have ht : t < s.system.threads := (hs.numbered.threads t w hw).1
  -- the thread's own balance changes as the counter does, and the others stay
  have hchange : ∃ d, s'.balance = Function.update s.balance t (s.balance t + d) ∧
      p.numberOfThreadsInPool = s.system.pool.numberOfThreadsInPool + d ∧
      w'.Balanced (s.balance t + d) := by
    obtain ⟨input, rfl, hstep⟩ | ⟨rfl, hdies⟩ | ⟨rfl, hsettles⟩ := hmove
    · refine ⟨w.countChange input, ?_, Worker.step_count hstep, ?_⟩
      · rw [hbalance]
        simp only [balanceAfter, hw]
      · apply Worker.step_balanced (hs.balanced t w hw) _ hstep
        rintro rfl
        exact hkeeps w hw
    · obtain ⟨-, rfl, rfl⟩ := Worker.dieRudely_ok hdies
      have hzero : s.balance t = 0 := hkeeps
      refine ⟨0, ?_, (Int.add_zero _).symm, ?_⟩
      · rw [hbalance, Int.add_zero, Function.update_eq_self]
        rfl
      · rw [hzero]
        rfl
    · obtain ⟨hended, rfl, rfl⟩ := Worker.settle_ok hsettles
      refine ⟨0, ?_, (Int.add_zero _).symm, ?_⟩
      · rw [hbalance, Int.add_zero, Function.update_eq_self]
        rfl
      · have hbalanced := hs.balanced t w hw
        simp only [Worker.Balanced, hended] at hbalanced
        simpa [Worker.Balanced, hended] using hbalanced
  obtain ⟨d, hupdate, hcount, hbalanced⟩ := hchange
  refine ⟨hnumbered, ?_, ?_, ?_⟩
  · intro u hu
    rw [hsystem] at hu
    by_cases heq : u = t
    · obtain ⟨v, hv⟩ := PoolSystem.setWorker_alive (s := { s.system with pool := p }) t w' hw
      rw [heq, hv] at hu
      cases hu
    · rw [hupdate, Function.update_of_ne heq]
      exact hs.fresh u ((Function.update_of_ne heq _ _).symm.trans hu)
  · rw [hsystem, hupdate]
    change p.numberOfThreadsInPool = ∑ u ∈ Finset.range s.system.threads, _
    rw [hcount, hs.total, sum_update_add ht]
  · intro u v hv
    rw [hsystem] at hv
    rw [hupdate]
    obtain ⟨rfl, rfl⟩ | ⟨hne, hv⟩ := PoolSystem.workers_setWorker hv
    · rw [Function.update_self]
      exact hbalanced
    · rw [Function.update_of_ne hne]
      exact hs.balanced u v hv

theorem balanceAfter_of_other {system : PoolSystem} (h : PoolSystem.OtherStep s.system a system) :
    s.balanceAfter a = s.balance := by
  cases h <;> rfl

theorem countInvariant_of_other (hs : CountInvariant s)
    (hbalance : s'.balance = s.balanceAfter a) (hnumbered : PoolSystem.Numbered s'.system)
    (h : PoolSystem.OtherStep s.system a s'.system) : CountInvariant s' := by
  have hsame : s'.balance = s.balance := hbalance.trans (balanceAfter_of_other h)
  have hworkers := h.frame.workers
  have hnone : ∀ t, s'.system.workers t = none → s.system.workers t = none := by
    intro t ht
    by_contra hsome
    obtain ⟨w, hw⟩ := Option.ne_none_iff_exists'.mp hsome
    obtain ⟨w', hw'⟩ := hworkers.alive t w hw
    rw [ht] at hw'
    cases hw'
  refine ⟨hnumbered, ?_, ?_, ?_⟩
  · intro t ht
    rw [hsame]
    exact hs.fresh t (hnone t ht)
  · rw [h.count, hs.total, hsame]
    refine Finset.sum_subset (Finset.range_mono h.frame.threads) ?_
    intro t _ ht
    apply hs.fresh t
    by_contra hsome
    obtain ⟨w, hw⟩ := Option.ne_none_iff_exists'.mp hsome
    exact ht (Finset.mem_range.mpr (hs.numbered.threads t w hw).1)
  · intro t w' hw'
    rw [hsame]
    obtain ⟨w, hw, hpassive⟩ | ⟨rfl, -, index, data, rfl⟩ := hworkers.origin t w' hw'
    · exact Worker.passive_balanced (hs.balanced t w hw) hpassive
    · refine ⟨hs.fresh _ ?_, rfl⟩
      by_contra hsome
      obtain ⟨w, hw⟩ := Option.ne_none_iff_exists'.mp hsome
      exact (hs.numbered.threads _ w hw).1.ne rfl

theorem countInvariant_step (hs : CountInvariant s) (hkeeps : s.KeepsCount a)
    (h : s.step a = .ok s') : CountInvariant s' := by
  obtain ⟨hsystem, hbalance⟩ := step_ok h
  have hnumbered := PoolSystem.numbered_step hs.numbered hsystem
  obtain hmoves | hother := PoolSystem.step_ok hsystem
  · exact countInvariant_of_moves hs hkeeps hbalance hnumbered hmoves
  · exact countInvariant_of_other hs hbalance hnumbered hother

theorem countInvariant_initial (numberOfDomainsInPool : Nat) :
    CountInvariant (initial numberOfDomainsInPool) := by
  refine ⟨PoolSystem.numbered_initial _, fun _ _ => rfl, ?_, ?_⟩
  · exact Finset.sum_const_zero.symm
  · intro t w hw
    obtain ⟨-, rfl⟩ := PoolSystem.initial_workers hw
    exact ⟨rfl, rfl⟩

/-- When the workers have settled, the counter is the number of those in their loop. -/
theorem CountInvariant.count_of_settled (hs : CountInvariant s) (hsettled : s.system.Settled) :
    s.system.pool.numberOfThreadsInPool = (s.system.takers.card : Int) := by
  rw [hs.total, PoolSystem.takers, Finset.card_filter, Nat.cast_sum]
  refine Finset.sum_congr rfl ?_
  intro t ht
  cases hw : s.system.workers t with
  | none => simp [hs.fresh t hw]
  | some w =>
      rw [(hs.balanced t w hw).eq_of_settled (hsettled t (Finset.mem_range.mp ht) w hw)]
      cases hloop : w.pc.inLoop <;> simp [hloop]

theorem CountInvariant.countExact (hs : CountInvariant s) : s.system.CountExact := by
  have hexact := hs.count_of_settled
  refine ⟨?_, hexact, ?_, ?_⟩
  · rw [hs.total]
    refine Finset.sum_nonneg ?_
    intro t _
    cases hw : s.system.workers t with
    | none => rw [hs.fresh t hw]
    | some w =>
        obtain hzero | hone := (hs.balanced t w hw).range
        · rw [hzero]
        · rw [hone]
          exact Int.one_nonneg
  · intro hsettled call submitter hsubmitter hpc
    simp only [PoolSystem.submitterNext, hpc, hexact hsettled]
    constructor
    · intro hnext
      by_contra henough
      rw [if_neg (fun hlt => henough (Int.ofNat_lt.mp hlt))] at hnext
      have hstored := congrArg (fun system => system.submitters call) (Except.ok.inj hnext)
      simp [PoolSystem.setSubmitter] at hstored
    · intro hshort
      exact if_pos (Int.ofNat_lt.mpr hshort)
  · intro hsettled hpc
    simp only [PoolSystem.watchdogNext, hpc, hexact hsettled]
    constructor
    · intro hnext
      by_contra hsome
      have hcard : 0 < s.system.takers.card :=
        Finset.card_pos.mpr (Finset.nonempty_iff_ne_empty.mpr hsome)
      rw [if_neg (by omega)] at hnext
      have hlooped := congrArg (fun system => system.watchdog.pc) (Except.ok.inj hnext)
      cases hlooped
    · intro hnone
      rw [hnone]
      rfl

/-- In every run in which no worker leaves its loop without being taken out of the
count, and none goes on in it or is taken out once more after that, the counter is
the number of the workers that can take snippets whenever they have settled. -/
theorem threads_in_pool_counted (numberOfDomainsInPool : Nat) (actions : List PoolAction)
    (hkeeps : Meets step KeepsCount (initial numberOfDomainsInPool) actions) :
    Always step (fun s => s.system.CountExact) (initial numberOfDomainsInPool) actions := by
  have hinvariant : Always step CountInvariant (initial numberOfDomainsInPool) actions :=
    always_of_meets (fun _ _ _ hs hcond h => countInvariant_step hs hcond h)
      (countInvariant_initial numberOfDomainsInPool) hkeeps
  exact hinvariant.imp (fun _ hs => hs.countExact)

/-- The first worker is at `Take` when an exception reaches its outer catch block. It
takes itself out, and the next submission starts a second worker in its place. -/
def replacedRun : List PoolAction :=
  PoolSystem.firstWorkerReady ++ [.worker 0 (.throws "out of memory")] ++ PoolSystem.goesOn 0 4 ++
    [.submit true] ++ List.replicate 7 (.submitter 0) ++ PoolSystem.goesOn 1 1 ++
    [.worker 1 (.sandbox 3)] ++ PoolSystem.goesOn 1 4

theorem threads_in_pool_counted_replaced :
    Always step (fun s => s.system.CountExact) (initial 1) replacedRun ∧
      Reaches step (fun s => s.system.pool.numberOfThreadsInPool = 1 ∧
          s.system.takers = {1} ∧ ∃ w ∈ s.system.workers 0, w.pc = .ended)
        (initial 1) replacedRun :=
  ⟨threads_in_pool_counted 1 replacedRun (by decide), by decide⟩

/-- A worker dies rudely, and the counter still holds it. -/
def killedRun : List PoolAction := PoolSystem.firstWorkerReady ++ [.rudeAbort 0]

/-- A worker aborted by someone else recycles its AppDomain and is about to unload it.
Its loop goes on after that. -/
def recycledRun : List PoolAction :=
  PoolSystem.firstWorkerReady ++ PoolSystem.submitted 0 ++ PoolSystem.goesOn 0 4 ++
    [.foreignAbort 0, .worker 0 (.aborted "aborted")] ++ PoolSystem.goesOn 0 9

/-- The unload throws, and the outer catch block recycles once more. -/
def recycledTwiceRun : List PoolAction :=
  recycledRun ++ [.worker 0 (.throws "cannot unload")] ++ PoolSystem.goesOn 0 2

/-- There are too many zombies when a worker recycles: it calls `Exit` and ends. -/
def exitRun : List PoolAction :=
  List.replicate 21 (.host .onDomainRudeUnload) ++ PoolSystem.firstWorkerReady ++
    PoolSystem.submitted 0 ++ PoolSystem.goesOn 0 4 ++
    [.foreignAbort 0, .worker 0 (.aborted "aborted")] ++ PoolSystem.goesOn 0 10 ++
    [.watchdog .next] ++ PoolSystem.goesOn 0 2

/-- The counter holds a thread that is dead or has ended, misses one that goes on, and
can be negative. -/
theorem threads_in_pool_miscounted :
    ¬ Always step (fun s => s.system.CountExact) (initial 1) killedRun ∧
      ¬ Always step (fun s => s.system.CountExact) (initial 1)
        (recycledRun ++ PoolSystem.goesOn 0 4) ∧
      ¬ Always step (fun s => s.system.CountExact) (initial 1) recycledTwiceRun ∧
      ¬ Always step (fun s => s.system.CountExact) (initial 1) exitRun := by
  have hmiscounted : ∀ (count taking : Nat) {actions : List PoolAction}, count ≠ taking →
      Reaches step (fun s => s.system.Settled ∧
        s.system.pool.numberOfThreadsInPool = (count : Int) ∧ s.system.takers.card = taking)
        (initial 1) actions →
      ¬ Always step (fun s => s.system.CountExact) (initial 1) actions := by
    intro count taking actions hne hreaches h
    obtain ⟨s, hrun, hsettled, hcount, htaking⟩ := reaches_iff.mp hreaches
    have hexact := (h.last hrun).exact hsettled
    rw [hcount, htaking] at hexact
    exact hne (Int.ofNat.inj hexact)
  refine ⟨?_, ?_, ?_, ?_⟩
  · exact hmiscounted 1 0 (by decide) (by decide)
  · exact hmiscounted 0 1 (by decide) (by decide)
  · intro h
    have hreaches : Reaches step (fun s => s.system.pool.numberOfThreadsInPool < 0) (initial 1)
        recycledTwiceRun := by decide
    obtain ⟨s, hrun, hnegative⟩ := reaches_iff.mp hreaches
    exact absurd (h.last hrun).nonneg (not_le.mpr hnegative)
  · exact hmiscounted 1 0 (by decide) (by decide)

end CountSystem

end HostedPumpkin
