import HostedPumpkin.Library.Amortized
import HostedPumpkin.Pool.DataSteps
import HostedPumpkin.Pool.SubmissionMap
import HostedPumpkin.Pool.ThreadStarts

/-!
What is left of the pool once `Exit` has been called. The watchdog leaves its loop at the
head, a worker can only take what is still queued, and a call of `SubmitSnippet` adds nothing
more. Each of them has so many statements left at most; all together go on until they have
ended, and nobody waits for something that does not come.
-/

namespace HostedPumpkin

open Runs

/-! How many statements are left. -/

def CreateStage.stepsLeft : CreateStage → Nat
  | .readSlot => 3
  | .setMainThread _ => 2
  | .start _ => 1

def RecycleStage.stepsLeft : RecycleStage → Nat
  | .checkZombies => 5
  | .setExiting => 4
  | .completeAdding | .decrementThreads => 3
  | .interruptWatchdog | .clearSlot => 2
  | .joinWatchdog | .unloadDomain => 1

/-- Until the worker has ended, if it takes no snippet any more. -/
def WorkerPc.stepsLeft : WorkerPc → Nat
  | .ended => 0
  | .recycle .outerCatch stage => stage.stepsLeft
  | .take => 6
  | .resetCounters => 7
  | .resetAborting => 8
  | .loopHead => 9
  | .recycle .loop stage => 9 + stage.stepsLeft
  | .setDomainId | .collect => 10
  | .createSandbox => 11
  | .unstarted | .incrementThreads => 12
  | .recycleCheck => 15
  | .deliver => 16
  | .decide => 17
  | .getMemoryUsage => 18
  | .getThreadCount => 19
  | .catchAbort _ | .catchException _ => 20
  | .clearStart => 21
  | .readEnd => 22
  | .running => 23
  | .writeStart => 24
  | .recordStart => 25
  | .incrementUsages => 26
  | .taken => 27

/-- Until the watchdog has ended, when it is to exit. A slot costs it eleven statements. -/
def WatchdogPc.stepsLeft (size : Nat) : WatchdogPc → Nat
  | .ended => 0
  | .loopHead => 1
  | .creating _ true stage => 1 + stage.stepsLeft
  | .ensureSlot => 5
  | .ensureOne => 6
  | .abortExausted _ => 7
  | .exchangeAborting _ => 8
  | .findDomain _ => 9
  | .scan index => 7 + 11 * (size - index)
  | .creating index false stage => 7 + 11 * (size - (index + 1)) + stage.stepsLeft
  | .replaceSlot index => 7 + 11 * (size - (index + 1)) + 4
  | .unloadOld index _ => 7 + 11 * (size - (index + 1)) + 5
  | .checkThread index _ => 7 + 11 * (size - (index + 1)) + 6
  | .abortTimeout index _ => 7 + 11 * (size - (index + 1)) + 7
  | .writeZero index _ => 7 + 11 * (size - (index + 1)) + 8
  | .reportTimeout index _ => 7 + 11 * (size - (index + 1)) + 9
  | .readStart index _ => 7 + 11 * (size - (index + 1)) + 10
  | .readClock => 8 + 11 * size
  | .getMessage => 10 + 11 * size

def SubmitterPc.stepsLeft : SubmitterPc → Nat
  | .returned | .threw => 0
  | .add => 1
  | .store => 2
  | .creating _ stage => 2 + stage.stepsLeft
  | .fillSlots => 6
  | .readCount => 7

/-- A statement of a thread of the pool, or its end. -/
def PoolAction.ownSteps : PoolAction → Nat
  | .worker _ _ | .watchdog _ | .submitter _ | .rudeAbort _ => 1
  | .submit _ | .foreignAbort _ | .settle _ | .host _ | .tick _ => 0

def PoolAction.submits : PoolAction → Nat
  | .submit _ => 1
  | _ => 0

theorem RecycleStage.stepsLeft_pos (stage : RecycleStage) : 0 < stage.stepsLeft := by
  cases stage <;> simp [stepsLeft]

theorem CreateStage.stepsLeft_pos (stage : CreateStage) : 0 < stage.stepsLeft := by
  cases stage <;> simp [stepsLeft]

namespace Worker

variable {p p' : DomainPool} {w w' : Worker}

theorem recycleStep_stepsLeft {caller : RecycleCaller} {stage : RecycleStage}
    (h : w.recycleStep p caller stage = .ok (p', w')) :
    w'.pc.stepsLeft < (WorkerPc.recycle caller stage).stepsLeft := by
  cases stage with
  | checkZombies | clearSlot =>
      simp only [recycleStep] at h
      split at h
      all_goals cases h
      all_goals cases caller <;> simp [WorkerPc.stepsLeft, RecycleStage.stepsLeft]
  | joinWatchdog =>
      simp only [recycleStep] at h
      split at h
      all_goals cases h
      cases caller <;> simp [afterRecycle, WorkerPc.stepsLeft, RecycleStage.stepsLeft]
  | _ =>
      cases h
      cases caller <;> simp [afterRecycle, WorkerPc.stepsLeft, RecycleStage.stepsLeft]

/-- Every statement but `Take` brings the worker closer to its end. -/
theorem next_stepsLeft (h : w.next p = .ok (p', w')) (htake : w.pc ≠ .take) :
    w'.pc.stepsLeft < w.pc.stepsLeft := by
  cases hpc : w.pc with
  | take => exact absurd hpc htake
  | recycle caller stage =>
      simp only [next, hpc] at h
      exact recycleStep_stepsLeft h
  | _ =>
      simp only [next, hpc] at h
      repeat' split at h
      all_goals cases h
      all_goals simp [enterOuterCatch, WorkerPc.stepsLeft, RecycleStage.stepsLeft]

theorem Thrown.stepsLeft (h : Thrown p w p' w') :
    w'.pc.stepsLeft < w.pc.stepsLeft ∧ p'.snippetsQueue = p.snippetsQueue := by
  cases h with
  | inner pc hregion hcatch =>
      refine ⟨?_, rfl⟩
      have hcaught : pc.stepsLeft = 20 := by
        obtain ⟨message, rfl | rfl⟩ := hcatch <;> rfl
      change pc.stepsLeft < _
      rw [hcaught]
      obtain hpc | hpc | hpc | hpc | hpc | hpc := WorkerPc.innerTry_cases hregion
      all_goals simp [hpc, WorkerPc.stepsLeft]
  | outer hregion =>
      refine ⟨?_, rfl⟩
      change 5 < w.pc.stepsLeft
      cases hpc : w.pc with
      | recycle caller stage =>
          cases caller with
          | loop => simp [WorkerPc.stepsLeft]; omega
          | outerCatch => simp [hpc, WorkerPc.region] at hregion
      | unstarted | ended | incrementThreads => simp [hpc, WorkerPc.region] at hregion
      | _ => simp [WorkerPc.stepsLeft]
  | dies hregion =>
      refine ⟨?_, rfl⟩
      cases hpc : w.pc with
      | incrementThreads => simp [WorkerPc.stepsLeft]
      | recycle caller stage => cases caller <;> simp [hpc, WorkerPc.region] at hregion
      | _ => simp [hpc, WorkerPc.region] at hregion

/-- A snippet costs a worker twenty-two statements, from one `Take` to the next. -/
def credit (p : DomainPool) (w : Worker) : Nat :=
  w.pc.stepsLeft + 22 * p.snippetsQueue.length

theorem next_credit (h : w.next p = .ok (p', w')) : w'.credit p' + 1 ≤ w.credit p := by
  by_cases htake : w.pc = .take
  · simp only [next, htake] at h
    split at h
    next snippet rest hqueue =>
      cases h
      simp only [credit, htake, hqueue, WorkerPc.stepsLeft, List.length_cons]
      omega
    next hqueue =>
      split at h
      all_goals cases h
      simp [credit, htake, WorkerPc.stepsLeft]
  · have hleft := next_stepsLeft h htake
    rw [credit, credit, next_queue h htake]
    omega

theorem stepsLeft_pos {pc : WorkerPc} (h : pc.region ≠ .outside) : 0 < pc.stepsLeft := by
  cases pc with
  | unstarted | ended => exact absurd rfl h
  | recycle caller stage =>
      have hstage := stage.stepsLeft_pos
      cases caller with
      | loop => simp [WorkerPc.stepsLeft]
      | outerCatch => exact hstage
  | _ => simp [WorkerPc.stepsLeft]

theorem Moves.credit {t : ThreadId} {a : PoolAction} (h : Moves t a p p' w w') :
    w'.credit p' + a.ownSteps ≤ w.credit p := by
  obtain ⟨input, rfl, h⟩ | ⟨rfl, h⟩ | ⟨rfl, h⟩ := h
  · cases input with
    | next => exact next_credit h
    | sandbox appDomain =>
        simp only [step] at h
        split at h
        next hcreate =>
          cases h
          simp [Worker.credit, hcreate.1, WorkerPc.stepsLeft, PoolAction.ownSteps]
        next => cases h
    | finished outcome =>
        simp only [step] at h
        split at h
        next hpc =>
          cases h
          simp [Worker.credit, hpc, WorkerPc.stepsLeft, PoolAction.ownSteps]
        next => cases h
    | throws message | aborted message =>
        obtain ⟨hleft, hqueue⟩ := (step_thrown ⟨message, by simp⟩ h).stepsLeft
        rw [Worker.credit, Worker.credit, hqueue, PoolAction.ownSteps]
        omega
  · obtain ⟨hregion, rfl, rfl⟩ := dieRudely_ok h
    have hpos := stepsLeft_pos hregion
    change 0 + 22 * p.snippetsQueue.length + 1 ≤ w.pc.stepsLeft + 22 * p.snippetsQueue.length
    omega
  · obtain ⟨hended, rfl, rfl⟩ := settle_ok h
    exact le_rfl

end Worker

namespace PoolSystem

variable {s s' : PoolSystem}

theorem createStep_stepsLeft {index : Nat} {stage stage' : CreateStage}
    (h : s.createStep index stage = .ok (s', some stage')) :
    stage'.stepsLeft < stage.stepsLeft := by
  obtain ⟨rfl, -, hleft⟩ | ⟨data, rfl, -, hleft⟩ | ⟨t, w, -, -, -, -, hleft⟩ := createStep_ok h
  · cases hleft
    simp [CreateStage.stepsLeft]
  · cases hleft
    simp [CreateStage.stepsLeft]
  · cases hleft

/-- When it is to exit, every statement brings the watchdog closer to its end. -/
theorem watchdogNext_stepsLeft (hexit : s.pool.isExiting = true) (h : s.watchdogNext = .ok s') :
    s'.watchdog.pc.stepsLeft s.pool.numberOfDomainsInPool <
      s.watchdog.pc.stepsLeft s.pool.numberOfDomainsInPool := by
  cases hpc : s.watchdog.pc with
  | getMessage =>
      obtain ⟨_, _, -, ⟨-, rfl⟩ | ⟨event, -, rfl⟩⟩ := watchdogNext_getMessage hpc h
      all_goals
        simp only [setWatchdog, WatchdogPc.stepsLeft]
        omega
  | abortExausted poolDomain =>
      obtain ⟨t, w, -, rfl⟩ := watchdogNext_abortExausted hpc h
      simp [setWatchdog, WatchdogPc.stepsLeft]
  | abortTimeout index poolDomain =>
      obtain ⟨t, w, -, -, rfl⟩ := watchdogNext_abortTimeout hpc h
      simp [setWatchdog, WatchdogPc.stepsLeft]
  | scan index =>
      simp only [watchdogNext, hpc] at h
      repeat' split at h
      all_goals cases h
      all_goals
        simp only [setWatchdog, WatchdogPc.stepsLeft]
        omega
  | loopHead =>
      simp only [watchdogNext, hpc, hexit, if_true] at h
      cases h
      exact Nat.succ_pos _
  | creating index ensuring stage =>
      have hpos := stage.stepsLeft_pos
      simp only [watchdogNext, hpc] at h
      split at h
      next => cases h
      next next stage' hnext =>
        cases h
        have hstage := createStep_stepsLeft hnext
        cases ensuring <;> simp [setWatchdog, WatchdogPc.stepsLeft, hstage]
      next next hnext =>
        cases h
        cases ensuring <;> simp [setWatchdog, WatchdogPc.stepsLeft, hpos]
  | _ =>
      simp only [watchdogNext, hpc] at h
      repeat' split at h
      all_goals cases h
      all_goals simp [setWatchdog, WatchdogPc.stepsLeft, CreateStage.stepsLeft]

/-- Every statement brings a call of `SubmitSnippet` closer to its end. -/
theorem submitterNext_stepsLeft {call : Nat} {submitter : Submitter}
    (h : s.submitterNext call submitter = .ok s') :
    s'.calls = s.calls ∧
      ∃ pc, s'.submitters = Function.update s.submitters call (some { submitter with pc }) ∧
        pc.stepsLeft < submitter.pc.stepsLeft := by
  cases hpc : submitter.pc with
  | fillSlots =>
      obtain ⟨pc, rfl, hpc'⟩ := submitterNext_fillSlots hpc h
      refine ⟨rfl, pc, rfl, ?_⟩
      obtain ⟨index, -, rfl⟩ | ⟨-, rfl⟩ := hpc'
      all_goals simp [SubmitterPc.stepsLeft, CreateStage.stepsLeft]
  | creating index stage =>
      have hpos := stage.stepsLeft_pos
      obtain rfl | ⟨next, left, pc, hnext, rfl, hpc'⟩ := submitterNext_creating hpc h
      · exact ⟨rfl, .threw, rfl, by simp [SubmitterPc.stepsLeft]⟩
      · have hcalls := createStep_sameCalls hnext
        refine ⟨hcalls.calls, pc, by rw [← hcalls.submitters]; rfl, ?_⟩
        obtain ⟨stage', rfl, rfl⟩ | ⟨rfl, rfl⟩ := hpc'
        · simpa [SubmitterPc.stepsLeft] using createStep_stepsLeft hnext
        · simpa [SubmitterPc.stepsLeft] using hpos
  | _ =>
      simp only [submitterNext, hpc] at h
      repeat' split at h
      all_goals cases h
      all_goals exact ⟨rfl, _, rfl, by simp [SubmitterPc.stepsLeft]⟩

theorem submitterNext_queue {call : Nat} {submitter : Submitter}
    (h : s.submitterNext call submitter = .ok s') :
    s'.pool.snippetsQueue.length ≤ s.pool.snippetsQueue.length + 1 := by
  obtain ⟨pc, -, hstep⟩ := submitterNext_submission h
  cases hstep with
  | elsewhere _ _ hqueue | store _ _ hqueue =>
      rw [hqueue]
      exact Nat.le_succ _
  | add _ _ hqueue => simp [hqueue]

/-! What is left for all of them together. -/

/-- A sum over numbers that holds a value at each of them, after a change at one. -/
theorem sum_change {n k : Nat} (hk : k < n) {f g : Nat → Nat} (h : ∀ i, i ≠ k → g i = f i) :
    ∑ i ∈ Finset.range n, g i + f k = ∑ i ∈ Finset.range n, f i + g k := by
  have hf := Finset.add_sum_erase (Finset.range n) f (Finset.mem_range.mpr hk)
  have hg := Finset.add_sum_erase (Finset.range n) g (Finset.mem_range.mpr hk)
  have hrest : ∑ i ∈ (Finset.range n).erase k, g i = ∑ i ∈ (Finset.range n).erase k, f i :=
    Finset.sum_congr rfl fun i hi => h i (Finset.ne_of_mem_erase hi)
  omega

def workerLeft (s : PoolSystem) (t : ThreadId) : Nat := (s.pcs t).elim 0 WorkerPc.stepsLeft

def submitterLeft (s : PoolSystem) (call : Nat) : Nat :=
  ((s.submitters call).map Submitter.pc).elim 0 SubmitterPc.stepsLeft

/-- The statements the threads of the pool have left at most. A statement of the watchdog can
create a thread; one of `SubmitSnippet` can do that, or queue a snippet. -/
def stepsLeft (s : PoolSystem) : Nat :=
  ∑ t ∈ Finset.range s.threads, s.workerLeft t + 22 * s.pool.snippetsQueue.length +
    13 * s.watchdog.pc.stepsLeft s.pool.numberOfDomainsInPool +
    35 * ∑ call ∈ Finset.range s.calls, s.submitterLeft call

theorem workerLeft_of_none {t : ThreadId} (h : s.workers t = none) : s.workerLeft t = 0 := by
  simp [workerLeft, pcs, h]

theorem workerLeft_of_some {t : ThreadId} {w : Worker} (h : s.workers t = some w) :
    s.workerLeft t = w.pc.stepsLeft := by
  simp [workerLeft, pcs, h]

/-- Another thread leaves a worker as much to do. -/
theorem passive_stepsLeft {timeout : Prop} {w w' : Worker} (h : Worker.Passive timeout w w') :
    w'.pc.stepsLeft = w.pc.stepsLeft := by
  obtain ⟨request, rfl⟩ | ⟨hpc, rfl⟩ := h.eq_cases
  · rfl
  · rw [hpc]
    rfl

theorem workerLeft_of_ge (hnumbered : Numbered s) {t : ThreadId} (ht : s.threads ≤ t) :
    s.workerLeft t = 0 := by
  cases hw : s.workers t with
  | none => exact workerLeft_of_none hw
  | some w => exact absurd (hnumbered.threads t w hw).1 (not_lt.mpr ht)

/-- What a step that no worker takes leaves to the workers: one of them can be new. -/
theorem workerLeft_frame {a : PoolAction} (hnumbered : Numbered s) (h : Frame s a s') :
    (∀ t, t ≠ s.threads → s'.workerLeft t = s.workerLeft t) ∧ s'.workerLeft s.threads ≤ 12 := by
  constructor
  · intro t ht
    cases hw' : s'.workers t with
    | none =>
        have hw : s.workers t = none := by
          by_contra hw
          obtain ⟨w, hw⟩ := Option.ne_none_iff_exists'.mp hw
          obtain ⟨w', hsome⟩ := h.workers.alive t w hw
          rw [hw'] at hsome
          cases hsome
        rw [workerLeft_of_none hw', workerLeft_of_none hw]
    | some w' =>
        obtain ⟨w, hw, hpassive⟩ | ⟨hnew, -⟩ := h.workers.origin t w' hw'
        · rw [workerLeft_of_some hw', workerLeft_of_some hw, passive_stepsLeft hpassive]
        · exact absurd hnew ht
  · cases hw' : s'.workers s.threads with
    | none =>
        rw [workerLeft_of_none hw']
        exact Nat.zero_le _
    | some w' =>
        obtain ⟨w, hw, -⟩ | ⟨-, -, index, data, rfl⟩ := h.workers.origin _ w' hw'
        · exact absurd (hnumbered.threads _ w hw).1 (lt_irrefl _)
        · rw [workerLeft_of_some hw']
          exact le_rfl

theorem sum_workerLeft (hnumbered : Numbered s) {n : Nat} (hn : s.threads ≤ n) :
    ∑ t ∈ Finset.range n, s.workerLeft t = ∑ t ∈ Finset.range s.threads, s.workerLeft t := by
  symm
  apply Finset.sum_subset (Finset.range_mono hn)
  intro t _ ht
  rw [Finset.mem_range, not_lt] at ht
  exact workerLeft_of_ge hnumbered ht

/-- A step that no worker takes can create one worker. -/
theorem workersLeft_other {a : PoolAction} (hnumbered : Numbered s) (h : Frame s a s') :
    ∑ t ∈ Finset.range s'.threads, s'.workerLeft t ≤
      ∑ t ∈ Finset.range s.threads, s.workerLeft t + 12 := by
  obtain ⟨hothers, hnew⟩ := workerLeft_frame hnumbered h
  rw [← sum_workerLeft hnumbered h.threads]
  by_cases hmore : s.threads < s'.threads
  · have hsum := sum_change hmore hothers
    omega
  · have hsame : ∑ t ∈ Finset.range s'.threads, s'.workerLeft t =
        ∑ t ∈ Finset.range s'.threads, s.workerLeft t := by
      apply Finset.sum_congr rfl
      intro t ht
      apply hothers
      exact ((Finset.mem_range.mp ht).trans_le (not_lt.mp hmore)).ne
    omega

theorem workersLeft_setWorker (hnumbered : Numbered s) {t : ThreadId} {w : Worker}
    (hw : s.workers t = some w) (p : DomainPool) (w' : Worker) :
    ∑ u ∈ Finset.range s.threads, ({ s with pool := p }.setWorker t w').workerLeft u +
        w.pc.stepsLeft =
      ∑ u ∈ Finset.range s.threads, s.workerLeft u + w'.pc.stepsLeft := by
  have hself : ({ s with pool := p }.setWorker t w').workerLeft t = w'.pc.stepsLeft :=
    workerLeft_of_some (Function.update_self _ _ _)
  have hothers : ∀ u, u ≠ t →
      ({ s with pool := p }.setWorker t w').workerLeft u = s.workerLeft u := by
    intro u hu
    simp [workerLeft, pcs, setWorker, Function.update_of_ne hu]
  have hsum := sum_change (hnumbered.threads t w hw).1 hothers
  rw [hself, workerLeft_of_some hw] at hsum
  exact hsum

/-- A call of `SubmitSnippet` that takes a step. -/
theorem submittersLeft_step (hnumbered : Numbered s) {call : Nat} {submitter : Submitter}
    (hsubmitter : s.submitters call = some submitter)
    (h : s.submitterNext call submitter = .ok s') :
    ∑ k ∈ Finset.range s'.calls, s'.submitterLeft k + 1 ≤
      ∑ k ∈ Finset.range s.calls, s.submitterLeft k := by
  obtain ⟨hcalls, pc, hsubmitters, hleft⟩ := submitterNext_stepsLeft h
  have hold : s.submitterLeft call = submitter.pc.stepsLeft := by
    simp [submitterLeft, hsubmitter]
  have hself : s'.submitterLeft call = pc.stepsLeft := by
    simp [submitterLeft, hsubmitters]
  have hothers : ∀ k, k ≠ call → s'.submitterLeft k = s.submitterLeft k := by
    intro k hk
    simp [submitterLeft, hsubmitters, Function.update_of_ne hk]
  have hsum := sum_change (hnumbered.calls call submitter hsubmitter) hothers
  rw [hold, hself] at hsum
  rw [hcalls]
  omega

/-- A new call has all its statements left. -/
theorem submittersLeft_submit (id : Option SubmissionId) :
    ∑ call ∈ Finset.range (s.calls + 1),
        ({ s.setSubmitter s.calls { snippetInfo := ⟨id⟩, completion := id } with
          calls := s.calls + 1 } : PoolSystem).submitterLeft call =
      ∑ call ∈ Finset.range s.calls, s.submitterLeft call + 7 := by
  rw [Finset.sum_range_succ]
  congr 1
  · apply Finset.sum_congr rfl
    intro call hcall
    have hne : call ≠ s.calls := (Finset.mem_range.mp hcall).ne
    simp [submitterLeft, setSubmitter, Function.update_of_ne hne]
  · simp [submitterLeft, setSubmitter, SubmitterPc.stepsLeft]

end PoolSystem

/-! What `Exit` has done stays. -/

/-- The worker is inside `Exit`, before `CompleteAdding`. -/
def WorkerPc.completesAdding : WorkerPc → Bool
  | .recycle _ .completeAdding => true
  | _ => false

namespace Worker

variable {p p' : DomainPool} {w w' : Worker}

structure KeepsExit (p p' : DomainPool) (w w' : Worker) : Prop where
  isExiting : p.isExiting = true → p'.isExiting = true
  isAddingCompleted : p.isAddingCompleted = true → p'.isAddingCompleted = true
  watchdogEnded : p'.watchdogEnded = p.watchdogEnded
  completed : p'.isAddingCompleted = true →
    p.isAddingCompleted = true ∨ w.pc.completesAdding = true
  completes : w'.pc.completesAdding = true → p'.isExiting = true

/-- A step outside of `Exit`. -/
theorem keepsExit_of_same (hexit : p'.isExiting = p.isExiting)
    (hadding : p'.isAddingCompleted = p.isAddingCompleted)
    (hended : p'.watchdogEnded = p.watchdogEnded) (hpc : w'.pc.completesAdding = false) :
    KeepsExit p p' w w' := by
  refine ⟨?_, ?_, hended, ?_, ?_⟩
  · intro h
    rw [hexit, h]
  · intro h
    rw [hadding, h]
  · intro h
    rw [← hadding]
    exact Or.inl h
  · intro h
    rw [hpc] at h
    cases h

theorem recycleStep_keepsExit {caller : RecycleCaller} {stage : RecycleStage}
    (hpc : w.pc = .recycle caller stage) (h : w.recycleStep p caller stage = .ok (p', w')) :
    KeepsExit p p' w w' := by
  have hafter : (afterRecycle caller).completesAdding = false := by cases caller <;> rfl
  cases stage with
  | checkZombies | clearSlot =>
      simp only [recycleStep] at h
      split at h
      all_goals cases h
      all_goals exact keepsExit_of_same rfl rfl rfl rfl
  | joinWatchdog =>
      simp only [recycleStep] at h
      split at h
      all_goals cases h
      exact keepsExit_of_same rfl rfl rfl hafter
  | setExiting =>
      cases h
      exact ⟨fun _ => rfl, fun hadding => hadding, rfl, Or.inl, fun _ => rfl⟩
  | completeAdding =>
      cases h
      exact ⟨fun hexit => hexit, fun _ => rfl, rfl, fun _ => Or.inr (by rw [hpc]; rfl),
        fun hcompletes => by cases hcompletes⟩
  | unloadDomain =>
      cases h
      exact keepsExit_of_same rfl rfl rfl hafter
  | interruptWatchdog | decrementThreads =>
      cases h
      exact keepsExit_of_same rfl rfl rfl rfl

theorem next_keepsExit (h : w.next p = .ok (p', w')) : KeepsExit p p' w w' := by
  cases hpc : w.pc with
  | recycle caller stage =>
      simp only [next, hpc] at h
      exact recycleStep_keepsExit hpc h
  | _ =>
      simp only [next, hpc] at h
      repeat' split at h
      all_goals cases h
      all_goals exact keepsExit_of_same rfl rfl rfl rfl

theorem Moves.keepsExit {t : ThreadId} {a : PoolAction} (h : Moves t a p p' w w') :
    KeepsExit p p' w w' := by
  obtain ⟨input, rfl, h⟩ | ⟨rfl, h⟩ | ⟨rfl, h⟩ := h
  · cases input with
    | next => exact next_keepsExit h
    | sandbox | finished =>
        simp only [step] at h
        split at h
        all_goals cases h
        exact keepsExit_of_same rfl rfl rfl rfl
    | throws message | aborted message =>
        cases step_thrown ⟨message, by simp⟩ h with
        | inner pc hregion hcatch =>
            refine keepsExit_of_same rfl rfl rfl ?_
            obtain ⟨text, rfl | rfl⟩ := hcatch <;> rfl
        | outer hregion => exact keepsExit_of_same rfl rfl rfl rfl
        | dies hregion => exact keepsExit_of_same rfl rfl rfl rfl
  · obtain ⟨-, rfl, rfl⟩ := dieRudely_ok h
    exact keepsExit_of_same rfl rfl rfl rfl
  · obtain ⟨hended, rfl, rfl⟩ := settle_ok h
    exact keepsExit_of_same rfl rfl rfl (by rw [hended]; rfl)

end Worker

namespace PoolSystem

variable {s s' : PoolSystem}

/-- A step that no worker takes stays out of `Exit`; it ends the watchdog at most. -/
theorem OtherStep.keepsExit {a : PoolAction} (h : OtherStep s a s') :
    s'.pool.isExiting = s.pool.isExiting ∧
      s'.pool.isAddingCompleted = s.pool.isAddingCompleted := by
  cases h with
  | watchdog _ hnext =>
      obtain ⟨_, _, _, _, _, _, hpool⟩ := watchdogNext_pool hnext
      rw [hpool]
      exact ⟨rfl, rfl⟩
  | submitter _ _ _ _ hnext =>
      obtain ⟨_, _, _, _, _, hpool⟩ := submitterNext_pool hnext
      rw [hpool]
      exact ⟨rfl, rfl⟩
  | _ => exact ⟨rfl, rfl⟩

theorem step_isExiting {a : PoolAction} (h : s.step a = .ok s') (hexit : s.pool.isExiting = true) :
    s'.pool.isExiting = true := by
  obtain ⟨t, w, p, w', -, hmove, rfl⟩ | hother := step_ok h
  · exact hmove.keepsExit.isExiting hexit
  · rw [hother.keepsExit.1, hexit]

theorem step_isAddingCompleted {a : PoolAction} (h : s.step a = .ok s')
    (hcompleted : s.pool.isAddingCompleted = true) : s'.pool.isAddingCompleted = true := by
  obtain ⟨t, w, p, w', -, hmove, rfl⟩ | hother := step_ok h
  · exact hmove.keepsExit.isAddingCompleted hcompleted
  · rw [hother.keepsExit.2, hcompleted]

theorem watchdogNext_ended (h : s.watchdogNext = .ok s') (hended : s'.watchdog.pc = .ended) :
    s'.pool.watchdogEnded = true := by
  by_cases hpc : s.watchdog.pc = .loopHead
  · simp only [watchdogNext, hpc] at h
    split at h
    next =>
      cases h
      rfl
    next =>
      cases h
      cases hended
  · have hgoes := watchdogNext_goes h
    generalize s.watchdog.pc = pc at hgoes hpc
    generalize s'.watchdog = watchdog at hgoes hended
    cases hgoes with
    | exit => exact absurd rfl hpc
    | _ => cases hended

/-- `Exit` sets its flag before it completes the queue, and joins a watchdog that ends. -/
structure ExitInOrder (s : PoolSystem) : Prop where
  completed : s.pool.isAddingCompleted = true → s.pool.isExiting = true
  completes : ∀ t w, s.workers t = some w → w.pc.completesAdding = true → s.pool.isExiting = true
  watchdogEnded : s.watchdog.pc = .ended → s.pool.watchdogEnded = true

theorem watchdogEnded_step {a : PoolAction} (hs : ExitInOrder s) (h : s.step a = .ok s')
    (hended : s'.watchdog.pc = .ended) : s'.pool.watchdogEnded = true := by
  obtain ⟨t, w, p, w', -, hmove, rfl⟩ | hother := step_ok h
  · exact hmove.keepsExit.watchdogEnded.trans (hs.watchdogEnded hended)
  · cases hother with
    | watchdog _ hnext => exact watchdogNext_ended hnext hended
    | submitter _ _ _ _ hnext =>
        obtain ⟨_, _, _, _, _, hpool⟩ := submitterNext_pool hnext
        rw [(submitterNext_sameEvents hnext).2.2] at hended
        rw [hpool]
        exact hs.watchdogEnded hended
    | interrupted hwaits => cases hended
    | _ => exact hs.watchdogEnded hended

theorem passive_completesAdding {timeout : Prop} {w w' : Worker}
    (h : Worker.Passive timeout w w') (hcompletes : w'.pc.completesAdding = true) :
    w.pc.completesAdding = true := by
  obtain ⟨request, rfl⟩ | ⟨-, rfl⟩ := h.eq_cases
  · exact hcompletes
  · cases hcompletes

theorem exitInOrder_step {a : PoolAction} (hs : ExitInOrder s) (h : s.step a = .ok s') :
    ExitInOrder s' := by
  refine ⟨?_, ?_, watchdogEnded_step hs h⟩
  · intro hcompleted
    obtain ⟨t, w, p, w', hw, hmove, rfl⟩ | hother := step_ok h
    · have hkeeps := hmove.keepsExit
      apply hkeeps.isExiting
      obtain hbefore | hcompletes := hkeeps.completed hcompleted
      · exact hs.completed hbefore
      · exact hs.completes t w hw hcompletes
    · obtain ⟨hexit, hadding⟩ := hother.keepsExit
      rw [hadding] at hcompleted
      rw [hexit]
      exact hs.completed hcompleted
  · refine workers_step (P := fun p _ w => w.pc.completesAdding = true → p.isExiting = true)
      h hs.completes ?_ ?_ ?_ ?_
    · exact fun t w p w' _ hmove _ => hmove.keepsExit.completes
    · intro t w u v p v' _ _ _ hmove hold hcompletes
      exact hmove.keepsExit.isExiting (hold hcompletes)
    · intro _ t w w' _ hpassive hold hcompletes
      exact step_isExiting h (hold (passive_completesAdding hpassive hcompletes))
    · exact fun _ index data hcompletes => by cases hcompletes

theorem exitInOrder_initial (numberOfDomainsInPool : Nat) :
    ExitInOrder (initial numberOfDomainsInPool) := by
  refine ⟨nofun, ?_, nofun⟩
  intro t w hw hcompletes
  obtain ⟨-, rfl⟩ := initial_workers hw
  cases hcompletes

/-! The pool winds down. -/

/-- What holds of every state the pool can reach. -/
structure Sound (s : PoolSystem) : Prop where
  numbered : Numbered s
  mainThreads : MainThreads s
  threadsStarted : ThreadsStarted s
  exitInOrder : ExitInOrder s

theorem sound_step {a : PoolAction} (hs : Sound s) (h : s.step a = .ok s') : Sound s' :=
  ⟨numbered_step hs.numbered h, mainThreads_step hs.numbered hs.mainThreads h,
    threadsStarted_step hs.numbered hs.threadsStarted h, exitInOrder_step hs.exitInOrder h⟩

theorem sound_initial (numberOfDomainsInPool : Nat) : Sound (initial numberOfDomainsInPool) :=
  ⟨numbered_initial _, mainThreads_initial _, threadsStarted_initial _, exitInOrder_initial _⟩

theorem stepsLeft_moves {a : PoolAction} {t : ThreadId} {w w' : Worker} {p : DomainPool}
    (hs : Numbered s) (hw : s.workers t = some w) (hmove : Worker.Moves t a s.pool p w w') :
    ({ s with pool := p }.setWorker t w').stepsLeft + a.ownSteps ≤ s.stepsLeft := by
  have hcredit := hmove.credit
  have hworkers := workersLeft_setWorker hs hw p w'
  have hsubmitters : ∀ call,
      ({ s with pool := p }.setWorker t w').submitterLeft call = s.submitterLeft call :=
    fun _ => rfl
  have hsize := hmove.frame.size
  simp only [Worker.credit] at hcredit
  simp only [stepsLeft, hsubmitters]
  change ∑ u ∈ Finset.range s.threads, ({ s with pool := p }.setWorker t w').workerLeft u +
    22 * p.snippetsQueue.length + 13 * s.watchdog.pc.stepsLeft p.numberOfDomainsInPool +
    35 * ∑ call ∈ Finset.range s.calls, s.submitterLeft call + a.ownSteps ≤ _
  rw [hsize]
  omega

theorem stepsLeft_other {a : PoolAction} (hs : Numbered s) (hexit : s.pool.isExiting = true)
    (h : OtherStep s a s') : s'.stepsLeft + a.ownSteps ≤ s.stepsLeft + 245 * a.submits := by
  have hframe := h.frame
  cases h with
  | watchdog _ hnext =>
      have hworkers := workersLeft_other hs hframe
      have hwatchdog := watchdogNext_stepsLeft hexit hnext
      have hqueue := watchdogNext_queue hnext
      have hcalls := (watchdogNext_samePool hnext).2
      have hsubmitters : ∀ call, s'.submitterLeft call = s.submitterLeft call := by
        intro call
        rw [submitterLeft, submitterLeft, hcalls.submitters]
      simp only [stepsLeft, hsubmitters, hqueue, hcalls.calls, hframe.size,
        PoolAction.ownSteps, PoolAction.submits]
      omega
  | interrupted hwaits =>
      have hwaiting : 7 ≤ s.watchdog.pc.stepsLeft s.pool.numberOfDomainsInPool := by
        cases hpc : s.watchdog.pc with
        | getMessage | findDomain | scan =>
            simp only [WatchdogPc.stepsLeft]
            omega
        | _ =>
            rw [hpc] at hwaits
            cases hwaits.2
      change ∑ t ∈ Finset.range s.threads, s.workerLeft t + 22 * s.pool.snippetsQueue.length +
        13 * 1 + 35 * ∑ call ∈ Finset.range s.calls, s.submitterLeft call + 1 ≤ _
      rw [stepsLeft]
      omega
  | submit withCompletion id hid =>
      have hsubmitters := submittersLeft_submit (s := s) id
      rw [stepsLeft, hsubmitters, stepsLeft, PoolAction.submits]
      change ∑ t ∈ Finset.range s.threads, s.workerLeft t + 22 * s.pool.snippetsQueue.length +
        13 * s.watchdog.pc.stepsLeft s.pool.numberOfDomainsInPool +
        35 * (∑ call ∈ Finset.range s.calls, s.submitterLeft call + 7) + 0 ≤ _
      omega
  | submitter call submitter _ hsubmitter hnext =>
      have hworkers := workersLeft_other hs hframe
      have hqueue := submitterNext_queue hnext
      have hsubmitters := submittersLeft_step hs hsubmitter hnext
      have hwatchdog := (submitterNext_sameEvents hnext).2.2
      simp only [stepsLeft, hwatchdog, hframe.size, PoolAction.ownSteps, PoolAction.submits]
      omega
  | foreignAbort t w hw =>
      have hworkers := workersLeft_setWorker hs hw s.pool (w.requestAbort .other)
      rw [requestAbort_pc] at hworkers
      have hsame := Nat.add_right_cancel hworkers
      change ∑ u ∈ Finset.range s.threads, (s.setWorker t (w.requestAbort .other)).workerLeft u +
        22 * s.pool.snippetsQueue.length +
        13 * s.watchdog.pc.stepsLeft s.pool.numberOfDomainsInPool +
        35 * ∑ call ∈ Finset.range s.calls, s.submitterLeft call ≤ _
      rw [hsame]
      exact le_rfl
  | host | tick => exact le_rfl

theorem stepsLeft_step {a : PoolAction} (hs : Numbered s) (hexit : s.pool.isExiting = true)
    (h : s.step a = .ok s') : s'.stepsLeft + a.ownSteps ≤ s.stepsLeft + 245 * a.submits := by
  obtain ⟨t, w, p, w', hw, hmove, rfl⟩ | hother := step_ok h
  · exact (stepsLeft_moves hs hw hmove).trans (Nat.le_add_right _ _)
  · exact stepsLeft_other hs hexit hother

/-- The next statement of a thread, or the return of a call that a worker waits in.
`CreateSandbox` throws only when there is no id left for an AppDomain. -/
def Proceeds (s : PoolSystem) : PoolAction → Prop
  | .worker _ .next | .worker _ (.sandbox _) | .worker _ (.finished _) | .watchdog .next
  | .submitter _ => True
  | .worker t (.throws _) =>
      s.pcs t = some .createSandbox ∧ ∀ appDomain, appDomain ∈ s.pool.domains
  | _ => False

/-- The watchdog, the workers and the calls of `SubmitSnippet` have ended. -/
structure Halted (s : PoolSystem) : Prop where
  watchdog : s.watchdog.pc = .ended
  workers : ∀ t w, s.workers t = some w → w.pc = .ended
  submitters : ∀ call submitter, s.submitters call = some submitter →
    submitter.pc = .returned ∨ submitter.pc = .threw

theorem createStep_enabled {c : Creator} {index : Nat} {stage : CreateStage}
    (hs : ThreadsStarted s) (hstage : s.creation c = some (index, stage)) :
    s.createStep index stage ≠ .error .notEnabled := by
  cases stage with
  | readSlot => simp [createStep]
  | setMainThread data => cases data <;> simp [createStep]
  | start t =>
      obtain ⟨next, hnext⟩ := createStep_start hs hstage
      simp [hnext]

theorem submitter_enabled (hs : ThreadsStarted s) {call : Nat} {submitter : Submitter}
    (hsubmitter : s.submitters call = some submitter)
    (hpc : submitter.pc ≠ .returned ∧ submitter.pc ≠ .threw) :
    s.step (.submitter call) ≠ .error .notEnabled := by
  simp only [step, hsubmitter]
  cases hat : submitter.pc with
  | creating index stage =>
      have hcreate := createStep_enabled hs (creation_of_creating hsubmitter hat)
      simp only [submitterNext, hat]
      split
      next => simp
      next => simp
      next fault _ _ hfault =>
        rw [hfault] at hcreate
        simpa using hcreate
      next => simp
      next => simp
  | returned => exact absurd hat hpc.1
  | threw => exact absurd hat hpc.2
  | _ =>
      simp only [submitterNext, hat]
      repeat' split
      all_goals simp

theorem abortMainThread_enabled (hmain : MainThreads s) (data : DataRef) (token : AbortToken) :
    s.abortMainThread data token ≠ .error .notEnabled := by
  simp only [abortMainThread]
  split
  next => simp
  next t ht =>
    obtain ⟨w, hw, -⟩ := hmain data t ht
    simp [hw]

theorem watchdog_enabled (hmain : MainThreads s) (hs : ThreadsStarted s)
    (hpc : s.watchdog.pc ≠ .ended) : s.step (.watchdog .next) ≠ .error .notEnabled := by
  simp only [step]
  cases hat : s.watchdog.pc with
  | ended => exact absurd hat hpc
  | abortExausted poolDomain =>
      have habort := abortMainThread_enabled hmain poolDomain .threadsExausted
      simp only [watchdogNext, hat]
      split
      next fault hfault => rwa [hfault] at habort
      next => simp
  | abortTimeout index poolDomain =>
      simp only [watchdogNext, hat]
      split
      next => simp
      next data hdata =>
        have habort := abortMainThread_enabled hmain data .timeout
        split
        next fault hfault => rwa [hfault] at habort
        next => simp
  | creating index ensuring stage =>
      have hstage : s.creation .watchdog = some (index, stage) := by simp [creation, hat]
      have hcreate := createStep_enabled hs hstage
      simp only [watchdogNext, hat]
      split
      next fault hfault =>
        rw [hfault] at hcreate
        simpa using hcreate
      all_goals simp
  | getMessage =>
      simp only [watchdogNext, hat, getHostMessage]
      cases s.pool.host.rawGetLastMessage with
      | error fault => simp
      | ok result =>
          obtain ⟨host, hostEvent⟩ := result
          cases hostEvent <;> simp
  | _ =>
      simp only [watchdogNext, hat]
      repeat' split
      all_goals simp

end PoolSystem

namespace Worker

theorem recycleStep_enabled {p : DomainPool} (hended : p.watchdogEnded = true) (w : Worker)
    (caller : RecycleCaller) (stage : RecycleStage) :
    w.recycleStep p caller stage ≠ .error .notEnabled := by
  cases stage with
  | joinWatchdog => simp [recycleStep, hended]
  | checkZombies | clearSlot =>
      simp only [recycleStep]
      split
      all_goals simp
  | _ => simp [recycleStep]

/-- A worker that does not wait for one of its calls to come back has a next statement. -/
theorem next_enabled {p : DomainPool} (hended : p.watchdogEnded = true)
    (hcompleted : p.isAddingCompleted = true) {w : Worker}
    (hpc : w.pc ≠ .ended ∧ w.pc ≠ .unstarted) (hcalls : w.pc ≠ .createSandbox ∧ w.pc ≠ .running) :
    w.next p ≠ .error .notEnabled := by
  cases hat : w.pc with
  | ended => exact absurd hat hpc.1
  | unstarted => exact absurd hat hpc.2
  | createSandbox => exact absurd hat hcalls.1
  | running => exact absurd hat hcalls.2
  | recycle caller stage =>
      simp only [next, hat]
      exact recycleStep_enabled hended w caller stage
  | take =>
      simp only [next, hat, hcompleted]
      split
      all_goals simp
  | _ =>
      simp only [next, hat]
      repeat' split
      all_goals simp

end Worker

namespace PoolSystem

variable {s s' : PoolSystem}

theorem step_worker_enabled {t : ThreadId} {w : Worker} {input : WorkerInput}
    (hw : s.workers t = some w) (h : w.step s.pool input ≠ .error .notEnabled) :
    s.step (.worker t input) ≠ .error .notEnabled := by
  simp only [step, withWorker, hw]
  split
  next fault hfault =>
    rw [hfault] at h
    simpa using h
  next => simp

theorem worker_enabled (hended : s.pool.watchdogEnded = true)
    (hcompleted : s.pool.isAddingCompleted = true) {t : ThreadId} {w : Worker}
    (hw : s.workers t = some w) (hpc : w.pc ≠ .ended ∧ w.pc ≠ .unstarted) :
    ∃ input, s.Proceeds (.worker t input) ∧ s.step (.worker t input) ≠ .error .notEnabled := by
  by_cases hsandbox : w.pc = .createSandbox
  · by_cases hfresh : ∃ appDomain, appDomain ∉ s.pool.domains
    · obtain ⟨appDomain, hnew⟩ := hfresh
      refine ⟨.sandbox appDomain, trivial, step_worker_enabled hw ?_⟩
      simp [Worker.step, hsandbox, hnew]
    · push Not at hfresh
      refine ⟨.throws "", ⟨by simp [pcs, hw, hsandbox], hfresh⟩, step_worker_enabled hw ?_⟩
      simp [Worker.step, Worker.throwException, hsandbox, WorkerPc.region]
  · by_cases hrunning : w.pc = .running
    · refine ⟨.finished .success, trivial, step_worker_enabled hw ?_⟩
      simp [Worker.step, hrunning]
    · refine ⟨.next, trivial, step_worker_enabled hw ?_⟩
      exact Worker.next_enabled hended hcompleted hpc ⟨hsandbox, hrunning⟩

/-- As long as not everything has ended, something can go on. -/
theorem halted_or_enabled (hs : Sound s) (hcompleted : s.pool.isAddingCompleted = true) :
    s.Halted ∨ ∃ a, s.Proceeds a ∧ s.step a ≠ .error .notEnabled := by
  by_contra hstuck
  rw [not_or] at hstuck
  obtain ⟨hlive, hnothing⟩ := hstuck
  have hwatchdog : s.watchdog.pc = .ended := by
    by_contra hpc
    have henabled := watchdog_enabled hs.mainThreads hs.threadsStarted hpc
    exact hnothing ⟨.watchdog .next, trivial, henabled⟩
  have hsubmitters : ∀ call submitter, s.submitters call = some submitter →
      submitter.pc = .returned ∨ submitter.pc = .threw := by
    intro call submitter hsubmitter
    by_contra hpc
    rw [not_or] at hpc
    have henabled := submitter_enabled hs.threadsStarted hsubmitter hpc
    exact hnothing ⟨.submitter call, trivial, henabled⟩
  apply hlive
  refine ⟨hwatchdog, ?_, hsubmitters⟩
  intro t w hw
  by_contra hpc
  by_cases hunstarted : w.pc = .unstarted
  · -- its creator is at the start of it
    obtain ⟨c, hstart⟩ := hs.threadsStarted.starter t (by simp [pcs, hw, hunstarted])
    cases c with
    | watchdog => exact not_starting_watchdog (by simp [hwatchdog]) t hstart
    | submitter call =>
        refine not_starting_submitter ?_ t hstart
        intro submitter hsubmitter index u hat
        obtain hdone | hdone := hsubmitters call submitter hsubmitter
        all_goals
          rw [hdone] at hat
          cases hat
  · obtain ⟨input, hgoes, henabled⟩ := worker_enabled (hs.exitInOrder.watchdogEnded hwatchdog)
      hcompleted hw ⟨hpc, hunstarted⟩
    exact hnothing ⟨_, hgoes, henabled⟩

/-- From the moment `Exit` has completed the queue, the threads of the pool have only so many
statements left, and some more for every later call of `SubmitSnippet`. Until the watchdog,
every worker and every call has ended, one of them can go on. -/
theorem exit_winds_down (numberOfDomainsInPool : Nat) (before after : List PoolAction)
    (s t : PoolSystem) (hbefore : run step (initial numberOfDomainsInPool) before = .ok s)
    (hcompleted : s.pool.isAddingCompleted = true) (hafter : run step s after = .ok t) :
    total PoolAction.ownSteps after ≤ s.stepsLeft + 245 * total PoolAction.submits after ∧
      (t.Halted ∨ ∃ a, t.Proceeds a ∧ t.step a ≠ .error .notEnabled) := by
  have hs : Sound s := (always_of_step (fun _ _ _ hs h => sound_step hs h)
    (sound_initial numberOfDomainsInPool) before).last hbefore
  have hstep : ∀ s a next, (Sound s ∧ s.pool.isExiting = true) → step s a = .ok next →
      (Sound next ∧ next.pool.isExiting = true) ∧
        next.stepsLeft + a.ownSteps ≤ s.stepsLeft + 245 * a.submits := by
    intro s a next hs h
    exact ⟨⟨sound_step hs.1 h, step_isExiting h hs.2⟩, stepsLeft_step hs.1.numbered hs.2 h⟩
  constructor
  · have hpaid := run_cost_le hstep ⟨hs, hs.exitInOrder.completed hcompleted⟩ hafter
    rw [total_mul] at hpaid
    omega
  · have hkept : ∀ s a next, (Sound s ∧ s.pool.isAddingCompleted = true) →
        step s a = .ok next → Sound next ∧ next.pool.isAddingCompleted = true :=
      fun s a next hs h => ⟨sound_step hs.1 h, step_isAddingCompleted h hs.2⟩
    have ht := (always_of_step hkept ⟨hs, hcompleted⟩ after).last hafter
    exact halted_or_enabled ht.1 ht.2

/-- With too many zombies, an exception in the only worker makes it call `Exit`. -/
def exitCalled : List PoolAction :=
  List.replicate 21 (.host .onDomainRudeUnload) ++ firstWorkerReady ++
    .worker 0 (.throws "disposed") :: goesOn 0 3

/-- The worker interrupts the watchdog and waits until it has ended. -/
theorem exit_winds_down_zombies :
    let after : List PoolAction := [.worker 0 .next, .watchdog .next, .worker 0 .next]
    ∃ s t, run step (initial 1) exitCalled = .ok s ∧ run step s after = .ok t ∧
      total PoolAction.ownSteps after ≤ s.stepsLeft + 245 * total PoolAction.submits after ∧
      (t.Halted ∨ ∃ a, t.Proceeds a ∧ t.step a ≠ .error .notEnabled) :=
  ⟨_, _, rfl, rfl, exit_winds_down 1 exitCalled _ _ _ rfl rfl rfl⟩

end PoolSystem

end HostedPumpkin
