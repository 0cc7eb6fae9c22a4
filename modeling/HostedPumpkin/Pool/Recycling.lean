import HostedPumpkin.Pool.Slots

/-!
Recycling. A worker calls `RecycleDomain` when its snippet leaks threads, was
aborted by somebody else, used the domain `MaxReuse` times, or when something
was thrown outside the inner try block. In the last case it is on its way out of
its thread function. In the others it goes back to the head of its loop, and the
loop ends only when the queue is complete: a worker that finds more to do runs
it in the domain it has just given up.
-/

namespace HostedPumpkin

open Runs

/-- How far a worker is with a run, as far as the use of its AppDomain goes. -/
inductive Phase where
  | ready
  | starting
  | busy
  | decided
  | leaving
deriving DecidableEq, Repr

def WorkerPc.phase : WorkerPc → Phase
  | .unstarted | .incrementThreads | .createSandbox | .setDomainId | .loopHead
  | .resetAborting | .resetCounters | .take | .taken | .incrementUsages | .collect => .ready
  | .recordStart | .writeStart => .starting
  | .running | .readEnd | .clearStart | .catchAbort _ | .catchException _
  | .getThreadCount | .getMemoryUsage | .decide => .busy
  | .deliver | .recycleCheck => .decided
  | .recycle _ _ | .ended => .leaving

/-- Where a worker that called `RecycleDomain` can be. -/
def WorkerPc.retired : WorkerPc → Bool
  | .recycle _ _ | .loopHead | .ended => true
  | _ => false

theorem WorkerPc.retired_of_innerTry {pc : WorkerPc} (h : pc.region = .innerTry) :
    pc.retired = false := by
  obtain rfl | rfl | rfl | rfl | rfl | rfl := WorkerPc.innerTry_cases h <;> rfl

/-- What the uses counted so far leave for a worker in a phase. -/
def Budget (usages : Int) (started : Nat) (recycleDomain : Bool) : Phase → Prop
  | .ready => started < maxReuse
  | .starting => started < maxReuse ∧ started + 1 ≤ usages
  | .decided => recycleDomain = true ∨ started < maxReuse
  | .busy | .leaving => True

theorem Budget.mono {usages usages' : Int} {started : Nat} {recycleDomain : Bool}
    {phase : Phase} (h : Budget usages started recycleDomain phase)
    (hle : usages ≤ usages') : Budget usages' started recycleDomain phase := by
  cases phase with
  | starting => exact ⟨h.1, h.2.trans hle⟩
  | ready | busy | decided | leaving => exact h

namespace Worker

/-- Every run a worker started was counted as a use of its domain before, the
count never passes `MaxReuse`, and a worker that recycled its domain is on its way
out. -/
structure Retires (p : DomainPool) (w : Worker) : Prop where
  bound : (w.started : Int) ≤ maxReuse
  usages : (w.started : Int) ≤ (p.heap w.myPoolDomain).numberOfUsages
  retired : w.recycled = true → w.pc.retired = true
  recycling : ∀ caller stage, w.pc = .recycle caller stage → w.recycled = true
  budget : w.recycled = false →
    Budget (p.heap w.myPoolDomain).numberOfUsages w.started w.recycleDomain w.pc.phase

variable {p p' : DomainPool} {w w' : Worker}

/-- What a statement leaves to show that starts no run. -/
theorem Retires.of_started (hw : Retires p w) (hstarted : w'.started = w.started)
    (husages : (p.heap w.myPoolDomain).numberOfUsages ≤
      (p'.heap w'.myPoolDomain).numberOfUsages)
    (hretired : w'.recycled = true → w'.pc.retired = true)
    (hrecycling : ∀ caller stage, w'.pc = .recycle caller stage → w'.recycled = true)
    (hbudget : w'.recycled = false →
      Budget (p'.heap w'.myPoolDomain).numberOfUsages w.started w'.recycleDomain
        w'.pc.phase) : Retires p' w' := by
  refine ⟨?_, ?_, hretired, hrecycling, ?_⟩
  · rw [hstarted]
    exact hw.bound
  · rw [hstarted]
    exact hw.usages.trans husages
  · rw [hstarted]
    exact hbudget

theorem Retires.not_recycled (hw : Retires p w) (hpc : w.pc.retired = false) :
    w.recycled = false := by
  by_contra h
  rw [hw.retired (Bool.eq_true_of_not_eq_false h)] at hpc
  cases hpc

theorem Retires.budget_at (hw : Retires p w) {pc : WorkerPc} (hpc : w.pc = pc)
    (hactive : pc.retired = false) :
    Budget (p.heap w.myPoolDomain).numberOfUsages w.started w.recycleDomain pc.phase := by
  have hbudget := hw.budget (hw.not_recycled (hpc ▸ hactive))
  rw [hpc] at hbudget
  exact hbudget

/-- A statement that changes the place of the worker at most, within a phase. -/
theorem Retires.of_phase (hw : Retires p w) (hactive : w.pc.retired = false)
    (husages : (p.heap w.myPoolDomain).numberOfUsages ≤
      (p'.heap w'.myPoolDomain).numberOfUsages)
    (hsame : w'.started = w.started ∧ w'.recycled = w.recycled)
    (hbudget : Budget (p.heap w.myPoolDomain).numberOfUsages w.started w.recycleDomain
        w.pc.phase →
      Budget (p'.heap w'.myPoolDomain).numberOfUsages w.started w'.recycleDomain
        w'.pc.phase)
    (hpc : ∀ caller stage, w'.pc ≠ .recycle caller stage) : Retires p' w' := by
  have hnot := hw.not_recycled hactive
  refine hw.of_started hsame.1 husages ?_ ?_ ?_
  · intro hrecycled
    rw [hsame.2, hnot] at hrecycled
    cases hrecycled
  · intro caller stage heq
    exact absurd heq (hpc caller stage)
  · intro _
    exact hbudget (hw.budget hnot)

/-- A worker that has not entered its outer try block. -/
theorem retires_of_fresh (hstarted : w.started = 0) (hrecycled : w.recycled = false)
    (hpc : w.pc = .unstarted ∨ w.pc = .incrementThreads)
    (husages : 0 ≤ (p.heap w.myPoolDomain).numberOfUsages) : Retires p w := by
  have hbound : (0 : Int) < maxReuse := by decide
  refine ⟨?_, ?_, ?_, ?_, ?_⟩
  · rw [hstarted]
    exact hbound.le
  · rw [hstarted]
    exact husages
  · rw [hrecycled]
    exact fun h => by cases h
  · obtain hpc | hpc := hpc
    all_goals
      rw [hpc]
      exact fun _ _ heq => by cases heq
  · intro _
    obtain hpc | hpc := hpc
    all_goals
      rw [hpc, hstarted]
      exact hbound

theorem enterOuterCatch_retires (hw : Retires p w) : Retires p w.enterOuterCatch :=
  hw.of_started rfl le_rfl (fun _ => rfl) (fun _ _ _ => rfl) (fun h => by cases h)

theorem recycleStep_retires {caller : RecycleCaller} {stage : RecycleStage}
    (hw : Retires p w) (hpc : w.pc = .recycle caller stage)
    (h : w.recycleStep p caller stage = .ok (p', w')) : Retires p' w' := by
  have hrecycled := hw.recycling caller stage hpc
  have hdone : w'.started = w.started ∧ w'.recycled = true ∧ w'.pc.retired = true := by
    obtain ⟨-, _, _, _, rfl, ⟨stage', rfl⟩ | rfl⟩ := recycleStep_ok h
    · exact ⟨rfl, hrecycled, rfl⟩
    · cases caller <;> exact ⟨rfl, hrecycled, rfl⟩
  have hframe := recycleStep_frame h
  obtain ⟨hstarted, hrecycled', hretired⟩ := hdone
  refine hw.of_started hstarted ?_ (fun _ => hretired) (fun _ _ _ => hrecycled') ?_
  · rw [hframe.myPoolDomain]
    exact hframe.usages
  · intro hnot
    rw [hrecycled'] at hnot
    cases hnot

theorem next_retires (hw : Retires p w)
    (hloop : w.pc = .loopHead → w.recycled = true → p.isCompleted = true)
    (h : w.next p = .ok (p', w')) : Retires p' w' := by
  have hframe := next_frame h
  have husages : (p.heap w.myPoolDomain).numberOfUsages ≤
      (p'.heap w'.myPoolDomain).numberOfUsages := by
    rw [hframe.myPoolDomain]
    exact hframe.usages
  cases hpc : w.pc with
  | unstarted | createSandbox | running | ended =>
      simp only [next, hpc] at h
      cases h
  | recycle caller stage =>
      simp only [next, hpc] at h
      exact recycleStep_retires hw hpc h
  | loopHead =>
      have hbudget := hw.budget
      rw [hpc] at hbudget
      simp only [next, hpc] at h
      split at h
      next hcompleted =>
        cases h
        exact hw.of_started rfl husages (fun _ => rfl) (fun _ _ heq => by cases heq)
          (fun _ => trivial)
      next hcompleted =>
        cases h
        refine hw.of_started rfl husages ?_ (fun _ _ heq => by cases heq) hbudget
        intro hrecycled
        exact absurd (hloop hpc hrecycled) hcompleted
  | incrementUsages =>
      have hbudget := hw.budget_at hpc rfl
      simp only [next, hpc] at h
      cases h
      refine hw.of_phase (by rw [hpc]; rfl) husages ⟨rfl, rfl⟩ ?_ (fun _ _ heq => by cases heq)
      intro _
      refine ⟨hbudget, ?_⟩
      have hcounted := hw.usages
      simp only [DomainPool.modifyData, Function.update_self]
      omega
  | writeStart =>
      obtain ⟨hbound, hcounted⟩ := hw.budget_at hpc rfl
      have hnot := hw.not_recycled (by rw [hpc]; rfl)
      simp only [next, hpc] at h
      cases h
      refine ⟨?_, ?_, ?_, (fun _ _ heq => by cases heq), fun _ => trivial⟩
      · push_cast
        omega
      · push_cast
        exact hcounted.trans husages
      · intro hrecycled
        rw [hnot] at hrecycled
        cases hrecycled
  | decide =>
      simp only [next, hpc] at h
      split at h
      next =>
        cases h
        exact hw.of_phase (by rw [hpc]; rfl) husages ⟨rfl, rfl⟩ (fun _ => Or.inl rfl)
          (fun _ _ heq => by cases heq)
      next =>
        split at h
        next =>
          cases h
          exact hw.of_phase (by rw [hpc]; rfl) husages ⟨rfl, rfl⟩ (fun _ => Or.inl rfl)
            (fun _ _ heq => by cases heq)
        next hyoung =>
          cases h
          refine hw.of_phase (by rw [hpc]; rfl) husages ⟨rfl, rfl⟩ ?_
            (fun _ _ heq => by cases heq)
          intro _
          right
          have hcounted := hw.usages
          simp [maxReuse] at hyoung ⊢
          omega
  | deliver =>
      simp only [next, hpc] at h
      repeat' split at h
      all_goals cases h
      · exact hw.of_phase (by rw [hpc]; rfl) husages ⟨rfl, rfl⟩ (by rw [hpc]; exact id)
          (fun _ _ heq => by cases heq)
      · exact enterOuterCatch_retires hw
      · exact hw.of_phase (by rw [hpc]; rfl) husages ⟨rfl, rfl⟩ (by rw [hpc]; exact id)
          (fun _ _ heq => by cases heq)
  | recycleCheck =>
      have hbudget := hw.budget_at hpc rfl
      simp only [next, hpc] at h
      split at h
      next =>
        cases h
        exact hw.of_started rfl husages (fun _ => rfl) (fun _ _ _ => rfl) (fun h => by cases h)
      next hkeep =>
        cases h
        refine hw.of_phase (by rw [hpc]; rfl) husages ⟨rfl, rfl⟩ ?_
          (fun _ _ heq => by cases heq)
        intro _
        exact hbudget.resolve_left hkeep
  | take =>
      simp only [next, hpc] at h
      repeat' split at h
      all_goals cases h
      · exact hw.of_phase (by rw [hpc]; rfl) husages ⟨rfl, rfl⟩ (by rw [hpc]; exact id)
          (fun _ _ heq => by cases heq)
      · exact hw.of_phase (by rw [hpc]; rfl) husages ⟨rfl, rfl⟩ (fun _ => trivial)
          (fun _ _ heq => by cases heq)
  | catchException message =>
      simp only [next, hpc] at h
      split at h
      all_goals cases h
      all_goals
        exact hw.of_phase (by rw [hpc]; rfl) husages ⟨rfl, rfl⟩ (fun _ => trivial)
          (fun _ _ heq => by cases heq)
  | _ =>
      simp only [next, hpc] at h
      cases h
      refine hw.of_phase (by rw [hpc]; rfl) husages ⟨rfl, rfl⟩ ?_ (fun _ _ heq => by cases heq)
      rw [hpc]
      exact fun hbudget => hbudget.mono husages

/-- An exception or an abort inside the inner try block ends the run. -/
theorem leaveTry_retires (hw : Retires p w) (hregion : w.pc.region = .innerTry)
    {pc : WorkerPc} (hpc : ∃ message, pc = .catchAbort message ∨ pc = .catchException message) :
    Retires (w.leaveTry p pc).1 (w.leaveTry p pc).2 := by
  have hactive := WorkerPc.retired_of_innerTry hregion
  obtain ⟨message, rfl | rfl⟩ := hpc
  all_goals
    exact hw.of_phase hactive le_rfl ⟨rfl, rfl⟩ (fun _ => trivial)
      (fun _ _ heq => by cases heq)

theorem ended_retires (hw : Retires p w) (hended : w'.pc = .ended)
    (hsame : w'.started = w.started ∧ w'.myPoolDomain = w.myPoolDomain)
    (hheap : p'.heap = p.heap) : Retires p' w' := by
  refine hw.of_started hsame.1 ?_ ?_ ?_ ?_
  · rw [hsame.2, hheap]
  · rw [hended]
    exact fun _ => rfl
  · rw [hended]
    exact fun _ _ heq => by cases heq
  · rw [hended]
    exact fun _ => trivial

theorem step_retires {input : WorkerInput} (hw : Retires p w)
    (hloop : input = .next → w.pc = .loopHead → w.recycled = true → p.isCompleted = true)
    (h : w.step p input = .ok (p', w')) : Retires p' w' := by
  cases input with
  | next => exact next_retires hw (hloop rfl) h
  | sandbox appDomain | finished outcome =>
      simp only [step] at h
      split at h
      all_goals cases h
      next hpc =>
        refine hw.of_phase (by simp [hpc, WorkerPc.retired]) le_rfl ⟨rfl, rfl⟩ ?_
          (fun _ _ heq => by cases heq)
        simp only [hpc]
        exact id
  | throws message | aborted message =>
      cases step_thrown ⟨message, by simp⟩ h with
      | inner pc hregion hpc => exact leaveTry_retires hw hregion hpc
      | outer hregion => exact enterOuterCatch_retires hw
      | dies hregion => exact ended_retires hw rfl ⟨rfl, rfl⟩ rfl

theorem passive_retires {timeout : Prop} (hw : Retires p w)
    (hpassive : Passive timeout w w')
    (husages : (p'.heap w.myPoolDomain).numberOfUsages =
      (p.heap w.myPoolDomain).numberOfUsages) : Retires p' w' := by
  have hkept : Retires p' w := by
    refine hw.of_started rfl husages.ge hw.retired hw.recycling ?_
    rw [husages]
    exact hw.budget
  obtain ⟨request, rfl⟩ | ⟨hpc, rfl⟩ := hpassive.eq_cases
  · exact hkept.of_started rfl le_rfl hkept.retired hkept.recycling hkept.budget
  · refine hkept.of_phase (by rw [hpc]; rfl) le_rfl ⟨rfl, rfl⟩ ?_ (fun _ _ heq => by cases heq)
    rw [hpc]
    exact id

end Worker

namespace PoolSystem

/-- A worker that comes back from `RecycleDomain` to the head of its loop finds the
queue complete. -/
def LoopEnds (s : PoolSystem) : PoolAction → Prop
  | .worker thread .next => ∀ w ∈ s.workers thread,
      w.pc = .loopHead → w.recycled = true → s.pool.isCompleted = true
  | _ => True

instance (s : PoolSystem) : (a : PoolAction) → Decidable (s.LoopEnds a)
  | .worker thread .next =>
      inferInstanceAs (Decidable (∀ w ∈ s.workers thread,
        w.pc = .loopHead → w.recycled = true → s.pool.isCompleted = true))
  | .worker _ (.throws _) | .worker _ (.aborted _) | .worker _ (.sandbox _)
  | .worker _ (.finished _) | .rudeAbort _ | .watchdog _ | .submit _ | .submitter _
  | .foreignAbort _ | .settle _ | .host _ | .tick _ => isTrue trivial

/-- No worker that called `RecycleDomain` is in the inner try block, where a
snippet is started, and no worker ever started more than `MaxReuse` of them. -/
def RetiresDomains (s : PoolSystem) : Prop :=
  ∀ t w, s.workers t = some w →
    (w.pc.region = .innerTry → w.recycled = false) ∧ (w.started : Int) ≤ maxReuse

structure RecyclingInvariant (s : PoolSystem) : Prop where
  objects : Objects s
  counts : ∀ data, 0 ≤ (s.pool.heap data).numberOfUsages
  workers : ∀ t w, s.workers t = some w → Worker.Retires s.pool w

theorem counts_step {s s' : PoolSystem} {a : PoolAction}
    (hs : ∀ data, 0 ≤ (s.pool.heap data).numberOfUsages) (h : s.step a = .ok s') :
    ∀ data, 0 ≤ (s'.pool.heap data).numberOfUsages := by
  intro data
  obtain ⟨t, w, p, w', -, hmove, rfl⟩ | hframe := step_cases h
  · exact (hs data).trans (hmove.frame.heap_usages data)
  · obtain hsame | ⟨-, hzero⟩ := hframe.usages data
    · rw [hsame]
      exact hs data
    · exact hzero.ge

theorem recyclingInvariant_step {s s' : PoolSystem} {a : PoolAction}
    (hs : RecyclingInvariant s) (hloop : s.LoopEnds a) (h : s.step a = .ok s') :
    RecyclingInvariant s' := by
  refine ⟨objects_step hs.objects h, counts_step hs.counts h,
    workers_step (P := fun p _ w => Worker.Retires p w) h hs.workers ?_ ?_ ?_ ?_⟩
  · intro t w p w' hw hmove hretires
    obtain ⟨input, rfl, hstep⟩ | ⟨rfl, hdies⟩ | ⟨rfl, hsettles⟩ := hmove
    · refine Worker.step_retires hretires ?_ hstep
      rintro rfl
      exact hloop w hw
    · obtain ⟨-, rfl, rfl⟩ := Worker.dieRudely_ok hdies
      exact Worker.ended_retires hretires rfl ⟨rfl, rfl⟩ rfl
    · obtain ⟨hended, rfl, rfl⟩ := Worker.settle_ok hsettles
      exact Worker.ended_retires hretires hended ⟨rfl, rfl⟩ rfl
  · intro t w u v p v' _ _ _ hmove hretires
    have husages := hmove.frame.heap_usages w.myPoolDomain
    exact hretires.of_started rfl husages hretires.retired hretires.recycling
      (fun hnot => (hretires.budget hnot).mono husages)
  · intro hframe t w w' hw hpassive hretires
    refine Worker.passive_retires hretires hpassive ?_
    obtain hsame | ⟨hnew, -⟩ := hframe.usages w.myPoolDomain
    · exact hsame
    · exact absurd (hs.objects.workers t w hw) hnew.not_gt
  · intro _ index data
    exact Worker.retires_of_fresh rfl rfl (Or.inl rfl) (counts_step hs.counts h data)

theorem recyclingInvariant_initial (numberOfDomainsInPool : Nat) :
    RecyclingInvariant (initial numberOfDomainsInPool) := by
  have hcounts : ∀ data,
      ((initial numberOfDomainsInPool).pool.heap data).numberOfUsages = 0 := by
    intro data
    simp only [initial]
    split <;> rfl
  refine ⟨objects_initial _, fun data => (hcounts data).ge, ?_⟩
  intro t w hw
  obtain ⟨-, rfl⟩ := initial_workers hw
  exact Worker.retires_of_fresh rfl rfl (Or.inr rfl) (hcounts t).ge

theorem RecyclingInvariant.retiresDomains {s : PoolSystem} (hs : RecyclingInvariant s) :
    s.RetiresDomains := by
  intro t w hw
  have hretires := hs.workers t w hw
  exact ⟨fun hregion => hretires.not_recycled (WorkerPc.retired_of_innerTry hregion),
    hretires.bound⟩

/-- In every run in which the loop of a worker ends once it called `RecycleDomain`,
no domain is used after that, and none more than `MaxReuse` times. -/
theorem recycled_domains_retired (numberOfDomainsInPool : Nat) (actions : List PoolAction)
    (hloop : Meets step LoopEnds (initial numberOfDomainsInPool) actions) :
    Always step RetiresDomains (initial numberOfDomainsInPool) actions := by
  have hinvariant :
      Always step RecyclingInvariant (initial numberOfDomainsInPool) actions :=
    always_of_meets (fun _ _ _ hs hcond h => recyclingInvariant_step hs hcond h)
      (recyclingInvariant_initial numberOfDomainsInPool) hloop
  exact hinvariant.imp (fun _ => RecyclingInvariant.retiresDomains)

/-- With more zombies than the pool tolerates, `RecycleDomain` completes the queue,
and the worker that called it ends. -/
theorem recycled_domains_retired_escalation :
    let actions := firstWorkerReady ++ submitted 0 ++ goesOn 0 5 ++
      List.replicate 21 (.host .onDomainRudeUnload) ++
      [.foreignAbort 0, .worker 0 (.aborted "Thread was being aborted.")] ++ goesOn 0 10 ++
      [.watchdog .next] ++ goesOn 0 2
    Always step RetiresDomains (initial 1) actions ∧
      ∃ s w, run step (initial 1) actions = .ok s ∧ s.workers 0 = some w ∧
        w.pc = .ended ∧ w.recycled = true :=
  ⟨recycled_domains_retired 1 _ (by decide), _, _, rfl, rfl, rfl, rfl⟩

/-- Two snippets wait, and a foreign abort hits the first. The worker recycles its
domain, asks the host to unload it, and starts the second snippet there. -/
theorem recycled_domain_runs_again :
    ¬ Always step RetiresDomains (initial 1)
      (firstWorkerReady ++ submitted 0 ++ submitted 1 ++ goesOn 0 5 ++
        [.foreignAbort 0, .worker 0 (.aborted "Thread was being aborted.")] ++
        goesOn 0 18) := by
  intro h
  have hrunning := (h.last rfl 0 _ rfl).1 rfl
  cases hrunning

end PoolSystem

end HostedPumpkin
