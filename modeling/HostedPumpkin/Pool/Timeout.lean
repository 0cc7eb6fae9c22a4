import HostedPumpkin.Pool.Steps

/-!
Timeouts. The watchdog reads the start of a run, finds it too old, and aborts
the thread three statements later, whatever that thread runs by then. A snippet
is told that it timed out only for its own time if the thread the watchdog
aborts is still in the run whose start it read, and if the aborted worker does
not get past its run before the abort is raised.
-/

namespace HostedPumpkin

open Runs

/-- The start of a run was read from the clock, and the inner try block not left. -/
def WorkerPc.timed : WorkerPc → Bool
  | .writeStart | .running | .readEnd | .clearStart => true
  | _ => false

/-- The result of the run is on its way to the client. -/
def WorkerPc.reporting : WorkerPc → Bool
  | .getThreadCount | .getMemoryUsage | .decide | .deliver => true
  | _ => false

/-- Inside the inner try block or one of its catch blocks. -/
def WorkerPc.guarded (pc : WorkerPc) : Bool :=
  pc.region == .innerTry || pc.region == .innerCatch

/-- The watchdog is between the comparison with the threshold and the abort. -/
def WatchdogPc.expired : WatchdogPc → Bool
  | .reportTimeout _ _ | .writeZero _ _ | .abortTimeout _ _ => true
  | _ => false

/-- The slot whose thread the watchdog is about to abort. -/
def WatchdogPc.abortSlot : WatchdogPc → Option Nat
  | .abortTimeout index _ => some index
  | _ => none

namespace Worker

/-- The run a timeout abort is about took longer than the threshold, whether it is
still in progress or over. -/
def Overdue (clock : Int) (w : Worker) : Prop :=
  match w.pc with
  | .writeStart | .running | .readEnd | .clearStart => runningThreshold < w.elapsed clock
  | .catchAbort _ | .catchException _ => runningThreshold < w.lasted
  | .recycle .outerCatch _ | .ended => True
  | _ => False

/-- A timeout abort is pending only on an overdue run, and only such a run is
reported as timed out. -/
structure Punctual (clock : Int) (w : Worker) : Prop where
  began : w.began ≠ none → w.pc.timed = true ∨ w.pc = .ended
  pending : w.abortRequested = some .timeout → w.Overdue clock
  clean : w.pc.guarded = true → w.result.status ≠ .timeout
  reported : w.pc.reporting = true → w.result.status = .timeout →
    runningThreshold < w.lasted

theorem elapsed_mono {clock clock' : Int} (h : clock ≤ clock') (w : Worker) :
    w.elapsed clock ≤ w.elapsed clock' := by
  unfold elapsed
  split
  · omega
  · exact le_rfl

theorem Overdue.mono {clock clock' : Int} {w : Worker} (h : w.Overdue clock)
    (hle : clock ≤ clock') : w.Overdue clock' := by
  unfold Overdue at h ⊢
  cases hpc : w.pc with
  | writeStart | running | readEnd | clearStart =>
      rw [hpc] at h
      exact h.trans_le (elapsed_mono hle w)
  | recycle caller stage =>
      rw [hpc] at h
      cases caller <;> exact h
  | _ =>
      rw [hpc] at h
      exact h

theorem Punctual.mono {clock clock' : Int} {w : Worker} (hw : Punctual clock w)
    (hle : clock ≤ clock') : Punctual clock' w :=
  ⟨hw.began, fun hpending => (hw.pending hpending).mono hle, hw.clean, hw.reported⟩

/-- Where no run is in progress or being caught. -/
def quiet (w : Worker) : Prop :=
  w.pc.timed = false ∧ w.pc ≠ .ended ∧ ∀ clock, ¬ w.Overdue clock

variable {p p' : DomainPool} {w w' : Worker} {clock : Int}

/-- A statement away from any run, which neither starts one nor requests an abort. -/
theorem Punctual.of_quiet (hw : Punctual clock w) (hquiet : w.quiet)
    (hsame : w'.began = w.began ∧ w'.abortRequested = w.abortRequested)
    (hclean : w'.pc.guarded = true → w'.result.status ≠ .timeout)
    (hreported : w'.pc.reporting = true → w'.result.status = .timeout →
      runningThreshold < w'.lasted) : Punctual clock w' := by
  obtain ⟨htimed, hended, hoverdue⟩ := hquiet
  refine ⟨?_, ?_, hclean, hreported⟩
  · intro hbegan
    rw [hsame.1] at hbegan
    obtain h | h := hw.began hbegan
    · rw [htimed] at h
      cases h
    · exact absurd h hended
  · intro hpending
    rw [hsame.2] at hpending
    exact absurd (hw.pending hpending) (hoverdue clock)

theorem quiet_of_pc {pc : WorkerPc} (hpc : w.pc = pc) (htimed : pc.timed = false)
    (hended : (pc == .ended) = false)
    (hoverdue : ∀ clock, ¬ Overdue clock { w with pc }) : w.quiet := by
  subst hpc
  exact ⟨htimed, beq_eq_false_iff_ne.mp hended, hoverdue⟩

/-- Such a statement that leads nowhere near a result either. -/
theorem Punctual.of_quiet_away (hw : Punctual clock w) (hquiet : w.quiet)
    (hsame : w'.began = w.began ∧ w'.abortRequested = w.abortRequested)
    (haway : w'.pc.guarded = false ∧ w'.pc.reporting = false) : Punctual clock w' :=
  hw.of_quiet hquiet hsame (by simp [haway.1]) (by simp [haway.2])

/-- Away from the inner try block and the report only the abort itself matters. -/
theorem punctual_of_away (hbegan : w.began ≠ none → w.pc = .ended)
    (hpending : w.abortRequested = some .timeout → w.Overdue clock)
    (haway : w.pc.guarded = false ∧ w.pc.reporting = false) : Punctual clock w :=
  ⟨fun h => Or.inr (hbegan h), hpending, by simp [haway.1], by simp [haway.2]⟩

/-- A statement inside the inner try block that leaves the run as it is. -/
theorem Punctual.of_timed (hw : Punctual clock w) (htimed : w.pc.timed = true)
    (htimed' : w'.pc.timed = true)
    (hsame : w'.began = w.began ∧ w'.abortRequested = w.abortRequested)
    (hclean : w'.result.status ≠ .timeout) : Punctual clock w' := by
  have helapsed : w'.elapsed clock = w.elapsed clock := by
    simp only [elapsed, hsame.1]
  have hoverdue : w.Overdue clock → w'.Overdue clock := by
    intro h
    unfold Overdue at h ⊢
    rw [helapsed]
    cases hpc : w.pc with
    | writeStart | running | readEnd | clearStart =>
        rw [hpc] at h
        cases hpc' : w'.pc with
        | writeStart | running | readEnd | clearStart => exact h
        | _ =>
            rw [hpc'] at htimed'
            cases htimed'
    | _ =>
        rw [hpc] at htimed
        cases htimed
  refine ⟨fun _ => Or.inl htimed', ?_, fun _ => hclean, ?_⟩
  · intro hpending
    exact hoverdue (hw.pending (hsame.2 ▸ hpending))
  · intro _ hstatus
    exact absurd hstatus hclean

/-- An exception or an abort inside the inner try block. -/
theorem leaveTry_punctual (hw : Punctual p.clock w) (hregion : w.pc.region = .innerTry)
    {pc : WorkerPc} (hpc : ∃ message, pc = .catchAbort message ∨ pc = .catchException message) :
    Punctual p.clock (w.leaveTry p pc).2 := by
  have hclean : w.result.status ≠ .timeout := hw.clean (by simp [WorkerPc.guarded, hregion])
  have hoverdue : w.Overdue p.clock → runningThreshold < w.elapsed p.clock := by
    intro h
    unfold Overdue at h
    obtain hpc' | hpc' | hpc' | hpc' | hpc' | hpc' := WorkerPc.innerTry_cases hregion
    · rw [hpc'] at h
      cases h
    · rw [hpc'] at h
      cases h
    all_goals
      rw [hpc'] at h
      exact h
  obtain ⟨message, rfl | rfl⟩ := hpc
  all_goals
    refine ⟨fun hbegan => absurd rfl hbegan, ?_, fun _ => hclean, fun h => by cases h⟩
    intro hpending
    exact hoverdue (hw.pending hpending)

/-- What is thrown in a catch block, or after it, is not reported to the client. -/
theorem enterOuterCatch_punctual (hbegan : w.began = none) :
    Punctual clock w.enterOuterCatch :=
  punctual_of_away (fun h => absurd hbegan h) (fun _ => trivial) ⟨rfl, rfl⟩

theorem Punctual.began_none (hw : Punctual clock w) (htimed : w.pc.timed = false)
    (hended : w.pc ≠ .ended) : w.began = none := by
  by_contra hbegan
  obtain h | h := hw.began hbegan
  · rw [htimed] at h
    cases h
  · exact hended h

/-- A catch block hands over to the report. -/
theorem punctual_of_caught (hbegan : w.began = none) (hpc : w.pc = .getThreadCount)
    (hpending : w.abortRequested ≠ some .timeout)
    (hreported : w.result.status = .timeout → runningThreshold < w.lasted) :
    Punctual clock w := by
  refine ⟨fun h => absurd hbegan h, fun h => absurd h hpending, ?_, fun _ => hreported⟩
  rw [hpc]
  exact fun hguarded => by cases hguarded

theorem recycleStep_punctual {caller : RecycleCaller} {stage : RecycleStage}
    (hw : Punctual clock w) (hpc : w.pc = .recycle caller stage)
    (h : w.recycleStep p caller stage = .ok (p', w')) : Punctual clock w' := by
  obtain ⟨-, pc, _, _, rfl, hpc'⟩ := recycleStep_ok h
  have haway : pc.guarded = false ∧ pc.reporting = false := by
    obtain ⟨stage', rfl⟩ | rfl := hpc'
    all_goals cases caller <;> exact ⟨rfl, rfl⟩
  cases caller with
  | loop =>
      have hquiet : w.quiet := quiet_of_pc hpc rfl rfl (fun _ h => h)
      exact hw.of_quiet_away hquiet ⟨rfl, rfl⟩ haway
  | outerCatch =>
      have hbegan := hw.began_none (by rw [hpc]; rfl) (by simp [hpc])
      refine punctual_of_away (fun h => absurd hbegan h) ?_ haway
      intro _
      obtain ⟨stage', rfl⟩ | rfl := hpc'
      all_goals trivial

theorem next_punctual (hw : Punctual p.clock w)
    (hclear : w.pc = .clearStart → w.abortRequested ≠ some .timeout)
    (h : w.next p = .ok (p', w')) : Punctual p.clock w' := by
  cases hpc : w.pc with
  | unstarted | createSandbox | running | ended =>
      simp only [next, hpc] at h
      cases h
  | recordStart =>
      have hquiet : w.quiet := quiet_of_pc hpc rfl rfl (fun _ h => h)
      have hclean : w.result.status ≠ .timeout := hw.clean (by rw [hpc]; rfl)
      simp only [next, hpc] at h
      cases h
      refine ⟨fun _ => Or.inl rfl, ?_, fun _ => hclean, fun h => by cases h⟩
      intro hpending
      exact absurd (hw.pending hpending) (hquiet.2.2 _)
  | writeStart | readEnd =>
      have hclean : w.result.status ≠ .timeout := hw.clean (by rw [hpc]; rfl)
      simp only [next, hpc] at h
      cases h
      exact hw.of_timed (by rw [hpc]; rfl) rfl ⟨rfl, rfl⟩ hclean
  | clearStart =>
      have hclean : w.result.status ≠ .timeout := hw.clean (by rw [hpc]; rfl)
      simp only [next, hpc] at h
      cases h
      refine ⟨fun hbegan => absurd rfl hbegan, ?_, ?_, ?_⟩
      · intro hpending
        exact absurd hpending (hclear hpc)
      · exact fun _ => hclean
      · exact fun _ hstatus => absurd hstatus hclean
  | catchAbort message =>
      have hpending := hw.pending
      simp only [Overdue, hpc] at hpending
      have hbegan := hw.began_none (by rw [hpc]; rfl) (by simp [hpc])
      simp only [next, hpc] at h
      cases h
      refine punctual_of_caught hbegan rfl (fun hrequested => by cases hrequested) ?_
      intro hstatus
      simp only at hstatus
      split at hstatus
      next htoken => exact hpending htoken
      next => cases hstatus
      next => cases hstatus
  | catchException message =>
      have hbegan := hw.began_none (by rw [hpc]; rfl) (by simp [hpc])
      simp only [next, hpc] at h
      split at h
      next =>
        cases h
        exact punctual_of_caught hbegan rfl (fun hrequested => by cases hrequested)
          (fun hstatus => by cases hstatus)
      next hnone =>
        cases h
        refine punctual_of_caught hbegan rfl ?_ (fun hstatus => by cases hstatus)
        intro hrequested
        simp only at hrequested
        rw [hrequested] at hnone
        exact absurd rfl hnone
  | recycle caller stage =>
      simp only [next, hpc] at h
      exact recycleStep_punctual hw hpc h
  | deliver =>
      have hquiet : w.quiet := quiet_of_pc hpc rfl rfl (fun _ h => h)
      have hbegan := hw.began_none hquiet.1 hquiet.2.1
      simp only [next, hpc] at h
      repeat' split at h
      all_goals cases h
      · exact hw.of_quiet_away hquiet ⟨rfl, rfl⟩ ⟨rfl, rfl⟩
      · exact enterOuterCatch_punctual hbegan
      · exact hw.of_quiet_away hquiet ⟨rfl, rfl⟩ ⟨rfl, rfl⟩
  | decide =>
      have hquiet : w.quiet := quiet_of_pc hpc rfl rfl (fun _ h => h)
      have hreported := hw.reported (by rw [hpc]; rfl)
      simp only [next, hpc] at h
      repeat' split at h
      all_goals cases h
      · exact hw.of_quiet hquiet ⟨rfl, rfl⟩ (fun h => by cases h) (fun _ h => by cases h)
      · exact hw.of_quiet hquiet ⟨rfl, rfl⟩ (fun h => by cases h) (fun _ => hreported)
      · exact hw.of_quiet hquiet ⟨rfl, rfl⟩ (fun h => by cases h) (fun _ => hreported)
  | getThreadCount | getMemoryUsage =>
      have hquiet : w.quiet := quiet_of_pc hpc rfl rfl (fun _ h => h)
      have hreported := hw.reported (by rw [hpc]; rfl)
      simp only [next, hpc] at h
      cases h
      exact hw.of_quiet hquiet ⟨rfl, rfl⟩ (fun h => by cases h) (fun _ => hreported)
  | taken =>
      have hquiet : w.quiet := quiet_of_pc hpc rfl rfl (fun _ h => h)
      simp only [next, hpc] at h
      cases h
      exact hw.of_quiet hquiet ⟨rfl, rfl⟩ (fun _ h => by cases h) (fun h => by cases h)
  | incrementUsages =>
      have hquiet : w.quiet := quiet_of_pc hpc rfl rfl (fun _ h => h)
      have hclean : w.result.status ≠ .timeout := hw.clean (by rw [hpc]; rfl)
      simp only [next, hpc] at h
      cases h
      exact hw.of_quiet hquiet ⟨rfl, rfl⟩ (fun _ => hclean) (fun h => by cases h)
  | _ =>
      have hquiet : w.quiet := quiet_of_pc hpc rfl rfl (fun _ h => h)
      simp only [next, hpc] at h
      repeat' split at h
      all_goals cases h
      all_goals exact hw.of_quiet_away hquiet ⟨rfl, rfl⟩ ⟨rfl, rfl⟩

theorem RunOutcome.toResult_ne_timeout (outcome : RunOutcome) :
    outcome.toResult.status ≠ .timeout := by
  cases outcome <;> exact fun h => by cases h

/-- Outside the inner try block no run is in progress. -/
theorem Punctual.began_none_of_region (hw : Punctual clock w) {region : Region}
    (hregion : w.pc.region = region) (htry : region ≠ .innerTry)
    (hlive : region ≠ .outside) : w.began = none := by
  apply hw.began_none
  · cases hpc : w.pc with
    | writeStart | running | readEnd | clearStart =>
        rw [hpc] at hregion
        exact absurd hregion.symm htry
    | _ => rfl
  · intro hended
    rw [hended] at hregion
    exact hlive hregion.symm

theorem step_punctual {input : WorkerInput} (hw : Punctual p.clock w)
    (hclear : input = .next → w.pc = .clearStart → w.abortRequested ≠ some .timeout)
    (h : w.step p input = .ok (p', w')) : Punctual p.clock w' := by
  cases input with
  | next => exact next_punctual hw (hclear rfl) h
  | sandbox appDomain =>
      simp only [step] at h
      split at h
      next hcreate =>
        have hquiet : w.quiet := quiet_of_pc hcreate.1 rfl rfl (fun _ h => h)
        cases h
        exact hw.of_quiet_away hquiet ⟨rfl, rfl⟩ ⟨rfl, rfl⟩
      next => cases h
  | finished outcome =>
      simp only [step] at h
      split at h
      next hpc =>
        cases h
        exact hw.of_timed (by rw [hpc]; rfl) rfl ⟨rfl, rfl⟩
          (RunOutcome.toResult_ne_timeout outcome)
      next => cases h
  | throws message | aborted message =>
      cases step_thrown ⟨message, by simp⟩ h with
      | inner pc hregion hpc => exact leaveTry_punctual hw hregion hpc
      | outer hregion =>
          apply enterOuterCatch_punctual
          obtain hregion | hregion := hregion
          · exact hw.began_none_of_region hregion (by decide) (by decide)
          · exact hw.began_none_of_region hregion (by decide) (by decide)
      | dies hregion =>
          exact punctual_of_away (fun _ => rfl) (fun _ => trivial) ⟨rfl, rfl⟩

/-- The only results a step hands out are those of `TrySetResult`. -/
theorem step_delivered {input : WorkerInput} (h : w.step p input = .ok (p', w')) :
    p'.delivered = p.delivered ∨
      (w.pc = .deliver ∧ ∃ completion,
        p'.delivered = p.delivered ++ [⟨completion, w.result.status, w.lasted⟩]) := by
  cases input with
  | next =>
      cases hpc : w.pc with
      | deliver =>
          simp only [step, next, hpc] at h
          repeat' split at h
          all_goals cases h
          · exact Or.inl rfl
          · exact Or.inl rfl
          · exact Or.inr ⟨rfl, _, rfl⟩
      | recycle caller stage =>
          simp only [step, next, hpc] at h
          obtain ⟨⟨_, _, _, _, _, _, rfl⟩, _⟩ := recycleStep_ok h
          exact Or.inl rfl
      | _ =>
          simp only [step, next, hpc] at h
          repeat' split at h
          all_goals cases h
          all_goals exact Or.inl rfl
  | _ =>
      simp only [step, throwException, raiseAbort] at h
      split at h
      all_goals cases h
      all_goals exact Or.inl rfl

end Worker

namespace PoolSystem

/-- The watchdog calls `Abort(timeoutAbortToken)` only on a thread that is still in
the run whose start it read, or that the call leaves alone; and no worker leaves its
run at the end of the inner try block while such an abort is pending. -/
def AbortsInTime (s : PoolSystem) : PoolAction → Prop
  | .watchdog .next => ∀ index ∈ s.watchdog.pc.abortSlot,
      ∀ data ∈ s.pool.poolDomains index, ∀ thread ∈ (s.pool.heap data).mainThread,
        ∀ w ∈ s.workers thread, w.pc = .ended ∨ w.abortRequested ≠ none ∨
          w.began = some s.watchdog.snippetStartTime
  | .worker thread .next => ∀ w ∈ s.workers thread,
      w.pc = .clearStart → w.abortRequested ≠ some .timeout
  | _ => True

instance (s : PoolSystem) : (a : PoolAction) → Decidable (s.AbortsInTime a)
  | .watchdog .next =>
      inferInstanceAs (Decidable (∀ index ∈ s.watchdog.pc.abortSlot,
        ∀ data ∈ s.pool.poolDomains index, ∀ thread ∈ (s.pool.heap data).mainThread,
          ∀ w ∈ s.workers thread, w.pc = .ended ∨ w.abortRequested ≠ none ∨
            w.began = some s.watchdog.snippetStartTime))
  | .worker thread .next =>
      inferInstanceAs (Decidable (∀ w ∈ s.workers thread,
        w.pc = .clearStart → w.abortRequested ≠ some .timeout))
  | .watchdog .interrupted | .worker _ (.throws _) | .worker _ (.aborted _)
  | .worker _ (.sandbox _) | .worker _ (.finished _) | .rudeAbort _ | .submit _
  | .submitter _ | .foreignAbort _ | .settle _ | .host _ | .tick _ => isTrue trivial

/-- No snippet that took at most `runningThreshold` is delivered with status
`Timeout`. -/
def TimeoutsDeserved (s : PoolSystem) : Prop :=
  ∀ delivery ∈ s.pool.delivered, delivery.status = .timeout →
    runningThreshold < delivery.lasted

variable {s s' : PoolSystem}

/-- The watchdog's own times: the clock it read is not ahead, and it goes on to an
abort only for a start that is too old. -/
structure WatchdogTimes (s : PoolSystem) : Prop where
  currentTime : s.watchdog.currentTime ≤ s.pool.clock
  expired : s.watchdog.pc.expired = true →
    runningThreshold < s.watchdog.currentTime - s.watchdog.snippetStartTime

theorem WatchdogTimes.of_same (h : WatchdogTimes s) (hclock : s.pool.clock ≤ s'.pool.clock)
    (hwatchdog : s'.watchdog = s.watchdog) : WatchdogTimes s' := by
  refine ⟨?_, ?_⟩
  · rw [hwatchdog]
    exact h.currentTime.trans hclock
  · rw [hwatchdog]
    exact h.expired

theorem watchdogNext_times (hs : WatchdogTimes s) (h : s.watchdogNext = .ok s') :
    WatchdogTimes s' := by
  have hclock := (watchdogNext_samePool h).1.clock
  have hexpired := hs.expired
  have hgoes := watchdogNext_goes h
  generalize s.watchdog.pc = pc at hgoes hexpired
  constructor
  · rw [hclock]
    generalize s'.watchdog = watchdog at hgoes ⊢
    cases hgoes with
    | clock => exact le_rfl
    | _ => exact hs.currentTime
  · intro hpc
    generalize s'.watchdog = watchdog at hgoes hpc ⊢
    cases hgoes with
    | tooOld index poolDomain hold => exact hold.2
    | reported | cleared => exact hexpired rfl
    | _ => cases hpc

theorem step_times {a : PoolAction} (hs : WatchdogTimes s) (h : s.step a = .ok s') :
    WatchdogTimes s' := by
  have hclock := step_clock h
  obtain hsame | ⟨rfl, hnext⟩ | hinterrupted := step_watchdog h
  · exact hs.of_same hclock hsame
  · exact watchdogNext_times hs hnext
  · constructor
    · rw [hinterrupted]
      exact hs.currentTime.trans hclock
    · rw [hinterrupted]
      exact fun h => by cases h

structure TimeoutInvariant (s : PoolSystem) : Prop where
  times : WatchdogTimes s
  workers : ∀ t w, s.workers t = some w → Worker.Punctual s.pool.clock w
  delivered : s.TimeoutsDeserved

/-- An abort in time hits an overdue run. -/
theorem requestAbort_punctual {clock start : Int} {w : Worker}
    (hw : Worker.Punctual clock w) (hstart : runningThreshold < clock - start)
    (hin : w.pc = .ended ∨ w.abortRequested ≠ none ∨ w.began = some start) :
    Worker.Punctual clock (w.requestAbort .timeout) := by
  unfold Worker.requestAbort
  split
  next => exact hw
  next hlive =>
    simp only [not_or, Option.not_isSome_iff_eq_none] at hlive
    obtain ⟨hended, hnone⟩ := hlive
    have hbegan : w.began = some start := by
      obtain h | h | h := hin
      · exact absurd h hended
      · exact absurd hnone h
      · exact h
    have helapsed : runningThreshold < w.elapsed clock := by
      simp only [Worker.elapsed, hbegan]
      exact hstart
    refine ⟨hw.began, ?_, hw.clean, hw.reported⟩
    intro _
    obtain htimed | h := hw.began (by simp [hbegan])
    · unfold Worker.Overdue
      cases hpc : w.pc with
      | writeStart | running | readEnd | clearStart => exact helapsed
      | _ =>
          rw [hpc] at htimed
          cases htimed
    · exact absurd h hended

theorem passive_punctual {clock : Int} {timeout : Prop} {w w' : Worker}
    (hw : Worker.Punctual clock w) (hpassive : Worker.Passive timeout w w')
    (htimeout : timeout → Worker.Punctual clock (w.requestAbort .timeout)) :
    Worker.Punctual clock w' := by
  cases hpassive with
  | same => exact hw
  | start hpc =>
      have hquiet : w.quiet := Worker.quiet_of_pc hpc rfl rfl (fun _ h => h)
      exact hw.of_quiet_away hquiet ⟨rfl, rfl⟩ ⟨rfl, rfl⟩
  | abort token htoken =>
      by_cases heq : token = .timeout
      · rw [heq]
        exact htimeout (htoken heq)
      · unfold Worker.requestAbort
        split
        next => exact hw
        next =>
          refine ⟨hw.began, ?_, hw.clean, hw.reported⟩
          intro hpending
          exact absurd (Option.some.inj hpending) heq

theorem timeoutInvariant_step {a : PoolAction} (hs : TimeoutInvariant s)
    (hcond : s.AbortsInTime a) (h : s.step a = .ok s') : TimeoutInvariant s' := by
  refine ⟨step_times hs.times h,
    workers_step (P := fun p _ w => Worker.Punctual p.clock w) h hs.workers ?_ ?_ ?_ ?_, ?_⟩
  · intro t w p w' hw hmove hpunctual
    rw [hmove.frame.clock]
    obtain ⟨input, rfl, hstep⟩ | ⟨rfl, hdies⟩ | ⟨rfl, hsettles⟩ := hmove
    · refine Worker.step_punctual hpunctual ?_ hstep
      rintro rfl
      exact hcond w hw
    · obtain ⟨-, rfl, rfl⟩ := Worker.dieRudely_ok hdies
      exact Worker.punctual_of_away (fun _ => rfl) (fun h => by cases h) ⟨rfl, rfl⟩
    · obtain ⟨hended, rfl, rfl⟩ := Worker.settle_ok hsettles
      exact ⟨hpunctual.began, hpunctual.pending, hpunctual.clean, hpunctual.reported⟩
  · intro t w u v p v' _ _ _ hmove hpunctual
    rw [hmove.frame.clock]
    exact hpunctual
  · intro hframe t w w' hw hpassive hpunctual
    refine passive_punctual (hpunctual.mono hframe.clock) hpassive ?_
    rintro ⟨rfl, index, poolDomain, data, hpc, hdata, hthread⟩
    refine requestAbort_punctual (hpunctual.mono hframe.clock) ?_
      (hcond index (by rw [hpc]; rfl) data hdata t hthread w hw)
    have hexpired := hs.times.expired (by rw [hpc]; rfl)
    have hcurrent := hs.times.currentTime
    have hclock := hframe.clock
    omega
  · intro _ index data
    exact Worker.punctual_of_away (fun h => absurd rfl h) (fun h => by cases h) ⟨rfl, rfl⟩
  · obtain ⟨t, w, p, w', hw, hmove, rfl⟩ | hframe := step_cases h
    · obtain ⟨input, rfl, hstep⟩ | ⟨rfl, hdies⟩ | ⟨rfl, hsettles⟩ := hmove
      · obtain hsame | ⟨hpc, completion, hnew⟩ := Worker.step_delivered hstep
        · intro delivery hmem
          apply hs.delivered delivery
          rw [← hsame]
          exact hmem
        · intro delivery hmem hstatus
          change delivery ∈ p.delivered at hmem
          rw [hnew, List.mem_append, List.mem_singleton] at hmem
          obtain hold | rfl := hmem
          · exact hs.delivered delivery hold hstatus
          · exact (hs.workers t w hw).reported (by rw [hpc]; rfl) hstatus
      · obtain ⟨-, rfl, rfl⟩ := Worker.dieRudely_ok hdies
        exact hs.delivered
      · obtain ⟨-, rfl, rfl⟩ := Worker.settle_ok hsettles
        exact hs.delivered
    · unfold TimeoutsDeserved
      rw [hframe.delivered]
      exact hs.delivered

theorem timeoutInvariant_initial (numberOfDomainsInPool : Nat) :
    TimeoutInvariant (initial numberOfDomainsInPool) := by
  refine ⟨⟨le_rfl, fun h => by cases h⟩, ?_, fun _ h => by cases h⟩
  intro t w hw
  obtain ⟨-, rfl⟩ := initial_workers hw
  exact Worker.punctual_of_away (fun h => absurd rfl h) (fun h => by cases h) ⟨rfl, rfl⟩

/-- In every run in which the watchdog's abort hits the run whose start it read, no
snippet is reported as timed out before its time. -/
theorem timeouts_deserved (numberOfDomainsInPool : Nat) (actions : List PoolAction)
    (hintime : Meets step AbortsInTime (initial numberOfDomainsInPool) actions) :
    Always step TimeoutsDeserved (initial numberOfDomainsInPool) actions := by
  have hinvariant : Always step TimeoutInvariant (initial numberOfDomainsInPool) actions :=
    always_of_meets (fun _ _ _ hs hcond h => timeoutInvariant_step hs hcond h)
      (timeoutInvariant_initial numberOfDomainsInPool) hintime
  exact hinvariant.imp (fun _ => TimeoutInvariant.delivered)

/-- A snippet that runs for four seconds is aborted and told so. -/
theorem timeouts_deserved_endless :
    let actions := .tick 1 :: firstWorkerReady ++ submitted 0 ++ goesOn 0 5 ++
      .tick 4000 :: List.replicate 8 (.watchdog .next) ++
      .worker 0 (.aborted "Thread was being aborted.") :: goesOn 0 5
    Always step TimeoutsDeserved (initial 1) actions ∧
      ∃ s, run step (initial 1) actions = .ok s ∧
        s.pool.delivered = [⟨0, .timeout, 4000⟩] :=
  ⟨timeouts_deserved 1 _ (by decide), _, rfl, rfl⟩

/-- The first snippet finishes after the watchdog found it too old, and the second
one is aborted for it as soon as it starts. -/
theorem successor_times_out :
    ¬ Always step TimeoutsDeserved (initial 1)
      (.tick 1 :: firstWorkerReady ++ submitted 0 ++ submitted 1 ++ goesOn 0 5 ++
        .tick 4000 :: List.replicate 5 (.watchdog .next) ++
        .worker 0 (.finished .success) :: goesOn 0 16 ++
        List.replicate 3 (.watchdog .next) ++
        .worker 0 (.aborted "Thread was being aborted.") :: goesOn 0 5) := by
  intro h
  have hlate := h.last rfl ⟨1, .timeout, 0⟩ (List.mem_cons_of_mem _ (List.mem_singleton_self _)) rfl
  exact absurd hlate (by decide)

end PoolSystem

end HostedPumpkin
