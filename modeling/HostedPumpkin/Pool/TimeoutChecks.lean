import HostedPumpkin.Pool.IdleTime
import HostedPumpkin.Pool.Timeout

/-!
The iterations of the watchdog. Each asks the host for a message and, if there is
none, looks at every slot for a run over the threshold. The pool is put together with
what was overdue when the iteration began: the slot, its object and the start in it,
as long as the run goes on and has not been aborted. An iteration that gets no message
leaves nothing of that behind; one that gets a message does not look.
-/

namespace HostedPumpkin

open Runs

/-- The iteration is done with a slot, or with all of them. -/
def WatchdogPc.done : WatchdogPc → Nat → Prop
  | .getMessage, _ | .readClock, _ | .ended, _ => False
  | .scan current, index | .readStart current _, index | .reportTimeout current _, index
  | .writeZero current _, index | .abortTimeout current _, index => index < current
  | .checkThread current _, index | .unloadOld current _, index | .replaceSlot current, index
  | .creating current false _, index => index ≤ current
  | .loopHead, _ | .findDomain _, _ | .exchangeAborting _, _ | .abortExausted _, _
  | .creating _ true _, _ | .ensureOne, _ | .ensureSlot, _ => True

/-- The clock of the iteration is read. -/
def WatchdogPc.timed : WatchdogPc → Bool
  | .scan _ | .readStart _ _ | .reportTimeout _ _ | .writeZero _ _ | .abortTimeout _ _
  | .checkThread _ _ | .unloadOld _ _ | .replaceSlot _ | .creating _ false _ => true
  | _ => false

/-- A run that was overdue when the iteration began. -/
structure OverdueRun where
  data : DataRef
  start : Int
deriving DecidableEq

namespace PoolSystem

/-- The run in a slot, if it takes longer than the threshold already. -/
def overdueRun (s : PoolSystem) (index : Nat) : Option OverdueRun :=
  (s.pool.poolDomains index).bind (fun data =>
    let start := (s.pool.heap data).timeOfSubmission
    if index < s.pool.numberOfDomainsInPool ∧ start > 0 ∧ s.pool.clock - start > runningThreshold
    then some ⟨data, start⟩ else none)

/-- The slot still has its object, and the object its start, unless the watchdog is
between clearing it and the abort. -/
def GoesOn (s : PoolSystem) (index : Nat) (overdue : OverdueRun) : Prop :=
  s.pool.poolDomains index = some overdue.data ∧
    ((s.pool.heap overdue.data).timeOfSubmission = overdue.start ∨
      s.watchdog.pc.abortSlot = some index)

instance (s : PoolSystem) (index : Nat) (overdue : OverdueRun) :
    Decidable (s.GoesOn index overdue) :=
  inferInstanceAs (Decidable (_ ∧ (_ ∨ _)))

end PoolSystem

/-- The pool with the runs that were overdue when the watchdog's iteration began, go
on and have not been aborted. -/
structure IterationSystem where
  system : PoolSystem
  overdue : Nat → Option OverdueRun

namespace IterationSystem

/-- The watchdog's statement begins an iteration. -/
def begins (s : IterationSystem) (a : PoolAction) : Bool :=
  a == .watchdog .next && s.system.watchdog.pc == .loopHead

def overdueAfter (s : IterationSystem) (a : PoolAction) (next : PoolSystem) (index : Nat) :
    Option OverdueRun :=
  if s.begins a then s.system.overdueRun index
  else if a = .watchdog .next ∧ s.system.watchdog.pc.abortSlot = some index then none
  else (s.overdue index).filter (fun overdue => next.GoesOn index overdue)

def step (s : IterationSystem) (a : PoolAction) : Except PoolFault IterationSystem :=
  match s.system.step a with
  | .ok next => .ok ⟨next, s.overdueAfter a next⟩
  | .error fault => .error fault

def initial (numberOfDomainsInPool : Nat) : IterationSystem :=
  ⟨PoolSystem.initial numberOfDomainsInPool, fun _ => none⟩

/-- No iteration ends with a run left that was overdue at its beginning. -/
def ChecksDone (s : IterationSystem) : Prop :=
  s.system.watchdog.pc = .loopHead → ∀ index, s.overdue index = none

/-- Nothing is overdue in the pool. -/
def NoneOverdue (s : IterationSystem) : Prop :=
  ∀ index, index < s.system.pool.numberOfDomainsInPool → s.overdue index = none

instance (s : IterationSystem) : Decidable s.NoneOverdue :=
  inferInstanceAs (Decidable (∀ index, index < s.system.pool.numberOfDomainsInPool → _ = _))

/-- While something is overdue no message waits for the watchdog when it asks for one,
and the watchdog is not interrupted. -/
def ChecksReached (s : IterationSystem) : PoolAction → Prop
  | .watchdog .next => s.system.watchdog.pc = .getMessage →
      s.system.pool.host.hMessageEvent = true → s.NoneOverdue
  | .watchdog .interrupted => s.NoneOverdue
  | _ => True

instance (s : IterationSystem) : (a : PoolAction) → Decidable (s.ChecksReached a)
  | .watchdog .next => inferInstanceAs (Decidable (_ = _ → _ = _ → s.NoneOverdue))
  | .watchdog .interrupted => inferInstanceAs (Decidable s.NoneOverdue)
  | .worker _ _ | .rudeAbort _ | .submit _ | .submitter _ | .foreignAbort _ | .settle _
  | .host _ | .tick _ => isTrue trivial

end IterationSystem

namespace PoolSystem

variable {s s' : PoolSystem}

/-- How the watchdog gets done with a slot of the pool. -/
theorem watchdogNext_done (h : s.watchdogNext = .ok s') {index : Nat}
    (hlt : index < s.pool.numberOfDomainsInPool) (hdone : s'.watchdog.pc.done index) :
    s.watchdog.pc.done index ∨ s.watchdog.pc.abortSlot = some index ∨
      (s.watchdog.pc = .getMessage ∧ s.pool.host.hMessageEvent = true) ∨
      (s.watchdog.pc = .scan index ∧ s.pool.poolDomains index = none) ∨
      ∃ poolDomain, s.watchdog.pc = .readStart index poolDomain ∧ ¬ s.TooOld poolDomain := by
  have hgoes := watchdogNext_goes h
  generalize s.watchdog.pc = pc at hgoes ⊢
  generalize s'.watchdog = watchdog at hgoes hdone
  cases hgoes with
  | message event hevent => exact Or.inr (Or.inr (Or.inl ⟨rfl, hevent⟩))
  | clock => exact absurd hdone (Nat.not_lt_zero index)
  | empty current hslot =>
      rcases Nat.lt_succ_iff_lt_or_eq.mp hdone with hbefore | rfl
      · exact Or.inl hbefore
      · exact Or.inr (Or.inr (Or.inr (Or.inl ⟨rfl, hslot⟩)))
  | scanned current hend => exact Or.inl (hlt.trans_le (not_lt.mp hend))
  | young current poolDomain hyoung =>
      rcases Nat.lt_or_eq_of_le hdone with hbefore | rfl
      · exact Or.inl hbefore
      · exact Or.inr (Or.inr (Or.inr (Or.inr ⟨poolDomain, rfl, hyoung⟩)))
  | aborted current poolDomain =>
      rcases Nat.lt_or_eq_of_le hdone with hbefore | rfl
      · exact Or.inl hbefore
      · exact Or.inr (Or.inl rfl)
  | alive current poolDomain | created current stage =>
      exact Or.inl (Nat.le_of_lt_succ hdone)
  | creating current ensuring stage =>
      cases ensuring with
      | false => exact Or.inl hdone
      | true => exact Or.inl trivial
  | slot | tooOld | reported | cleared | gone | unloaded | replaced => exact Or.inl hdone
  | found | notFound | exchanged | aborting | exausted | ensured | noThread | enough | ensuring =>
      exact Or.inl trivial
  | exit | ask | noMessage => cases hdone

/-- The clock of the iteration is read once. -/
theorem watchdogNext_timed (h : s.watchdogNext = .ok s')
    (htimed : s'.watchdog.pc.timed = true) :
    (s.watchdog.pc.timed = true ∧ s'.watchdog.currentTime = s.watchdog.currentTime) ∨
      s'.watchdog.currentTime = s.pool.clock := by
  have hgoes := watchdogNext_goes h
  generalize s.watchdog.pc = pc at hgoes ⊢
  generalize s'.watchdog = watchdog at hgoes htimed ⊢
  cases hgoes with
  | clock => exact Or.inr rfl
  | creating index ensuring stage =>
      cases ensuring with
      | false => exact Or.inl ⟨rfl, rfl⟩
      | true => cases htimed
  | slot | empty | tooOld | young | reported | cleared | aborted | gone | alive | unloaded
  | replaced | created => exact Or.inl ⟨rfl, rfl⟩
  | _ => cases htimed

/-- The watchdog reads the start in the object it has found in the slot. -/
theorem watchdogNext_readStart (h : s.watchdogNext = .ok s') {index : Nat}
    {poolDomain : DataRef} (hread : s'.watchdog.pc = .readStart index poolDomain) :
    s'.pool.poolDomains index = some poolDomain := by
  have hpc : s.watchdog.pc = .scan index := by
    have hgoes := watchdogNext_goes h
    generalize s.watchdog.pc = pc at hgoes ⊢
    generalize s'.watchdog = watchdog at hgoes hread
    cases hgoes with
    | slot =>
        cases hread
        rfl
    | _ => cases hread
  simp only [watchdogNext, hpc] at h
  split at h
  next hlt =>
    split at h
    next found hslot =>
      cases h
      cases hread
      exact hslot
    next =>
      cases h
      cases hread
  next =>
    cases h
    cases hread

/-- The first statement of an iteration. -/
theorem watchdogNext_loopHead (hpc : s.watchdog.pc = .loopHead) (h : s.watchdogNext = .ok s') :
    s'.pool.poolDomains = s.pool.poolDomains ∧ s'.pool.heap = s.pool.heap ∧
      (s'.watchdog.pc = .getMessage ∨ s'.watchdog.pc = .ended) := by
  simp only [watchdogNext, hpc] at h
  split at h
  next =>
    cases h
    exact ⟨rfl, rfl, Or.inr rfl⟩
  next =>
    cases h
    exact ⟨rfl, rfl, Or.inl rfl⟩

end PoolSystem

namespace IterationSystem

variable {s s' : IterationSystem} {a : PoolAction}

theorem step_ok (h : s.step a = .ok s') :
    s.system.step a = .ok s'.system ∧ ∀ index, s'.overdue index =
      s.overdueAfter a s'.system index := by
  simp only [step] at h
  split at h
  next next hnext =>
    cases h
    exact ⟨hnext, fun _ => rfl⟩
  next => cases h

/-- Where an overdue run comes from. -/
theorem overdueAfter_cases {next : PoolSystem} {index : Nat} {overdue : OverdueRun}
    (h : s.overdueAfter a next index = some overdue) :
    (a = .watchdog .next ∧ s.system.watchdog.pc = .loopHead ∧
        s.system.overdueRun index = some overdue) ∨
      (s.overdue index = some overdue ∧ next.GoesOn index overdue ∧
        ¬ (a = .watchdog .next ∧ s.system.watchdog.pc = .loopHead) ∧
        ¬ (a = .watchdog .next ∧ s.system.watchdog.pc.abortSlot = some index)) := by
  have hbegins : s.begins a = true ↔
      a = .watchdog .next ∧ s.system.watchdog.pc = .loopHead := by
    simp [begins]
  unfold overdueAfter at h
  split at h
  next hbegin =>
    obtain ⟨ha, hpc⟩ := hbegins.mp hbegin
    exact Or.inl ⟨ha, hpc, h⟩
  next hinside =>
    split at h
    next => cases h
    next hkept =>
      obtain ⟨hold, hgoes⟩ := Option.filter_eq_some_iff.mp h
      exact Or.inr ⟨hold, of_decide_eq_true hgoes, hinside ∘ hbegins.mpr, hkept⟩

/-- A run on record goes on in its slot, and is too old for the watchdog. -/
structure Pending (s : PoolSystem) (index : Nat) (overdue : OverdueRun) : Prop where
  bound : index < s.pool.numberOfDomainsInPool
  goesOn : s.GoesOn index overdue
  positive : overdue.start > 0
  old : s.pool.clock - overdue.start > runningThreshold
  seen : s.watchdog.pc.timed = true → s.watchdog.currentTime - overdue.start > runningThreshold

/-- The iteration has nothing on record for the slots it is done with, and the start
it is about to read is the one on record. -/
structure IterationInvariant (s : IterationSystem) : Prop where
  pending : ∀ index overdue, s.overdue index = some overdue → Pending s.system index overdue
  done : ∀ index, s.system.watchdog.pc.done index → s.overdue index = none
  read : ∀ index poolDomain overdue, s.system.watchdog.pc = .readStart index poolDomain →
    s.overdue index = some overdue → overdue.data = poolDomain

theorem pending_of_overdueRun {s : PoolSystem} {index : Nat} {overdue : OverdueRun}
    (h : s.overdueRun index = some overdue) :
    s.pool.poolDomains index = some overdue.data ∧
      (s.pool.heap overdue.data).timeOfSubmission = overdue.start ∧
      index < s.pool.numberOfDomainsInPool ∧ overdue.start > 0 ∧
      s.pool.clock - overdue.start > runningThreshold := by
  obtain ⟨data, hslot, hrun⟩ := Option.bind_eq_some_iff.mp h
  simp only at hrun
  split at hrun
  next hold =>
    cases hrun
    exact ⟨hslot, rfl, hold⟩
  next => cases hrun

theorem pending_step (hs : IterationInvariant s) (h : s.step a = .ok s') {index : Nat}
    {overdue : OverdueRun} (hoverdue : s'.overdue index = some overdue) :
    Pending s'.system index overdue := by
  obtain ⟨hstep, hafter⟩ := step_ok h
  have hclock := PoolSystem.step_clock hstep
  have hsize := PoolSystem.step_size hstep
  rw [hafter] at hoverdue
  obtain ⟨rfl, hpc, hnew⟩ | ⟨hold, hgoes, -, -⟩ := overdueAfter_cases hoverdue
  · obtain ⟨hslot, hstart, hbound, hpositive, hlong⟩ := pending_of_overdueRun hnew
    obtain ⟨hslots, hheap, hpc'⟩ := PoolSystem.watchdogNext_loopHead hpc hstep
    refine ⟨hsize ▸ hbound, ⟨?_, Or.inl ?_⟩, hpositive, by omega, ?_⟩
    · rw [hslots, hslot]
    · rw [hheap, hstart]
    · intro htimed
      obtain hpc' | hpc' := hpc'
      · rw [hpc'] at htimed
        cases htimed
      · rw [hpc'] at htimed
        cases htimed
  · obtain ⟨hbound, -, hpositive, hlong, hseen⟩ := hs.pending index overdue hold
    refine ⟨hsize ▸ hbound, hgoes, hpositive, by omega, ?_⟩
    intro htimed
    obtain hsame | ⟨-, hnext⟩ | hinterrupted := PoolSystem.step_watchdog hstep
    · rw [hsame] at htimed ⊢
      exact hseen htimed
    · obtain ⟨hbefore, htime⟩ | htime := PoolSystem.watchdogNext_timed hnext htimed
      · rw [htime]
        exact hseen hbefore
      · rw [htime]
        exact hlong
    · rw [hinterrupted] at htimed
      cases htimed

/-- A statement of the watchdog gets done with a slot only when nothing is on record
for it. -/
theorem done_watchdogNext (hs : IterationInvariant s)
    (hcond : s.ChecksReached (.watchdog .next)) {next : PoolSystem}
    (h : s.system.watchdogNext = .ok next) {index : Nat} (hdone : next.watchdog.pc.done index)
    {overdue : OverdueRun} (hoverdue : s.overdue index = some overdue) :
    s.system.watchdog.pc.abortSlot = some index := by
  have hpending := hs.pending index overdue hoverdue
  obtain hbefore | habort | ⟨hpc, hevent⟩ | ⟨hpc, hempty⟩ | ⟨poolDomain, hpc, hyoung⟩ :=
    PoolSystem.watchdogNext_done h hpending.bound hdone
  · rw [hs.done index hbefore] at hoverdue
    cases hoverdue
  · exact habort
  · rw [hcond hpc hevent index hpending.bound] at hoverdue
    cases hoverdue
  · rw [hpending.goesOn.1] at hempty
    cases hempty
  · -- what is on record is what the watchdog has read
    have hdata := hs.read index poolDomain overdue hpc hoverdue
    obtain hstart | habort := hpending.goesOn.2
    · have hseen := hpending.seen (by rw [hpc]; rfl)
      rw [← hdata] at hyoung
      refine absurd ⟨?_, ?_⟩ hyoung
      · rw [hstart]
        exact hpending.positive
      · rw [hstart]
        exact hseen
    · rw [hpc] at habort
      cases habort

theorem done_step (hs : IterationInvariant s) (hcond : s.ChecksReached a)
    (h : s.step a = .ok s') {index : Nat} (hdone : s'.system.watchdog.pc.done index) :
    s'.overdue index = none := by
  cases hoverdue : s'.overdue index with
  | none => rfl
  | some overdue =>
      obtain ⟨hstep, hafter⟩ := step_ok h
      rw [hafter] at hoverdue
      obtain ⟨rfl, hpc, hnew⟩ | ⟨hold, -, -, hkept⟩ := overdueAfter_cases hoverdue
      · obtain ⟨-, -, hpc' | hpc'⟩ := PoolSystem.watchdogNext_loopHead hpc hstep
        · rw [hpc'] at hdone
          cases hdone
        · rw [hpc'] at hdone
          cases hdone
      · have hbound := (hs.pending index overdue hold).bound
        have hsame : s'.system.watchdog = s.system.watchdog → False := by
          intro hsame
          rw [hsame] at hdone
          rw [hs.done index hdone] at hold
          cases hold
        obtain ⟨t, w, p, w', -, -, hnext⟩ | hother := PoolSystem.step_ok hstep
        · rw [hnext] at hsame
          exact absurd rfl hsame
        · generalize s'.system = next at *
          cases hother with
          | watchdog _ hnext =>
              exact absurd ⟨rfl, done_watchdogNext hs hcond hnext hdone hold⟩ hkept
          | interrupted hwaits =>
              rw [hcond index hbound] at hold
              cases hold
          | submitter call submitter _ hsubmitter hnext =>
              exact absurd (PoolSystem.submitterNext_sameEvents hnext).2.2 hsame
          | submit | foreignAbort | host | tick => exact absurd rfl hsame

theorem read_step (hs : IterationInvariant s) (h : s.step a = .ok s') {index : Nat}
    {poolDomain : DataRef} {overdue : OverdueRun}
    (hpc : s'.system.watchdog.pc = .readStart index poolDomain)
    (hoverdue : s'.overdue index = some overdue) : overdue.data = poolDomain := by
  have hpending := pending_step hs h hoverdue
  obtain ⟨hstep, hafter⟩ := step_ok h
  obtain hsame | ⟨-, hnext⟩ | hinterrupted := PoolSystem.step_watchdog hstep
  · rw [hafter] at hoverdue
    obtain ⟨rfl, hhead, -⟩ | ⟨hold, -⟩ := overdueAfter_cases hoverdue
    · rw [hsame, hhead] at hpc
      cases hpc
    · rw [hsame] at hpc
      exact hs.read index poolDomain overdue hpc hold
  · have hslot := PoolSystem.watchdogNext_readStart hnext hpc
    rw [hpending.goesOn.1] at hslot
    exact Option.some.inj hslot
  · rw [hinterrupted] at hpc
    cases hpc

theorem iterationInvariant_step (hs : IterationInvariant s) (hcond : s.ChecksReached a)
    (h : s.step a = .ok s') : IterationInvariant s' :=
  ⟨fun _ _ hoverdue => pending_step hs h hoverdue, fun _ hdone => done_step hs hcond h hdone,
    fun _ _ _ hpc hoverdue => read_step hs h hpc hoverdue⟩

theorem iterationInvariant_initial (numberOfDomainsInPool : Nat) :
    IterationInvariant (initial numberOfDomainsInPool) := by
  refine ⟨?_, fun _ _ => rfl, ?_⟩
  · intro index overdue hoverdue
    cases hoverdue
  · intro index poolDomain overdue hpc
    cases hpc

/-- Every run that is overdue when an iteration begins is aborted in it or over, as
long as no message and no interruption keeps the watchdog from looking. -/
theorem overdue_runs_checked (numberOfDomainsInPool : Nat) (actions : List PoolAction)
    (hreached : Meets step ChecksReached (initial numberOfDomainsInPool) actions) :
    Always step ChecksDone (initial numberOfDomainsInPool) actions := by
  have hinvariant : Always step IterationInvariant (initial numberOfDomainsInPool) actions :=
    always_of_meets (fun _ _ _ hs hcond h => iterationInvariant_step hs hcond h)
      (iterationInvariant_initial numberOfDomainsInPool) hreached
  refine hinvariant.imp ?_
  intro s hs hpc index
  exact hs.done index (by rw [hpc]; trivial)

/-- The only worker runs a snippet that is four seconds old when an iteration begins. -/
def overdueSnippet : List PoolAction :=
  .tick 1 :: PoolSystem.firstWorkerReady ++ PoolSystem.submitted 0 ++ PoolSystem.goesOn 0 5 ++
    [.tick 4000, .watchdog .next]

/-- The iteration gets no message and aborts it. -/
theorem overdue_runs_checked_endless :
    let actions := overdueSnippet ++ List.replicate 10 (.watchdog .next)
    Always step ChecksDone (initial 1) actions ∧
      Reaches step (fun s => s.overdue 0 = some ⟨0, 1⟩) (initial 1) overdueSnippet ∧
      Reaches step (fun s => s.system.watchdog.pc = .loopHead ∧
        ∃ w ∈ s.system.workers 0, w.abortRequested = some .timeout) (initial 1) actions :=
  ⟨overdue_runs_checked 1 _ (by decide +kernel), by decide +kernel, by decide +kernel⟩

/-- The iteration reads a message about an AppDomain that has no slot any more. -/
def messageMeanwhile : List PoolAction :=
  overdueSnippet ++ .host (.postHostMessage HostEventType.outOfTasks 9 0) ::
    List.replicate 3 (.watchdog .next)

/-- It ends without a look at the snippet. -/
theorem message_postpones_check :
    Reaches step (fun s => s.system.watchdog.pc = .loopHead ∧ s.overdue 0 = some ⟨0, 1⟩ ∧
        ∃ w ∈ s.system.workers 0, w.pc = .running ∧ w.abortRequested = none) (initial 1)
        messageMeanwhile ∧
      ¬ ∀ numberOfDomainsInPool actions,
        Always step ChecksDone (initial numberOfDomainsInPool) actions := by
  have hrun : Reaches step (fun s => s.system.watchdog.pc = .loopHead ∧
      s.overdue 0 = some ⟨0, 1⟩ ∧ ∃ w ∈ s.system.workers 0, w.pc = .running ∧
        w.abortRequested = none) (initial 1) messageMeanwhile := by decide +kernel
  refine ⟨hrun, ?_⟩
  intro hall
  obtain ⟨s, hrun, hpc, hoverdue, -⟩ := reaches_iff.mp hrun
  have hnone := ((hall 1 _).last hrun) hpc 0
  rw [hoverdue] at hnone
  cases hnone

end IterationSystem

end HostedPumpkin
