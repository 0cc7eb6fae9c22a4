import HostedPumpkin.Pool.WorkerSteps

/-!
What a step of the pool can do: the step of a worker, or one of the others, which
change the record of a worker in few ways. The lemmas at the end carry a property
of all workers through every step.
-/

namespace HostedPumpkin

namespace PoolSystem

/-- The step is the watchdog's `Abort(timeoutAbortToken)` on this thread. -/
def AbortsForTimeout (s : PoolSystem) (a : PoolAction) (thread : ThreadId) : Prop :=
  a = .watchdog .next ∧ ∃ index poolDomain data,
    s.watchdog.pc = .abortTimeout index poolDomain ∧
      s.pool.poolDomains index = some data ∧ (s.pool.heap data).mainThread = some thread

/-- Where the records of workers come from when no worker moves. None is lost. -/
structure Attended (s : PoolSystem) (a : PoolAction) (s' : PoolSystem) : Prop where
  origin : ∀ t w', s'.workers t = some w' →
    (∃ w, s.workers t = some w ∧ Worker.Passive (s.AbortsForTimeout a t) w w') ∨
      (t = s.threads ∧ t < s'.threads ∧ ∃ index data, w' = Worker.created t index data)
  alive : ∀ t w, s.workers t = some w → ∃ w', s'.workers t = some w'

/-- Objects that exist keep their use count, and new ones have been used by
nobody. -/
def SameUsages (p p' : DomainPool) : Prop :=
  ∀ data, (p'.heap data).numberOfUsages = (p.heap data).numberOfUsages ∨
    (p.allocated ≤ data ∧ (p'.heap data).numberOfUsages = 0)

/-- What a step leaves alone that no worker takes. A submission keeps what it was
called with. -/
structure Frame (s : PoolSystem) (a : PoolAction) (s' : PoolSystem) : Prop where
  size : s'.pool.numberOfDomainsInPool = s.pool.numberOfDomainsInPool
  clock : s.pool.clock ≤ s'.pool.clock
  currentRun : s'.pool.currentRun = s.pool.currentRun
  delivered : s'.pool.delivered = s.pool.delivered
  allocated : s.pool.allocated ≤ s'.pool.allocated
  usages : SameUsages s.pool s'.pool
  submissionMap : s'.pool.submissionMap = s.pool.submissionMap ∨
    ∃ call submitter id completion, s.submitters call = some submitter ∧
      submitter.snippetInfo.submissionId = some id ∧
      submitter.completion = some completion ∧
      s'.pool.submissionMap = Function.update s.pool.submissionMap id (some completion)
  submitters : ∀ call submitter', s'.submitters call = some submitter' →
    (∃ submitter, s.submitters call = some submitter ∧
      submitter'.snippetInfo = submitter.snippetInfo ∧
      submitter'.completion = submitter.completion) ∨
    (call < s'.calls ∧ submitter'.completion = submitter'.snippetInfo.submissionId)
  calls : s.calls ≤ s'.calls
  threads : s.threads ≤ s'.threads
  workers : Attended s a s'

/-- The parts of the pool that most steps do not touch at all. -/
structure SamePool (p p' : DomainPool) : Prop where
  size : p'.numberOfDomainsInPool = p.numberOfDomainsInPool
  clock : p'.clock = p.clock
  currentRun : p'.currentRun = p.currentRun
  postedDuring : p'.postedDuring = p.postedDuring
  delivered : p'.delivered = p.delivered
  submissionMap : p'.submissionMap = p.submissionMap
  allocated : p.allocated ≤ p'.allocated
  usages : SameUsages p p'

theorem SamePool.refl (p : DomainPool) : SamePool p p :=
  ⟨rfl, rfl, rfl, rfl, rfl, rfl, le_rfl, fun _ => Or.inl rfl⟩

theorem SamePool.trans {p p' p'' : DomainPool} (h : SamePool p p') (h' : SamePool p' p'') :
    SamePool p p'' := by
  refine ⟨h'.size.trans h.size, h'.clock.trans h.clock, h'.currentRun.trans h.currentRun,
    h'.postedDuring.trans h.postedDuring, h'.delivered.trans h.delivered,
    h'.submissionMap.trans h.submissionMap, h.allocated.trans h'.allocated, ?_⟩
  intro data
  obtain hsame | ⟨hnew, hzero⟩ := h'.usages data
  · rw [hsame]
    exact h.usages data
  · exact Or.inr ⟨h.allocated.trans hnew, hzero⟩

theorem samePool_host (p : DomainPool) (host : HostContext) : SamePool p { p with host } :=
  ⟨rfl, rfl, rfl, rfl, rfl, rfl, le_rfl, fun _ => Or.inl rfl⟩

/-- An update of one object that leaves its use count alone. -/
theorem samePool_modifyData (p : DomainPool) (data : DataRef)
    {f : PooledDomainData → PooledDomainData}
    (hf : (f (p.heap data)).numberOfUsages = (p.heap data).numberOfUsages) :
    SamePool p (p.modifyData data f) := by
  refine ⟨rfl, rfl, rfl, rfl, rfl, rfl, le_rfl, ?_⟩
  intro other
  left
  by_cases h : other = data
  · subst h
    simp [DomainPool.modifyData, hf]
  · simp [DomainPool.modifyData, Function.update_of_ne h]

theorem samePool_renewSlot (p : DomainPool) (index : Nat) :
    SamePool p (p.renewSlot index) := by
  refine ⟨rfl, rfl, rfl, rfl, rfl, rfl, Nat.le_succ _, ?_⟩
  intro data
  by_cases hdata : data = p.allocated
  · subst hdata
    exact Or.inr ⟨le_rfl, by simp [DomainPool.renewSlot]⟩
  · simp [DomainPool.renewSlot, DomainPool.setSlot, Function.update_of_ne hdata]

/-- A property of pools that survives a renewed slot survives `fillSlots`. -/
theorem fillSlots_induction {P : DomainPool → Prop} {p : DomainPool} (hp : P p)
    (hrenew : ∀ p index, P p → p.poolDomains index = none → P (p.renewSlot index)) :
    P p.fillSlots.1 := by
  unfold DomainPool.fillSlots
  refine List.foldlRecOn (motive := fun (q : DomainPool × Option Nat) => P q.1) _ _ hp ?_
  rintro ⟨q, last⟩ hq index -
  simp only
  split
  next hempty => exact hrenew q index hq (Option.isNone_iff_eq_none.mp hempty)
  next => exact hq

theorem samePool_fillSlots (p : DomainPool) : SamePool p p.fillSlots.1 :=
  fillSlots_induction (P := SamePool p) (SamePool.refl p)
    (fun q index h _ => h.trans (samePool_renewSlot q index))

/-- `fillSlots` touches the slots and the objects only. -/
theorem fillSlots_eq (p : DomainPool) : ∃ poolDomains heap allocated,
    p.fillSlots.1 = { p with poolDomains, heap, allocated } := by
  refine fillSlots_induction (P := fun q => ∃ poolDomains heap allocated,
    q = { p with poolDomains, heap, allocated }) ⟨_, _, _, rfl⟩ ?_
  rintro _ index ⟨_, _, _, rfl⟩ -
  exact ⟨_, _, _, rfl⟩

/-- One worker's record is replaced. -/
theorem workers_setWorker {s : PoolSystem} {thread t : ThreadId} {w w' : Worker}
    (h : (s.setWorker thread w).workers t = some w') :
    (t = thread ∧ w' = w) ∨ (t ≠ thread ∧ s.workers t = some w') := by
  by_cases ht : t = thread
  · subst ht
    have hself : (s.setWorker t w).workers t = some w := Function.update_self _ _ _
    rw [hself] at h
    exact Or.inl ⟨rfl, (Option.some.inj h).symm⟩
  · have hother : (s.setWorker thread w).workers t = s.workers t :=
      Function.update_of_ne ht _ _
    rw [hother] at h
    exact Or.inr ⟨ht, h⟩

theorem setWorker_alive {s : PoolSystem} (thread : ThreadId) (w : Worker) {t : ThreadId}
    {v : Worker} (h : s.workers t = some v) :
    ∃ v', (s.setWorker thread w).workers t = some v' := by
  by_cases ht : t = thread
  · subst ht
    exact ⟨w, Function.update_self _ _ _⟩
  · exact ⟨v, (Function.update_of_ne ht _ _).trans h⟩

theorem attended_of_same {s s' : PoolSystem} {a : PoolAction}
    (h : s'.workers = s.workers) : Attended s a s' := by
  constructor
  · intro t w' hw'
    rw [h] at hw'
    exact Or.inl ⟨w', hw', .same w'⟩
  · intro t w hw
    exact ⟨w, h ▸ hw⟩

theorem Attended.setWatchdog {s s' : PoolSystem} {a : PoolAction} (h : Attended s a s')
    (pc : WatchdogPc) : Attended s a (s'.setWatchdog pc) := ⟨h.origin, h.alive⟩

theorem Attended.setSubmitter {s s' : PoolSystem} {a : PoolAction} (h : Attended s a s')
    (call : Nat) (submitter : Submitter) : Attended s a (s'.setSubmitter call submitter) :=
  ⟨h.origin, h.alive⟩

theorem attended_setWorker {s s' : PoolSystem} {a : PoolAction} {thread : ThreadId}
    {w w' : Worker} (hw : s.workers thread = some w)
    (hpassive : Worker.Passive (s.AbortsForTimeout a thread) w w')
    (h : s'.workers = (s.setWorker thread w').workers) : Attended s a s' := by
  constructor
  · intro t w'' hw''
    rw [h] at hw''
    obtain ⟨rfl, rfl⟩ | ⟨-, hw''⟩ := workers_setWorker hw''
    · exact Or.inl ⟨w, hw, hpassive⟩
    · exact Or.inl ⟨w'', hw'', .same w''⟩
  · intro t v hv
    rw [h]
    exact setWorker_alive thread w' hv

theorem abortMainThread_ok {s s' : PoolSystem} {data : DataRef} {token : AbortToken}
    (h : s.abortMainThread data token = .ok s') :
    ∃ thread w, (s.pool.heap data).mainThread = some thread ∧
      s.workers thread = some w ∧ s' = s.setWorker thread (w.requestAbort token) := by
  simp only [abortMainThread] at h
  split at h
  next => cases h
  next thread hthread =>
    split at h
    next => cases h
    next w hw =>
      cases h
      exact ⟨thread, w, hthread, hw, rfl⟩

/-- The three steps of the creation of a thread. -/
theorem createStep_ok {s s' : PoolSystem} {index : Nat} {stage : CreateStage}
    {left : Option CreateStage} (h : s.createStep index stage = .ok (s', left)) :
    (stage = .readSlot ∧ s' = s ∧ left = some (.setMainThread (s.pool.poolDomains index))) ∨
    (∃ data, stage = .setMainThread (some data) ∧ s' = s.newThread index data ∧
      left = some (.start s.threads)) ∨
    (∃ thread w, stage = .start thread ∧ s.workers thread = some w ∧ w.pc = .unstarted ∧
      s' = s.setWorker thread { w with pc := .incrementThreads } ∧ left = none) := by
  cases stage with
  | readSlot =>
      cases h
      exact Or.inl ⟨rfl, rfl, rfl⟩
  | setMainThread data =>
      cases data with
      | none => cases h
      | some data =>
          cases h
          exact Or.inr (Or.inl ⟨data, rfl, rfl, rfl⟩)
  | start thread =>
      simp only [createStep] at h
      split at h
      next w hw =>
        split at h
        next hpc =>
          cases h
          exact Or.inr (Or.inr ⟨thread, w, rfl, hw, hpc, rfl, rfl⟩)
        next => cases h
      next => cases h

theorem createStep_samePool {s s' : PoolSystem} {index : Nat} {stage : CreateStage}
    {left : Option CreateStage} (h : s.createStep index stage = .ok (s', left)) :
    SamePool s.pool s'.pool := by
  obtain ⟨-, rfl, -⟩ | ⟨data, -, rfl, -⟩ | ⟨thread, w, -, -, -, rfl, -⟩ := createStep_ok h
  · exact SamePool.refl _
  · exact samePool_modifyData s.pool data (f := fun old => { old with mainThread := some _ }) rfl
  · exact SamePool.refl _

theorem createStep_attended {s s' : PoolSystem} {index : Nat} {stage : CreateStage}
    {left : Option CreateStage} (a : PoolAction)
    (h : s.createStep index stage = .ok (s', left)) : Attended s a s' := by
  obtain ⟨-, rfl, -⟩ | ⟨data, -, rfl, -⟩ | ⟨thread, w, -, hw, hpc, rfl, -⟩ := createStep_ok h
  · exact attended_of_same rfl
  · constructor
    · intro t w' hw'
      obtain ⟨rfl, rfl⟩ | ⟨-, hw'⟩ := workers_setWorker hw'
      · exact Or.inr ⟨rfl, Nat.lt_succ_self _, index, data, rfl⟩
      · exact Or.inl ⟨w', hw', .same w'⟩
    · exact fun t v hv => setWorker_alive _ _ hv
  · exact attended_setWorker hw (.start w hpc) rfl

/-- The calls of `SubmitSnippet` are left alone, and no thread is forgotten. -/
structure SameCalls (s s' : PoolSystem) : Prop where
  submitters : s'.submitters = s.submitters
  calls : s'.calls = s.calls
  threads : s.threads ≤ s'.threads

theorem createStep_sameCalls {s s' : PoolSystem} {index : Nat} {stage : CreateStage}
    {left : Option CreateStage} (h : s.createStep index stage = .ok (s', left)) :
    SameCalls s s' := by
  obtain ⟨-, rfl, -⟩ | ⟨data, -, rfl, -⟩ | ⟨thread, w, -, -, -, rfl, -⟩ := createStep_ok h
  · exact ⟨rfl, rfl, le_rfl⟩
  · exact ⟨rfl, rfl, Nat.le_succ _⟩
  · exact ⟨rfl, rfl, le_rfl⟩

theorem SameCalls.setWatchdog {s s' : PoolSystem} (h : SameCalls s s') (pc : WatchdogPc) :
    SameCalls s (s'.setWatchdog pc) := ⟨h.submitters, h.calls, h.threads⟩

theorem Frame.of_samePool {s s' : PoolSystem} {a : PoolAction}
    (hpool : SamePool s.pool s'.pool) (hcalls : SameCalls s s')
    (hworkers : Attended s a s') : Frame s a s' := by
  refine ⟨hpool.size, hpool.clock.ge, hpool.currentRun, hpool.delivered, hpool.allocated,
    hpool.usages, Or.inl hpool.submissionMap, ?_, hcalls.calls.ge, hcalls.threads, hworkers⟩
  intro call submitter' hsubmitter
  rw [hcalls.submitters] at hsubmitter
  exact Or.inl ⟨submitter', hsubmitter, rfl, rfl⟩

/-- What one submission calls itself with is left alone by its own steps. -/
theorem submitters_setSubmitter {s next : PoolSystem} {call : Nat} {submitter : Submitter}
    {pc : SubmitterPc} (hsubmitter : s.submitters call = some submitter)
    (hnext : next.submitters = s.submitters) {k : Nat} {submitter' : Submitter}
    (h : (next.setSubmitter call { submitter with pc }).submitters k = some submitter') :
    ∃ old, s.submitters k = some old ∧ submitter'.snippetInfo = old.snippetInfo ∧
      submitter'.completion = old.completion := by
  by_cases hk : k = call
  · subst hk
    have hself : (next.setSubmitter k { submitter with pc }).submitters k =
        some { submitter with pc } := Function.update_self _ _ _
    rw [hself] at h
    cases h
    exact ⟨submitter, hsubmitter, rfl, rfl⟩
  · have hother : (next.setSubmitter call { submitter with pc }).submitters k =
        next.submitters k := Function.update_of_ne hk _ _
    rw [hother, hnext] at h
    exact ⟨submitter', h, rfl, rfl⟩

theorem frame_setSubmitter {s next : PoolSystem} {a : PoolAction} {call : Nat}
    {submitter : Submitter} {pc : SubmitterPc}
    (hsubmitter : s.submitters call = some submitter) (hpool : SamePool s.pool next.pool)
    (hcalls : SameCalls s next) (hworkers : Attended s a next) :
    Frame s a (next.setSubmitter call { submitter with pc }) := by
  refine ⟨hpool.size, hpool.clock.ge, hpool.currentRun, hpool.delivered, hpool.allocated,
    hpool.usages, Or.inl hpool.submissionMap, ?_, hcalls.calls.ge, hcalls.threads,
    hworkers.setSubmitter _ _⟩
  intro k submitter' h
  exact Or.inl (submitters_setSubmitter hsubmitter hcalls.submitters h)

/-! The statements of the watchdog that call something which can fail. -/

section

variable {s s' : PoolSystem}

theorem watchdogNext_getMessage (hpc : s.watchdog.pc = .getMessage)
    (h : s.watchdogNext = .ok s') :
    ∃ host hostEvent, s.pool.host.rawGetLastMessage = .ok (host, hostEvent) ∧
      ((hostEvent = none ∧
          s' = { s with pool := { s.pool with host } }.setWatchdog .readClock) ∨
        ∃ event, hostEvent = some event ∧
          s' = { s with
            pool := { s.pool with host }
            watchdog := { s.watchdog with
              pc := .findDomain event
              cause := s.pool.postedDuring event.appDomainId } }) := by
  simp only [watchdogNext, hpc, getHostMessage] at h
  cases hread : s.pool.host.rawGetLastMessage with
  | error fault =>
      rw [hread] at h
      cases h
  | ok result =>
      obtain ⟨host, hostEvent⟩ := result
      rw [hread] at h
      cases hostEvent with
      | none =>
          cases h
          exact ⟨host, none, rfl, Or.inl ⟨rfl, rfl⟩⟩
      | some event =>
          cases h
          exact ⟨host, some event, rfl, Or.inr ⟨event, rfl, rfl⟩⟩

theorem watchdogNext_abortExausted {poolDomain : DataRef}
    (hpc : s.watchdog.pc = .abortExausted poolDomain) (h : s.watchdogNext = .ok s') :
    ∃ thread w, s.workers thread = some w ∧
      s' = (s.setWorker thread (w.requestAbort .threadsExausted)).setWatchdog .ensureOne := by
  simp only [watchdogNext, hpc] at h
  split at h
  next => cases h
  next hnext =>
    cases h
    obtain ⟨thread, w, -, hw, rfl⟩ := abortMainThread_ok hnext
    exact ⟨thread, w, hw, rfl⟩

theorem watchdogNext_abortTimeout {index : Nat} {poolDomain : DataRef}
    (hpc : s.watchdog.pc = .abortTimeout index poolDomain) (h : s.watchdogNext = .ok s') :
    ∃ thread w, s.AbortsForTimeout (.watchdog .next) thread ∧ s.workers thread = some w ∧
      s' = (s.setWorker thread (w.requestAbort .timeout)).setWatchdog
        (.checkThread index poolDomain) := by
  simp only [watchdogNext, hpc] at h
  split at h
  next => cases h
  next data hdata =>
    split at h
    next => cases h
    next hnext =>
      cases h
      obtain ⟨thread, w, hthread, hw, rfl⟩ := abortMainThread_ok hnext
      exact ⟨thread, w, ⟨rfl, index, poolDomain, data, hpc, hdata, hthread⟩, hw, rfl⟩

theorem watchdogNext_creating {index : Nat} {ensuring : Bool} {stage : CreateStage}
    (hpc : s.watchdog.pc = .creating index ensuring stage) (h : s.watchdogNext = .ok s') :
    ∃ next left pc, s.createStep index stage = .ok (next, left) ∧ s' = next.setWatchdog pc ∧
      ((∃ stage', left = some stage' ∧ pc = .creating index ensuring stage') ∨
        (left = none ∧ (pc = .loopHead ∨ pc = .scan (index + 1)))) := by
  simp only [watchdogNext, hpc] at h
  split at h
  next => cases h
  next next stage' hnext =>
    cases h
    exact ⟨next, _, _, hnext, rfl, Or.inl ⟨stage', rfl, rfl⟩⟩
  next next hnext =>
    cases h
    refine ⟨next, _, _, hnext, rfl, Or.inr ⟨rfl, ?_⟩⟩
    cases ensuring
    · exact Or.inr rfl
    · exact Or.inl rfl

end

theorem watchdogNext_samePool {s s' : PoolSystem} (h : s.watchdogNext = .ok s') :
    SamePool s.pool s'.pool ∧ SameCalls s s' := by
  cases hpc : s.watchdog.pc with
  | getMessage =>
      obtain ⟨host, _, -, ⟨-, rfl⟩ | ⟨event, -, rfl⟩⟩ := watchdogNext_getMessage hpc h
      all_goals exact ⟨samePool_host s.pool host, rfl, rfl, le_rfl⟩
  | exchangeAborting poolDomain =>
      simp only [watchdogNext, hpc] at h
      split at h
      all_goals cases h
      · refine ⟨?_, rfl, rfl, le_rfl⟩
        simp only [setWatchdog_pool]
        apply samePool_modifyData
        rfl
      · exact ⟨SamePool.refl _, rfl, rfl, le_rfl⟩
  | writeZero index poolDomain =>
      simp only [watchdogNext, hpc] at h
      split at h
      all_goals cases h
      refine ⟨?_, rfl, rfl, le_rfl⟩
      simp only [setWatchdog_pool]
      apply samePool_modifyData
      rfl
  | abortExausted poolDomain =>
      obtain ⟨thread, w, -, rfl⟩ := watchdogNext_abortExausted hpc h
      exact ⟨SamePool.refl _, rfl, rfl, le_rfl⟩
  | abortTimeout index poolDomain =>
      obtain ⟨thread, w, -, -, rfl⟩ := watchdogNext_abortTimeout hpc h
      exact ⟨SamePool.refl _, rfl, rfl, le_rfl⟩
  | replaceSlot index | ensureSlot =>
      simp only [watchdogNext, hpc] at h
      cases h
      exact ⟨samePool_renewSlot _ _, rfl, rfl, le_rfl⟩
  | creating index ensuring stage =>
      obtain ⟨next, left, pc, hnext, rfl, -⟩ := watchdogNext_creating hpc h
      rw [setWatchdog_pool]
      exact ⟨createStep_samePool hnext, (createStep_sameCalls hnext).setWatchdog pc⟩
  | _ =>
      simp only [watchdogNext, hpc] at h
      repeat' split at h
      all_goals cases h
      all_goals
        exact ⟨⟨rfl, rfl, rfl, rfl, rfl, rfl, le_rfl, fun _ => Or.inl rfl⟩, rfl, rfl, le_rfl⟩

theorem watchdogNext_attended {s s' : PoolSystem} (h : s.watchdogNext = .ok s') :
    Attended s (.watchdog .next) s' := by
  cases hpc : s.watchdog.pc with
  | getMessage =>
      obtain ⟨_, _, -, ⟨-, rfl⟩ | ⟨event, -, rfl⟩⟩ := watchdogNext_getMessage hpc h
      all_goals exact attended_of_same rfl
  | abortExausted poolDomain =>
      obtain ⟨thread, w, hw, rfl⟩ := watchdogNext_abortExausted hpc h
      refine attended_setWorker hw ?_ rfl
      exact .abort w .threadsExausted (fun heq => by cases heq)
  | abortTimeout index poolDomain =>
      obtain ⟨thread, w, haborts, hw, rfl⟩ := watchdogNext_abortTimeout hpc h
      exact attended_setWorker hw (.abort w .timeout (fun _ => haborts)) rfl
  | creating index ensuring stage =>
      obtain ⟨next, left, pc, hnext, rfl, -⟩ := watchdogNext_creating hpc h
      exact (createStep_attended _ hnext).setWatchdog pc
  | _ =>
      simp only [watchdogNext, hpc] at h
      repeat' split at h
      all_goals cases h
      all_goals exact attended_of_same rfl

/-! The statements of `SubmitSnippet` that take in a whole section of the code. -/

theorem submitterNext_fillSlots {s s' : PoolSystem} {call : Nat} {submitter : Submitter}
    (hpc : submitter.pc = .fillSlots) (h : s.submitterNext call submitter = .ok s') :
    ∃ pc, s' = { s with pool := s.pool.fillSlots.1 }.setSubmitter call { submitter with pc } ∧
      ((∃ index, s.pool.fillSlots.2 = some index ∧ pc = .creating index .readSlot) ∨
        (s.pool.fillSlots.2 = none ∧ pc = .store)) := by
  simp only [submitterNext, hpc] at h
  split at h
  next pool index hfill =>
    cases h
    rw [hfill]
    exact ⟨_, rfl, Or.inl ⟨index, rfl, rfl⟩⟩
  next pool hfill =>
    cases h
    rw [hfill]
    exact ⟨_, rfl, Or.inr ⟨rfl, rfl⟩⟩

theorem submitterNext_creating {s s' : PoolSystem} {call : Nat} {submitter : Submitter}
    {index : Nat} {stage : CreateStage} (hpc : submitter.pc = .creating index stage)
    (h : s.submitterNext call submitter = .ok s') :
    s' = s.setSubmitter call { submitter with pc := .threw } ∨
      ∃ next left pc, s.createStep index stage = .ok (next, left) ∧
        s' = next.setSubmitter call { submitter with pc } ∧
        ((∃ stage', left = some stage' ∧ pc = .creating index stage') ∨
          (left = none ∧ pc = .store)) := by
  simp only [submitterNext, hpc] at h
  split at h
  next =>
    cases h
    exact Or.inl rfl
  next =>
    cases h
    exact Or.inl rfl
  next => cases h
  next next stage' hnext =>
    cases h
    exact Or.inr ⟨next, _, _, hnext, rfl, Or.inl ⟨stage', rfl, rfl⟩⟩
  next next hnext =>
    cases h
    exact Or.inr ⟨next, _, _, hnext, rfl, Or.inr ⟨rfl, rfl⟩⟩

theorem submitterNext_frame {s s' : PoolSystem} {call : Nat} {submitter : Submitter}
    (hsubmitter : s.submitters call = some submitter)
    (h : s.submitterNext call submitter = .ok s') (a : PoolAction) : Frame s a s' := by
  cases hpc : submitter.pc with
  | readCount | add =>
      simp only [submitterNext, hpc] at h
      split at h
      all_goals cases h
      all_goals
        refine frame_setSubmitter hsubmitter ?_ ?_ (attended_of_same ?_)
        · exact ⟨rfl, rfl, rfl, rfl, rfl, rfl, le_rfl, fun _ => Or.inl rfl⟩
        · exact ⟨rfl, rfl, le_rfl⟩
        · rfl
  | fillSlots =>
      obtain ⟨pc, rfl, -⟩ := submitterNext_fillSlots hpc h
      exact frame_setSubmitter hsubmitter (samePool_fillSlots s.pool) ⟨rfl, rfl, le_rfl⟩
        (attended_of_same rfl)
  | creating index stage =>
      obtain rfl | ⟨next, left, pc, hnext, rfl, -⟩ := submitterNext_creating hpc h
      · exact frame_setSubmitter hsubmitter (SamePool.refl _) ⟨rfl, rfl, le_rfl⟩
          (attended_of_same rfl)
      · exact frame_setSubmitter hsubmitter (createStep_samePool hnext)
          (createStep_sameCalls hnext) (createStep_attended a hnext)
  | store =>
      simp only [submitterNext, hpc] at h
      split at h
      next id completion hid hcompletion =>
        cases h
        refine ⟨rfl, le_rfl, rfl, rfl, le_rfl, fun _ => Or.inl rfl, Or.inr ?_, ?_, le_rfl,
          le_rfl, attended_of_same rfl⟩
        · exact ⟨call, submitter, id, completion, hsubmitter, hid, hcompletion, rfl⟩
        · intro k submitter' hk
          exact Or.inl (submitters_setSubmitter hsubmitter (rfl : s.submitters = s.submitters) hk)
      next =>
        cases h
        exact frame_setSubmitter hsubmitter (SamePool.refl _) ⟨rfl, rfl, le_rfl⟩
          (attended_of_same rfl)
  | returned | threw =>
      simp only [submitterNext, hpc] at h
      cases h

/-! What of the pool the three can touch at all. -/

theorem createStep_pool {s s' : PoolSystem} {index : Nat} {stage : CreateStage}
    {left : Option CreateStage} (h : s.createStep index stage = .ok (s', left)) :
    ∃ heap, s'.pool = { s.pool with heap } := by
  obtain ⟨-, rfl, -⟩ | ⟨data, -, rfl, -⟩ | ⟨thread, w, -, -, -, rfl, -⟩ := createStep_ok h
  all_goals exact ⟨_, rfl⟩

theorem watchdogNext_pool {s s' : PoolSystem} (h : s.watchdogNext = .ok s') :
    ∃ host poolDomains heap allocated watchdogEnded unloadRequests, s'.pool = { s.pool with
      host, poolDomains, heap, allocated, watchdogEnded, unloadRequests } := by
  cases hpc : s.watchdog.pc with
  | getMessage =>
      obtain ⟨_, _, -, ⟨-, rfl⟩ | ⟨event, -, rfl⟩⟩ := watchdogNext_getMessage hpc h
      all_goals exact ⟨_, _, _, _, _, _, rfl⟩
  | abortExausted poolDomain =>
      obtain ⟨thread, w, -, rfl⟩ := watchdogNext_abortExausted hpc h
      exact ⟨_, _, _, _, _, _, rfl⟩
  | abortTimeout index poolDomain =>
      obtain ⟨thread, w, -, -, rfl⟩ := watchdogNext_abortTimeout hpc h
      exact ⟨_, _, _, _, _, _, rfl⟩
  | creating index ensuring stage =>
      obtain ⟨next, left, pc, hnext, rfl, -⟩ := watchdogNext_creating hpc h
      obtain ⟨_, hpool⟩ := createStep_pool hnext
      exact ⟨_, _, _, _, _, _, hpool⟩
  | _ =>
      simp only [watchdogNext, hpc] at h
      repeat' split at h
      all_goals cases h
      all_goals exact ⟨_, _, _, _, _, _, rfl⟩

theorem submitterNext_pool {s s' : PoolSystem} {call : Nat} {submitter : Submitter}
    (h : s.submitterNext call submitter = .ok s') :
    ∃ poolDomains heap allocated submissionMap snippetsQueue, s'.pool = { s.pool with
      poolDomains, heap, allocated, submissionMap, snippetsQueue } := by
  cases hpc : submitter.pc with
  | fillSlots =>
      obtain ⟨pc, rfl, -⟩ := submitterNext_fillSlots hpc h
      obtain ⟨_, _, _, hfill⟩ := fillSlots_eq s.pool
      exact ⟨_, _, _, _, _, hfill⟩
  | creating index stage =>
      obtain rfl | ⟨next, left, pc, hnext, rfl, -⟩ := submitterNext_creating hpc h
      · exact ⟨_, _, _, _, _, rfl⟩
      · obtain ⟨_, hpool⟩ := createStep_pool hnext
        exact ⟨_, _, _, _, _, hpool⟩
  | _ =>
      simp only [submitterNext, hpc] at h
      repeat' split at h
      all_goals cases h
      all_goals exact ⟨_, _, _, _, _, rfl⟩

/-- The events, what they were posted during, and the watchdog are left alone. -/
def SameEvents (s s' : PoolSystem) : Prop :=
  s'.pool.host.messageQueue = s.pool.host.messageQueue ∧
    s'.pool.postedDuring = s.pool.postedDuring ∧ s'.watchdog = s.watchdog

theorem createStep_sameEvents {s s' : PoolSystem} {index : Nat} {stage : CreateStage}
    {left : Option CreateStage} (h : s.createStep index stage = .ok (s', left)) :
    SameEvents s s' := by
  obtain ⟨-, rfl, -⟩ | ⟨data, -, rfl, -⟩ | ⟨thread, w, -, -, -, rfl, -⟩ := createStep_ok h
  all_goals exact ⟨rfl, rfl, rfl⟩

theorem submitterNext_sameEvents {s s' : PoolSystem} {call : Nat}
    {submitter : Submitter} (h : s.submitterNext call submitter = .ok s') : SameEvents s s' := by
  cases hpc : submitter.pc with
  | fillSlots =>
      obtain ⟨pc, rfl, -⟩ := submitterNext_fillSlots hpc h
      obtain ⟨_, _, _, hfill⟩ := fillSlots_eq s.pool
      rw [hfill]
      exact ⟨rfl, rfl, rfl⟩
  | creating index stage =>
      obtain rfl | ⟨next, left, pc, hnext, rfl, -⟩ := submitterNext_creating hpc h
      · exact ⟨rfl, rfl, rfl⟩
      · obtain ⟨hqueue, hposted, hwatchdog⟩ := createStep_sameEvents hnext
        exact ⟨hqueue, hposted, hwatchdog⟩
  | returned | threw =>
      simp only [submitterNext, hpc] at h
      cases h
  | _ =>
      simp only [submitterNext, hpc] at h
      split at h
      all_goals cases h
      all_goals exact ⟨rfl, rfl, rfl⟩

/-- What one statement can make of the watchdog. -/
inductive WatchdogGoes (s : PoolSystem) : WatchdogPc → Watchdog → Prop
  | exit : WatchdogGoes s .loopHead { s.watchdog with pc := .ended }
  | ask : WatchdogGoes s .loopHead { s.watchdog with pc := .getMessage }
  | noMessage : WatchdogGoes s .getMessage { s.watchdog with pc := .readClock }
  | message (event : HostEvent) (hevent : s.pool.host.hMessageEvent = true) :
      WatchdogGoes s .getMessage { s.watchdog with
        pc := .findDomain event
        cause := s.pool.postedDuring event.appDomainId }
  | found (event : HostEvent) (poolDomain : DataRef)
      (hfind : s.pool.findByAppDomainId event.appDomainId = some poolDomain) :
      WatchdogGoes s (.findDomain event) { s.watchdog with pc := .exchangeAborting poolDomain }
  | notFound (event : HostEvent) :
      WatchdogGoes s (.findDomain event) { s.watchdog with pc := .ensureOne }
  | exchanged (poolDomain : DataRef) (hclear : (s.pool.heap poolDomain).isAborting = 0) :
      WatchdogGoes s (.exchangeAborting poolDomain)
        { s.watchdog with pc := .abortExausted poolDomain }
  | aborting (poolDomain : DataRef) :
      WatchdogGoes s (.exchangeAborting poolDomain) { s.watchdog with pc := .ensureOne }
  | exausted (poolDomain : DataRef) :
      WatchdogGoes s (.abortExausted poolDomain) { s.watchdog with pc := .ensureOne }
  | clock : WatchdogGoes s .readClock
      { s.watchdog with pc := .scan 0, currentTime := s.pool.clock }
  | slot (index : Nat) (poolDomain : DataRef) (hlt : index < s.pool.numberOfDomainsInPool)
      (hslot : s.pool.poolDomains index = some poolDomain) :
      WatchdogGoes s (.scan index) { s.watchdog with pc := .readStart index poolDomain }
  | empty (index : Nat) (hslot : s.pool.poolDomains index = none) :
      WatchdogGoes s (.scan index) { s.watchdog with pc := .scan (index + 1) }
  | scanned (index : Nat) (hend : ¬ index < s.pool.numberOfDomainsInPool) :
      WatchdogGoes s (.scan index) { s.watchdog with pc := .ensureOne }
  | tooOld (index : Nat) (poolDomain : DataRef)
      (hold : (s.pool.heap poolDomain).timeOfSubmission > 0 ∧
        s.watchdog.currentTime - (s.pool.heap poolDomain).timeOfSubmission > runningThreshold) :
      WatchdogGoes s (.readStart index poolDomain) { s.watchdog with
        pc := .reportTimeout index poolDomain
        snippetStartTime := (s.pool.heap poolDomain).timeOfSubmission }
  | young (index : Nat) (poolDomain : DataRef)
      (hyoung : ¬ ((s.pool.heap poolDomain).timeOfSubmission > 0 ∧
        s.watchdog.currentTime - (s.pool.heap poolDomain).timeOfSubmission > runningThreshold)) :
      WatchdogGoes s (.readStart index poolDomain) { s.watchdog with
        pc := .checkThread index poolDomain
        snippetStartTime := (s.pool.heap poolDomain).timeOfSubmission }
  | reported (index : Nat) (poolDomain : DataRef) :
      WatchdogGoes s (.reportTimeout index poolDomain)
        { s.watchdog with pc := .writeZero index poolDomain }
  | cleared (index : Nat) (poolDomain : DataRef) :
      WatchdogGoes s (.writeZero index poolDomain)
        { s.watchdog with pc := .abortTimeout index poolDomain }
  | aborted (index : Nat) (poolDomain : DataRef) :
      WatchdogGoes s (.abortTimeout index poolDomain)
        { s.watchdog with pc := .checkThread index poolDomain }
  | gone (index : Nat) (poolDomain : DataRef) :
      WatchdogGoes s (.checkThread index poolDomain)
        { s.watchdog with pc := .unloadOld index poolDomain }
  | alive (index : Nat) (poolDomain : DataRef) :
      WatchdogGoes s (.checkThread index poolDomain) { s.watchdog with pc := .scan (index + 1) }
  | unloaded (index : Nat) (poolDomain : DataRef) :
      WatchdogGoes s (.unloadOld index poolDomain) { s.watchdog with pc := .replaceSlot index }
  | replaced (index : Nat) : WatchdogGoes s (.replaceSlot index)
      { s.watchdog with pc := .creating index false .readSlot }
  | creating (index : Nat) (ensuring : Bool) (stage stage' : CreateStage) :
      WatchdogGoes s (.creating index ensuring stage)
        { s.watchdog with pc := .creating index ensuring stage' }
  | created (index : Nat) (stage : CreateStage) :
      WatchdogGoes s (.creating index false stage) { s.watchdog with pc := .scan (index + 1) }
  | ensured (index : Nat) (stage : CreateStage) :
      WatchdogGoes s (.creating index true stage) { s.watchdog with pc := .loopHead }
  | noThread : WatchdogGoes s .ensureOne { s.watchdog with pc := .ensureSlot }
  | enough : WatchdogGoes s .ensureOne { s.watchdog with pc := .loopHead }
  | ensuring : WatchdogGoes s .ensureSlot { s.watchdog with pc := .creating 0 true .readSlot }

theorem watchdogNext_goes {s s' : PoolSystem} (h : s.watchdogNext = .ok s') :
    WatchdogGoes s s.watchdog.pc s'.watchdog := by
  cases hpc : s.watchdog.pc with
  | getMessage =>
      obtain ⟨host, hostEvent, hread, ⟨-, rfl⟩ | ⟨event, rfl, rfl⟩⟩ :=
        watchdogNext_getMessage hpc h
      · exact .noMessage
      · obtain ⟨hmessages, -⟩ := HostContext.rawGetLastMessage_ok hread
        obtain ⟨-, -, hnone⟩ | ⟨_, -, hevent, -⟩ := MessageData.rawGetLastMessage_ok hmessages
        · cases hnone
        · exact .message event hevent
  | abortExausted poolDomain =>
      obtain ⟨thread, w, -, rfl⟩ := watchdogNext_abortExausted hpc h
      exact .exausted poolDomain
  | abortTimeout index poolDomain =>
      obtain ⟨thread, w, -, -, rfl⟩ := watchdogNext_abortTimeout hpc h
      exact .aborted index poolDomain
  | creating index ensuring stage =>
      simp only [watchdogNext, hpc] at h
      split at h
      next => cases h
      next next stage' hnext =>
        cases h
        simp only [setWatchdog, (createStep_sameEvents hnext).2.2]
        exact .creating index ensuring stage stage'
      next next hnext =>
        cases h
        simp only [setWatchdog, (createStep_sameEvents hnext).2.2]
        cases ensuring with
        | false => exact .created index stage
        | true => exact .ensured index stage
  | _ =>
      simp only [watchdogNext, hpc] at h
      repeat' split at h
      all_goals cases h
      all_goals constructor
      all_goals assumption

theorem withWorker_ok {s s' : PoolSystem} {thread : ThreadId}
    {f : Worker → Except PoolFault (DomainPool × Worker)}
    (h : s.withWorker thread f = .ok s') :
    ∃ w pool w', s.workers thread = some w ∧ f w = .ok (pool, w') ∧
      s' = { s with pool }.setWorker thread w' := by
  simp only [withWorker] at h
  split at h
  next => cases h
  next w hw =>
    split at h
    next => cases h
    next pool w' hf =>
      cases h
      exact ⟨w, pool, w', hw, hf, rfl⟩

/-- A worker takes the step. -/
def WorkerMoves (s : PoolSystem) (a : PoolAction) (s' : PoolSystem) : Prop :=
  ∃ t w p w', s.workers t = some w ∧ Worker.Moves t a s.pool p w w' ∧
    s' = { s with pool := p }.setWorker t w'

/-- The steps that no worker takes. -/
inductive OtherStep (s : PoolSystem) : PoolAction → PoolSystem → Prop
  | watchdog (s' : PoolSystem) (hnext : s.watchdogNext = .ok s') :
      OtherStep s (.watchdog .next) s'
  | interrupted (hwaits : s.pool.interruptRequested = true ∧ waits s.watchdog.pc = true) :
      OtherStep s (.watchdog .interrupted)
        ({ s with pool := { s.pool with interruptRequested := false } }.setWatchdog .loopHead)
  | submit (withCompletion : Bool) (id : Option SubmissionId)
      (hid : id = if withCompletion then some s.calls else none) :
      OtherStep s (.submit withCompletion)
        { s.setSubmitter s.calls { snippetInfo := ⟨id⟩, completion := id } with
          calls := s.calls + 1 }
  | submitter (call : Nat) (submitter : Submitter) (s' : PoolSystem)
      (hsubmitter : s.submitters call = some submitter)
      (hnext : s.submitterNext call submitter = .ok s') : OtherStep s (.submitter call) s'
  | foreignAbort (thread : ThreadId) (w : Worker) (hw : s.workers thread = some w) :
      OtherStep s (.foreignAbort thread) (s.setWorker thread (w.requestAbort .other))
  | host (op : HostOp) (host : HostContext) (hcallback : isCallback op = true)
      (hhost : s.pool.host.step op = .ok host) : OtherStep s (.host op)
        { s with pool := s.pool.setHost host }
  | tick (millis : Nat) : OtherStep s (.tick millis)
      { s with pool := { s.pool with clock := s.pool.clock + millis } }

theorem step_ok {s s' : PoolSystem} {a : PoolAction} (h : s.step a = .ok s') :
    WorkerMoves s a s' ∨ OtherStep s a s' := by
  cases a with
  | worker t input =>
      obtain ⟨w, p, w', hw, hstep, rfl⟩ := withWorker_ok h
      exact Or.inl ⟨t, w, p, w', hw, Or.inl ⟨input, rfl, hstep⟩, rfl⟩
  | rudeAbort t =>
      obtain ⟨w, p, w', hw, hdies, rfl⟩ := withWorker_ok h
      exact Or.inl ⟨t, w, p, w', hw, Or.inr (Or.inl ⟨rfl, hdies⟩), rfl⟩
  | settle t =>
      obtain ⟨w, p, w', hw, hsettles, rfl⟩ := withWorker_ok h
      exact Or.inl ⟨t, w, p, w', hw, Or.inr (Or.inr ⟨rfl, hsettles⟩), rfl⟩
  | watchdog input =>
      cases input with
      | next => exact Or.inr (.watchdog s' h)
      | interrupted =>
          simp only [step, watchdogInterrupted] at h
          split at h
          next hwaits =>
            cases h
            exact Or.inr (.interrupted hwaits)
          next => cases h
  | submit withCompletion =>
      cases h
      exact Or.inr (.submit withCompletion _ rfl)
  | submitter call =>
      simp only [step] at h
      split at h
      next => cases h
      next submitter hsubmitter => exact Or.inr (.submitter call submitter s' hsubmitter h)
  | foreignAbort t =>
      obtain ⟨w, p, w', hw, hf, rfl⟩ :=
        withWorker_ok (f := fun w => .ok (s.pool, w.requestAbort .other)) h
      cases hf
      exact Or.inr (.foreignAbort t w hw)
  | host op =>
      simp only [step] at h
      split at h
      next hcallback =>
        split at h
        next => cases h
        next host hhost =>
          cases h
          exact Or.inr (.host op host hcallback hhost)
      next => cases h
  | tick millis =>
      cases h
      exact Or.inr (.tick millis)

theorem OtherStep.frame {s s' : PoolSystem} {a : PoolAction} (h : OtherStep s a s') :
    Frame s a s' := by
  cases h with
  | watchdog _ hnext =>
      obtain ⟨hpool, hcalls⟩ := watchdogNext_samePool hnext
      exact Frame.of_samePool hpool hcalls (watchdogNext_attended hnext)
  | interrupted hwaits =>
      exact Frame.of_samePool
        ⟨rfl, rfl, rfl, rfl, rfl, rfl, le_rfl, fun _ => Or.inl rfl⟩ ⟨rfl, rfl, le_rfl⟩
        (attended_of_same rfl)
  | submit withCompletion id hid =>
      refine ⟨rfl, le_rfl, rfl, rfl, le_rfl, fun _ => Or.inl rfl, Or.inl rfl, ?_,
        Nat.le_succ _, le_rfl, attended_of_same rfl⟩
      intro call submitter' hcall
      by_cases hnew : call = s.calls
      · subst hnew
        have hself := hcall.symm.trans (Function.update_self _ _ _)
        cases hself
        exact Or.inr ⟨Nat.lt_succ_self _, rfl⟩
      · have hother := hcall.symm.trans (Function.update_of_ne hnew _ _)
        exact Or.inl ⟨submitter', hother.symm, rfl, rfl⟩
  | submitter call submitter _ hsubmitter hnext => exact submitterNext_frame hsubmitter hnext _
  | foreignAbort t w hw =>
      refine Frame.of_samePool (SamePool.refl _) ⟨rfl, rfl, le_rfl⟩ ?_
      refine attended_setWorker hw ?_ rfl
      exact .abort w .other (fun heq => by cases heq)
  | host op host hcallback hhost =>
      exact ⟨rfl, le_rfl, rfl, rfl, le_rfl, fun _ => Or.inl rfl, Or.inl rfl,
        fun _ submitter' hk => Or.inl ⟨submitter', hk, rfl, rfl⟩, le_rfl, le_rfl,
        attended_of_same rfl⟩
  | tick millis =>
      exact ⟨rfl, Int.le_add_of_nonneg_right (Int.natCast_nonneg _), rfl, rfl, le_rfl,
        fun _ => Or.inl rfl, Or.inl rfl, fun _ submitter' hk => Or.inl ⟨submitter', hk, rfl, rfl⟩,
        le_rfl, le_rfl, attended_of_same rfl⟩

/-- Every step is the step of a worker, or leaves the frame alone. -/
theorem step_cases {s s' : PoolSystem} {a : PoolAction} (h : s.step a = .ok s') :
    WorkerMoves s a s' ∨ Frame s a s' := by
  obtain hmoves | hother := step_ok h
  · exact Or.inl hmoves
  · exact Or.inr hother.frame

/-- The clock of the pool never goes back. -/
theorem step_clock {s s' : PoolSystem} {a : PoolAction} (h : s.step a = .ok s') :
    s.pool.clock ≤ s'.pool.clock := by
  obtain ⟨t, w, p, w', -, hmove, rfl⟩ | hframe := step_cases h
  · exact hmove.frame.clock.ge
  · exact hframe.clock

theorem step_size {s s' : PoolSystem} {a : PoolAction} (h : s.step a = .ok s') :
    s'.pool.numberOfDomainsInPool = s.pool.numberOfDomainsInPool := by
  obtain ⟨t, w, p, w', -, hmove, rfl⟩ | hframe := step_cases h
  · exact hmove.frame.size
  · exact hframe.size

/-- Only the watchdog moves the watchdog. -/
theorem step_watchdog {s s' : PoolSystem} {a : PoolAction} (h : s.step a = .ok s') :
    s'.watchdog = s.watchdog ∨ (a = .watchdog .next ∧ s.watchdogNext = .ok s') ∨
      s'.watchdog = { s.watchdog with pc := .loopHead } := by
  obtain ⟨t, w, p, w', -, -, rfl⟩ | hother := step_ok h
  · exact Or.inl rfl
  · cases hother with
    | watchdog _ hnext => exact Or.inr (Or.inl ⟨rfl, hnext⟩)
    | interrupted hwaits => exact Or.inr (Or.inr rfl)
    | submitter call submitter _ hsubmitter hnext =>
        exact Or.inl (submitterNext_sameEvents hnext).2.2
    | submit | foreignAbort | host | tick => exact Or.inl rfl

/-- What becomes of a worker when no worker moves. -/
theorem Frame.forward {s s' : PoolSystem} {a : PoolAction} (h : Frame s a s')
    {t : ThreadId} {w : Worker} (hw : s.workers t = some w) (ht : t ≠ s.threads) :
    ∃ w', s'.workers t = some w' ∧ Worker.Passive (s.AbortsForTimeout a t) w w' := by
  obtain ⟨w', hw'⟩ := h.workers.alive t w hw
  obtain ⟨v, hv, hpassive⟩ | ⟨hnew, -⟩ := h.workers.origin t w' hw'
  · rw [hw] at hv
    cases hv
    exact ⟨w', hw', hpassive⟩
  · exact absurd hnew ht

/-- Thread ids and calls are numbered from 0. -/
structure Numbered (s : PoolSystem) : Prop where
  threads : ∀ t w, s.workers t = some w → t < s.threads ∧ w.thread = t
  calls : ∀ call submitter, s.submitters call = some submitter → call < s.calls

theorem passive_thread {timeout : Prop} {w w' : Worker}
    (h : Worker.Passive timeout w w') : w'.thread = w.thread := by
  obtain ⟨request, rfl⟩ | ⟨-, rfl⟩ := h.eq_cases
  · rfl
  · rfl

theorem numbered_step {s s' : PoolSystem} {a : PoolAction} (hs : Numbered s)
    (h : s.step a = .ok s') : Numbered s' := by
  obtain ⟨u, v, p, v', hv, hmove, rfl⟩ | hframe := step_cases h
  · refine ⟨?_, hs.calls⟩
    intro t w hw
    obtain ⟨rfl, rfl⟩ | ⟨-, hw⟩ := workers_setWorker hw
    · rw [hmove.frame.thread]
      exact hs.threads t v hv
    · exact hs.threads t w hw
  · constructor
    · intro t w' hw'
      obtain ⟨w, hw, hpassive⟩ | ⟨-, hlt, index, data, rfl⟩ :=
        hframe.workers.origin t w' hw'
      · rw [passive_thread hpassive]
        exact ⟨(hs.threads t w hw).1.trans_le hframe.threads, (hs.threads t w hw).2⟩
      · exact ⟨hlt, rfl⟩
    · intro call submitter' hcall
      obtain ⟨submitter, hsubmitter, -⟩ | ⟨hlt, -⟩ := hframe.submitters call submitter' hcall
      · exact (hs.calls call submitter hsubmitter).trans_le hframe.calls
      · exact hlt

/-- The workers of the state `InitializeDomainPool` leaves. -/
theorem initial_workers {numberOfDomainsInPool : Nat} {t : ThreadId} {w : Worker}
    (h : (initial numberOfDomainsInPool).workers t = some w) :
    t < numberOfDomainsInPool ∧
      w = { thread := t, threadIndex := t, myPoolDomain := t, pc := .incrementThreads } := by
  simp only [initial] at h
  split at h
  next hlt =>
    cases h
    exact ⟨hlt, rfl⟩
  next => cases h

theorem numbered_initial (numberOfDomainsInPool : Nat) :
    Numbered (initial numberOfDomainsInPool) := by
  constructor
  · intro t w hw
    obtain ⟨hlt, rfl⟩ := initial_workers hw
    exact ⟨hlt, rfl⟩
  · intro call submitter h
    cases h

/-- A property of each worker in its pool holds after a step if the step of the
worker itself keeps it, the step of another worker does, and every other step
does, which can also create a worker. -/
theorem workers_step {P : DomainPool → ThreadId → Worker → Prop} {s s' : PoolSystem}
    {a : PoolAction} (h : s.step a = .ok s')
    (hworkers : ∀ t w, s.workers t = some w → P s.pool t w)
    (hmoves : ∀ t w p w', s.workers t = some w → Worker.Moves t a s.pool p w w' →
      P s.pool t w → P p t w')
    (hothers : ∀ t w u v p v', u ≠ t → s.workers t = some w → s.workers u = some v →
      Worker.Moves u a s.pool p v v' → P s.pool t w → P p t w)
    (hpassive : Frame s a s' → ∀ t w w', s.workers t = some w →
      Worker.Passive (s.AbortsForTimeout a t) w w' → P s.pool t w → P s'.pool t w')
    (hcreated : Frame s a s' → ∀ index data,
      P s'.pool s.threads (Worker.created s.threads index data)) :
    ∀ t w, s'.workers t = some w → P s'.pool t w := by
  intro t w' hw'
  obtain ⟨u, v, p, v', hv, hmove, rfl⟩ | hframe := step_cases h
  · obtain ⟨rfl, rfl⟩ | ⟨hne, hw⟩ := workers_setWorker hw'
    · exact hmoves t v p w' hv hmove (hworkers t v hv)
    · exact hothers t w' u v p v' (Ne.symm hne) hw hv hmove (hworkers t w' hw)
  · obtain ⟨w, hw, hpassive'⟩ | ⟨rfl, -, index, data, rfl⟩ := hframe.workers.origin t w' hw'
    · exact hpassive hframe t w w' hw hpassive' (hworkers t w hw)
    · exact hcreated hframe index data

end PoolSystem

end HostedPumpkin
