import HostedPumpkin.Pool.Refill

/-!
The objects behind the slots. A worker writes into its own object only; the
watchdog and the threads that create others write single fields of any. What each
step does to one object is said here, and that the thread an object names works on
that object.
-/

namespace HostedPumpkin

namespace Worker

/-- What a step of a worker does to the two fields of its object that the watchdog
goes by. -/
structure OwnData (goesOn : Prop) (p p' : DomainPool) (w w' : Worker) : Prop where
  time :
    (p'.heap w.myPoolDomain).timeOfSubmission = (p.heap w.myPoolDomain).timeOfSubmission ∨
      (goesOn ∧ w.pc = .writeStart ∧ w'.pc = .running) ∨
      (goesOn ∧ w.pc = .clearStart ∧ w'.pc = .getThreadCount ∧
        (p'.heap w.myPoolDomain).timeOfSubmission = 0)
  aborting :
    (p'.heap w.myPoolDomain).isAborting = (p.heap w.myPoolDomain).isAborting ∨
      (goesOn ∧ w.pc = .resetAborting ∧ w'.pc = .resetCounters)

variable {p p' : DomainPool} {w w' : Worker}

theorem OwnData.of_heap {goesOn : Prop} (h : p'.heap = p.heap) : OwnData goesOn p p' w w' := by
  constructor
  · rw [h]
    exact Or.inl rfl
  · rw [h]
    exact Or.inl rfl

theorem next_ownData {goesOn : Prop} (hnext : goesOn) (h : w.next p = .ok (p', w')) :
    OwnData goesOn p p' w w' := by
  cases hpc : w.pc with
  | recycle caller stage =>
      simp only [next, hpc] at h
      obtain ⟨⟨_, _, _, _, _, _, rfl⟩, -⟩ := recycleStep_ok h
      exact .of_heap rfl
  | setDomainId | incrementUsages =>
      simp only [next, hpc, Except.ok.injEq, Prod.mk.injEq] at h
      obtain ⟨rfl, rfl⟩ := h
      constructor
      · left
        simp [DomainPool.modifyData]
      · left
        simp [DomainPool.modifyData]
  | resetAborting =>
      simp only [next, hpc, Except.ok.injEq, Prod.mk.injEq] at h
      obtain ⟨rfl, rfl⟩ := h
      refine ⟨Or.inl ?_, Or.inr ⟨hnext, hpc, rfl⟩⟩
      simp [DomainPool.modifyData]
  | writeStart =>
      simp only [next, hpc, Except.ok.injEq, Prod.mk.injEq] at h
      obtain ⟨rfl, rfl⟩ := h
      refine ⟨Or.inr (Or.inl ⟨hnext, hpc, rfl⟩), Or.inl ?_⟩
      simp [DomainPool.modifyData]
  | clearStart =>
      simp only [next, hpc, Except.ok.injEq] at h
      obtain ⟨rfl, rfl⟩ := h
      refine ⟨Or.inr (Or.inr ⟨hnext, hpc, rfl, ?_⟩), Or.inl ?_⟩
      · simp [DomainPool.modifyData]
      · simp [DomainPool.modifyData]
  | _ =>
      simp only [next, hpc] at h
      repeat' split at h
      all_goals cases h
      all_goals exact .of_heap rfl

theorem Moves.ownData {t : ThreadId} {a : PoolAction} (h : Moves t a p p' w w') :
    OwnData (a = .worker t .next) p p' w w' := by
  obtain ⟨input, rfl, h⟩ | ⟨rfl, h⟩ | ⟨rfl, h⟩ := h
  · cases input with
    | next => exact next_ownData rfl h
    | _ =>
        simp only [step, throwException, raiseAbort] at h
        split at h
        all_goals cases h
        all_goals exact .of_heap rfl
  · obtain ⟨-, rfl, rfl⟩ := dieRudely_ok h
    exact .of_heap rfl
  · obtain ⟨-, rfl, rfl⟩ := settle_ok h
    exact .of_heap rfl

/-- Behind its run a worker has no start. -/
theorem Moves.clears {t : ThreadId} (h : Moves t (.worker t .next) p p' w w')
    (hpc : w.pc = .clearStart) : (p'.heap w.myPoolDomain).timeOfSubmission = 0 := by
  obtain ⟨input, ha, h⟩ | ⟨ha, -⟩ | ⟨ha, -⟩ := h
  · cases ha
    simp only [step, next, hpc] at h
    cases h
    simp [DomainPool.modifyData]
  · cases ha
  · cases ha

/-- A worker gives no object another thread. -/
theorem Moves.mainThread {t : ThreadId} {a : PoolAction} (h : Moves t a p p' w w')
    (data : DataRef) : (p'.heap data).mainThread = (p.heap data).mainThread := by
  by_cases hdata : data = w.myPoolDomain
  · rw [hdata]
    exact h.frame.mainThread
  · rw [h.frame.otherData data hdata]

end Worker

namespace PoolSystem

/-- What a step that no worker takes does to one object. -/
inductive DataStep (s : PoolSystem) (a : PoolAction) (s' : PoolSystem) (data : DataRef) : Prop
  | same (hheap : s'.pool.heap data = s.pool.heap data)
  | fresh (hnew : s.pool.allocated ≤ data) (hheap : s'.pool.heap data = {})
  | mainThread (index : Nat)
      (hheap : s'.pool.heap data =
        { s.pool.heap data with mainThread := some s.threads })
      (hworkers : s'.workers =
        (s.setWorker s.threads (Worker.created s.threads index data)).workers)
  | flagged (hpc : a = .watchdog .next ∧ s.watchdog.pc = .exchangeAborting data)
      (hclear : (s.pool.heap data).isAborting = 0)
      (hheap : s'.pool.heap data = { s.pool.heap data with isAborting := 1 })
  | zeroed (index : Nat) (poolDomain : DataRef)
      (hpc : a = .watchdog .next ∧ s.watchdog.pc = .writeZero index poolDomain)
      (hslot : s.pool.poolDomains index = some data)
      (hheap : s'.pool.heap data = { s.pool.heap data with timeOfSubmission := 0 })

variable {s s' : PoolSystem} {a : PoolAction}

theorem heap_renewSlot (p : DomainPool) (index : Nat) (data : DataRef) :
    (p.renewSlot index).heap data = p.heap data ∨
      (p.allocated ≤ data ∧ (p.renewSlot index).heap data = {}) := by
  by_cases hdata : data = p.allocated
  · subst hdata
    exact Or.inr ⟨le_rfl, Function.update_self _ _ _⟩
  · exact Or.inl (Function.update_of_ne hdata _ _)

theorem heap_fillSlots (p : DomainPool) (data : DataRef) :
    p.fillSlots.1.heap data = p.heap data ∨
      (p.allocated ≤ data ∧ p.fillSlots.1.heap data = {}) := by
  have hfilled : p.allocated ≤ p.fillSlots.1.allocated ∧
      (p.fillSlots.1.heap data = p.heap data ∨
        (p.allocated ≤ data ∧ p.fillSlots.1.heap data = {})) := by
    refine fillSlots_induction (P := fun q => p.allocated ≤ q.allocated ∧
      (q.heap data = p.heap data ∨ (p.allocated ≤ data ∧ q.heap data = {}))) ?_ ?_
    · exact ⟨le_rfl, Or.inl rfl⟩
    · rintro q index ⟨hle, hq⟩ -
      refine ⟨hle.trans (Nat.le_succ _), ?_⟩
      obtain hsame | ⟨hnew, hfresh⟩ := heap_renewSlot q index data
      · rw [hsame]
        exact hq
      · exact Or.inr ⟨hle.trans hnew, hfresh⟩
  exact hfilled.2

theorem DataStep.of_renewed {data : DataRef}
    (h : s'.pool.heap data = s.pool.heap data ∨
      (s.pool.allocated ≤ data ∧ s'.pool.heap data = {})) : DataStep s a s' data := by
  obtain hsame | ⟨hnew, hfresh⟩ := h
  · exact .same hsame
  · exact .fresh hnew hfresh

/-- A step of the creation of a thread. -/
theorem createStep_dataStep {next : PoolSystem} {index : Nat} {stage : CreateStage}
    {left : Option CreateStage} (h : s.createStep index stage = .ok (next, left))
    (hpool : s'.pool = next.pool) (hworkers : s'.workers = next.workers) (data : DataRef) :
    DataStep s a s' data := by
  obtain ⟨-, rfl, -⟩ | ⟨created, -, rfl, -⟩ | ⟨thread, w, -, -, -, rfl, -⟩ := createStep_ok h
  · exact .same (by rw [hpool])
  · by_cases hdata : data = created
    · subst hdata
      refine .mainThread index ?_ ?_
      · rw [hpool]
        exact Function.update_self _ _ _
      · rw [hworkers]
        rfl
    · refine .same ?_
      rw [hpool]
      exact Function.update_of_ne hdata _ _
  · refine .same ?_
    rw [hpool]
    rfl

theorem watchdogNext_dataStep (h : s.watchdogNext = .ok s') (data : DataRef) :
    DataStep s (.watchdog .next) s' data := by
  cases hpc : s.watchdog.pc with
  | getMessage =>
      obtain ⟨_, _, -, ⟨-, rfl⟩ | ⟨event, -, rfl⟩⟩ := watchdogNext_getMessage hpc h
      all_goals exact .same rfl
  | abortExausted poolDomain =>
      obtain ⟨thread, w, -, rfl⟩ := watchdogNext_abortExausted hpc h
      exact .same rfl
  | abortTimeout index poolDomain =>
      obtain ⟨thread, w, -, -, rfl⟩ := watchdogNext_abortTimeout hpc h
      exact .same rfl
  | exchangeAborting poolDomain =>
      simp only [watchdogNext, hpc] at h
      split at h
      next hclear =>
        cases h
        by_cases hdata : data = poolDomain
        · subst hdata
          exact .flagged ⟨rfl, hpc⟩ hclear (Function.update_self _ _ _)
        · exact .same (Function.update_of_ne hdata _ _)
      next =>
        cases h
        exact .same rfl
  | writeZero index poolDomain =>
      simp only [watchdogNext, hpc] at h
      split at h
      next => cases h
      next current hslot =>
        cases h
        by_cases hdata : data = current
        · subst hdata
          exact .zeroed index poolDomain ⟨rfl, hpc⟩ hslot (Function.update_self _ _ _)
        · exact .same (Function.update_of_ne hdata _ _)
  | replaceSlot index | ensureSlot =>
      simp only [watchdogNext, hpc] at h
      cases h
      exact .of_renewed (heap_renewSlot s.pool _ data)
  | creating index ensuring stage =>
      obtain ⟨next, left, pc, hnext, rfl, -⟩ := watchdogNext_creating hpc h
      refine createStep_dataStep hnext ?_ ?_ data
      · rfl
      · rfl
  | _ =>
      simp only [watchdogNext, hpc] at h
      repeat' split at h
      all_goals cases h
      all_goals exact .same rfl

theorem submitterNext_dataStep {call : Nat} {submitter : Submitter}
    (h : s.submitterNext call submitter = .ok s') (data : DataRef) : DataStep s a s' data := by
  cases hpc : submitter.pc with
  | fillSlots =>
      obtain ⟨pc, rfl, -⟩ := submitterNext_fillSlots hpc h
      exact .of_renewed (heap_fillSlots s.pool data)
  | creating index stage =>
      obtain rfl | ⟨next, left, pc, hnext, rfl, -⟩ := submitterNext_creating hpc h
      · exact .same rfl
      · refine createStep_dataStep hnext ?_ ?_ data
        · rfl
        · rfl
  | returned | threw =>
      simp only [submitterNext, hpc] at h
      cases h
  | _ =>
      simp only [submitterNext, hpc] at h
      split at h
      all_goals cases h
      all_goals exact .same rfl

theorem OtherStep.dataStep (h : OtherStep s a s') (data : DataRef) : DataStep s a s' data := by
  cases h with
  | watchdog _ hnext => exact watchdogNext_dataStep hnext data
  | submitter call submitter _ hsubmitter hnext => exact submitterNext_dataStep hnext data
  | interrupted | submit | foreignAbort | host | tick => exact .same rfl

/-- An object gets a thread only when the thread is created. -/
theorem DataStep.mainThread_cases {data : DataRef} {t : ThreadId} (h : DataStep s a s' data)
    (ht : (s'.pool.heap data).mainThread = some t) :
    (s.pool.heap data).mainThread = some t ∨
      (t = s.threads ∧ ∃ index, s'.workers =
        (s.setWorker s.threads (Worker.created s.threads index data)).workers) := by
  cases h with
  | same hheap =>
      rw [hheap] at ht
      exact Or.inl ht
  | fresh hnew hheap =>
      rw [hheap] at ht
      cases ht
  | mainThread index hheap hworkers =>
      rw [hheap] at ht
      cases ht
      exact Or.inr ⟨rfl, index, hworkers⟩
  | flagged hpc hclear hheap =>
      rw [hheap] at ht
      exact Or.inl ht
  | zeroed index poolDomain hpc hslot hheap =>
      rw [hheap] at ht
      exact Or.inl ht

/-- What a step that no worker takes puts into a slot is new. -/
theorem OtherStep.slot_cases (h : OtherStep s a s') {index : Nat} {data : DataRef}
    (hdata : s'.pool.poolDomains index = some data) :
    s.pool.poolDomains index = some data ∨ s.pool.allocated ≤ data := by
  cases h.slotStep with
  | quiet hslots | create c i d hslots =>
      rw [hslots] at hdata
      exact Or.inl hdata
  | renew renewed hpc hpool =>
      rw [hpool] at hdata
      by_cases heq : index = renewed
      · rw [heq, DomainPool.poolDomains_renewSlot_self] at hdata
        cases hdata
        exact Or.inr le_rfl
      · rw [DomainPool.poolDomains_renewSlot_of_ne _ heq] at hdata
        exact Or.inl hdata
  | fill call hpool =>
      rw [hpool] at hdata
      have hrefilled := (DomainPool.refilled_fillSlots s.pool).1
      by_cases hempty : s.pool.poolDomains index = none ∧ index < s.pool.numberOfDomainsInPool
      · obtain ⟨new, hnew, hge, -⟩ := hrefilled.fresh index hempty.2 hempty.1
        rw [hdata] at hnew
        cases hnew
        exact Or.inr hge
      · rw [not_and_or, not_lt] at hempty
        rw [hrefilled.kept index hempty] at hdata
        exact Or.inl hdata
  | read c i hpool =>
      rw [hpool] at hdata
      exact Or.inl hdata

/-- The thread an object names has that object. -/
def MainThreads (s : PoolSystem) : Prop :=
  ∀ data t, (s.pool.heap data).mainThread = some t →
    ∃ w, s.workers t = some w ∧ w.myPoolDomain = data

theorem mainThreads_step (hnumbered : Numbered s) (hs : MainThreads s) (h : s.step a = .ok s') :
    MainThreads s' := by
  intro data t ht
  obtain ⟨u, v, p, v', hv, hmove, rfl⟩ | hother := step_ok h
  · obtain ⟨w, hw, hdata⟩ := hs data t ((hmove.mainThread data).symm.trans ht)
    by_cases heq : t = u
    · subst heq
      rw [hv] at hw
      cases hw
      exact ⟨v', Function.update_self _ _ _, hmove.frame.myPoolDomain.trans hdata⟩
    · exact ⟨w, (Function.update_of_ne heq _ _).trans hw, hdata⟩
  · obtain hold | ⟨rfl, index, hworkers⟩ := (hother.dataStep data).mainThread_cases ht
    · obtain ⟨w, hw, hdata⟩ := hs data t hold
      obtain ⟨w', hw', hpassive⟩ :=
        hother.frame.forward hw (hnumbered.threads t w hw).1.ne
      exact ⟨w', hw', (passive_myPoolDomain hpassive).trans hdata⟩
    · refine ⟨Worker.created s.threads index data, ?_, rfl⟩
      rw [hworkers]
      exact Function.update_self _ _ _

theorem mainThreads_initial (numberOfDomainsInPool : Nat) :
    MainThreads (initial numberOfDomainsInPool) := by
  intro data t ht
  simp only [initial] at ht ⊢
  split at ht
  next hlt =>
    cases ht
    exact ⟨_, if_pos hlt, rfl⟩
  next => cases ht

/-- An object that does not exist yet names no thread. -/
theorem mainThread_of_unallocated (hobjects : Objects s) (hs : MainThreads s) {data : DataRef}
    (hnew : s.pool.allocated ≤ data) : (s.pool.heap data).mainThread = none := by
  cases hmain : (s.pool.heap data).mainThread with
  | none => rfl
  | some t =>
      obtain ⟨w, hw, rfl⟩ := hs data t hmain
      exact absurd (hobjects.workers t w hw) (not_lt.mpr hnew)

end PoolSystem

end HostedPumpkin
