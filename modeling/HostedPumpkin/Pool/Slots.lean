import HostedPumpkin.Pool.Steps

/-!
The slots of the pool, and the threads on the way to them. `CreateDomainThread`
runs on the watchdog or inside `SubmitSnippet`, so a slot can be filled by one
thread, read by another and emptied by a third. What a step does to the slots
and to the creations in progress is said once here.
-/

namespace HostedPumpkin

/-- Who can be inside `CreateDomainThread`. -/
inductive Creator where
  | watchdog
  | submitter (call : Nat)
deriving DecidableEq, Repr

namespace DomainPool

theorem poolDomains_renewSlot_self (p : DomainPool) (index : Nat) :
    (p.renewSlot index).poolDomains index = some p.allocated :=
  Function.update_self _ _ _

theorem poolDomains_renewSlot_of_ne (p : DomainPool) {index other : Nat}
    (h : other ≠ index) : (p.renewSlot index).poolDomains other = p.poolDomains other :=
  Function.update_of_ne h _ _

/-- `p'` is `p` with some of the empty slots filled with new objects, the last of
them being `last`. -/
structure Filled (p p' : DomainPool) (last : Option Nat) : Prop where
  allocated : p.allocated ≤ p'.allocated
  kept : ∀ index, p.poolDomains index ≠ none →
    p'.poolDomains index = p.poolDomains index
  fresh : ∀ index data, p'.poolDomains index = some data →
    p.poolDomains index = some data ∨ (p.poolDomains index = none ∧ data < p'.allocated)
  last : ∀ index, last = some index → index < p.numberOfDomainsInPool ∧
    p.poolDomains index = none ∧ p'.poolDomains index ≠ none

theorem Filled.refl (p : DomainPool) : Filled p p none :=
  ⟨le_rfl, fun _ _ => rfl, fun _ _ h => Or.inl h, fun _ h => by cases h⟩

theorem Filled.renewSlot {p p' : DomainPool} {last : Option Nat} (h : Filled p p' last)
    {index : Nat} (hindex : index < p.numberOfDomainsInPool)
    (hempty : p'.poolDomains index = none) :
    Filled p (p'.renewSlot index) (some index) := by
  have hempty' : p.poolDomains index = none := by
    by_contra hsome
    rw [h.kept index hsome] at hempty
    exact hsome hempty
  refine ⟨h.allocated.trans (Nat.le_succ _), ?_, ?_, ?_⟩
  · intro other hother
    have hne : other ≠ index := fun heq => hother (heq ▸ hempty')
    rw [poolDomains_renewSlot_of_ne p' hne]
    exact h.kept other hother
  · intro other data hdata
    by_cases heq : other = index
    · subst heq
      rw [poolDomains_renewSlot_self] at hdata
      cases hdata
      exact Or.inr ⟨hempty', Nat.lt_succ_self _⟩
    · rw [poolDomains_renewSlot_of_ne p' heq] at hdata
      obtain hold | ⟨hnone, hdata⟩ := h.fresh other data hdata
      · exact Or.inl hold
      · exact Or.inr ⟨hnone, hdata.trans (Nat.lt_succ_self _)⟩
  · intro other heq
    cases heq
    refine ⟨hindex, hempty', ?_⟩
    rw [poolDomains_renewSlot_self]
    simp

theorem filled_fillSlots (p : DomainPool) : Filled p p.fillSlots.1 p.fillSlots.2 := by
  unfold fillSlots
  refine List.foldlRecOn (motive := fun (q : DomainPool × Option Nat) => Filled p q.1 q.2)
    _ _ (Filled.refl p) ?_
  rintro ⟨p', last⟩ h index hindex
  have hindex := List.mem_range.mp hindex
  simp only
  split
  next hempty => exact h.renewSlot hindex (Option.isNone_iff_eq_none.mp hempty)
  next => exact h

end DomainPool

namespace PoolSystem

/-- The creation of a thread in progress: for which slot, and how far it is. -/
def creation (s : PoolSystem) : Creator → Option (Nat × CreateStage)
  | .watchdog =>
      match s.watchdog.pc with
      | .creating index _ stage => some (index, stage)
      | _ => none
  | .submitter call =>
      match (s.submitters call).map Submitter.pc with
      | some (.creating index stage) => some (index, stage)
      | _ => none

/-- No thread is created; running threads are at most started or asked to abort. -/
def OnlyPassive (s s' : PoolSystem) : Prop :=
  ∀ t w', s'.workers t = some w' →
    ∃ w, s.workers t = some w ∧ Worker.Passive True w w'

/-- What a step that no worker takes does to the slots and to the creations in
progress. -/
inductive SlotStep (s : PoolSystem) (a : PoolAction) (s' : PoolSystem) : Prop
  | quiet (hslots : s'.pool.poolDomains = s.pool.poolDomains)
      (hallocated : s'.pool.allocated = s.pool.allocated)
      (hcreation : ∀ c x, s'.creation c = some x → s.creation c = some x)
      (hworkers : OnlyPassive s s')
  | renew (index : Nat)
      (hpc : a = .watchdog .next ∧ (s.watchdog.pc = .replaceSlot index ∨
        s.watchdog.pc = .ensureSlot ∧ index = 0))
      (hpool : s'.pool = s.pool.renewSlot index)
      (hself : s'.creation .watchdog = some (index, .readSlot))
      (hothers : ∀ c, c ≠ .watchdog → s'.creation c = s.creation c)
      (hworkers : s'.workers = s.workers)
  | fill (call : Nat)
      (hpool : s'.pool = s.pool.fillSlots.1)
      (hself : s'.creation (.submitter call) =
        s.pool.fillSlots.2.map (fun index => (index, .readSlot)))
      (hothers : ∀ c, c ≠ .submitter call → s'.creation c = s.creation c)
      (hworkers : s'.workers = s.workers)
  | read (c : Creator) (index : Nat)
      (hpool : s'.pool = s.pool)
      (hstage : s.creation c = some (index, .readSlot))
      (hself : s'.creation c = some (index, .setMainThread (s.pool.poolDomains index)))
      (hothers : ∀ c', c' ≠ c → s'.creation c' = s.creation c')
      (hworkers : s'.workers = s.workers)
  | create (c : Creator) (index : Nat) (data : DataRef)
      (hslots : s'.pool.poolDomains = s.pool.poolDomains)
      (hallocated : s'.pool.allocated = s.pool.allocated)
      (hstage : s.creation c = some (index, .setMainThread (some data)))
      (hself : s'.creation c = some (index, .start s.threads))
      (hothers : ∀ c', c' ≠ c → s'.creation c' = s.creation c')
      (hworkers : s'.workers =
        (s.setWorker s.threads (Worker.created s.threads index data)).workers)

variable {s s' : PoolSystem}

theorem creation_submitter_of_same (h : s'.submitters = s.submitters) (c : Creator)
    (hc : c ≠ .watchdog) : s'.creation c = s.creation c := by
  cases c with
  | watchdog => exact absurd rfl hc
  | submitter call => simp only [creation, h]

/-- A step of one call of `SubmitSnippet` leaves the other creations alone. -/
theorem creation_setSubmitter_of_ne {next : PoolSystem} {call : Nat} {submitter : Submitter}
    (hwatchdog : next.watchdog = s.watchdog) (hsubmitters : next.submitters = s.submitters)
    (c : Creator) (hc : c ≠ .submitter call) :
    (next.setSubmitter call submitter).creation c = s.creation c := by
  cases c with
  | watchdog => simp only [creation, setSubmitter_watchdog, hwatchdog]
  | submitter k =>
      have hk : k ≠ call := fun heq => hc (heq ▸ rfl)
      simp only [creation, setSubmitter, Function.update_of_ne hk, hsubmitters]

theorem creation_setSubmitter_self (next : PoolSystem) (call : Nat) (submitter : Submitter) :
    (next.setSubmitter call submitter).creation (.submitter call) =
      match submitter.pc with
      | .creating index stage => some (index, stage)
      | _ => none := by
  simp only [creation, setSubmitter, Function.update_self, Option.map_some]
  cases submitter.pc <;> rfl

theorem creation_of_creating {call : Nat} {submitter : Submitter} {index : Nat}
    {stage : CreateStage} (h : s.submitters call = some submitter)
    (hpc : submitter.pc = .creating index stage) :
    s.creation (.submitter call) = some (index, stage) := by
  simp [creation, h, hpc]

theorem onlyPassive_of_same (h : s'.workers = s.workers) : OnlyPassive s s' := by
  intro t w' hw'
  rw [h] at hw'
  exact ⟨w', hw', .same w'⟩

theorem onlyPassive_setWorker {thread : ThreadId} {w w' : Worker}
    (hw : s.workers thread = some w) (hpassive : Worker.Passive True w w')
    (h : s'.workers = (s.setWorker thread w').workers) : OnlyPassive s s' := by
  intro t w'' hw''
  rw [h] at hw''
  obtain ⟨rfl, rfl⟩ | ⟨-, hw''⟩ := workers_setWorker hw''
  · exact ⟨w, hw, hpassive⟩
  · exact ⟨w'', hw'', .same w''⟩

theorem quiet_watchdog {a : PoolAction}
    (hpool : s'.pool.poolDomains = s.pool.poolDomains ∧
      s'.pool.allocated = s.pool.allocated)
    (hsubmitters : s'.submitters = s.submitters) (hpc : s'.creation .watchdog = none)
    (hworkers : OnlyPassive s s') : SlotStep s a s' := by
  refine .quiet hpool.1 hpool.2 ?_ hworkers
  intro c x hx
  by_cases hc : c = .watchdog
  · rw [hc, hpc] at hx
    cases hx
  · rw [← creation_submitter_of_same hsubmitters c hc]
    exact hx

theorem quiet_submitter {a : PoolAction} {next : PoolSystem} {call : Nat}
    {submitter : Submitter}
    (hpool : next.pool.poolDomains = s.pool.poolDomains ∧
      next.pool.allocated = s.pool.allocated)
    (hwatchdog : next.watchdog = s.watchdog) (hsubmitters : next.submitters = s.submitters)
    (hpc : ∀ index stage, submitter.pc ≠ .creating index stage)
    (hworkers : OnlyPassive s next) : SlotStep s a (next.setSubmitter call submitter) := by
  refine .quiet hpool.1 hpool.2 ?_ hworkers
  intro c x hx
  by_cases hc : c = .submitter call
  · rw [hc, creation_setSubmitter_self] at hx
    split at hx
    next index stage heq => exact absurd heq (hpc index stage)
    next => cases hx
  · rw [creation_setSubmitter_of_ne hwatchdog hsubmitters c hc] at hx
    exact hx

/-- The last step of a creation starts the thread and touches no slot. -/
theorem createStep_none {index : Nat} {stage : CreateStage}
    (h : s.createStep index stage = .ok (s', none)) :
    s'.pool = s.pool ∧ OnlyPassive s s' := by
  obtain ⟨-, -, hleft⟩ | ⟨data, -, -, hleft⟩ | ⟨thread, w, -, hw, hpc, rfl, -⟩ :=
    createStep_ok h
  · cases hleft
  · cases hleft
  · exact ⟨rfl, onlyPassive_setWorker hw (.start w hpc) rfl⟩

/-- The first two steps of a creation. -/
theorem slotStep_of_createStep {a : PoolAction} {c : Creator} {index : Nat}
    {stage stage' : CreateStage} {next : PoolSystem}
    (hcreate : s.createStep index stage = .ok (next, some stage'))
    (hstage : s.creation c = some (index, stage)) (hpool : s'.pool = next.pool)
    (hself : s'.creation c = some (index, stage'))
    (hothers : ∀ c', c' ≠ c → s'.creation c' = s.creation c')
    (hworkers : s'.workers = next.workers) : SlotStep s a s' := by
  obtain ⟨rfl, hnext, hleft⟩ | ⟨data, rfl, rfl, hleft⟩ | ⟨_, _, _, _, _, _, hleft⟩ :=
    createStep_ok hcreate
  · cases hleft
    rw [hnext] at hpool hworkers
    exact .read c index hpool hstage hself hothers hworkers
  · cases hleft
    refine .create c index data ?_ ?_ hstage hself hothers hworkers
    · rw [hpool]
      rfl
    · rw [hpool]
      rfl
  · cases hleft

theorem watchdogNext_slotStep (h : s.watchdogNext = .ok s') :
    SlotStep s (.watchdog .next) s' := by
  cases hpc : s.watchdog.pc with
  | getMessage =>
      obtain ⟨_, _, -, ⟨-, rfl⟩ | ⟨event, -, rfl⟩⟩ := watchdogNext_getMessage hpc h
      all_goals exact quiet_watchdog ⟨rfl, rfl⟩ rfl rfl (onlyPassive_of_same rfl)
  | abortExausted poolDomain =>
      obtain ⟨thread, w, hw, rfl⟩ := watchdogNext_abortExausted hpc h
      exact quiet_watchdog ⟨rfl, rfl⟩ rfl rfl
        (onlyPassive_setWorker hw (.abort w .threadsExausted fun _ => trivial) rfl)
  | abortTimeout index poolDomain =>
      obtain ⟨thread, w, -, hw, rfl⟩ := watchdogNext_abortTimeout hpc h
      exact quiet_watchdog ⟨rfl, rfl⟩ rfl rfl
        (onlyPassive_setWorker hw (.abort w .timeout fun _ => trivial) rfl)
  | replaceSlot index =>
      simp only [watchdogNext, hpc] at h
      cases h
      exact .renew index ⟨rfl, Or.inl hpc⟩ rfl rfl (creation_submitter_of_same rfl) rfl
  | ensureSlot =>
      simp only [watchdogNext, hpc] at h
      cases h
      exact .renew 0 ⟨rfl, Or.inr ⟨hpc, rfl⟩⟩ rfl rfl (creation_submitter_of_same rfl) rfl
  | creating index ensuring stage =>
      have hstage : s.creation .watchdog = some (index, stage) := by
        simp [creation, hpc]
      obtain ⟨next, left, pc, hnext, rfl, hleft⟩ := watchdogNext_creating hpc h
      have hsubmitters := (createStep_sameCalls hnext).submitters
      obtain ⟨stage', rfl, rfl⟩ | ⟨rfl, hpc'⟩ := hleft
      · exact slotStep_of_createStep hnext hstage rfl rfl
          (creation_submitter_of_same hsubmitters) rfl
      · obtain ⟨hpool, hworkers⟩ := createStep_none hnext
        refine quiet_watchdog ?_ hsubmitters ?_ hworkers
        · rw [setWatchdog_pool, hpool]
          exact ⟨rfl, rfl⟩
        · obtain rfl | rfl := hpc' <;> rfl
  | _ =>
      simp only [watchdogNext, hpc] at h
      repeat' split at h
      all_goals cases h
      all_goals exact quiet_watchdog ⟨rfl, rfl⟩ rfl rfl (onlyPassive_of_same rfl)

theorem submitterNext_slotStep {call : Nat} {submitter : Submitter}
    (hsubmitter : s.submitters call = some submitter)
    (h : s.submitterNext call submitter = .ok s') (a : PoolAction) : SlotStep s a s' := by
  cases hpc : submitter.pc with
  | fillSlots =>
      obtain ⟨pc, rfl, hpc'⟩ := submitterNext_fillSlots hpc h
      refine .fill call rfl ?_ (creation_setSubmitter_of_ne rfl rfl) rfl
      rw [creation_setSubmitter_self]
      obtain ⟨index, hlast, rfl⟩ | ⟨hlast, rfl⟩ := hpc'
      all_goals
        rw [hlast]
        rfl
  | creating index stage =>
      obtain rfl | ⟨next, left, pc, hnext, rfl, ⟨stage', rfl, rfl⟩ | ⟨rfl, rfl⟩⟩ :=
        submitterNext_creating hpc h
      · exact quiet_submitter ⟨rfl, rfl⟩ rfl rfl (fun _ _ heq => by cases heq)
          (onlyPassive_of_same rfl)
      · exact slotStep_of_createStep hnext (creation_of_creating hsubmitter hpc) rfl
          (creation_setSubmitter_self _ _ _)
          (creation_setSubmitter_of_ne (createStep_sameEvents hnext).2.2
            (createStep_sameCalls hnext).submitters) rfl
      · obtain ⟨hpool, hworkers⟩ := createStep_none hnext
        exact quiet_submitter (by rw [hpool]; exact ⟨rfl, rfl⟩) (createStep_sameEvents hnext).2.2
          (createStep_sameCalls hnext).submitters (fun _ _ heq => by cases heq) hworkers
  | returned | threw =>
      simp only [submitterNext, hpc] at h
      cases h
  | _ =>
      simp only [submitterNext, hpc] at h
      split at h
      all_goals cases h
      all_goals
        refine quiet_submitter ?_ ?_ ?_ (fun _ _ heq => by cases heq) (onlyPassive_of_same ?_)
        · exact ⟨rfl, rfl⟩
        all_goals rfl

theorem OtherStep.slotStep {a : PoolAction} (h : OtherStep s a s') : SlotStep s a s' := by
  cases h with
  | watchdog _ hnext => exact watchdogNext_slotStep hnext
  | interrupted hwaits => exact quiet_watchdog ⟨rfl, rfl⟩ rfl rfl (onlyPassive_of_same rfl)
  | submit withCompletion id hid =>
      refine .quiet rfl rfl ?_ (onlyPassive_of_same rfl)
      intro c x hx
      by_cases hc : c = .submitter s.calls
      · rw [hc] at hx
        cases hx.symm.trans (creation_setSubmitter_self s s.calls _)
      · exact (creation_setSubmitter_of_ne rfl rfl c hc).symm.trans hx
  | submitter call submitter _ hsubmitter hnext => exact submitterNext_slotStep hsubmitter hnext _
  | foreignAbort t w hw =>
      exact .quiet rfl rfl (fun _ _ hx => hx)
        (onlyPassive_setWorker hw (.abort w .other fun _ => trivial) rfl)
  | host | tick => exact .quiet rfl rfl (fun _ _ hx => hx) (onlyPassive_of_same rfl)

/-- Every step is the step of a worker, or one of these. -/
theorem step_slotStep {a : PoolAction} (h : s.step a = .ok s') :
    WorkerMoves s a s' ∨ SlotStep s a s' := by
  obtain hmoves | hother := step_ok h
  · exact Or.inl hmoves
  · exact Or.inr hother.slotStep

/-- Every object that a slot, a creation or a worker refers to exists. -/
structure Objects (s : PoolSystem) : Prop where
  slots : ∀ index data, s.pool.poolDomains index = some data → data < s.pool.allocated
  creations : ∀ c index data,
    s.creation c = some (index, .setMainThread (some data)) → data < s.pool.allocated
  workers : ∀ t w, s.workers t = some w → w.myPoolDomain < s.pool.allocated

theorem passive_myPoolDomain {timeout : Prop} {w w' : Worker}
    (h : Worker.Passive timeout w w') : w'.myPoolDomain = w.myPoolDomain := by
  obtain ⟨request, rfl⟩ | ⟨-, rfl⟩ := h.eq_cases
  · rfl
  · rfl

/-- The two ways a step of a worker can treat the slots: leave them alone, or
empty its own, for which it has to go on. -/
def SlotsAfter (goesOn : Prop) (p p' : DomainPool) (w w' : Worker) : Prop :=
  (p'.poolDomains = p.poolDomains ∧ w'.slotCleared = w.slotCleared) ∨
    (goesOn ∧ (∃ caller, w.pc = .recycle caller .clearSlot) ∧
      p'.poolDomains = Function.update p.poolDomains w.threadIndex none ∧
      w'.slotCleared = true)

theorem next_slotsAfter {goesOn : Prop} {p p' : DomainPool} {w w' : Worker} (hnext : goesOn)
    (h : w.next p = .ok (p', w')) : SlotsAfter goesOn p p' w w' := by
  cases hpc : w.pc with
  | recycle caller stage =>
      simp only [Worker.next, hpc] at h
      cases stage with
      | clearSlot =>
          simp only [Worker.recycleStep] at h
          split at h
          all_goals cases h
          exact Or.inr ⟨hnext, ⟨caller, hpc⟩, rfl, rfl⟩
      | checkZombies | joinWatchdog =>
          simp only [Worker.recycleStep] at h
          split at h
          all_goals cases h
          all_goals exact Or.inl ⟨rfl, rfl⟩
      | _ =>
          cases h
          exact Or.inl ⟨rfl, rfl⟩
  | _ =>
      simp only [Worker.next, hpc] at h
      repeat' split at h
      all_goals cases h
      all_goals exact Or.inl ⟨rfl, rfl⟩

theorem moves_slotsAfter {t : ThreadId} {a : PoolAction} {p p' : DomainPool}
    {w w' : Worker} (h : Worker.Moves t a p p' w w') :
    SlotsAfter (a = .worker t .next) p p' w w' := by
  obtain ⟨input, rfl, h⟩ | ⟨rfl, h⟩ | ⟨rfl, h⟩ := h
  · cases input with
    | next => exact next_slotsAfter rfl h
    | _ =>
        simp only [Worker.step, Worker.throwException, Worker.raiseAbort] at h
        split at h
        all_goals cases h
        all_goals exact Or.inl ⟨rfl, rfl⟩
  · obtain ⟨-, rfl, rfl⟩ := Worker.dieRudely_ok h
    exact Or.inl ⟨rfl, rfl⟩
  · obtain ⟨-, rfl, rfl⟩ := Worker.settle_ok h
    exact Or.inl ⟨rfl, rfl⟩

theorem Objects.of_moves {a : PoolAction} (hs : Objects s) (h : WorkerMoves s a s') :
    Objects s' := by
  obtain ⟨t, w, p, w', hw, hmove, rfl⟩ := h
  have hallocated : p.allocated = s.pool.allocated := hmove.frame.allocated
  refine ⟨?_, ?_, ?_⟩
  · intro index data hdata
    change data < p.allocated
    rw [hallocated]
    obtain ⟨hslots, -⟩ | ⟨-, -, hslots, -⟩ := moves_slotsAfter hmove
    · exact hs.slots index data (hslots ▸ hdata)
    · change p.poolDomains index = some data at hdata
      rw [hslots] at hdata
      by_cases hindex : index = w.threadIndex
      · rw [hindex, Function.update_self] at hdata
        cases hdata
      · rw [Function.update_of_ne hindex] at hdata
        exact hs.slots index data hdata
  · intro c index data hc
    change data < p.allocated
    rw [hallocated]
    exact hs.creations c index data hc
  · intro u v hv
    change v.myPoolDomain < p.allocated
    rw [hallocated]
    obtain ⟨rfl, rfl⟩ | ⟨-, hv⟩ := workers_setWorker hv
    · rw [hmove.frame.myPoolDomain]
      exact hs.workers u w hw
    · exact hs.workers u v hv

theorem objects_step {a : PoolAction} (hs : Objects s) (h : s.step a = .ok s') :
    Objects s' := by
  obtain hmoves | hslot := step_slotStep h
  · exact hs.of_moves hmoves
  · cases hslot with
    | quiet hslots hallocated hcreation hworkers =>
        refine ⟨?_, ?_, ?_⟩
        all_goals rw [hallocated]
        · rw [hslots]
          exact hs.slots
        · intro c index data hc
          exact hs.creations c index data (hcreation c _ hc)
        · intro t w' hw'
          obtain ⟨w, hw, hpassive⟩ := hworkers t w' hw'
          rw [passive_myPoolDomain hpassive]
          exact hs.workers t w hw
    | renew index hpc hpool hself hothers hworkers =>
        have hle : s.pool.allocated < s'.pool.allocated := by
          rw [hpool]
          exact Nat.lt_succ_self _
        refine ⟨?_, ?_, ?_⟩
        · intro other data hdata
          rw [hpool] at hdata
          by_cases heq : other = index
          · rw [heq, DomainPool.poolDomains_renewSlot_self] at hdata
            cases hdata
            exact hle
          · rw [DomainPool.poolDomains_renewSlot_of_ne _ heq] at hdata
            exact (hs.slots other data hdata).trans hle
        · intro c other data hc
          by_cases heq : c = .watchdog
          · rw [heq, hself] at hc
            cases hc
          · rw [hothers c heq] at hc
            exact (hs.creations c other data hc).trans hle
        · intro t w hw
          rw [hworkers] at hw
          exact (hs.workers t w hw).trans hle
    | fill call hpool hself hothers hworkers =>
        have hfilled := DomainPool.filled_fillSlots s.pool
        rw [← hpool] at hfilled
        refine ⟨?_, ?_, ?_⟩
        · intro index data hdata
          obtain hold | ⟨-, hnew⟩ := hfilled.fresh index data hdata
          · exact (hs.slots index data hold).trans_le hfilled.allocated
          · exact hnew
        · intro c index data hc
          by_cases heq : c = .submitter call
          · rw [heq, hself] at hc
            obtain ⟨last, -, hlast⟩ := Option.map_eq_some_iff.mp hc
            cases hlast
          · rw [hothers c heq] at hc
            exact (hs.creations c index data hc).trans_le hfilled.allocated
        · intro t w hw
          rw [hworkers] at hw
          exact (hs.workers t w hw).trans_le hfilled.allocated
    | read c index hpool hstage hself hothers hworkers =>
        refine ⟨?_, ?_, ?_⟩
        all_goals rw [hpool]
        · exact hs.slots
        · intro c' other data hc'
          by_cases heq : c' = c
          · rw [heq, hself] at hc'
            simp only [Option.some.injEq, Prod.mk.injEq, CreateStage.setMainThread.injEq] at hc'
            exact hs.slots index data hc'.2
          · rw [hothers c' heq] at hc'
            exact hs.creations c' other data hc'
        · rw [hworkers]
          exact hs.workers
    | create c index data hslots hallocated hstage hself hothers hworkers =>
        refine ⟨?_, ?_, ?_⟩
        all_goals rw [hallocated]
        · rw [hslots]
          exact hs.slots
        · intro c' other data' hc'
          by_cases heq : c' = c
          · rw [heq, hself] at hc'
            cases hc'
          · rw [hothers c' heq] at hc'
            exact hs.creations c' other data' hc'
        · intro t w hw
          rw [hworkers] at hw
          obtain ⟨rfl, rfl⟩ | ⟨-, hw⟩ := workers_setWorker hw
          · exact hs.creations c index data hstage
          · exact hs.workers t w hw

theorem objects_initial (numberOfDomainsInPool : Nat) :
    Objects (initial numberOfDomainsInPool) := by
  refine ⟨?_, ?_, ?_⟩
  · intro index data hdata
    simp only [initial] at hdata
    split at hdata
    next hlt =>
      cases hdata
      exact hlt
    next => cases hdata
  · intro c index data hc
    cases c <;> cases hc
  · intro t w hw
    obtain ⟨hlt, rfl⟩ := initial_workers hw
    exact hlt

end PoolSystem

end HostedPumpkin
