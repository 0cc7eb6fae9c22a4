import HostedPumpkin.Pool.Slots

/-!
Empty slots. The watchdog looks at a slot under the lock and reads the array again
without it, `CreateDomainThread` reads the slot that was filled for it, and
`RecycleDomain` reads the slot it is about to empty. What these statements find is
null exactly when the slot was emptied since the thread last saw to it, or when
`RecycleDomain` is called for a slot that is empty.
-/

namespace HostedPumpkin

open Runs

/-- The slot whose contents the watchdog's next statement reads a field of. -/
def WatchdogPc.dereferences : WatchdogPc → Option Nat
  | .reportTimeout index _ | .writeZero index _ | .abortTimeout index _ => some index
  | _ => none

/-- The worker's next statement reads `poolDomains[index].domainId` and empties the
slot. -/
def WorkerPc.clearsSlot : WorkerPc → Bool
  | .recycle _ .clearSlot => true
  | _ => false

/-- The worker's next statement is the decrement before that one. -/
def WorkerPc.takesItselfOut : WorkerPc → Bool
  | .recycle _ .decrementThreads => true
  | _ => false

namespace PoolSystem

/-- The action is a statement that reads a field through a slot it finds null, or
through what it found in a slot that was null. -/
def DereferencesNull (s : PoolSystem) : PoolAction → Prop
  | .watchdog .next =>
      (∃ index, s.watchdog.pc.dereferences = some index ∧ s.pool.poolDomains index = none) ∨
        ∃ index, s.creation .watchdog = some (index, .setMainThread none)
  | .submitter call => ∃ index, s.creation (.submitter call) = some (index, .setMainThread none)
  | .worker thread .next => ∃ w, s.workers thread = some w ∧ w.pc.clearsSlot = true ∧
      s.pool.poolDomains w.threadIndex = none
  | _ => False

/-- No statement that is next dereferences null. -/
def NoNullSlot (s : PoolSystem) : Prop := ∀ a, ¬ s.DereferencesNull a

/-- The watchdog finds that the snippet has run for too long. -/
def timedOut (s : PoolSystem) (poolDomain : DataRef) : Bool :=
  (s.pool.heap poolDomain).timeOfSubmission > 0 &&
    s.watchdog.currentTime - (s.pool.heap poolDomain).timeOfSubmission > runningThreshold

/-- The condition on a statement of a worker: `RecycleDomain` goes on to a slot that is
not empty, and empties it while no other thread is about to read it. -/
def WorkerKeepsSlots (s : PoolSystem) (thread : ThreadId) (w : Worker) : Prop :=
  (w.pc.takesItselfOut = true → s.pool.poolDomains w.threadIndex ≠ none) ∧
    (w.pc.clearsSlot = true →
      s.watchdog.pc.dereferences ≠ some w.threadIndex ∧
        ∀ u < s.threads, ∀ v ∈ s.workers u, u ≠ thread → v.pc.clearsSlot = true →
          v.threadIndex ≠ w.threadIndex)

instance (s : PoolSystem) (thread : ThreadId) (w : Worker) :
    Decidable (s.WorkerKeepsSlots thread w) :=
  inferInstanceAs (Decidable (_ ∧ (_ → _ ∧ ∀ u < s.threads, ∀ v ∈ s.workers u, u ≠ thread →
    v.pc.clearsSlot = true → v.threadIndex ≠ w.threadIndex)))

/-- The condition on a statement of the watchdog: a snippet that has run for too long
still has its slot, and a thread is created for a slot that is still filled. -/
def WatchdogKeepsSlots (s : PoolSystem) : Prop :=
  match s.watchdog.pc with
  | .readStart index poolDomain =>
      s.timedOut poolDomain = true → s.pool.poolDomains index ≠ none
  | .creating index _ .readSlot => s.pool.poolDomains index ≠ none
  | _ => True

instance (s : PoolSystem) : Decidable s.WatchdogKeepsSlots := by
  unfold WatchdogKeepsSlots
  split <;> infer_instance

/-- The same for a call of `SubmitSnippet`. -/
def SubmitterKeepsSlots (s : PoolSystem) (submitter : Submitter) : Prop :=
  match submitter.pc with
  | .creating index .readSlot => s.pool.poolDomains index ≠ none
  | _ => True

instance (s : PoolSystem) (submitter : Submitter) :
    Decidable (s.SubmitterKeepsSlots submitter) := by
  unfold SubmitterKeepsSlots
  split <;> infer_instance

/-- The condition on a step. -/
def KeepsSlots (s : PoolSystem) : PoolAction → Prop
  | .worker thread .next => ∀ w ∈ s.workers thread, s.WorkerKeepsSlots thread w
  | .watchdog .next => s.WatchdogKeepsSlots
  | .submitter call => ∀ submitter ∈ s.submitters call, s.SubmitterKeepsSlots submitter
  | _ => True

instance (s : PoolSystem) : (a : PoolAction) → Decidable (s.KeepsSlots a)
  | .worker thread .next =>
      inferInstanceAs (Decidable (∀ w ∈ s.workers thread, s.WorkerKeepsSlots thread w))
  | .watchdog .next => inferInstanceAs (Decidable s.WatchdogKeepsSlots)
  | .submitter call =>
      inferInstanceAs (Decidable (∀ submitter ∈ s.submitters call,
        s.SubmitterKeepsSlots submitter))
  | .watchdog .interrupted | .worker _ (.throws _) | .worker _ (.aborted _)
  | .worker _ (.sandbox _) | .worker _ (.finished _) | .rudeAbort _ | .submit _
  | .foreignAbort _ | .settle _ | .host _ | .tick _ => isTrue trivial

/-- `NoNullSlot`, thread by thread. -/
structure SlotsReady (s : PoolSystem) : Prop where
  watchdog : ∀ index, s.watchdog.pc.dereferences = some index → s.pool.poolDomains index ≠ none
  creations : ∀ c index, s.creation c ≠ some (index, .setMainThread none)
  workers : ∀ t w, s.workers t = some w → w.pc.clearsSlot = true →
    s.pool.poolDomains w.threadIndex ≠ none

variable {s s' : PoolSystem}

theorem noNullSlot_iff : s.NoNullSlot ↔ s.SlotsReady := by
  constructor
  · intro h
    refine ⟨?_, ?_, ?_⟩
    · intro index hindex hnone
      exact h (.watchdog .next) (Or.inl ⟨index, hindex, hnone⟩)
    · intro c index hc
      cases c with
      | watchdog => exact h (.watchdog .next) (Or.inr ⟨index, hc⟩)
      | submitter call => exact h (.submitter call) ⟨index, hc⟩
    · intro t w hw hclears hnone
      exact h (.worker t .next) ⟨w, hw, hclears, hnone⟩
  · intro h a hnull
    cases a with
    | watchdog input =>
        cases input with
        | next =>
            obtain ⟨index, hindex, hnone⟩ | ⟨index, hc⟩ := hnull
            · exact h.watchdog index hindex hnone
            · exact h.creations .watchdog index hc
        | interrupted => exact hnull
    | submitter call =>
        obtain ⟨index, hc⟩ := hnull
        exact h.creations (.submitter call) index hc
    | worker t input =>
        cases input with
        | next =>
            obtain ⟨w, hw, hclears, hnone⟩ := hnull
            exact h.workers t w hw hclears hnone
        | sandbox | finished | throws | aborted => exact hnull
    | submit | foreignAbort | rudeAbort | settle | host | tick => exact hnull

/-! What each step does to the slots, and who gets to a statement that reads one. -/

theorem passive_clearsSlot {timeout : Prop} {w w' : Worker} (h : Worker.Passive timeout w w')
    (hclears : w'.pc.clearsSlot = true) :
    w.pc.clearsSlot = true ∧ w'.threadIndex = w.threadIndex := by
  obtain ⟨request, rfl⟩ | ⟨hpc, rfl⟩ := h.eq_cases
  · exact ⟨hclears, rfl⟩
  · cases hclears

/-- A step that no worker takes empties no slot and brings no worker to one. -/
theorem SlotStep.keepsSlots {a : PoolAction} (h : SlotStep s a s') :
    (∀ index, s.pool.poolDomains index ≠ none → s'.pool.poolDomains index ≠ none) ∧
      ∀ t w', s'.workers t = some w' → w'.pc.clearsSlot = true →
        ∃ w, s.workers t = some w ∧ w.pc.clearsSlot = true ∧ w'.threadIndex = w.threadIndex := by
  have hsame : s'.workers = s.workers → ∀ t w', s'.workers t = some w' →
      w'.pc.clearsSlot = true → ∃ w, s.workers t = some w ∧ w.pc.clearsSlot = true ∧
        w'.threadIndex = w.threadIndex := by
    intro hworkers t w' hw' hclears
    exact ⟨w', hworkers ▸ hw', hclears, rfl⟩
  cases h with
  | quiet hslots hallocated hcreation hworkers =>
      refine ⟨fun index hsome => by rwa [hslots], ?_⟩
      intro t w' hw' hclears
      obtain ⟨w, hw, hpassive⟩ := hworkers t w' hw'
      exact ⟨w, hw, passive_clearsSlot hpassive hclears⟩
  | renew index hpc hpool hself hothers hworkers =>
      refine ⟨?_, hsame hworkers⟩
      intro other hsome
      rw [hpool]
      by_cases heq : other = index
      · rw [heq, DomainPool.poolDomains_renewSlot_self]
        exact fun hnone => by cases hnone
      · rwa [DomainPool.poolDomains_renewSlot_of_ne _ heq]
  | fill call hpool hself hothers hworkers =>
      refine ⟨?_, hsame hworkers⟩
      intro index hsome
      rw [hpool, (DomainPool.filled_fillSlots s.pool).kept index hsome]
      exact hsome
  | read c index hpool hstage hself hothers hworkers =>
      exact ⟨fun index hsome => by rwa [hpool], hsame hworkers⟩
  | create c index data hslots hallocated hstage hself hothers hworkers =>
      refine ⟨fun index hsome => by rwa [hslots], ?_⟩
      intro t w' hw' hclears
      rw [hworkers] at hw'
      obtain ⟨-, rfl⟩ | ⟨-, hw⟩ := workers_setWorker hw'
      · cases hclears
      · exact ⟨w', hw, hclears, rfl⟩

/-- A creation gets null from a slot it reads empty. -/
theorem SlotStep.creation_null {a : PoolAction} (h : SlotStep s a s') {c : Creator} {index : Nat}
    (hc : s'.creation c = some (index, .setMainThread none)) :
    s.creation c = some (index, .setMainThread none) ∨
      (s.creation c = some (index, .readSlot) ∧ s.pool.poolDomains index = none) := by
  cases h with
  | quiet hslots hallocated hcreation hworkers => exact Or.inl (hcreation c _ hc)
  | renew i hpc hpool hself hothers hworkers =>
      by_cases heq : c = .watchdog
      · rw [heq, hself] at hc
        cases hc
      · exact Or.inl (hothers c heq ▸ hc)
  | fill call hpool hself hothers hworkers =>
      by_cases heq : c = .submitter call
      · rw [heq, hself] at hc
        obtain ⟨last, -, hlast⟩ := Option.map_eq_some_iff.mp hc
        cases hlast
      · exact Or.inl (hothers c heq ▸ hc)
  | read c' i hpool hstage hself hothers hworkers =>
      by_cases heq : c = c'
      · rw [heq, hself] at hc
        simp only [Option.some.injEq, Prod.mk.injEq, CreateStage.setMainThread.injEq] at hc
        obtain ⟨rfl, hnone⟩ := hc
        exact Or.inr ⟨heq ▸ hstage, hnone⟩
      · exact Or.inl (hothers c heq ▸ hc)
  | create c' i data hslots hallocated hstage hself hothers hworkers =>
      by_cases heq : c = c'
      · rw [heq, hself] at hc
        cases hc
      · exact Or.inl (hothers c heq ▸ hc)

theorem SlotsReady.workers_step {a : PoolAction} (hs : SlotsReady s) (h : SlotStep s a s') (t : ThreadId)
    (w' : Worker) (hw' : s'.workers t = some w') (hclears : w'.pc.clearsSlot = true) :
    s'.pool.poolDomains w'.threadIndex ≠ none := by
  obtain ⟨hslots, hworkers⟩ := h.keepsSlots
  obtain ⟨w, hw, hclears, hindex⟩ := hworkers t w' hw' hclears
  rw [hindex]
  exact hslots _ (hs.workers t w hw hclears)

/-! The watchdog. -/

/-- The watchdog gets to a slot it reads without the lock from a timeout. -/
theorem watchdogNext_dereferences (h : s.watchdogNext = .ok s') {index : Nat}
    (hindex : s'.watchdog.pc.dereferences = some index) :
    s.watchdog.pc.dereferences = some index ∨
      ∃ poolDomain, s.watchdog.pc = .readStart index poolDomain ∧ s.timedOut poolDomain = true := by
  have hgoes := watchdogNext_goes h
  generalize s.watchdog.pc = pc at hgoes ⊢
  generalize s'.watchdog = watchdog at hgoes hindex
  cases hgoes with
  | tooOld i poolDomain hold =>
      cases hindex
      exact Or.inr ⟨poolDomain, rfl, by simpa [timedOut] using hold⟩
  | reported | cleared => exact Or.inl hindex
  | _ => cases hindex

theorem pc_of_watchdog_creation {index : Nat} {stage : CreateStage}
    (h : s.creation .watchdog = some (index, stage)) :
    ∃ ensuring, s.watchdog.pc = .creating index ensuring stage := by
  simp only [creation] at h
  split at h
  next hpc =>
    cases h
    exact ⟨_, hpc⟩
  next => cases h

theorem watchdog_keeps_iff (hs : SlotsReady s) :
    s.WatchdogKeepsSlots ↔ ∀ s', s.watchdogNext = .ok s' → SlotsReady s' := by
  constructor
  · intro hcond s' h
    have hslot := watchdogNext_slotStep h
    refine ⟨?_, ?_, hs.workers_step hslot⟩
    · intro index hindex
      apply hslot.keepsSlots.1
      obtain hindex | ⟨poolDomain, hpc, htimeout⟩ := watchdogNext_dereferences h hindex
      · exact hs.watchdog index hindex
      · simp only [WatchdogKeepsSlots, hpc] at hcond
        exact hcond htimeout
    · intro c index hc
      cases c with
      | submitter call =>
          have hsame := creation_submitter_of_same (watchdogNext_samePool h).2.submitters
            (.submitter call) (fun heq => by cases heq)
          exact hs.creations (.submitter call) index (hsame ▸ hc)
      | watchdog =>
          obtain hold | ⟨hread, hnone⟩ := hslot.creation_null hc
          · exact hs.creations .watchdog index hold
          · obtain ⟨ensuring, hpc⟩ := pc_of_watchdog_creation hread
            simp only [WatchdogKeepsSlots, hpc] at hcond
            exact hcond hnone
  · intro hnext
    unfold WatchdogKeepsSlots
    split
    next index poolDomain hpc =>
      intro htimeout
      have hstep : s.watchdogNext = .ok ({ s with watchdog := { s.watchdog with
          snippetStartTime := (s.pool.heap poolDomain).timeOfSubmission } }.setWatchdog
            (.reportTimeout index poolDomain)) := by
        simp only [watchdogNext, hpc]
        exact if_pos (by simpa [timedOut] using htimeout)
      exact (hnext _ hstep).watchdog index rfl
    next index ensuring hpc =>
      intro hnone
      have hstep : s.watchdogNext =
          .ok (s.setWatchdog (.creating index ensuring (.setMainThread none))) := by
        simp only [watchdogNext, hpc, createStep, hnone]
      exact (hnext _ hstep).creations .watchdog index rfl
    next => trivial

/-! A call of `SubmitSnippet`. -/

theorem submitterNext_others {call : Nat} {submitter : Submitter}
    (h : s.submitterNext call submitter = .ok s') :
    s'.watchdog = s.watchdog ∧ ∀ c, c ≠ .submitter call → s'.creation c = s.creation c := by
  refine ⟨(submitterNext_sameEvents h).2.2, ?_⟩
  cases hpc : submitter.pc with
  | creating index stage =>
      obtain rfl | ⟨next, left, pc, hnext, rfl, -⟩ := submitterNext_creating hpc h
      · exact creation_setSubmitter_of_ne rfl rfl
      · exact creation_setSubmitter_of_ne (createStep_sameEvents hnext).2.2
          (createStep_sameCalls hnext).submitters
  | fillSlots | readCount | store | add =>
      simp only [submitterNext, hpc] at h
      split at h
      all_goals cases h
      all_goals exact creation_setSubmitter_of_ne rfl rfl
  | returned | threw =>
      simp only [submitterNext, hpc] at h
      cases h

theorem submitter_keeps_iff (hs : SlotsReady s) {call : Nat} {submitter : Submitter}
    (hsubmitter : s.submitters call = some submitter) :
    s.SubmitterKeepsSlots submitter ↔
      ∀ s', s.submitterNext call submitter = .ok s' → SlotsReady s' := by
  constructor
  · intro hcond s' h
    have hslot := submitterNext_slotStep hsubmitter h (.submitter call)
    obtain ⟨hwatchdog, hothers⟩ := submitterNext_others h
    refine ⟨?_, ?_, hs.workers_step hslot⟩
    · intro index hindex
      apply hslot.keepsSlots.1
      rw [hwatchdog] at hindex
      exact hs.watchdog index hindex
    · intro c index hc
      by_cases heq : c = .submitter call
      · obtain hold | ⟨hread, hnone⟩ := hslot.creation_null hc
        · exact hs.creations c index hold
        · rw [heq] at hread
          simp only [creation, hsubmitter, Option.map_some] at hread
          unfold SubmitterKeepsSlots at hcond
          split at hread
          next hpc =>
            cases hread
            simp only [Option.some.injEq] at hpc
            rw [hpc] at hcond
            exact hcond hnone
          next => cases hread
      · exact hs.creations c index (hothers c heq ▸ hc)
  · intro hnext
    unfold SubmitterKeepsSlots
    split
    next index hpc =>
      intro hnone
      have hstep : s.submitterNext call submitter = .ok (s.setSubmitter call
          { submitter with pc := .creating index (.setMainThread none) }) := by
        simp only [submitterNext, hpc, createStep, hnone]
      exact (hnext _ hstep).creations (.submitter call) index
        (creation_setSubmitter_self s call _)
    next => trivial

/-! The workers. -/

theorem eq_recycle_of_takesItselfOut {pc : WorkerPc} (h : pc.takesItselfOut = true) :
    ∃ caller, pc = .recycle caller .decrementThreads := by
  cases pc with
  | recycle caller stage => cases stage <;> first | exact ⟨caller, rfl⟩ | cases h
  | _ => cases h

theorem eq_recycle_of_clearsSlot {pc : WorkerPc} (h : pc.clearsSlot = true) :
    ∃ caller, pc = .recycle caller .clearSlot := by
  cases pc with
  | recycle caller stage => cases stage <;> first | exact ⟨caller, rfl⟩ | cases h
  | _ => cases h

/-- A worker gets to the statement that empties its slot from the decrement. -/
theorem moves_clearsSlot {t : ThreadId} {a : PoolAction} {p p' : DomainPool} {w w' : Worker}
    (h : Worker.Moves t a p p' w w') (hclears : w'.pc.clearsSlot = true) :
    a = .worker t .next ∧ ∃ caller, w.pc = .recycle caller .decrementThreads := by
  have hgoes := h.goes
  generalize w.pc = pc at hgoes ⊢
  generalize w'.pc = pc' at hgoes hclears
  cases hgoes with
  | next hnext =>
      refine ⟨rfl, ?_⟩
      cases hnext with
      | recycling caller stage stage' hstage =>
          obtain ⟨_, heq⟩ := eq_recycle_of_clearsSlot hclears
          cases heq
          exact ⟨caller, by rw [hstage rfl]⟩
      | recycled caller => cases caller <;> cases hclears
      | _ => cases hclears
  | caught _ _ _ _ _ hcatch =>
      obtain ⟨message, rfl | rfl⟩ := hcatch
      all_goals cases hclears
  | sandbox | finished | outer | dead => cases hclears

/-- The step of a worker keeps what the others are about to read. -/
theorem SlotsReady.of_moves {a : PoolAction} (hnumbered : Numbered s) (hs : SlotsReady s)
    (hcond : s.KeepsSlots a) (h : WorkerMoves s a s') : SlotsReady s' := by
  obtain ⟨t, w, p, w', hw, hmove, rfl⟩ := h
  obtain ⟨hslots, -⟩ | ⟨rfl, ⟨caller, hpc⟩, hslots, -⟩ := moves_slotsAfter hmove
  · refine ⟨?_, hs.creations, ?_⟩
    · intro index hindex
      exact (congrFun hslots index).symm ▸ hs.watchdog index hindex
    · intro u v hv hclears
      change p.poolDomains v.threadIndex ≠ none
      rw [hslots]
      obtain ⟨rfl, rfl⟩ | ⟨-, hv⟩ := workers_setWorker hv
      · obtain ⟨rfl, caller, hpc⟩ := moves_clearsSlot hmove hclears
        rw [hmove.frame.threadIndex]
        exact (hcond w hw).1 (by rw [hpc]; rfl)
      · exact hs.workers u v hv hclears
  · obtain ⟨hwatchdog, hworkers⟩ := (hcond w hw).2 (by rw [hpc]; rfl)
    refine ⟨?_, hs.creations, ?_⟩
    · intro index hindex
      change p.poolDomains index ≠ none
      have hne : index ≠ w.threadIndex := fun heq => hwatchdog (heq ▸ hindex)
      rw [hslots, Function.update_of_ne hne]
      exact hs.watchdog index hindex
    · intro u v hv hclears
      change p.poolDomains v.threadIndex ≠ none
      obtain ⟨rfl, rfl⟩ | ⟨hne, hv⟩ := workers_setWorker hv
      · obtain ⟨-, other, hother⟩ := moves_clearsSlot hmove hclears
        rw [hpc] at hother
        cases hother
      · have hindex := hworkers u (hnumbered.threads u v hv).1 v hv hne hclears
        rw [hslots, Function.update_of_ne hindex]
        exact hs.workers u v hv hclears

theorem worker_keeps_iff (hnumbered : Numbered s) (hs : SlotsReady s) {t : ThreadId} {w : Worker}
    (hw : s.workers t = some w) :
    s.WorkerKeepsSlots t w ↔ ∀ s', s.step (.worker t .next) = .ok s' → SlotsReady s' := by
  constructor
  · intro hcond s' h
    have hkeeps : s.KeepsSlots (.worker t .next) := by
      intro v hv
      cases Option.some.inj (hw.symm.trans hv)
      exact hcond
    obtain hmoves | hother := step_ok h
    · exact hs.of_moves hnumbered hkeeps hmoves
    · cases hother
  · intro hready
    refine ⟨?_, ?_⟩
    · intro htakes
      obtain ⟨caller, hpc⟩ := eq_recycle_of_takesItselfOut htakes
      let pool : DomainPool :=
        { s.pool with numberOfThreadsInPool := s.pool.numberOfThreadsInPool - 1 }
      let next : Worker := { w with pc := .recycle caller .clearSlot }
      have hstep : s.step (.worker t .next) = .ok ({ s with pool }.setWorker t next) := by
        simp only [step, withWorker, hw, Worker.step, Worker.next, hpc, Worker.recycleStep]
        rfl
      have hnext : ({ s with pool }.setWorker t next).workers t = some next :=
        Function.update_self _ _ _
      exact (hready _ hstep).workers t next hnext rfl
    · intro hclears
      obtain ⟨data, hdata⟩ := Option.ne_none_iff_exists'.mp (hs.workers t w hw hclears)
      obtain ⟨caller, hpc⟩ := eq_recycle_of_clearsSlot hclears
      let pool : DomainPool := s.pool.setSlot w.threadIndex none
      let next : Worker := { w with
        pc := .recycle caller .unloadDomain
        recycledId := (s.pool.heap data).domainId
        slotCleared := true }
      have hstep : s.step (.worker t .next) = .ok ({ s with pool }.setWorker t next) := by
        simp only [step, withWorker, hw, Worker.step, Worker.next, hpc, Worker.recycleStep, hdata]
        rfl
      have hready := hready _ hstep
      have hempty : (s.pool.setSlot w.threadIndex none).poolDomains w.threadIndex = none :=
        Function.update_self _ _ _
      constructor
      · intro hindex
        exact hready.watchdog _ hindex hempty
      · intro u _ v hv hne hclears hindex
        have hv' : ({ s with pool }.setWorker t next).workers u = some v :=
          (Function.update_of_ne hne _ _).trans hv
        apply hready.workers u v hv' hclears
        rw [hindex]
        exact hempty

/-! Every step. -/

/-- The steps that neither read a slot nor empty one. -/
theorem SlotsReady.of_quiet {a : PoolAction} (hs : SlotsReady s) (hslot : SlotStep s a s')
    (hwatchdog : s'.watchdog = s.watchdog ∨ s'.watchdog.pc = .loopHead)
    (hcreation : ∀ c x, s'.creation c = some x → s.creation c = some x) : SlotsReady s' := by
  refine ⟨?_, ?_, hs.workers_step hslot⟩
  · intro index hindex
    apply hslot.keepsSlots.1
    obtain hsame | hhead := hwatchdog
    · exact hs.watchdog index (hsame ▸ hindex)
    · rw [hhead] at hindex
      cases hindex
  · intro c index hc
    exact hs.creations c index (hcreation c _ hc)

/-- A step whose condition holds keeps the slots, if it is the step of a worker or
does so anyway. -/
theorem SlotsReady.step {a : PoolAction} (hnumbered : Numbered s) (hs : SlotsReady s)
    (hcond : s.KeepsSlots a) (hother : ∀ s', OtherStep s a s' → SlotsReady s') :
    ∀ s', s.step a = .ok s' → SlotsReady s' := by
  intro s' h
  obtain hworker | hstep := step_ok h
  · exact hs.of_moves hnumbered hcond hworker
  · exact hother s' hstep

theorem step_keeps_iff (hnumbered : Numbered s) (hs : SlotsReady s) (a : PoolAction) :
    s.KeepsSlots a ↔ ∀ s', s.step a = .ok s' → SlotsReady s' := by
  cases a with
  | watchdog input =>
      cases input with
      | next => exact watchdog_keeps_iff hs
      | interrupted =>
          refine ⟨fun _ => hs.step hnumbered trivial ?_, fun _ => trivial⟩
          intro s' hother
          have hslot := hother.slotStep
          cases hother
          refine hs.of_quiet hslot (Or.inr rfl) ?_
          intro c x hc
          cases c with
          | watchdog => cases hc
          | submitter call => exact hc
  | submitter call =>
      constructor
      · intro hcond
        refine hs.step hnumbered hcond ?_
        intro s' hother
        cases hother with
        | submitter _ submitter _ hsubmitter hnext =>
            exact (submitter_keeps_iff hs hsubmitter).mp (hcond submitter hsubmitter) s' hnext
      · intro hready submitter hsubmitter
        have hstep : s.step (.submitter call) = s.submitterNext call submitter := by
          simp only [PoolSystem.step, Option.mem_def.mp hsubmitter]
        rw [hstep] at hready
        exact (submitter_keeps_iff hs hsubmitter).mpr hready
  | worker t input =>
      cases input with
      | next =>
          refine ⟨fun hcond => hs.step hnumbered hcond (fun _ hother => by cases hother), ?_⟩
          intro hready w hw
          exact (worker_keeps_iff hnumbered hs hw).mpr hready
      | sandbox | finished | throws | aborted =>
          exact ⟨fun _ => hs.step hnumbered trivial (fun _ hother => by cases hother),
            fun _ => trivial⟩
  | rudeAbort t | settle t =>
      exact ⟨fun _ => hs.step hnumbered trivial (fun _ hother => by cases hother),
        fun _ => trivial⟩
  | submit withCompletion =>
      refine ⟨fun _ => hs.step hnumbered trivial ?_, fun _ => trivial⟩
      intro s' hother
      have hslot := hother.slotStep
      cases hother with
      | submit _ id hid =>
          refine hs.of_quiet hslot (Or.inl rfl) ?_
          intro c x hc
          by_cases heq : c = .submitter s.calls
          · rw [heq] at hc
            cases hc.symm.trans (creation_setSubmitter_self s s.calls _)
          · exact (creation_setSubmitter_of_ne rfl rfl c heq).symm.trans hc
  | foreignAbort t | host op | tick millis =>
      refine ⟨fun _ => hs.step hnumbered trivial ?_, fun _ => trivial⟩
      intro s' hother
      have hslot := hother.slotStep
      cases hother
      exact hs.of_quiet hslot (Or.inl rfl) (fun _ _ hc => hc)

theorem slotsReady_initial (numberOfDomainsInPool : Nat) :
    SlotsReady (initial numberOfDomainsInPool) := by
  refine ⟨?_, ?_, ?_⟩
  · intro index hindex
    cases hindex
  · intro c index hc
    cases c <;> cases hc
  · intro t w hw hclears
    obtain ⟨-, rfl⟩ := initial_workers hw
    cases hclears

/-- No statement of a run dereferences an empty slot if and only if no slot is emptied
under a thread that is about to read it, and none is empty when the watchdog decides on
a timeout, `CreateDomainThread` reads the slot filled for it or `RecycleDomain` goes on
to it. -/
theorem no_null_slot_iff (numberOfDomainsInPool : Nat) (actions : List PoolAction) :
    Always step NoNullSlot (initial numberOfDomainsInPool) actions ↔
      Meets step KeepsSlots (initial numberOfDomainsInPool) actions := by
  have hnumbered : Always step Numbered (initial numberOfDomainsInPool) actions :=
    always_of_step (fun _ _ _ hs h => numbered_step hs h) (numbered_initial _) actions
  have hexact : ∀ s a, Numbered s ∧ SlotsReady s → (s.KeepsSlots a ↔
      ∀ next, s.step a = .ok next → Numbered next ∧ SlotsReady next) := by
    rintro s a ⟨hnum, hs⟩
    rw [step_keeps_iff hnum hs a]
    constructor
    · intro hready next h
      exact ⟨numbered_step hnum h, hready next h⟩
    · intro hready next h
      exact (hready next h).2
  have hready : Always step SlotsReady (initial numberOfDomainsInPool) actions ↔
      Meets step KeepsSlots (initial numberOfDomainsInPool) actions := by
    rw [← always_iff_meets hexact ⟨numbered_initial _, slotsReady_initial _⟩]
    constructor
    · exact fun h => hnumbered.and h
    · exact fun h => h.imp (fun _ hs => hs.2)
  rw [← hready]
  constructor
  · exact fun h => h.imp (fun _ => noNullSlot_iff.mp)
  · exact fun h => h.imp (fun _ => noNullSlot_iff.mpr)

/-- A snippet has run for four seconds, and the watchdog has just found that out when
the worker is aborted by someone else and empties its slot. -/
def timeoutRace : List PoolAction :=
  .tick 1 :: firstWorkerReady ++ submitted 0 ++ goesOn 0 5 ++ [.tick 4000] ++
    List.replicate 5 (.watchdog .next) ++ [.foreignAbort 0, .worker 0 (.aborted "aborted")] ++
    goesOn 0 9

/-- A worker recycles its AppDomain after it was aborted. Its loop goes on, and the
unload of the AppDomain aborts the next snippet. -/
def secondRecycle : List PoolAction :=
  firstWorkerReady ++ submitted 0 ++ goesOn 0 4 ++
    [.foreignAbort 0, .worker 0 (.aborted "aborted")] ++ goesOn 0 13 ++
    [.foreignAbort 0, .worker 0 (.aborted "unloaded")] ++ goesOn 0 2

/-- The watchdog reads a slot a worker has emptied, and `RecycleDomain` is called for a
slot that is empty already. Nothing catches what the watchdog throws. -/
theorem null_slots_dereferenced :
    ¬ Always step NoNullSlot (initial 1) timeoutRace ∧
      ¬ Always step NoNullSlot (initial 1) secondRecycle ∧
      ∃ s, run step (initial 1) timeoutRace = .ok s ∧
        s.step (.watchdog .next) = .error .nullReference := by
  have hrace : Reaches step (fun s => s.watchdog.pc = .reportTimeout 0 0 ∧
      s.pool.poolDomains 0 = none) (initial 1) timeoutRace := by decide
  have hsecond : Reaches step (fun s => s.pool.poolDomains 0 = none ∧
      ∃ w ∈ s.workers 0, w.pc = .recycle .outerCatch .clearSlot ∧ w.threadIndex = 0)
      (initial 1) secondRecycle := by decide
  obtain ⟨s, hrun, hpc, hslot⟩ := reaches_iff.mp hrace
  refine ⟨?_, ?_, s, hrun, ?_⟩
  · intro h
    exact h.last hrun (.watchdog .next) (Or.inl ⟨0, by rw [hpc]; rfl, hslot⟩)
  · intro h
    obtain ⟨t, hrun, hslot, w, hw, hpc, hindex⟩ := reaches_iff.mp hsecond
    exact h.last hrun (.worker 0 .next) ⟨w, hw, by rw [hpc]; rfl, by rw [hindex]; exact hslot⟩
  · simp only [step, watchdogNext, hpc, hslot]

end PoolSystem

end HostedPumpkin
