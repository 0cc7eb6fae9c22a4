import HostedPumpkin.Pool.DataSteps

/-!
The start of a run, while there is none. A worker writes `timeOfSubmission` before
it runs a snippet and clears it behind it, at the end of the inner try block; the
catch blocks leave it alone. The watchdog aborts what it finds too old, so a start
that outlives its run is the end of a worker that waits for the next snippet.
-/

namespace HostedPumpkin

open Runs

/-- The statements of the loop at which no snippet is being executed. -/
def WorkerPc.idle : WorkerPc → Bool
  | .loopHead | .resetAborting | .resetCounters | .take | .taken | .incrementUsages
  | .recordStart | .writeStart | .getThreadCount | .getMemoryUsage | .decide | .deliver
  | .recycleCheck | .collect | .recycle .loop _ => true
  | _ => false

/-- No snippet is being executed any more: that of a catch block is over. -/
def WorkerPc.settled : WorkerPc → Bool
  | .catchAbort _ | .catchException _ => true
  | pc => pc.idle

/-- The slot whose thread the watchdog has found too old and not aborted yet. -/
def WatchdogPc.expiredSlot : WatchdogPc → Option Nat
  | .reportTimeout index _ | .writeZero index _ | .abortTimeout index _ => some index
  | _ => none

/-- The object whose start the watchdog is about to read, and its slot. -/
def WatchdogPc.startToRead : WatchdogPc → Option (Nat × DataRef)
  | .readStart index poolDomain => some (index, poolDomain)
  | _ => none

theorem WorkerPc.settled_of_idle {pc : WorkerPc} (h : pc.idle = true) : pc.settled = true := by
  cases pc <;> first | rfl | exact h

namespace Worker

variable {p p' : DomainPool} {w w' : Worker}

/-- How a worker comes to be settled. -/
theorem Moves.settled {t : ThreadId} {a : PoolAction} (h : Moves t a p p' w w')
    (hsettled : w'.pc.settled = true) :
    w.pc.settled = true ∨
      (a = .worker t .next ∧ (w.pc = .setDomainId ∨ w.pc = .clearStart)) ∨
      ((∃ message, a = .worker t (.throws message) ∨ a = .worker t (.aborted message)) ∧
        w.pc.region = .innerTry) := by
  have hgoes := h.goes
  generalize w.pc = pc at hgoes ⊢
  generalize w'.pc = pc' at hgoes hsettled
  cases hgoes with
  | next hnext =>
      cases hnext with
      | entered => exact Or.inr (Or.inl ⟨rfl, Or.inl rfl⟩)
      | cleared => exact Or.inr (Or.inl ⟨rfl, Or.inr rfl⟩)
      | recycling caller | recycled caller =>
          cases caller with
          | loop => exact Or.inl rfl
          | outerCatch => cases hsettled
      | counted | completed | nothingLeft | started | timed | notRegistered => cases hsettled
      | _ => exact Or.inl rfl
  | caught input _ _ hinput hregion =>
      obtain ⟨message, rfl | rfl⟩ := hinput
      · exact Or.inr (Or.inr ⟨⟨message, Or.inl rfl⟩, hregion⟩)
      · exact Or.inr (Or.inr ⟨⟨message, Or.inr rfl⟩, hregion⟩)
  | sandbox | finished | outer | dead => cases hsettled

theorem Passive.settled {timeout : Prop} (h : Passive timeout w w')
    (hsettled : w'.pc.settled = true) : w.pc.settled = true := by
  obtain hpc | hpc := h.pc_cases
  · rwa [hpc] at hsettled
  · rw [hpc] at hsettled
    cases hsettled

end Worker

namespace PoolSystem

/-- The start in the object is that of a run over the threshold, by the clock the
watchdog has read. -/
def TooOld (s : PoolSystem) (data : DataRef) : Prop :=
  (s.pool.heap data).timeOfSubmission > 0 ∧
    s.watchdog.currentTime - (s.pool.heap data).timeOfSubmission > runningThreshold

instance (s : PoolSystem) (data : DataRef) : Decidable (s.TooOld data) :=
  inferInstanceAs (Decidable (_ ∧ _))

/-- The thread the watchdog is on its way to abort. -/
def target (s : PoolSystem) : Option ThreadId :=
  s.watchdog.pc.expiredSlot.bind (fun index =>
    (s.pool.poolDomains index).bind (fun data => (s.pool.heap data).mainThread))

/-- Away from its runs a worker has no start, and the watchdog's
`Abort(timeoutAbortToken)` goes to no such worker. -/
structure IdleSpared (s : PoolSystem) : Prop where
  zero : ∀ t w, s.workers t = some w → w.pc.idle = true →
    (s.pool.heap w.myPoolDomain).timeOfSubmission = 0
  spared : ∀ t w, s.AbortsForTimeout (.watchdog .next) t → s.workers t = some w →
    w.pc.idle = false

/-- A run ends by an exception or an abort only when the watchdog has cleared its
start and aborted it, and by itself only while the watchdog is not on its way to abort
it. No two workers share an object of which one begins a run while the other has
none, a worker enters its loop with an object without a start, and what the watchdog
finds too old is still in its slot. -/
def EndsCleared (s : PoolSystem) : PoolAction → Prop
  | .worker t .next => ∀ w ∈ s.workers t,
      (w.pc = .setDomainId → (s.pool.heap w.myPoolDomain).timeOfSubmission = 0 ∧
        s.target ≠ some t) ∧
      (w.pc = .clearStart → s.target ≠ some t) ∧
      (w.pc = .writeStart → ∀ u, u < s.threads → u ≠ t → ∀ v ∈ s.workers u,
        v.pc.settled = true → v.myPoolDomain ≠ w.myPoolDomain)
  | .worker t (.throws _) | .worker t (.aborted _) => ∀ w ∈ s.workers t,
      w.pc.region = .innerTry →
        (s.pool.heap w.myPoolDomain).timeOfSubmission = 0 ∧ s.target ≠ some t
  | .watchdog .next => ∀ read ∈ s.watchdog.pc.startToRead, s.TooOld read.2 →
      ∀ data ∈ s.pool.poolDomains read.1, data = read.2
  | _ => True

instance (s : PoolSystem) : (a : PoolAction) → Decidable (s.EndsCleared a)
  | .worker t .next =>
      inferInstanceAs (Decidable (∀ w ∈ s.workers t,
        (w.pc = .setDomainId → (s.pool.heap w.myPoolDomain).timeOfSubmission = 0 ∧
          s.target ≠ some t) ∧
        (w.pc = .clearStart → s.target ≠ some t) ∧
        (w.pc = .writeStart → ∀ u, u < s.threads → u ≠ t → ∀ v ∈ s.workers u,
          v.pc.settled = true → v.myPoolDomain ≠ w.myPoolDomain)))
  | .worker t (.throws _) | .worker t (.aborted _) =>
      inferInstanceAs (Decidable (∀ w ∈ s.workers t, w.pc.region = .innerTry →
        (s.pool.heap w.myPoolDomain).timeOfSubmission = 0 ∧ s.target ≠ some t))
  | .watchdog .next =>
      inferInstanceAs (Decidable (∀ read ∈ s.watchdog.pc.startToRead, s.TooOld read.2 →
        ∀ data ∈ s.pool.poolDomains read.1, data = read.2))
  | .watchdog .interrupted | .worker _ (.sandbox _) | .worker _ (.finished _) | .rudeAbort _
  | .submit _ | .submitter _ | .foreignAbort _ | .settle _ | .host _ | .tick _ => isTrue trivial

variable {s s' : PoolSystem} {a : PoolAction}

theorem target_eq_some {t : ThreadId} :
    s.target = some t ↔ ∃ index data, s.watchdog.pc.expiredSlot = some index ∧
      s.pool.poolDomains index = some data ∧ (s.pool.heap data).mainThread = some t := by
  simp only [target, Option.bind_eq_some_iff]
  constructor
  · rintro ⟨index, hindex, data, hdata, hthread⟩
    exact ⟨index, data, hindex, hdata, hthread⟩
  · rintro ⟨index, data, hindex, hdata, hthread⟩
    exact ⟨index, hindex, data, hdata, hthread⟩

/-- The watchdog is on its way to an abort since it found a start too old. -/
theorem expiredSlot_step (h : OtherStep s a s') {index : Nat}
    (hslot : s'.watchdog.pc.expiredSlot = some index) :
    s.watchdog.pc.expiredSlot = some index ∨
      (a = .watchdog .next ∧ ∃ poolDomain, s.watchdog.pc = .readStart index poolDomain ∧
        s.TooOld poolDomain) := by
  cases h with
  | watchdog _ hnext =>
      have hgoes := watchdogNext_goes hnext
      generalize s.watchdog.pc = pc at hgoes ⊢
      generalize s'.watchdog = watchdog at hgoes hslot
      cases hgoes with
      | tooOld i poolDomain hold =>
          cases hslot
          exact Or.inr ⟨rfl, poolDomain, rfl, hold⟩
      | reported | cleared => exact Or.inl hslot
      | _ => cases hslot
  | interrupted => cases hslot
  | submitter call submitter _ hsubmitter hnext =>
      rw [(submitterNext_sameEvents hnext).2.2] at hslot
      exact Or.inl hslot
  | submit | foreignAbort | host | tick => exact Or.inl hslot

/-- A step of a worker brings no other thread in front of the watchdog. -/
theorem target_of_moves (h : WorkerMoves s a s') {t : ThreadId} (ht : s'.target = some t) :
    s.target = some t := by
  obtain ⟨u, v, p, v', hv, hmove, rfl⟩ := h
  obtain ⟨index, data, hindex, hdata, hthread⟩ := target_eq_some.mp ht
  refine target_eq_some.mpr ⟨index, data, hindex, ?_, (hmove.mainThread data).symm.trans hthread⟩
  change p.poolDomains index = some data at hdata
  obtain ⟨hslots, -⟩ | ⟨-, -, hslots, -⟩ := moves_slotsAfter hmove
  · rwa [hslots] at hdata
  · rw [hslots] at hdata
    by_cases heq : index = v.threadIndex
    · rw [heq, Function.update_self] at hdata
      cases hdata
    · rwa [Function.update_of_ne heq] at hdata

/-- Every other step does so only when it creates the thread, or when the watchdog
finds a start too old. -/
theorem target_of_other (hobjects : Objects s) (hmain : MainThreads s) (h : OtherStep s a s')
    {t : ThreadId} (ht : s'.target = some t) :
    s.target = some t ∨
      (t = s.threads ∧ ∃ index data, s'.workers =
        (s.setWorker s.threads (Worker.created s.threads index data)).workers) ∨
      (a = .watchdog .next ∧ ∃ index poolDomain data,
        s.watchdog.pc = .readStart index poolDomain ∧ s.TooOld poolDomain ∧
          s.pool.poolDomains index = some data ∧
          (s.pool.heap data).mainThread = some t) := by
  obtain ⟨index, data, hindex, hdata, hthread⟩ := target_eq_some.mp ht
  obtain hsame | ⟨hnew, i, hworkers⟩ := (h.dataStep data).mainThread_cases hthread
  · obtain hslot | hfresh := h.slot_cases hdata
    · obtain hpc | ⟨hnext, poolDomain, hpc, hold⟩ := expiredSlot_step h hindex
      · exact Or.inl (target_eq_some.mpr ⟨index, data, hpc, hslot, hsame⟩)
      · exact Or.inr (Or.inr ⟨hnext, index, poolDomain, data, hpc, hold, hslot, hsame⟩)
    · rw [mainThread_of_unallocated hobjects hmain hfresh] at hsame
      cases hsame
  · exact Or.inr (Or.inl ⟨hnew, i, data, hworkers⟩)

/-- What the watchdog goes by and what the workers do agree. -/
structure IdleInvariant (s : PoolSystem) : Prop where
  numbered : Numbered s
  objects : Objects s
  mainThreads : MainThreads s
  zero : ∀ t w, s.workers t = some w → w.pc.settled = true →
    (s.pool.heap w.myPoolDomain).timeOfSubmission = 0
  spared : ∀ t w, s.target = some t → s.workers t = some w → w.pc.settled = false

theorem IdleInvariant.idleSpared (hs : IdleInvariant s) : IdleSpared s := by
  refine ⟨fun t w hw hidle => hs.zero t w hw (WorkerPc.settled_of_idle hidle), ?_⟩
  rintro t w ⟨-, index, poolDomain, data, hpc, hdata, hthread⟩ hw
  have htarget : s.target = some t :=
    target_eq_some.mpr ⟨index, data, by rw [hpc]; rfl, hdata, hthread⟩
  have hsettled := hs.spared t w htarget hw
  by_contra hidle
  rw [WorkerPc.settled_of_idle (Bool.eq_true_of_not_eq_false hidle)] at hsettled
  cases hsettled

/-- A worker that settles has no start, and the watchdog is not on its way to it. -/
theorem EndsCleared.of_moves {t : ThreadId} {p : DomainPool} {w w' : Worker}
    (hcond : s.EndsCleared a) (hw : s.workers t = some w) (h : Worker.Moves t a s.pool p w w')
    (hsettled : w'.pc.settled = true) (hbefore : w.pc.settled = false) :
    (p.heap w.myPoolDomain).timeOfSubmission = 0 ∧ s.target ≠ some t := by
  obtain hold | ⟨rfl, hpc⟩ | ⟨⟨message, hinput⟩, hregion⟩ := h.settled hsettled
  · rw [hbefore] at hold
    cases hold
  · obtain ⟨henters, hclears, -⟩ := hcond w hw
    obtain hpc | hpc := hpc
    · obtain hsame | ⟨-, hstarts, -⟩ | ⟨-, hclear, -⟩ := h.ownData.time
      · rw [hsame]
        exact henters hpc
      · rw [hpc] at hstarts
        cases hstarts
      · rw [hpc] at hclear
        cases hclear
    · exact ⟨h.clears hpc, hclears hpc⟩
  · have hcleared : (s.pool.heap w.myPoolDomain).timeOfSubmission = 0 ∧ s.target ≠ some t := by
      obtain rfl | rfl := hinput
      · exact hcond w hw hregion
      · exact hcond w hw hregion
    have hthrown : a ≠ .worker t .next := by
      obtain rfl | rfl := hinput
      · exact fun heq => by cases heq
      · exact fun heq => by cases heq
    obtain hsame | ⟨hgoes, -⟩ | ⟨hgoes, -⟩ := h.ownData.time
    · rw [hsame]
      exact hcleared
    · exact absurd hgoes hthrown
    · exact absurd hgoes hthrown

theorem zero_step (hs : IdleInvariant s) (hcond : s.EndsCleared a) (h : s.step a = .ok s') :
    ∀ t w, s'.workers t = some w → w.pc.settled = true →
      (s'.pool.heap w.myPoolDomain).timeOfSubmission = 0 := by
  intro t w' hw' hsettled
  obtain ⟨u, v, p, v', hv, hmove, rfl⟩ | hother := step_ok h
  · change (p.heap w'.myPoolDomain).timeOfSubmission = 0
    obtain ⟨rfl, rfl⟩ | ⟨hne, hw⟩ := workers_setWorker hw'
    · rw [hmove.frame.myPoolDomain]
      by_cases hbefore : v.pc.settled = true
      · have hzero := hs.zero t v hv hbefore
        obtain hsame | ⟨-, -, hrunning⟩ | ⟨-, -, -, hcleared⟩ := hmove.ownData.time
        · rw [hsame, hzero]
        · rw [hrunning] at hsettled
          cases hsettled
        · exact hcleared
      · exact (hcond.of_moves hv hmove hsettled (Bool.eq_false_iff.mpr hbefore)).1
    · have hzero := hs.zero t w' hw hsettled
      by_cases hshared : w'.myPoolDomain = v.myPoolDomain
      · rw [hshared] at hzero ⊢
        obtain hsame | ⟨rfl, hstarts, -⟩ | ⟨-, -, -, hcleared⟩ := hmove.ownData.time
        · rw [hsame, hzero]
        · exact absurd hshared ((hcond v hv).2.2 hstarts t (hs.numbered.threads t w' hw).1 hne
            w' hw hsettled)
        · exact hcleared
      · rw [hmove.frame.otherData _ hshared, hzero]
  · obtain ⟨w, hw, hpassive⟩ | ⟨-, -, index, data, rfl⟩ :=
      hother.frame.workers.origin t w' hw'
    · have hzero := hs.zero t w hw (hpassive.settled hsettled)
      rw [passive_myPoolDomain hpassive]
      cases hother.dataStep w.myPoolDomain with
      | same hheap => rw [hheap, hzero]
      | fresh hnew hheap => rw [hheap]
      | mainThread index hheap hworkers =>
          rw [hheap]
          exact hzero
      | flagged hpc hclear hheap =>
          rw [hheap]
          exact hzero
      | zeroed index poolDomain hpc hslot hheap => rw [hheap]
    · cases hsettled

theorem spared_step (hs : IdleInvariant s) (hcond : s.EndsCleared a) (h : s.step a = .ok s') :
    ∀ t w, s'.target = some t → s'.workers t = some w → w.pc.settled = false := by
  intro t w' ht hw'
  rw [Bool.eq_false_iff]
  intro hsettled
  obtain hmoves | hother := step_ok h
  · have htarget := target_of_moves hmoves ht
    obtain ⟨u, v, p, v', hv, hmove, rfl⟩ := hmoves
    obtain ⟨rfl, rfl⟩ | ⟨-, hw⟩ := workers_setWorker hw'
    · exact (hcond.of_moves hv hmove hsettled (hs.spared t v htarget hv)).2 htarget
    · rw [hs.spared t w' htarget hw] at hsettled
      cases hsettled
  · obtain ⟨w, hw, hpassive⟩ | ⟨-, -, index, data, rfl⟩ :=
      hother.frame.workers.origin t w' hw'
    · have hbefore := hpassive.settled hsettled
      obtain htarget | ⟨hnew, -⟩ | ⟨rfl, index, poolDomain, data, hpc, hold, hdata, hthread⟩ :=
        target_of_other hs.objects hs.mainThreads hother ht
      · rw [hs.spared t w htarget hw] at hbefore
        cases hbefore
      · exact absurd hnew (hs.numbered.threads t w hw).1.ne
      · -- the thread of what is too old is in its run
        have hslot : data = poolDomain :=
          hcond (index, poolDomain) (by rw [hpc]; rfl) hold data hdata
        obtain ⟨owner, howner, hown⟩ := hs.mainThreads data t hthread
        rw [hw] at howner
        cases howner
        have hzero := hs.zero t w hw hbefore
        rw [hown, hslot] at hzero
        exact absurd hold.1 (by omega)
    · cases hsettled

theorem idleInvariant_step (hs : IdleInvariant s) (hcond : s.EndsCleared a)
    (h : s.step a = .ok s') : IdleInvariant s' :=
  ⟨numbered_step hs.numbered h, objects_step hs.objects h,
    mainThreads_step hs.numbered hs.mainThreads h, zero_step hs hcond h, spared_step hs hcond h⟩

theorem idleInvariant_initial (numberOfDomainsInPool : Nat) :
    IdleInvariant (initial numberOfDomainsInPool) := by
  refine ⟨numbered_initial _, objects_initial _, mainThreads_initial _, ?_, ?_⟩
  · intro t w hw hsettled
    obtain ⟨-, rfl⟩ := initial_workers hw
    cases hsettled
  · intro t w ht
    cases ht

/-- No worker is aborted for the start of a run that is over, and none is left, in
every run in which the runs end with their starts cleared. -/
theorem idle_workers_spared (numberOfDomainsInPool : Nat) (actions : List PoolAction)
    (hcleared : Meets step EndsCleared (initial numberOfDomainsInPool) actions) :
    Always step IdleSpared (initial numberOfDomainsInPool) actions := by
  have hinvariant : Always step IdleInvariant (initial numberOfDomainsInPool) actions :=
    always_of_meets (fun _ _ _ hs hcond h => idleInvariant_step hs hcond h)
      (idleInvariant_initial numberOfDomainsInPool) hcleared
  exact hinvariant.imp (fun _ => IdleInvariant.idleSpared)

/-- The only worker runs a snippet for four seconds, and the watchdog goes through an
iteration. -/
def fourSeconds : List PoolAction :=
  .tick 1 :: firstWorkerReady ++ submitted 0 ++ goesOn 0 5 ++
    .tick 4000 :: List.replicate 8 (.watchdog .next)

/-- The run ends by the timeout abort, and the next one by itself. -/
theorem idle_workers_spared_endless :
    let actions := fourSeconds ++ submitted 1 ++
      .worker 0 (.aborted "Thread was being aborted.") :: goesOn 0 15 ++
      .worker 0 (.finished .success) :: goesOn 0 11
    Always step IdleSpared (initial 1) actions ∧
      Reaches step (fun s => ∃ w ∈ s.workers 0, w.pc = .take) (initial 1) actions :=
  ⟨idle_workers_spared 1 _ (by decide +kernel), by decide +kernel⟩

/-- A run that thread exhaustion ends. Its worker goes on to `Take`. -/
def exhaustedThenIdle : List PoolAction :=
  .tick 1 :: firstWorkerReady ++ submitted 0 ++ goesOn 0 5 ++
    .host (.postHostMessage HostEventType.outOfTasks 2 0) ::
    List.replicate 5 (.watchdog .next) ++
    .worker 0 (.aborted "Thread was being aborted.") :: goesOn 0 10

/-- The catch block has left the start alone, and four seconds later the worker is
aborted for it. -/
theorem idle_worker_aborted :
    Reaches step (fun s => ∃ w ∈ s.workers 0, w.pc = .take ∧ w.abortRequested = some .timeout)
        (initial 1) (exhaustedThenIdle ++ .tick 4000 :: List.replicate 9 (.watchdog .next)) ∧
      ¬ ∀ numberOfDomainsInPool actions,
        Always step IdleSpared (initial numberOfDomainsInPool) actions := by
  refine ⟨by decide, ?_⟩
  intro hall
  have hrun : Reaches step (fun s => ∃ w ∈ s.workers 0, w.pc.idle = true ∧
      (s.pool.heap w.myPoolDomain).timeOfSubmission ≠ 0) (initial 1) exhaustedThenIdle := by decide
  obtain ⟨s, hrun, w, hw, hidle, hstart⟩ := reaches_iff.mp hrun
  exact hstart (((hall 1 _).last hrun).zero 0 w hw hidle)

end PoolSystem

end HostedPumpkin
