import HostedPumpkin.Pool.Slots

/-!
The threads between their creation and their start. `CreateDomainThread` makes a thread and
its caller starts it with its next statement, so a thread that has not been started has one
creator, who is about to start it.
-/

namespace HostedPumpkin

namespace PoolSystem

/-- The statement each worker stands at. -/
def pcs (s : PoolSystem) (t : ThreadId) : Option WorkerPc := (s.workers t).map Worker.pc

/-- The creator is about to call `thread.Start()`. -/
def Starting (s : PoolSystem) (c : Creator) (t : ThreadId) : Prop :=
  ∃ index, s.creation c = some (index, .start t)

/-- The threads that have not been started are those that somebody is about to start. -/
structure ThreadsStarted (s : PoolSystem) : Prop where
  unstarted : ∀ c t, s.Starting c t → s.pcs t = some .unstarted
  starter : ∀ t, s.pcs t = some .unstarted → ∃ c, s.Starting c t
  distinct : ∀ c c' t, s.Starting c t → s.Starting c' t → c = c'

/-- What a step does to the threads that have not been started. -/
inductive StartStep (s s' : PoolSystem) : Prop
  | quiet (hpcs : ∀ t, s'.pcs t = some .unstarted ↔ s.pcs t = some .unstarted)
      (hstarting : ∀ c t, s'.Starting c t ↔ s.Starting c t)
  | create (c : Creator) (hnot : ∀ t, ¬ s.Starting c t)
      (hpcs : s'.pcs = Function.update s.pcs s.threads (some .unstarted))
      (hstarting : ∀ c' t, s'.Starting c' t ↔
        c' = c ∧ t = s.threads ∨ c' ≠ c ∧ s.Starting c' t)
  | start (c : Creator) (t : ThreadId) (hstart : s.Starting c t)
      (hpcs : s'.pcs = Function.update s.pcs t (some .incrementThreads))
      (hstarting : ∀ c' u, s'.Starting c' u ↔ c' ≠ c ∧ s.Starting c' u)

variable {s s' : PoolSystem}

theorem Starting.unique {c : Creator} {t u : ThreadId} (ht : s.Starting c t)
    (hu : s.Starting c u) : t = u := by
  obtain ⟨index, ht⟩ := ht
  obtain ⟨index', hu⟩ := hu
  rw [ht] at hu
  cases hu
  rfl

theorem ThreadsStarted.step (hs : ThreadsStarted s) (hfresh : s.pcs s.threads = none)
    (h : StartStep s s') : ThreadsStarted s' := by
  cases h with
  | quiet hpcs hstarting =>
      refine ⟨?_, ?_, ?_⟩
      · intro c t hstart
        exact (hpcs t).mpr (hs.unstarted c t ((hstarting c t).mp hstart))
      · intro t ht
        obtain ⟨c, hstart⟩ := hs.starter t ((hpcs t).mp ht)
        exact ⟨c, (hstarting c t).mpr hstart⟩
      · intro c c' t hstart hstart'
        exact hs.distinct c c' t ((hstarting c t).mp hstart) ((hstarting c' t).mp hstart')
  | create c hnot hpcs hstarting =>
      have hold : ∀ c', ¬ s.Starting c' s.threads := by
        intro c' hstart
        have hunstarted := hs.unstarted c' _ hstart
        rw [hfresh] at hunstarted
        cases hunstarted
      refine ⟨?_, ?_, ?_⟩
      · intro c' t hstart
        obtain ⟨-, rfl⟩ | ⟨-, hstart⟩ := (hstarting c' t).mp hstart
        · rw [hpcs, Function.update_self]
        · have hne : t ≠ s.threads := by
            rintro rfl
            exact hold c' hstart
          rw [hpcs, Function.update_of_ne hne]
          exact hs.unstarted c' t hstart
      · intro t ht
        by_cases hnew : t = s.threads
        · exact ⟨c, (hstarting c t).mpr (Or.inl ⟨rfl, hnew⟩)⟩
        · rw [hpcs, Function.update_of_ne hnew] at ht
          obtain ⟨c', hstart⟩ := hs.starter t ht
          refine ⟨c', (hstarting c' t).mpr (Or.inr ⟨?_, hstart⟩)⟩
          rintro rfl
          exact hnot t hstart
      · intro c₁ c₂ t h₁ h₂
        obtain ⟨rfl, rfl⟩ | ⟨-, h₁⟩ := (hstarting c₁ t).mp h₁
        · obtain ⟨rfl, -⟩ | ⟨-, h₂⟩ := (hstarting c₂ _).mp h₂
          · rfl
          · exact absurd h₂ (hold c₂)
        · obtain ⟨-, rfl⟩ | ⟨-, h₂⟩ := (hstarting c₂ t).mp h₂
          · exact absurd h₁ (hold c₁)
          · exact hs.distinct c₁ c₂ t h₁ h₂
  | start c t hstart hpcs hstarting =>
      refine ⟨?_, ?_, ?_⟩
      · intro c' u hstart'
        obtain ⟨hne, hold⟩ := (hstarting c' u).mp hstart'
        have hother : u ≠ t := by
          rintro rfl
          exact hne (hs.distinct c' c u hold hstart)
        rw [hpcs, Function.update_of_ne hother]
        exact hs.unstarted c' u hold
      · intro u hu
        have hother : u ≠ t := by
          rintro rfl
          rw [hpcs, Function.update_self] at hu
          cases hu
        rw [hpcs, Function.update_of_ne hother] at hu
        obtain ⟨c', hstart'⟩ := hs.starter u hu
        refine ⟨c', (hstarting c' u).mpr ⟨?_, hstart'⟩⟩
        rintro rfl
        exact hother (hstart'.unique hstart)
      · intro c₁ c₂ u h₁ h₂
        exact hs.distinct c₁ c₂ u ((hstarting c₁ u).mp h₁).2 ((hstarting c₂ u).mp h₂).2

/-! What a step does to them. -/

theorem pcs_setWorker (s : PoolSystem) (t : ThreadId) (w : Worker) :
    (s.setWorker t w).pcs = Function.update s.pcs t (some w.pc) := by
  funext u
  by_cases hu : u = t
  · subst hu
    simp [pcs, setWorker]
  · simp [pcs, setWorker, Function.update_of_ne hu]

theorem pcs_of_same (h : s'.workers = s.workers) : s'.pcs = s.pcs := by
  funext t
  rw [pcs, pcs, h]

/-- A worker that has been started goes on, and so does not concern the creators. -/
theorem unstarted_setWorker {t : ThreadId} {w w' : Worker} (hw : s.workers t = some w)
    (hpc : w'.pc = .unstarted ↔ w.pc = .unstarted) (h : s'.workers = (s.setWorker t w').workers)
    (u : ThreadId) : s'.pcs u = some .unstarted ↔ s.pcs u = some .unstarted := by
  rw [pcs_of_same h, pcs_setWorker]
  by_cases hu : u = t
  · subst hu
    rw [Function.update_self]
    simpa [pcs, hw] using hpc
  · rw [Function.update_of_ne hu]

theorem requestAbort_pc (w : Worker) (token : AbortToken) : (w.requestAbort token).pc = w.pc := by
  obtain ⟨request, hrequest⟩ := Worker.requestAbort_eq w token
  rw [hrequest]

/-- The steps of a creation, for whoever is at it. -/
theorem startStep_of_createStep {c : Creator} {index : Nat} {stage : CreateStage}
    {left : Option CreateStage} {next : PoolSystem} (hstage : s.creation c = some (index, stage))
    (h : s.createStep index stage = .ok (next, left)) (hworkers : s'.workers = next.workers)
    (hself : s'.creation c = left.map (fun stage' => (index, stage')))
    (hothers : ∀ c', c' ≠ c → s'.creation c' = s.creation c') : StartStep s s' := by
  have hother : ∀ c' t, c' ≠ c → (s'.Starting c' t ↔ s.Starting c' t) := by
    intro c' t hc
    rw [Starting, Starting, hothers c' hc]
  obtain ⟨rfl, rfl, rfl⟩ | ⟨data, rfl, rfl, rfl⟩ | ⟨t, w, rfl, hw, hpc, rfl, rfl⟩ := createStep_ok h
  · refine .quiet (fun t => by rw [pcs_of_same hworkers]) ?_
    intro c' t
    by_cases hc : c' = c
    · subst hc
      simp [Starting, hself, hstage]
    · exact hother c' t hc
  · refine .create c ?_ ?_ ?_
    · simp [Starting, hstage]
    · rw [pcs_of_same hworkers]
      exact pcs_setWorker s _ _
    · intro c' t
      by_cases hc : c' = c
      · subst hc
        simp [Starting, hself, eq_comm]
      · simp [hc, hother c' t hc]
  · refine .start c t ⟨index, hstage⟩ ?_ ?_
    · rw [pcs_of_same hworkers]
      exact pcs_setWorker s _ _
    · intro c' u
      by_cases hc : c' = c
      · subst hc
        simp [Starting, hself]
      · simp [hc, hother c' u hc]

/-- Nothing of the kind happens: no creation comes to its last step or leaves it. -/
theorem startStep_quiet (hpcs : ∀ t, s'.pcs t = some .unstarted ↔ s.pcs t = some .unstarted)
    (c : Creator) (hbefore : ∀ t, ¬ s.Starting c t) (hafter : ∀ t, ¬ s'.Starting c t)
    (hothers : ∀ c', c' ≠ c → s'.creation c' = s.creation c') : StartStep s s' := by
  refine .quiet hpcs ?_
  intro c' t
  by_cases hc : c' = c
  · subst hc
    exact iff_of_false (hafter t) (hbefore t)
  · rw [Starting, Starting, hothers c' hc]

theorem not_starting_watchdog (hpc : ∀ index ensuring t,
    s.watchdog.pc ≠ .creating index ensuring (.start t)) (t : ThreadId) :
    ¬ s.Starting .watchdog t := by
  rintro ⟨index, hcreation⟩
  simp only [creation] at hcreation
  split at hcreation
  next index' ensuring stage heq =>
    cases hcreation
    exact hpc _ _ _ heq
  next => cases hcreation

/-- The watchdog comes to the start of a thread from its creation only. -/
theorem WatchdogGoes.not_start {pc : WatchdogPc} {watchdog : Watchdog}
    (h : WatchdogGoes s pc watchdog)
    (hpc : ∀ index ensuring stage, pc ≠ .creating index ensuring stage) (index : Nat)
    (ensuring : Bool) (t : ThreadId) :
    watchdog.pc ≠ .creating index ensuring (.start t) := by
  cases h with
  | creating index' ensuring' stage stage' => exact absurd rfl (hpc index' ensuring' stage)
  | _ => simp

theorem watchdogNext_startStep (h : s.watchdogNext = .ok s') : StartStep s s' := by
  have hgoes := watchdogNext_goes h
  have hsubmitters := (watchdogNext_samePool h).2.submitters
  by_cases hcreating : ∃ index ensuring stage, s.watchdog.pc = .creating index ensuring stage
  · obtain ⟨index, ensuring, stage, hpc⟩ := hcreating
    obtain ⟨next, left, pc, hnext, rfl, hleft⟩ := watchdogNext_creating hpc h
    have hstage : s.creation .watchdog = some (index, stage) := by simp [creation, hpc]
    refine startStep_of_createStep hstage hnext rfl ?_ (creation_submitter_of_same hsubmitters)
    obtain ⟨stage', rfl, rfl⟩ | ⟨rfl, rfl | rfl⟩ := hleft
    all_goals rfl
  · push Not at hcreating
    refine startStep_quiet ?_ .watchdog (not_starting_watchdog (fun index ensuring t =>
      hcreating index ensuring _)) (not_starting_watchdog (hgoes.not_start hcreating))
      (creation_submitter_of_same hsubmitters)
    intro t
    cases hpc : s.watchdog.pc with
    | getMessage =>
        obtain ⟨_, _, -, ⟨-, rfl⟩ | ⟨event, -, rfl⟩⟩ := watchdogNext_getMessage hpc h
        all_goals rfl
    | abortExausted poolDomain =>
        obtain ⟨thread, w, hw, rfl⟩ := watchdogNext_abortExausted hpc h
        exact unstarted_setWorker hw (by rw [requestAbort_pc]) rfl t
    | abortTimeout index poolDomain =>
        obtain ⟨thread, w, -, hw, rfl⟩ := watchdogNext_abortTimeout hpc h
        exact unstarted_setWorker hw (by rw [requestAbort_pc]) rfl t
    | creating index ensuring stage => exact absurd hpc (hcreating index ensuring stage)
    | _ =>
        simp only [watchdogNext, hpc] at h
        repeat' split at h
        all_goals cases h
        all_goals rfl

theorem not_starting_submitter {call : Nat} (hpc : ∀ submitter, s.submitters call = some submitter →
    ∀ index t, submitter.pc ≠ .creating index (.start t)) (t : ThreadId) :
    ¬ s.Starting (.submitter call) t := by
  rintro ⟨index, hcreation⟩
  simp only [creation] at hcreation
  split at hcreation
  next index' stage heq =>
    cases hcreation
    obtain ⟨submitter, hsubmitter, heq⟩ := Option.map_eq_some_iff.mp heq
    exact hpc submitter hsubmitter _ _ heq
  next => cases hcreation

/-- A call that neither comes to the start of a thread nor leaves it. -/
theorem startStep_of_call {next : PoolSystem} {call : Nat} {submitter : Submitter}
    {pc : SubmitterPc} (hsubmitter : s.submitters call = some submitter)
    (hpc : ∀ index t, submitter.pc ≠ .creating index (.start t))
    (hpc' : ∀ index t, pc ≠ .creating index (.start t)) (hwatchdog : next.watchdog = s.watchdog)
    (hsubmitters : next.submitters = s.submitters) (hworkers : next.workers = s.workers) :
    StartStep s (next.setSubmitter call { submitter with pc }) := by
  refine startStep_quiet ?_ (.submitter call) ?_ ?_
    (creation_setSubmitter_of_ne hwatchdog hsubmitters)
  · intro t
    have hsame : (next.setSubmitter call { submitter with pc }).pcs = s.pcs := pcs_of_same hworkers
    rw [hsame]
  · apply not_starting_submitter
    intro found hfound
    rw [hsubmitter] at hfound
    cases hfound
    exact hpc
  · apply not_starting_submitter
    intro found hfound
    rw [setSubmitter_self] at hfound
    cases hfound
    exact hpc'

/-- Who is about to start a thread can do so. -/
theorem createStep_start {c : Creator} {index : Nat} {t : ThreadId} (hs : ThreadsStarted s)
    (hstage : s.creation c = some (index, .start t)) :
    ∃ next, s.createStep index (.start t) = .ok (next, none) := by
  have hpc := hs.unstarted c t ⟨index, hstage⟩
  obtain ⟨w, hw, hunstarted⟩ := Option.map_eq_some_iff.mp hpc
  refine ⟨s.setWorker t { w with pc := .incrementThreads }, ?_⟩
  simp only [createStep, hw, hunstarted, if_true]

theorem submitterNext_startStep (hs : ThreadsStarted s) {call : Nat} {submitter : Submitter}
    (hsubmitter : s.submitters call = some submitter)
    (h : s.submitterNext call submitter = .ok s') : StartStep s s' := by
  cases hpc : submitter.pc with
  | creating index stage =>
      have hstage := creation_of_creating hsubmitter hpc
      have hcreates : ∀ next left, s.createStep index stage = .ok (next, left) →
          ∀ pc, s' = next.setSubmitter call { submitter with pc } →
            ((∃ stage', left = some stage' ∧ pc = .creating index stage') ∨
              (left = none ∧ pc = .store)) → StartStep s s' := by
        rintro next left hnext pc rfl hleft
        refine startStep_of_createStep hstage hnext rfl ?_ (creation_setSubmitter_of_ne
          (createStep_sameEvents hnext).2.2 (createStep_sameCalls hnext).submitters)
        rw [creation_setSubmitter_self]
        obtain ⟨stage', rfl, rfl⟩ | ⟨rfl, rfl⟩ := hleft
        all_goals rfl
      obtain rfl | ⟨next, left, pc, hnext, hsame, hleft⟩ := submitterNext_creating hpc h
      · -- what throws is not the start of the thread
        refine startStep_of_call hsubmitter ?_ (by simp) rfl rfl rfl
        intro index' t heq
        rw [hpc] at heq
        cases heq
        obtain ⟨next, hnext⟩ := createStep_start hs hstage
        simp only [submitterNext, hpc, hnext, Except.ok.injEq] at h
        have hself := congrArg (fun system => system.submitters call) h
        simp [setSubmitter] at hself
      · exact hcreates next left hnext pc hsame hleft
  | fillSlots =>
      obtain ⟨pc, rfl, hpc'⟩ := submitterNext_fillSlots hpc h
      refine startStep_of_call hsubmitter (by simp [hpc]) ?_ rfl rfl rfl
      obtain ⟨index, -, rfl⟩ | ⟨-, rfl⟩ := hpc'
      all_goals simp
  | returned | threw =>
      simp only [submitterNext, hpc] at h
      cases h
  | _ =>
      simp only [submitterNext, hpc] at h
      split at h
      all_goals cases h
      all_goals exact startStep_of_call hsubmitter (by simp [hpc]) (by simp) rfl rfl rfl

theorem OtherStep.startStep {a : PoolAction} (hnumbered : Numbered s) (hs : ThreadsStarted s)
    (h : OtherStep s a s') : StartStep s s' := by
  cases h with
  | watchdog _ hnext => exact watchdogNext_startStep hnext
  | submitter call submitter _ hsubmitter hnext =>
      exact submitterNext_startStep hs hsubmitter hnext
  | interrupted hwaits =>
      refine startStep_quiet (fun t => Iff.rfl) .watchdog (not_starting_watchdog ?_)
        (not_starting_watchdog (by simp [setWatchdog])) (creation_submitter_of_same rfl)
      intro index ensuring t heq
      rw [heq] at hwaits
      cases hwaits.2
  | submit withCompletion id hid =>
      have hothers : ∀ c, c ≠ .submitter s.calls →
          (s.setSubmitter s.calls { snippetInfo := ⟨id⟩, completion := id }).creation c =
            s.creation c := creation_setSubmitter_of_ne rfl rfl
      refine startStep_quiet (fun t => Iff.rfl) (.submitter s.calls) (not_starting_submitter ?_)
        (not_starting_submitter ?_) hothers
      · intro submitter hsubmitter
        exact absurd (hnumbered.calls _ submitter hsubmitter) (lt_irrefl _)
      · intro submitter hsubmitter
        rw [setSubmitter_self] at hsubmitter
        cases hsubmitter
        simp
  | foreignAbort t w hw =>
      exact .quiet (unstarted_setWorker hw (by rw [requestAbort_pc]) rfl) (fun c t => Iff.rfl)
  | host | tick => exact .quiet (fun t => Iff.rfl) (fun c t => Iff.rfl)

theorem moves_unstarted {t : ThreadId} {a : PoolAction} {p p' : DomainPool} {w w' : Worker}
    (h : Worker.Moves t a p p' w w') : w.pc ≠ .unstarted ∧ w'.pc ≠ .unstarted := by
  constructor
  · intro hpc
    obtain ⟨input, -, h⟩ | ⟨-, h⟩ | ⟨-, h⟩ := h
    · cases input with
      | next =>
          simp only [Worker.step, Worker.next, hpc] at h
          cases h
      | sandbox | finished => simp [Worker.step, hpc] at h
      | throws message | aborted message =>
          cases Worker.step_thrown ⟨message, by simp⟩ h with
          | inner pc hregion => simp [hpc, WorkerPc.region] at hregion
          | outer hregion => simp [hpc, WorkerPc.region] at hregion
          | dies hregion => simp [hpc, WorkerPc.region] at hregion
    · obtain ⟨hregion, -⟩ := Worker.dieRudely_ok h
      simp [hpc, WorkerPc.region] at hregion
    · obtain ⟨hended, -⟩ := Worker.settle_ok h
      rw [hpc] at hended
      cases hended
  · intro hpc
    have hgoes := h.goes
    generalize w'.pc = pc' at hgoes hpc
    subst hpc
    generalize w.pc = pc at hgoes
    cases hgoes with
    | next hnext =>
        generalize hafter : WorkerPc.unstarted = after at hnext
        cases hnext with
        | recycled caller => cases caller <;> cases hafter
        | _ => cases hafter
    | caught input _ _ hinput hregion hcatch =>
        obtain ⟨message, heq | heq⟩ := hcatch
        all_goals cases heq

theorem threadsStarted_step {a : PoolAction} (hnumbered : Numbered s) (hs : ThreadsStarted s)
    (h : s.step a = .ok s') : ThreadsStarted s' := by
  have hfresh : s.pcs s.threads = none := by
    cases hw : s.workers s.threads with
    | none => simp [pcs, hw]
    | some w => exact absurd (hnumbered.threads _ w hw).1 (lt_irrefl _)
  refine hs.step hfresh ?_
  obtain ⟨t, w, p, w', hw, hmove, rfl⟩ | hother := step_ok h
  · obtain ⟨hpc, hpc'⟩ := moves_unstarted hmove
    exact .quiet (unstarted_setWorker hw (iff_of_false hpc' hpc) rfl) (fun c u => Iff.rfl)
  · exact hother.startStep hnumbered hs

theorem threadsStarted_initial (numberOfDomainsInPool : Nat) :
    ThreadsStarted (initial numberOfDomainsInPool) := by
  have hnobody : ∀ c t, ¬ (initial numberOfDomainsInPool).Starting c t := by
    intro c t hstart
    obtain ⟨index, hcreation⟩ := hstart
    cases c <;> cases hcreation
  refine ⟨fun c t h => absurd h (hnobody c t), ?_, fun c _ t h => absurd h (hnobody c t)⟩
  intro t ht
  obtain ⟨w, hw, hpc⟩ := Option.map_eq_some_iff.mp ht
  obtain ⟨-, rfl⟩ := initial_workers hw
  cases hpc

end PoolSystem

end HostedPumpkin
